import DocMarkdown.Files.Refusal
import DocMarkdown.Text.LineEnds

/-! Reading a text file: its size may be limited, its bytes must be UTF-8, and its line ends
become line feeds. -/

namespace DocMarkdown.Files

/-- What the system answers about a path, asked for its size and asked to open it. It may do the
one and refuse the other. -/
structure Entry where
  size : Except Refusal Nat
  content : Except Refusal (List UInt8)

namespace Entry

def ofBytes (content : List UInt8) : Entry := ⟨.ok content.length, .ok content⟩

def refused (r : Refusal) : Entry := ⟨.error r, .error r⟩

end Entry

abbrev Lookup := Path → Entry

inductive ReadFault
  | inaccessible (p : Path) (r : Refusal)
  | tooLarge (p : Path) (limit : Int)
  | failed (p : Path) (r : Refusal)
  | undecodable (f : Text.Utf8.Flaw)
  deriving DecidableEq

def ReadFault.message : ReadFault → Text
  | inaccessible p r => "Error accessing ".toList ++ p.shown ++ ": ".toList ++ r.message p
  | tooLarge p limit =>
    p.shown ++ " exceeds the maximum allowed size of ".toList ++ Text.ofInt limit ++
      " bytes.".toList
  | failed p r => r.message p
  | undecodable f => f.message

def checkSize (e : Entry) (p : Path) (limit : Int) : Except ReadFault Unit :=
  match e.size with
  | .ok n => if limit < n then .error (.tooLarge p limit) else .ok ()
  | .error .nullCharacter => .error (.failed p .nullCharacter)
  | .error r => .error (.inaccessible p r)

/-- What is known to happen when a file is opened. Other refusals are passed on as they are. -/
def explained : Refusal → Bool
  | .nameTooLong | .nullCharacter => false
  | _ => true

def openFile (e : Entry) (p : Path) : Except ReadFault (List UInt8) :=
  match e.content with
  | .ok content => .ok content
  | .error r => .error (if explained r then .inaccessible p r else .failed p r)

def readText (e : Entry) (p : Path) (limit : Option Int) : Except ReadFault Text := do
  if let some limit := limit then checkSize e p limit
  let content ← openFile e p
  match Text.Utf8.decode? content with
  | .ok t => return t.unifyLineEnds
  | .error flaw => throw (.undecodable flaw)

end DocMarkdown.Files
