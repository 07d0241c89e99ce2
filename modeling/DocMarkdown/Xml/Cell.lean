import DocMarkdown.Text.Utf8
import DocMarkdown.Xml.NameChar

/-! A cell is one character of a text that is being read, with its part in the grammar and
the number of code units before it. That number is how places in a text are named, so that a
place does not depend on what follows it. -/

namespace DocMarkdown.Xml

inductive CellKind
  | letter
  | inner
  | other
  | blank
  | carriageReturn
  | lineFeed
  | bad
  | cut
  deriving DecidableEq

/-- `letter` begins a name and `inner` goes on one; `bad` is no character of a document and
`cut` a character that the text ends within. A cell is `wide` when its first code unit does
not tell what it is. -/
structure Cell where
  char : Char
  kind : CellKind
  wide : Bool
  offset : Nat
  deriving DecidableEq

def asciiKind (n : Nat) : CellKind :=
  if n == 9 || n == 32 then .blank
  else if n == 10 then .lineFeed
  else if n == 13 then .carriageReturn
  else if n < 32 then .bad
  else if (65 ≤ n && n ≤ 90) || (97 ≤ n && n ≤ 122) || n == 95 || n == 58 then .letter
  else if (48 ≤ n && n ≤ 57) || n == 45 || n == 46 then .inner
  else .other

def isNoncharacter (n : Nat) : Bool := n == 0xfffe || n == 0xffff

def wideKind (n : Nat) : CellKind :=
  if isNoncharacter n then .bad
  else if isWideLetter n then .letter
  else if isWideInner n then .inner
  else .other

def latinKind (n : Nat) : CellKind :=
  if n < 0x80 then asciiKind n
  else if n == 0xaa || n == 0xb5 || n == 0xba then .letter
  else wideKind n

namespace Cell

def isBlank (c : Cell) : Bool :=
  match c.kind with
  | .blank | .carriageReturn | .lineFeed => true
  | _ => false

def isName (c : Cell) : Bool := c.kind == .letter || c.kind == .inner

def isDigit (c : Cell) : Bool := c.char.isDigit

def isHexDigit (c : Cell) : Bool :=
  c.char.isDigit || ('a' ≤ c.char && c.char ≤ 'f') || ('A' ≤ c.char && c.char ≤ 'F')

def bad (wide : Bool) (offset : Nat) : Cell := ⟨'\uFFFD', .bad, wide, offset⟩

def cut (offset : Nat) : Cell := ⟨'\uFFFD', .cut, true, offset⟩

end Cell

def numberedChar (n : Nat) : Option Char :=
  if h : n.isValidChar then
    if isNoncharacter n || (n < 0x80 && asciiKind n == .bad) then none
    else some (Char.ofNatAux n h)
  else none

/-- The cells of a declared entity's text. A carriage return in it is an ordinary blank. -/
def entityCells (t : Text) : List Cell := go 0 t
where
  go (offset : Nat) : Text → List Cell
    | [] => []
    | c :: rest =>
      let n := c.toNat
      let kind :=
        if n == 13 then .blank else if n < 0x80 then asciiKind n else wideKind n
      ⟨c, kind, 0x80 ≤ n, offset⟩ :: go (offset + Text.Utf8.width c) rest

def chars (cells : List Cell) : Text := cells.map Cell.char

def textWidth (t : Text) : Nat := t.foldl (fun n c => n + Text.Utf8.width c) 0

def offsetOf (stop : Nat) : List Cell → Nat
  | [] => stop
  | c :: _ => c.offset

structure Place where
  line : Nat
  column : Nat
  deriving DecidableEq

/-- Lines count from one and columns from zero. A line feed, a carriage return, and the two
together each end a line. -/
def Place.find (offset : Nat) (cells : List Cell) : Place := go 1 0 false cells
where
  go (line column : Nat) (afterReturn : Bool) : List Cell → Place
    | [] => ⟨line, column⟩
    | c :: rest =>
      if offset ≤ c.offset then ⟨line, column⟩
      else match c.kind with
        | .carriageReturn => go (line + 1) 0 true rest
        | .lineFeed => if afterReturn then go line 0 false rest else go (line + 1) 0 false rest
        | _ => go line (column + 1) false rest

end DocMarkdown.Xml
