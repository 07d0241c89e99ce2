import DocMarkdown.Files.Read

/-! A tree of files and what names lead to in it. A path goes through directories alone, so that
two points after a name ask for the directory of that name. -/

namespace DocMarkdown.Files

structure Mode where
  readable : Bool := true
  searchable : Bool := true

inductive Tree
  | file (mode : Mode) (content : List UInt8)
  | directory (mode : Mode) (size : Nat) (entries : List (Text × Tree))

namespace Tree

def mode : Tree → Mode
  | file mode _ | directory mode _ _ => mode

def entry : Tree → Entry
  | file mode content => ⟨.ok content.length, if mode.readable then .ok content else .error .denied⟩
  | directory mode size _ => ⟨.ok size, .error (if mode.readable then .isDirectory else .denied)⟩

def partLimit : Nat := 255

def pathLimit : Nat := 4095

/-- Goes from a place along parts; `above` are the directories that contain it, innermost first. -/
def walk (above : List Tree) (here : Tree) : List Text → Except Refusal Tree
  | [] => .ok here
  | part :: parts =>
    match here with
    | file .. => .error .notDirectory
    | directory mode _ entries =>
      if !mode.searchable then .error .denied
      else if Path.saysNothing part then walk above here parts
      else if part = ['.', '.'] then
        match above with
        | [] => walk [] here parts
        | up :: above => walk above up parts
      else if partLimit < (Text.Utf8.encode part).length then .error .nameTooLong
      else match entries.lookup part with
        | some t => walk (here :: above) t parts
        | none => .error .notFound

def find (root : Tree) (current : List Text) (name : Text) : Except Refusal Tree :=
  if name.contains '\x00' then .error .nullCharacter
  else if name.isEmpty then .error .notFound
  else if pathLimit < (Text.Utf8.encode name).length then .error .nameTooLong
  else
    let parts := splitSlashes name
    root.walk [] (if name.head? = some '/' then parts else current ++ parts)

def look (root : Tree) (current : List Text) : Lookup := fun p =>
  match root.find current p.shown with
  | .ok t => t.entry
  | .error r => .refused r

def mayRead (root : Tree) (current : List Text) (name : Text) : Except Refusal Bool :=
  (root.find current name).map (·.mode.readable)

end Tree
end DocMarkdown.Files
