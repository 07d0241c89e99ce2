import DocMarkdown.Text.Blank

/-! Paths of files. Empty parts and single points say nothing and are left out; two points
lead up and are kept, for what they lead out of may be a link. -/

namespace DocMarkdown.Files

/-- The root is written with one slash or two, and is empty for a relative path. -/
structure Path where
  root : Text
  parts : List Text
  deriving DecidableEq

def splitSlashes : Text → List Text
  | [] => [[]]
  | c :: t =>
    match splitSlashes t with
    | part :: parts => if c = '/' then [] :: part :: parts else (c :: part) :: parts
    | [] => [[c]]

namespace Path

def saysNothing (part : Text) : Bool := part.isEmpty || part == ['.']

def read (t : Text) : Path where
  root := match (t.takeWhile (· == '/')).length with
    | 0 => []
    | 2 => ['/', '/']
    | _ => ['/']
  parts := (splitSlashes t).filter fun part => !saysNothing part

def shown (p : Path) : Text :=
  if p.root.isEmpty && p.parts.isEmpty then ['.'] else p.root ++ ['/'].intercalate p.parts

def isAbsolute (p : Path) : Bool := !p.root.isEmpty

def append (p : Path) (part : Text) : Path := { p with parts := p.parts ++ [part] }

example : (read "./m//n/../o.xml".toList).shown = "m/n/../o.xml".toList := by decide
example : (read [] ).shown = ".".toList := by decide

end Path

end DocMarkdown.Files
