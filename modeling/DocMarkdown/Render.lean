import DocMarkdown.Client.Declaration
import DocMarkdown.Text.Quoted

/-! What is printed for a document: its Markdown, the record of its declaration as JSON, or
the signature alone. -/

namespace DocMarkdown

inductive Format
  | markdown
  | declaration
  | signature
  deriving DecidableEq

namespace Format

def name : Format → String
  | markdown => "markdown"
  | declaration => "declaration"
  | signature => "signature"

def all : List Format := [markdown, declaration, signature]

def ofName? (s : String) : Option Format := all.find? (·.name == s)

end Format

namespace Declaration

def textField : Option Text → Text
  | some t => t.quoted
  | none => "null".toList

def numberField : Option Int → Text
  | some n => Text.ofInt n
  | none => "null".toList

def object (margin : Nat) (fields : List (String × Text)) : Text :=
  let line := fun (name, value) =>
    List.replicate (margin + 2) ' ' ++ Text.quoted (String.toList name) ++ ": ".toList ++ value
  "\x7b\n".toList ++ [',', '\n'].intercalate (fields.map line) ++
    '\n' :: List.replicate margin ' ' ++ ['\x7d']

def parameterJson (p : Parameter) : Text :=
  object 4 [("name", p.name.quoted), ("discussion", textField p.discussion)]

def parametersJson (ps : List Parameter) : Text :=
  if ps.isEmpty then "[]".toList
  else
    "[\n    ".toList ++ ",\n    ".toList.intercalate (ps.map parameterJson) ++ "\n  ]".toList

def json (d : Declaration) : Text :=
  object 0 [
    ("file", textField d.file),
    ("line", numberField d.line),
    ("column", numberField d.column),
    ("kind", textField d.kind),
    ("name", textField d.name),
    ("usr", textField d.usr),
    ("declaration", textField d.declaration),
    ("result_discussion", textField d.resultDiscussion),
    ("parameters", parametersJson d.parameters)]

end Declaration

def render (config : Config) (f : Format) (d : Document) : Except Stop Text × List Malformed :=
  match f with
  | .markdown => Converter.markdown config d
  | .declaration =>
    let (result, reports) := Declaration.build config d
    (result.map Declaration.json, reports)
  | .signature =>
    let (result, reports) := Declaration.extract config d
    (result.map (·.getD []), reports)

end DocMarkdown
