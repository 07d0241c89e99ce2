import DocMarkdown.Text.Blank

/-! The elements of documentation markup: those with a Markdown layout of their own, and
those that carry the parts of a declaration. -/

namespace DocMarkdown

abbrev Attributes := List (Text × Text)

def Attributes.get? (name : Text) (a : Attributes) : Option Text := a.lookup name

inductive ListKind
  | bullet
  | number
  deriving DecidableEq

inductive Element
  | para
  | emphasis
  | strong
  | codeVoice
  | codeListing
  | codeLineNumbered
  | link
  | rawHtml
  | list (kind : ListKind)
  | item
  deriving DecidableEq

namespace Element

def tag : Element → Text
  | para => "Para".toList
  | emphasis => "emphasis".toList
  | strong => "strong".toList
  | codeVoice => "codeVoice".toList
  | codeListing => "CodeListing".toList
  | codeLineNumbered => "zCodeLineNumbered".toList
  | link => "Link".toList
  | rawHtml => "rawHTML".toList
  | list .bullet => "List-Bullet".toList
  | list .number => "List-Number".toList
  | item => "Item".toList

def all : List Element :=
  [para, emphasis, strong, codeVoice, codeListing, codeLineNumbered, link, rawHtml,
    list .bullet, list .number, item]

def ofTag? (name : Text) : Option Element := all.find? (·.tag == name)

theorem ofTag?_tag (e : Element) : ofTag? e.tag = some e := by
  rcases e with _ | _ | _ | _ | _ | _ | _ | _ | ⟨_ | _⟩ | _ <;> decide

end Element

inductive Part
  | name
  | usr
  | declaration
  | discussion
  | parameter
  | resultDiscussion
  deriving DecidableEq

namespace Part

def tag : Part → Text
  | name => "Name".toList
  | usr => "USR".toList
  | declaration => "Declaration".toList
  | discussion => "Discussion".toList
  | parameter => "Parameter".toList
  | resultDiscussion => "ResultDiscussion".toList

def all : List Part := [name, usr, declaration, discussion, parameter, resultDiscussion]

def ofTag? (name : Text) : Option Part := all.find? (·.tag == name)

theorem ofTag?_tag (p : Part) : ofTag? p.tag = some p := by
  cases p <;> decide

end Part
end DocMarkdown
