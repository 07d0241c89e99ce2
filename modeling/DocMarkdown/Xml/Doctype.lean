import DocMarkdown.Element
import DocMarkdown.Xml.Fault

/-! What a document type declares: entities, and the attributes of elements. Of several
declarations of one name the first one counts. -/

namespace DocMarkdown.Xml

inductive Entity
  | internal (cells : List Cell) (stop : Nat)
  | external
  | unparsed
  deriving DecidableEq

structure AttributeRule where
  element : Text
  name : Text
  collapsed : Bool
  default : Option Text

/-- `complete` is false when declarations may exist that are not read; then `reading` tells
whether further declarations still count. -/
structure Doctype where
  standalone : Bool := false
  complete : Bool := true
  reading : Bool := true
  entities : List (Text × Entity) := []
  rules : List AttributeRule := []

def predefined? (name : Text) : Option Char :=
  if name = "lt".toList then some '<'
  else if name = "gt".toList then some '>'
  else if name = "amp".toList then some '&'
  else if name = "quot".toList then some '"'
  else if name = "apos".toList then some '\''
  else none

namespace Doctype

/-- An entity that is not declared is a fault only if all declarations are known. -/
def checksEntities (d : Doctype) : Bool := d.complete || d.standalone

def entity? (d : Doctype) (name : Text) : Option Entity := d.entities.lookup name

def declareEntity (name : Text) (e : Entity) (d : Doctype) : Doctype :=
  if d.reading && (predefined? name).isNone && (d.entity? name).isNone then
    { d with entities := (name, e) :: d.entities }
  else d

def declareAttribute (r : AttributeRule) (d : Doctype) : Doctype :=
  if d.reading && !d.rules.any (fun s => s.element == r.element && s.name == r.name) then
    { d with rules := d.rules ++ [r] }
  else d

def withExternal (d : Doctype) : Doctype := { d with complete := false }

def withParameterReference (d : Doctype) : Doctype :=
  { d with complete := false, reading := d.standalone }

def collapses (d : Doctype) (element name : Text) : Bool :=
  match d.rules.find? fun r => r.element == element && r.name == name with
  | some r => r.collapsed
  | none => false

def defaults (d : Doctype) (element : Text) (given : Attributes) : Attributes :=
  d.rules.filterMap fun r =>
    if r.element == element && (given.lookup r.name).isNone then
      r.default.map fun value => (r.name, value)
    else none

end Doctype
end DocMarkdown.Xml
