import DocMarkdown.Client.Declaration
import DocMarkdown.Proofs.Layout.Rendering

/-! The outer schema of a declaration's documentation, and the record that a document of this
schema says. The record is read off the document as a whole: of parts that are repeated the last
one counts, a part of a parameter never counts for the declaration, and each discussion is
converted as a document of its own. -/

namespace DocMarkdown
open Layout Xml

namespace Xml.Tree

mutual

def plain : Tree → Bool
  | element name _ content => (Part.ofTag? name).isNone && plainAll content
  | _ => true

def plainAll : List Tree → Bool
  | [] => true
  | t :: rest => t.plain && plainAll rest

end

def markdown (width : Nat) (t : Tree) : Text := (t.layout (.new width .markdown)).captured

end Xml.Tree

namespace Schema

/-- Markup with no part of a declaration in it. -/
structure Markup where
  content : List Tree
  plain : Tree.plainAll content = true := by rfl

inductive Label
  | name
  | usr
  | declaration
  deriving DecidableEq

def Label.part : Label → Part
  | name => .name
  | usr => .usr
  | declaration => .declaration

inductive Clause
  | name (attributes : Attributes) (pieces : List Text)
  | discussion (attributes : Attributes) (body : Markup)
  | other (body : Markup)

inductive Member
  | parameter (attributes : Attributes) (clauses : List Clause)
  | other (body : Markup)

inductive Entry
  | label (l : Label) (attributes : Attributes) (pieces : List Text)
  | result (attributes : Attributes) (body : Markup)
  | discussion (attributes : Attributes) (body : Markup)
  | member (m : Member)
  | parameters (attributes : Attributes) (members : List Member)

section Trees

def resultTree (attributes : Attributes) (body : Markup) : Tree :=
  .element Part.resultDiscussion.tag attributes body.content

def discussionTree (attributes : Attributes) (body : Markup) : Tree :=
  .element Part.discussion.tag attributes body.content

def labelTree (l : Label) (attributes : Attributes) (pieces : List Text) : Tree :=
  .element l.part.tag attributes (pieces.map .characters)

def Clause.trees : Clause → List Tree
  | name attributes pieces => [labelTree .name attributes pieces]
  | discussion attributes body => [discussionTree attributes body]
  | other body => body.content

def Member.trees : Member → List Tree
  | parameter attributes clauses =>
    [.element Part.parameter.tag attributes (clauses.flatMap Clause.trees)]
  | other body => body.content

def Entry.trees : Entry → List Tree
  | label l attributes pieces => [labelTree l attributes pieces]
  | result attributes body => [resultTree attributes body]
  | discussion attributes body => [discussionTree attributes body]
  | member m => m.trees
  | parameters attributes members =>
    [.element "Parameters".toList attributes (members.flatMap Member.trees)]

end Trees

section Reading
variable (width : Nat)

def Clause.name? : Clause → Option Text
  | name _ pieces => some (Text.trim pieces.flatten)
  | _ => none

def Clause.discussion? : Clause → Option Text
  | discussion attributes body => some ((discussionTree attributes body).markdown width)
  | _ => none

def parameter (clauses : List Clause) : Parameter where
  name := (clauses.filterMap Clause.name?).getLast?.getD []
  discussion := (clauses.filterMap (Clause.discussion? width)).getLast?

def Member.parameter? : Member → Option Parameter
  | parameter _ clauses => some (Schema.parameter width clauses)
  | other _ => none

def Entry.label? (l : Label) : Entry → Option Text
  | label l' _ pieces => if l' = l then some (Text.trim pieces.flatten) else none
  | _ => none

def Entry.result? : Entry → Option Text
  | result attributes body => some ((resultTree attributes body).markdown width)
  | _ => none

def Entry.members : Entry → List Member
  | member m => [m]
  | parameters _ members => members
  | _ => []

def record (name : Text) (attributes : Attributes) (entries : List Entry) : Declaration where
  file := attributes.get? "file".toList
  line := (attributes.get? "line".toList).bind Text.readInteger
  column := (attributes.get? "column".toList).bind Text.readInteger
  kind := some name
  name := (entries.filterMap (Entry.label? .name)).getLast?
  usr := (entries.filterMap (Entry.label? .usr)).getLast?
  declaration := (entries.filterMap (Entry.label? .declaration)).getLast?
  resultDiscussion := (entries.filterMap (Entry.result? width)).getLast?
  parameters := (entries.flatMap Entry.members).filterMap (Member.parameter? width)

end Reading
end Schema
end DocMarkdown
