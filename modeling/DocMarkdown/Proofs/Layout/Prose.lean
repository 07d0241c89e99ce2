import DocMarkdown.Markdown.Escape
import DocMarkdown.Markdown.Fragment
import DocMarkdown.Proofs.Xml.Tree

/-! Documents as they are written: blocks that hold running text, code, raw HTML and lists of
items. Their Markdown is given by recursion. It depends on nothing but the width of the
indentation and the number of lists around a block, and an item's first block stands on the line
of its marker. -/

namespace DocMarkdown.Prose
open Markdown Xml

inductive Span
  | emphasis
  | strong
  | code
  deriving DecidableEq

/-- A run of characters may be cut; each part is a text of its own. Raw HTML in running text is
no heading tag. -/
inductive Inline
  | text (t : Text)
  | span (kind : Span) (attributes : Attributes) (content : List Inline)
  | link (attributes : Attributes) (content : List Inline)
  | html (attributes : Attributes) (pieces : List Text)
      (plain : Heading.read pieces.flatten = none)

structure Line where
  numbered : Option Attributes
  pieces : List Text

inductive Lead
  | para (attributes : Attributes) (content : List Inline)
  | listing (attributes : Attributes) (lines : List Line)
  | html (attributes : Attributes) (pieces : List Text)

mutual

inductive Block
  | lead (l : Lead)
  | text (t : Text)
  | list (kind : ListKind) (attributes : Attributes) (items : List Item)

inductive Item
  | mk (attributes : Attributes) (first : Lead) (rest : List Block)

end

section Trees

def Span.element : Span → Element
  | emphasis => .emphasis
  | strong => .strong
  | code => .codeVoice

mutual

def Inline.tree : Inline → Tree
  | text t => .characters t
  | span kind attributes content => .element kind.element.tag attributes (trees content)
  | link attributes content => .element Element.link.tag attributes (trees content)
  | html attributes pieces _ => .element Element.rawHtml.tag attributes [.raw pieces]

def Inline.trees : List Inline → List Tree
  | [] => []
  | i :: rest => i.tree :: trees rest

end

def Line.tree (l : Line) : Tree :=
  match l.numbered with
  | some attributes => .element Element.codeLineNumbered.tag attributes [.raw l.pieces]
  | none => .raw l.pieces

def Lead.tree : Lead → Tree
  | para attributes content => .element Element.para.tag attributes (Inline.trees content)
  | listing attributes lines => .element Element.codeListing.tag attributes (lines.map Line.tree)
  | html attributes pieces => .element Element.rawHtml.tag attributes [.raw pieces]

mutual

def Block.tree : Block → Tree
  | .lead l => l.tree
  | .text t => .characters t
  | .list kind attributes items => .element (Element.list kind).tag attributes (Item.trees items)

def Block.trees : List Block → List Tree
  | [] => []
  | b :: rest => b.tree :: Block.trees rest

def Item.tree : Item → Tree
  | .mk attributes first rest =>
    .element Element.item.tag attributes (first.tree :: Block.trees rest)

def Item.trees : List Item → List Tree
  | [] => []
  | i :: rest => i.tree :: Item.trees rest

end

end Trees

section Rendering

def Span.delimiter : Span → Text
  | emphasis => "*".toList
  | strong => "**".toList
  | code => "`".toList

def translate (html : Text) : Text :=
  match Image.read html with
  | some i => i.markdown
  | none => if isRule html then "---".toList else html

mutual

def Inline.render : Inline → Text
  | text t => escape t
  | span kind _ content => kind.delimiter ++ renderAll content ++ kind.delimiter
  | link attributes content =>
    let target := (attributes.get? "href".toList).getD []
    "[".toList ++ renderAll content ++ ("](".toList ++ target ++ [')'])
  | html _ pieces _ => translate pieces.flatten

def Inline.renderAll : List Inline → Text
  | [] => []
  | i :: rest => i.render ++ renderAll rest

end

def indentation (width depth : Nat) : Text := List.replicate (width * depth) ' '

def Line.render (width depth : Nat) (l : Line) : Text :=
  indentation width depth ++ l.pieces.flatten ++ ['\n']

def fence : Text := "```".toList

def renderListing (width depth : Nat) (language : Text) (lines : List Line) : Text :=
  fence ++ language ++ ['\n'] ++ lines.flatMap (Line.render width depth) ++
    indentation width depth ++ fence ++ ['\n']

/-- A block from its first character on. What follows a heading tag stays on its line, and an
end of a heading writes nothing. -/
def Lead.body (width depth : Nat) : Lead → Text
  | para _ content => Inline.renderAll content ++ ['\n']
  | listing attributes lines =>
    renderListing width depth ((attributes.get? "language".toList).getD []) lines
  | html _ pieces =>
    match Heading.read pieces.flatten with
    | some h => h.markdown
    | none => translate pieces.flatten ++ ['\n']

def Lead.endsHeading : Lead → Bool
  | html _ pieces => (Heading.read pieces.flatten).any (·.closing)
  | _ => false

def Lead.render (width depth : Nat) (l : Lead) : Text :=
  ['\n'] ++ (if l.endsHeading then [] else indentation width depth) ++ l.body width depth

def mark : ListKind → Text
  | .bullet => "- ".toList
  | .number => "1. ".toList

mutual

def Block.render (width depth : Nat) : Block → Text
  | .lead l => l.render width depth
  | .text t => escape t
  | .list kind _ items =>
    (if depth = 0 then ['\n'] else []) ++ Item.renderAll width depth kind items

def Block.renderAll (width depth : Nat) : List Block → Text
  | [] => []
  | b :: rest => b.render width depth ++ Block.renderAll width depth rest

def Item.render (width depth : Nat) (kind : ListKind) : Item → Text
  | .mk _ first rest =>
    indentation width depth ++ mark kind ++ first.body width (depth + 1) ++
      Block.renderAll width (depth + 1) rest

def Item.renderAll (width depth : Nat) (kind : ListKind) : List Item → Text
  | [] => []
  | i :: rest => i.render width depth kind ++ Item.renderAll width depth kind rest

end

end Rendering
end DocMarkdown.Prose
