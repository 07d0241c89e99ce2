import DocMarkdown.Document

/-! Documents as trees. The events of a tree are those that a reading of it delivers, every
element between its two tags. A reading may cut a run of characters; each part is a leaf of
its own, and a raw section carries the parts of its content. -/

namespace DocMarkdown.Xml

inductive Tree
  | element (name : Text) (attributes : Attributes) (content : List Tree)
  | characters (t : Text)
  | raw (pieces : List Text)

namespace Tree

mutual

def events : Tree → List Event
  | element name attributes content =>
    .openElement name attributes :: eventsOf content ++ [.closeElement name]
  | characters t => [.characters t]
  | raw pieces => .openRaw :: pieces.map .characters ++ [.closeRaw]

def eventsOf : List Tree → List Event
  | [] => []
  | t :: rest => t.events ++ eventsOf rest

end

theorem eventsOf_append (content rest : List Tree) :
    eventsOf (content ++ rest) = eventsOf content ++ eventsOf rest := by
  induction content with
  | nil => rfl
  | cons t content ih => simp only [List.cons_append, eventsOf, ih, List.append_assoc]

theorem eventsOf_singleton (t : Tree) : eventsOf [t] = t.events := by
  simp only [eventsOf, List.append_nil]

theorem eventsOf_cons_element (name : Text) (attributes : Attributes) (content others : List Tree)
    (rest : List Event) :
    eventsOf (element name attributes content :: others) ++ rest =
      .openElement name attributes ::
        (eventsOf content ++ (.closeElement name :: (eventsOf others ++ rest))) := by
  simp only [eventsOf, events, List.cons_append, List.append_assoc, List.nil_append]

@[elab_as_elim]
theorem contentInduction {motive : List Tree → Prop} (nil : motive [])
    (element : ∀ name attributes content rest, motive content → motive rest →
      motive (.element name attributes content :: rest))
    (characters : ∀ t rest, motive rest → motive (.characters t :: rest))
    (raw : ∀ pieces rest, motive rest → motive (.raw pieces :: rest)) :
    ∀ content, motive content
  | [] => nil
  | .element name attributes content :: rest =>
    element name attributes content rest
      (contentInduction nil element characters raw content)
      (contentInduction nil element characters raw rest)
  | .characters t :: rest => characters t rest (contentInduction nil element characters raw rest)
  | .raw pieces :: rest => raw pieces rest (contentInduction nil element characters raw rest)

end Tree
end DocMarkdown.Xml

namespace DocMarkdown

/-- The document is read to its end, and its root element is this tree. -/
def Document.Holds (d : Document) (t : Xml.Tree) : Prop := d.read = ⟨t.events, .complete⟩

end DocMarkdown
