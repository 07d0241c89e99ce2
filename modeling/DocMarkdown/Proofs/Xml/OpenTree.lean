import DocMarkdown.Proofs.Xml.Delivery
import DocMarkdown.Proofs.Xml.Tree

/-! What has been delivered when a reading breaks off: trees that are complete, and the elements
still open around the place, each with the content that it has so far. A raw section that is open
holds characters only. Where a reading comes to its end, nothing is open any more. -/

namespace DocMarkdown.Xml

inductive OpenTree
  | top (content : List Tree)
  | inside (around : OpenTree) (name : Text) (attributes : Attributes) (content : List Tree)

namespace OpenTree

def events : OpenTree → List Event
  | top content => Tree.eventsOf content
  | inside around name attributes content =>
    around.events ++ .openElement name attributes :: Tree.eventsOf content

def names : OpenTree → List Text
  | top _ => []
  | inside around name _ _ => name :: around.names

def add (t : Tree) : OpenTree → OpenTree
  | top content => top (content ++ [t])
  | inside around name attributes content => inside around name attributes (content ++ [t])

theorem events_add (t : Tree) (o : OpenTree) : (o.add t).events = o.events ++ t.events := by
  cases o with
  | top content => rw [add, events, events, Tree.eventsOf_append, Tree.eventsOf_singleton]
  | inside around name attributes content =>
    rw [add, events, events, Tree.eventsOf_append, Tree.eventsOf_singleton, List.append_assoc,
      List.cons_append]

theorem names_add (t : Tree) (o : OpenTree) : (o.add t).names = o.names := by
  cases o <;> rfl

theorem inside_of_names {o : OpenTree} {name : Text} {names : List Text}
    (h : o.names = name :: names) :
    ∃ around attributes content, o = inside around name attributes content ∧
      around.names = names := by
  cases o with
  | top content => cases h
  | inside around n attributes content =>
    cases h
    exact ⟨around, attributes, content, rfl, rfl⟩

end OpenTree

def Event.rawSoFar : Option (List Text) → List Event
  | none => []
  | some pieces => .openRaw :: pieces.map .characters

theorem Event.Leads.openTree {es : List Event} {p : Site} (h : Event.Leads es p) :
    ∃ (o : OpenTree) (raw : Option (List Text)), o.names = p.1 ∧ raw.isSome = p.2 ∧
      es.reverse = o.events ++ Event.rawSoFar raw := by
  induction h with
  | nil => exact ⟨.top [], none, rfl, rfl, rfl⟩
  | @opened es names name attributes _ ih =>
    obtain ⟨o, raw, hnames, hraw, hes⟩ := ih
    obtain rfl : raw = none := by simpa using hraw
    refine ⟨.inside o name attributes [], none, congrArg (name :: ·) hnames, rfl, ?_⟩
    rw [List.reverse_cons, hes]
    simp [OpenTree.events, Event.rawSoFar, Tree.eventsOf]
  | @closed es names name _ ih =>
    obtain ⟨o, raw, hnames, hraw, hes⟩ := ih
    obtain rfl : raw = none := by simpa using hraw
    obtain ⟨around, attributes, content, rfl, houter⟩ := OpenTree.inside_of_names hnames
    let t : Tree := .element name attributes content
    refine ⟨around.add t, none, (around.names_add t).trans houter, rfl, ?_⟩
    rw [List.reverse_cons, hes, OpenTree.events_add]
    simp [OpenTree.events, Event.rawSoFar, t, Tree.events]
  | @text es p t _ ih =>
    obtain ⟨o, raw, hnames, hraw, hes⟩ := ih
    cases raw with
    | none =>
      refine ⟨o.add (.characters t), none, (o.names_add _).trans hnames, hraw, ?_⟩
      rw [List.reverse_cons, hes, OpenTree.events_add]
      simp [Event.rawSoFar, Tree.events]
    | some pieces =>
      refine ⟨o, some (pieces ++ [t]), hnames, hraw, ?_⟩
      rw [List.reverse_cons, hes]
      simp [Event.rawSoFar]
  | @raw es names _ ih =>
    obtain ⟨o, raw, hnames, hraw, hes⟩ := ih
    obtain rfl : raw = none := by simpa using hraw
    refine ⟨o, some [], hnames, rfl, ?_⟩
    rw [List.reverse_cons, hes]
    simp [Event.rawSoFar]
  | @endRaw es names _ ih =>
    obtain ⟨o, raw, hnames, hraw, hes⟩ := ih
    obtain ⟨pieces, rfl⟩ := Option.isSome_iff_exists.mp hraw
    refine ⟨o.add (.raw pieces), none, (o.names_add _).trans hnames, rfl, ?_⟩
    rw [List.reverse_cons, hes, OpenTree.events_add]
    simp [Event.rawSoFar, Tree.events]

theorem Event.Leads.of_append {es fs : List Event} {p : Site} (h : Event.Leads (es ++ fs) p) :
    ∃ q, Event.Leads fs q := by
  induction es generalizing p with
  | nil => exact ⟨p, h⟩
  | cons e es ih =>
    cases h with
    | opened h | closed h | text h | raw h | endRaw h => exact ih h

theorem Event.Leads.closing {before after : List Event} {name : Text} {p : Site}
    (h : Event.Leads (before ++ .closeElement name :: after).reverse p) :
    ∃ around attributes content,
      before = (OpenTree.inside around name attributes content).events := by
  rw [List.reverse_append, List.reverse_cons, List.append_assoc, List.singleton_append] at h
  obtain ⟨q, hclose⟩ := h.of_append
  cases hclose with
  | closed hbefore =>
    obtain ⟨o, raw, hnames, hraw, hes⟩ := hbefore.openTree
    obtain rfl : raw = none := by simpa using hraw
    obtain ⟨around, attributes, content, rfl, -⟩ := OpenTree.inside_of_names hnames
    refine ⟨around, attributes, content, ?_⟩
    rwa [List.reverse_reverse, Event.rawSoFar, List.append_nil] at hes

theorem Body.read_complete {b : Body} (h : b.read.ending = .complete) :
    Event.Leads b.read.events.reverse ([], false) := by
  unfold Body.read at h ⊢
  simp only at h ⊢
  split
  · exact .nil
  · rename_i doctype root tally hprolog
    have hroot := Delivers.readRoot (.document b.early b.encoding.unit) b.stop b.encoding.converts
      doctype root { tally } .nil
    rw [hprolog] at h
    simp only at h
    split
    · rename_i hread
      rw [hread] at h
      cases h
    · rename_i hread
      rw [hread] at hroot
      split <;> rwa [List.reverse_reverse]

theorem readBytes_complete {isText : Bool} {bytes : List UInt8}
    (h : (readBytes isText bytes).ending = .complete) :
    Event.Leads (readBytes isText bytes).events.reverse ([], false) := by
  unfold readBytes at h ⊢
  simp only at h ⊢
  split
  · exact .nil
  · rename_i hopened
    rw [hopened] at h
    exact Body.read_complete h

end DocMarkdown.Xml

theorem DocMarkdown.Document.trees_of_complete {d : Document} (h : d.read.ending = .complete) :
    ∃ content, d.read.events = Xml.Tree.eventsOf content := by
  have hleads : Xml.Event.Leads d.read.events.reverse ([], false) := by
    cases d with
    | text units =>
      unfold read at h ⊢
      simp only at h ⊢
      split
      · rename_i hencode
        rw [hencode] at h
        exact Xml.readBytes_complete h
      · exact .nil
    | bytes b => exact Xml.readBytes_complete h
  obtain ⟨o, raw, hnames, hraw, hes⟩ := hleads.openTree
  rw [List.reverse_reverse] at hes
  obtain rfl : raw = none := by simpa using hraw
  cases o with
  | top content => exact ⟨content, hes.trans (List.append_nil _)⟩
  | inside => cases hnames
