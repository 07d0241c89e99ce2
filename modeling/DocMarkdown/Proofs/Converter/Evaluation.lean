import DocMarkdown.Proofs.Client.Habit
import DocMarkdown.Proofs.Layout.Balance
import DocMarkdown.Proofs.Xml.Tree

/-! Evaluating a document tree by recursion. An element opens, its content is evaluated from
left to right, and it closes by the action decided at its opening. What a client captures is
evaluated in a new session, and the captured text goes to the client and to the session around.
The converter, which only sees a flat sequence of events, comes to the same result. -/

namespace DocMarkdown
open Layout Xml

variable {σ κ : Type}

def Pending.ofAction : Option Action → Pending κ
  | some a => .layout a
  | none => .nothing

def Converter.showing (around : Converter κ) (v : σ × Session) : World σ κ :=
  ⟨v.1, { around with session := v.2 }⟩

namespace Xml.Tree

mutual

/-- Evaluates one tree. The converter `around` is only what the client can see around the
element; the evaluation itself takes no more of it than the width of the indentation. -/
def eval (h : Option (Habit σ κ)) (around : Converter κ) : Tree → σ × Session → σ × Session
  | characters t, (x, s) => (x, s.literal t)
  | raw pieces, (x, s) => (x, s.rawBlock pieces.flatten)
  | element name attributes content, (x, s) =>
    match Element.ofTag? name, h with
    | some e, _ =>
      let opened := s.openElement e attributes
      let v := evalAll h (around.push (.ofAction opened.2)) content (x, opened.1)
      (v.1, v.2.closeWith opened.2)
    | none, none => evalAll h (around.push .nothing) content (x, s)
    | none, some habit =>
      let asked := habit.opening name attributes (around.showing (x, s))
      match asked.1, asked.1.bind habit.mode with
      | none, _ => evalAll h (around.push .nothing) content (asked.2, s)
      | some k, none =>
        let v := evalAll h (around.push (.client k)) content (asked.2, s)
        (habit.closing k none (around.showing v), v.2)
      | some k, some mode =>
        let around := { around with saved := s :: around.saved }
        let v := evalAll h (around.push (.client k)) content (asked.2, around.fresh mode)
        (habit.closing k (some v.2.captured) (around.showing v), s.write v.2.captured)

def evalAll (h : Option (Habit σ κ)) (around : Converter κ) : List Tree → σ × Session → σ × Session
  | [], v => v
  | t :: rest, v => evalAll h around rest (eval h around t v)

end

variable {h : Option (Habit σ κ)}

section Element
variable {name : Text} {attributes : Attributes} {content : List Tree} {around : Converter κ}
  {x : σ} {s : Session}

theorem eval_layout {e : Element} (he : Element.ofTag? name = some e) :
    eval h around (element name attributes content) (x, s) =
      let opened := s.openElement e attributes
      let v := evalAll h (around.push (.ofAction opened.2)) content (x, opened.1)
      (v.1, v.2.closeWith opened.2) := by
  simp only [eval, he]

theorem eval_ignored (he : Element.ofTag? name = none) :
    eval none around (element name attributes content) (x, s) =
      evalAll none (around.push .nothing) content (x, s) := by
  simp only [eval, he]

theorem eval_offered {habit : Habit σ κ} (he : Element.ofTag? name = none) :
    eval (some habit) around (element name attributes content) (x, s) =
      let asked := habit.opening name attributes (around.showing (x, s))
      match asked.1, asked.1.bind habit.mode with
      | none, _ => evalAll (some habit) (around.push .nothing) content (asked.2, s)
      | some k, none =>
        let v := evalAll (some habit) (around.push (.client k)) content (asked.2, s)
        (habit.closing k none (around.showing v), v.2)
      | some k, some mode =>
        let around := { around with saved := s :: around.saved }
        let v := evalAll (some habit) (around.push (.client k)) content (asked.2, around.fresh mode)
        (habit.closing k (some v.2.captured) (around.showing v), s.write v.2.captured) := by
  simp only [eval, he]

end Element

theorem evalAll_stands (around : Converter κ) (content : List Tree)
    {v : σ × Session} {kinds : List ListKind} {level : Int} (hs : v.2.Stands kinds level) :
    (evalAll h around content v).2.Stands kinds level := by
  induction content using contentInduction generalizing around v kinds level with
  | nil => exact hs
  | characters t rest ih => exact ih around (hs.literal t)
  | raw pieces rest ih => exact ih around (hs.rawBlock _)
  | element name attributes content rest ihc ih =>
    refine ih around ?_
    simp only [eval]
    split
    · exact (Session.Stands.closeWith (ihc _ (hs.openElement _ attributes))
        (v.2.openElement_action_iff _ attributes)).2
    · exact ihc _ hs
    · split
      · exact ihc _ hs
      · exact ihc _ hs
      · exact hs.write _

end Xml.Tree

namespace Operation
open Tree

variable {client : Option (Client σ κ)} {h : Option (Habit σ κ)} {around : Converter κ}

theorem close_ofAction {action : Option Action} {w : World σ κ}
    (h : ∀ a ∈ action, w.converter.session.permits a = true) :
    close client (.ofAction action) w = .ok ()
      { w with converter :=
        { w.converter with session := w.converter.session.closeWith action } } := by
  cases action with
  | none => rfl
  | some a => exact close_layout (h a rfl)

theorem feed_pieces (pieces : List Text) (rest : List Event) {w : World σ κ} {before : List Text}
    (hw : w.converter.raw = some before) :
    feed client (pieces.map .characters ++ rest) w = feed client rest
      { w with converter := { w.converter with raw := some (pieces.reverse ++ before) } } := by
  induction pieces generalizing w before with
  | nil =>
    simp only [List.map_nil, List.nil_append, List.reverse_nil, ← hw]
  | cons t pieces ih =>
    have ht : w.converter.characters t = { w.converter with raw := some (t :: before) } := by
      simp only [Converter.characters, hw]
    rw [List.map_cons, List.cons_append, feed_cons (handle_characters t), ht, ih rfl]
    simp only [List.reverse_cons, List.append_assoc, List.singleton_append]

theorem feed_raw (pieces : List Text) (rest : List Event) (hraw : around.raw = none)
    (v : σ × Session) :
    feed client ((Tree.raw pieces).events ++ rest) (around.showing v) =
      feed client rest (around.showing (v.1, v.2.rawBlock pieces.flatten)) := by
  simp only [events, List.cons_append, List.append_assoc]
  rw [feed_cons handle_openRaw, feed_pieces pieces _ rfl,
    feed_cons handle_closeRaw, List.nil_append]
  refine congrArg (feed client rest) ?_
  simp only [Converter.showing, Converter.openRaw, Converter.closeRaw, Option.getD_some,
    List.append_nil, List.reverse_reverse, hraw]

theorem feed_element {within : Converter κ} {p : Pending κ} {v u u' v' : σ × Session}
    (name : Text) (attributes : Attributes) (content others : List Tree) (rest : List Event)
    (hopen : handle client (.openElement name attributes) (around.showing v) =
      .ok () ((within.push p).showing u))
    (hin : ∀ rest, feed client (eventsOf content ++ rest) ((within.push p).showing u) =
      feed client rest ((within.push p).showing u'))
    (hclose : close client p (within.showing u') = .ok () (around.showing v')) :
    feed client (eventsOf (element name attributes content :: others) ++ rest) (around.showing v) =
      feed client (eventsOf others ++ rest) (around.showing v') := by
  have hend : handle client (.closeElement name) ((within.push p).showing u') =
      .ok () (around.showing v') := (handle_close name rfl).trans hclose
  rw [eventsOf_cons_element, feed_cons hopen, hin, feed_cons hend]

theorem feed_eventsOf (around : Converter κ) (ha : Attends client around.listening h)
    (hcap : h = none ∨ around.capturing = true) (hraw : around.raw = none)
    (content : List Tree) (rest : List Event) (v : σ × Session) :
    feed client (eventsOf content ++ rest) (around.showing v) =
      feed client rest (around.showing (evalAll h around content v)) := by
  induction content using contentInduction generalizing around v rest with
  | nil => rfl
  | characters t others ih =>
    have ht : (around.showing v).converter.characters t =
        (around.showing (v.1, v.2.literal t)).converter := by
      simp only [Converter.showing, Converter.characters, hraw]
    simp only [eventsOf, events, List.cons_append, List.nil_append]
    rw [feed_cons (handle_characters t), ht]
    exact ih around ha hcap hraw rest (v.1, v.2.literal t)
  | raw pieces others ih =>
    simp only [eventsOf, List.append_assoc]
    rw [feed_raw pieces _ hraw]
    exact ih around ha hcap hraw rest _
  | element name attributes content others ihc ih =>
    obtain ⟨x, s⟩ := v
    -- each way an element may be treated is a bracket of its own
    refine Eq.trans ?_
      (ih around ha hcap hraw rest (eval h around (element name attributes content) (x, s)))
    cases he : Element.ofTag? name with
    | some e =>
      have hopen : handle client (.openElement name attributes) (around.showing (x, s)) =
          .ok () ((around.push (.ofAction (s.openElement e attributes).2)).showing
            (x, (s.openElement e attributes).1)) := handle_openLayout attributes he
      have hs : s.Stands s.context.lists s.indent.level := ⟨rfl, rfl⟩
      have hin := evalAll_stands (h := h) (around.push (.ofAction (s.openElement e attributes).2))
        content (v := (x, (s.openElement e attributes).1)) (hs.openElement e attributes)
      have hclose := (hin.closeWith (s.openElement_action_iff e attributes)).1
      rw [eval_layout he]
      exact feed_element name attributes content others rest hopen
        (fun rest => ihc (around.push _) ha hcap hraw rest _) (close_ofAction hclose)
    | none =>
      cases h with
      | none =>
        have hopen : handle client (.openElement name attributes) (around.showing (x, s)) =
            .ok () ((around.push .nothing).showing (x, s)) :=
          handle_openIgnored attributes he ha.ignores
        rw [eval_ignored he]
        exact feed_element name attributes content others rest hopen
          (fun rest => ihc (around.push .nothing) ha hcap hraw rest _) rfl
      | some habit =>
        obtain ⟨c, rfl, hl, hf⟩ := ha.of_some
        have hasked := handle_openOffered he hl (hf.opening name attributes (around.showing (x, s)))
        rw [eval_offered he]
        generalize habit.opening name attributes (around.showing (x, s)) = asked at hasked ⊢
        obtain ⟨_ | k, y⟩ := asked
        · have hopen : handle (some c) (.openElement name attributes) (around.showing (x, s)) =
              .ok () ((around.push .nothing).showing (y, s)) := hasked
          exact feed_element name attributes content others rest hopen
            (fun rest => ihc (around.push .nothing) ha hcap hraw rest (y, s)) rfl
        · have hclose := hf.closing k
          simp only [Option.bind_some] at hasked ⊢
          cases hm : habit.mode k with
          | none =>
            simp only [hm] at hasked hclose ⊢
            have hopen : handle (some c) (.openElement name attributes) (around.showing (x, s)) =
                .ok () ((around.push (.client k)).showing (y, s)) := hasked
            exact feed_element name attributes content others rest hopen
              (fun rest => ihc (around.push (.client k)) ha hcap hraw rest (y, s)) (hclose _)
          | some mode =>
            simp only [hm] at hasked hclose ⊢
            have hcap : around.capturing = true := hcap.resolve_left (Option.some_ne_none habit)
            have hopen : handle (some c) (.openElement name attributes) (around.showing (x, s)) =
                .ok () ((({ around with saved := s :: around.saved } : Converter κ).push
                  (.client k)).showing (y, around.fresh mode)) := by
              rw [hasked]
              simp only [Converter.showing, Converter.enter, Converter.beginCapture, hcap, left]
              rfl
            exact feed_element name attributes content others rest hopen
              (fun rest =>
                ihc (Converter.push (.client k) { around with saved := s :: around.saved }) ha
                  (.inr hcap) hraw rest (y, around.fresh mode)) (hclose _)

/-- The converter refines the evaluation. Fed with the events of a tree while a capture is
active, it ends with the same pending ends, the same saved sessions and everything else
unchanged, but for the state of the client and the current session, which are those that the
evaluation gives. -/
theorem feed_tree_eq_eval {w : World σ κ} (ha : Attends client w.converter.listening h)
    (hcap : w.converter.capturing = true) (hraw : w.converter.raw = none) (t : Tree) :
    feed client t.events w = .ok ()
      { client := (t.eval h w.converter (w.client, w.converter.session)).1
        converter := { w.converter with
          session := (t.eval h w.converter (w.client, w.converter.session)).2 } } := by
  have hf := feed_eventsOf w.converter ha (.inr hcap) hraw [t] [] (w.client, w.converter.session)
  rw [List.append_nil, eventsOf_singleton] at hf
  exact hf

section
open Layout

private def listedParameter : Tree :=
  .element "Function".toList [("line".toList, "3".toList)]
    [.element "Name".toList [] [.characters "f_".toList],
      .element "Parameter".toList []
        [.element "Discussion".toList []
          [.element (Element.list .bullet).tag []
            [.element Element.item.tag [] [.characters "x".toList]]]]]

private def listeningBuilder : World Builder Part :=
  ⟨{}, (((Converter.new {}).beginCapture .markdown).start true).push .nothing⟩

theorem feed_listedParameter :
    listeningBuilder.converter.capturing = true ∧ listeningBuilder.converter.raw = none ∧
    Attends (some Builder.client) listeningBuilder.converter.listening (some Builder.habit) ∧
    feed (some Builder.client) listedParameter.events listeningBuilder = .ok ()
      { client :=
          { rooted := true
            record :=
              { kind := some "Function".toList, line := some 3, name := some "f_".toList
                parameters := [⟨[], some "- x".toList⟩] } }
        converter :=
          { listeningBuilder.converter with
            session :=
              { listeningBuilder.converter.session with
                output := ["- x".toList, "f_".toList] } } } :=
  ⟨rfl, rfl, .offered Builder.client_follows,
    (feed_tree_eq_eval (.offered Builder.client_follows) rfl rfl listedParameter).trans rfl⟩

end

end Operation
end DocMarkdown
