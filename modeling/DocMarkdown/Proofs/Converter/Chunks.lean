import DocMarkdown.Proofs.Converter.Evaluation
import DocMarkdown.Proofs.Layout.Trimming

/-! Runs of characters that come in parts. How a run is cut makes no difference to anything but the
output, and a cut that can be told at all can be told by the end of a heading right after it. -/

namespace DocMarkdown
open Layout Markdown Xml

variable {σ κ : Type} {R : Bool → List Text → List Text → Prop}

/-- What arrives in a document: an event, or a run of characters in one part or several. -/
inductive Arrival
  | event (e : Event)
  | run (first : Text) (more : List Text)

namespace Arrival

def whole : Arrival → Event
  | event e => e
  | run first more => .characters (first :: more).flatten

def inParts : Arrival → List Event
  | event e => [e]
  | run first more => (first :: more).map .characters

end Arrival

namespace Converter

def rawText (c : Converter κ) : Option Text := c.raw.map (·.reverse.flatten)

theorem flatten_raw (c : Converter κ) : (c.raw.getD []).reverse.flatten = c.rawText.getD [] := by
  unfold rawText
  cases c.raw <;> rfl

def outline (c : Converter κ) : Converter κ :=
  { c with
    session := { c.session with output := [] }
    raw := c.rawText.map fun t => [t] }

/-- No document can tell that a run has been cut into these parts. -/
def Hides (c : Converter κ) (first : Text) (more : List Text) : Prop :=
  c.raw.isSome = true ∨ c.session.context.codeListing = true ∨
    (more.getLastD first).loose = Text.loose (first :: more).flatten

def receive (parts : List Text) (c : Converter κ) : Converter κ :=
  parts.foldl (fun c t => c.characters t) c

theorem receive_raw {c : Converter κ} {pieces : List Text} (h : c.raw = some pieces)
    (parts : List Text) : c.receive parts = { c with raw := some (parts.reverse ++ pieces) } := by
  induction parts generalizing c pieces with
  | nil => simp only [receive, List.foldl_nil, List.reverse_nil, List.nil_append, ← h]
  | cons t parts ih =>
    have ht : c.characters t = { c with raw := some (t :: pieces) } := by
      simp only [characters, h]
    change (c.characters t).receive parts = _
    rw [ht, ih rfl, List.reverse_cons, List.append_assoc, List.singleton_append]

theorem receive_text {c : Converter κ} (h : c.raw = none) (parts : List Text) :
    c.receive parts = { c with session :=
      { c.session with
        output := (parts.map c.session.mode.literal).reverse ++ c.session.output } } := by
  induction parts generalizing c with
  | nil => rfl
  | cons t parts ih =>
    have ht : c.characters t =
        { c with session := c.session.write (c.session.mode.literal t) } := by
      simp only [characters, h, Session.literal_eq]
    have hraw : (c.characters t).raw = none := by rw [ht, h]
    change (c.characters t).receive parts = _
    rw [ih hraw, ht, List.map_cons, List.reverse_cons, List.append_assoc, List.singleton_append]
    rfl

inductive Like (R : Bool → List Text → List Text → Prop) (c : Converter κ) : Converter κ → Prop
  | mk {s : Session} {raw : Option (List Text)} (hs : c.session.Like R s)
      (hraw : raw.map (·.reverse.flatten) = c.rawText) : Like R c { c with session := s, raw }

def Admits (R : Bool → List Text → List Text → Prop) (c : Converter κ) (parts : List Text) : Prop :=
  c.raw = none → ∀ o o', R c.session.context.codeListing o o' →
    R c.session.context.codeListing (c.session.mode.literal parts.flatten :: o)
      ((parts.map c.session.mode.literal).reverse ++ o')

theorem headD_pieces (mode : Mode) (first : Text) (more o : List Text) :
    (((first :: more).map mode.literal).reverse ++ o).headD [] =
      mode.literal (more.getLastD first) := by
  simp [List.headD_eq_head?_getD]

theorem Hides.admits {c : Converter κ} {first : Text} {more : List Text}
    (h : c.Hides first more) : c.Admits SameText (first :: more) := by
  intro hraw o o' ho
  refine ⟨?_, fun hlisting => ?_⟩
  · simp only [List.reverse_cons, List.reverse_append, List.reverse_reverse, List.flatten_append,
      List.flatten_singleton, ho.text]
    rw [Mode.flatten_map_literal]
  · rcases h with h | h | h
    · rw [hraw] at h
      cases h
    · rw [hlisting] at h
      cases h
    · rw [headD_pieces, List.headD_cons, Text.loose_literal, Text.loose_literal, h]

namespace Like
variable {c c' : Converter κ}

theorem session (h : c.Like R c') : c.session.Like R c'.session := by
  obtain ⟨hs, -⟩ := h
  exact hs

theorem pending_eq (h : c.Like R c') : c'.pending = c.pending := by
  obtain ⟨-, -⟩ := h
  rfl

theorem rawText_eq (h : c.Like R c') : c'.rawText = c.rawText := by
  obtain ⟨-, hraw⟩ := h
  exact hraw

theorem outline_eq (h : c.Like R c') : c'.outline = c.outline := by
  have hraw := h.rawText_eq
  obtain ⟨⟨_⟩, -⟩ := h
  simp only [outline, hraw]

theorem openLayout (k : Kept R) (h : c.Like R c') (e : Element) (attributes : Attributes) :
    (c.openLayout e attributes).Like R (c'.openLayout e attributes) := by
  obtain ⟨hs, hraw⟩ := h
  obtain ⟨hopened, haction⟩ := hs.openElement k e attributes
  simp only [Converter.openLayout, haction]
  exact .mk hopened hraw

theorem receive (h : c.Like R c') {parts : List Text} (hparts : c.Admits R parts) :
    (c.characters parts.flatten).Like R (c'.receive parts) := by
  obtain ⟨⟨ho⟩, hraw⟩ := h
  cases hc : c.raw with
  | none =>
    rw [rawText, hc, Option.map_none, Option.map_eq_none_iff] at hraw
    subst hraw
    simp only [Converter.characters, hc, Session.literal_eq]
    rw [receive_text rfl]
    exact .mk (.mk (hparts hc _ _ ho)) rfl
  | some pieces =>
    rw [rawText, hc] at hraw
    obtain ⟨pieces', rfl, hpieces⟩ := Option.map_eq_some_iff.mp hraw
    simp only [Converter.characters, hc]
    rw [receive_raw rfl]
    refine .mk (.mk ho) ?_
    simp [hpieces, rawText]

theorem characters (k : Kept R) (h : c.Like R c') (t : Text) :
    (c.characters t).Like R (c'.characters t) := by
  have hreceive : (c.characters [t].flatten).Like R (c'.receive [t]) :=
    h.receive fun _ o o' ho => by
      simpa using k.write ho c.session.context.codeListing (c.session.mode.literal t)
  rw [List.flatten_singleton] at hreceive
  exact hreceive

theorem closeRaw (k : Kept R) (h : c.Like R c') : c.closeRaw.Like R c'.closeRaw := by
  have hcontent : (c'.raw.getD []).reverse.flatten = (c.raw.getD []).reverse.flatten := by
    rw [flatten_raw, flatten_raw, h.rawText_eq]
  simp only [Converter.closeRaw, hcontent]
  obtain ⟨hs, -⟩ := h
  exact .mk (hs.rawBlock k _) rfl

end Like
end Converter

namespace Operation
variable {c c' : Converter κ}

inductive ResultsLike (R : Bool → List Text → List Text → Prop) :
    EStateM.Result Stop (World σ κ) Unit → EStateM.Result Stop (World σ κ) Unit → Prop
  | ok (x : σ) {c c' : Converter κ} (h : c.Like R c') :
    ResultsLike R (.ok () ⟨x, c⟩) (.ok () ⟨x, c'⟩)
  | error (stop : Stop) (x : σ) {c c' : Converter κ} (h : c.Like R c') :
    ResultsLike R (.error stop ⟨x, c⟩) (.error stop ⟨x, c'⟩)

theorem handle_like (k : Kept R) (h : c.Like R c') (e : Event) (x : σ) :
    ResultsLike R (handle none e ⟨x, c⟩) (handle none e ⟨x, c'⟩) := by
  cases e with
  | openElement name attributes =>
    cases he : Element.ofTag? name with
    | some e =>
      rw [handle_openLayout attributes he, handle_openLayout attributes he]
      exact .ok x (h.openLayout k e attributes)
    | none =>
      rw [handle_openIgnored attributes he (.inl rfl), handle_openIgnored attributes he (.inl rfl)]
      obtain ⟨hs, hraw⟩ := h
      exact .ok x (.mk hs hraw)
  | closeElement name =>
    cases hp : c.pending with
    | nil =>
      rw [handle_closeEmpty name hp, handle_closeEmpty name (h.pending_eq.trans hp)]
      exact .error _ x h
    | cons p pending =>
      rw [handle_close name hp, handle_close name (h.pending_eq.trans hp)]
      obtain ⟨hs, hraw⟩ := h
      cases p with
      | nothing | client k => exact .ok x (.mk hs hraw)
      | layout a =>
        cases ha : c.session.permits a with
        | true =>
          rw [close_layout ha, close_layout (hs.permits_eq a ▸ ha)]
          exact .ok x (.mk (hs.close k a) hraw)
        | false =>
          rw [close_layout_refused ha, close_layout_refused (hs.permits_eq a ▸ ha)]
          exact .error _ x (.mk (hs.close k a) hraw)
  | characters t =>
    rw [handle_characters, handle_characters]
    exact .ok x (h.characters k t)
  | openRaw =>
    obtain ⟨hs, -⟩ := h
    exact .ok x (.mk hs rfl)
  | closeRaw => exact .ok x (h.closeRaw k)

theorem feed_receive {client : Option (Client σ κ)} (parts : List Text) (rest : List Event) (x : σ)
    (c : Converter κ) :
    feed client (parts.map .characters ++ rest) ⟨x, c⟩ = feed client rest ⟨x, c.receive parts⟩ := by
  induction parts generalizing c with
  | nil => rfl
  | cons t parts ih => exact (feed_cons (handle_characters t)).trans (ih (c.characters t))

/-- The runs that are reached are cut as `P` has it for the converters that receive them. -/
def EachRun (P : Converter κ → Text → List Text → Prop) : List Arrival → World σ κ → Prop
  | [], _ => True
  | .event e :: l, w => ∀ v, handle none e w = .ok () v → EachRun P l v
  | .run first more :: l, w =>
    P w.converter first more ∧
      EachRun P l { w with converter := w.converter.characters (first :: more).flatten }

section
variable {P Q : Converter κ → Text → List Text → Prop} {l : List Arrival} {w : World σ κ}

theorem EachRun.mono (hPQ : ∀ c first more, P c first more → Q c first more) (h : EachRun P l w) :
    EachRun Q l w := by
  induction l generalizing w with
  | nil => trivial
  | cons a l ih =>
    cases a with
    | event e => exact fun v hv => ih (h v hv)
    | run first more => exact ⟨hPQ _ _ _ h.1, ih h.2⟩

theorem EachRun.of_forall (hP : ∀ c first more, P c first more) : EachRun P l w := by
  induction l generalizing w with
  | nil => trivial
  | cons a l ih =>
    cases a with
    | event e => exact fun _ _ => ih
    | run first more => exact ⟨hP _ _ _, ih⟩

theorem EachRun.resume {before after : List Arrival} (h : EachRun P (before ++ after) w)
    (rest : List Event) : EachRun P (before ++ rest.map .event) w := by
  induction before generalizing w with
  | nil =>
    clear h
    induction rest generalizing w with
    | nil => trivial
    | cons e rest ih => exact fun v _ => ih
  | cons a before ih =>
    cases a with
    | event e => exact fun v hv => ih (h v hv)
    | run first more => exact ⟨h.1, ih h.2⟩

end

theorem feed_arrivals (k : Kept R) (h : c.Like R c') (l : List Arrival) (x : σ)
    (hruns : EachRun (fun c first more => c.Admits R (first :: more)) l ⟨x, c⟩) :
    ResultsLike R (feed none (l.map Arrival.whole) ⟨x, c⟩)
      (feed none (l.flatMap Arrival.inParts) ⟨x, c'⟩) := by
  induction l generalizing c c' x with
  | nil => exact .ok x h
  | cons a l ih =>
    cases a with
    | event e =>
      have he := handle_like k h e x
      generalize hr : handle none e ⟨x, c⟩ = r at he
      generalize hr' : handle none e ⟨x, c'⟩ = r' at he
      rw [List.map_cons, List.flatMap_cons, Arrival.inParts, List.singleton_append]
      -- either both deliveries stop here or neither does
      cases he with
      | ok y hd =>
        rw [feed_cons hr']
        exact (feed_cons hr).symm ▸ ih hd y (hruns _ hr)
      | error stop y hd =>
        rw [feed_cons_error hr']
        exact (feed_cons_error hr).symm ▸ .error stop y hd
    | run first more =>
      rw [List.map_cons, List.flatMap_cons, Arrival.inParts, feed_receive]
      exact ih (h.receive hruns.1) x hruns.2

def ended {β : Type} (view : World σ κ → β) :
    EStateM.Result Stop (World σ κ) Unit → Option Stop × β
  | .ok _ w => (none, view w)
  | .error stop w => (some stop, view w)

end Operation

namespace World

def outline (w : World σ κ) : σ × Converter κ := (w.client, w.converter.outline)

def text (w : World σ κ) : Text := w.converter.session.text

end World

namespace Operation
variable {c c' : Converter κ} {r r' : EStateM.Result Stop (World σ κ) Unit}

theorem ResultsLike.outline_eq (h : ResultsLike R r r') :
    ended World.outline r' = ended World.outline r := by
  cases h with
  | ok x h | error stop x h => simp only [ended, World.outline, h.outline_eq]

theorem ResultsLike.text_eq (h : ResultsLike SameText r r') :
    ended World.text r' = ended World.text r := by
  cases h with
  | ok x h | error stop x h =>
    obtain ⟨⟨ho⟩, -⟩ := h
    simp only [ended, World.text, Session.text, ho.text]

theorem text_rawBlock_closing {s : Session} (h : s.context.codeListing = false) :
    (s.rawBlock "</h1>".toList).text =
      s.text.take (s.text.length - (s.output.headD []).loose) := by
  have hread : Fragment.read "</h1>".toList = .heading ⟨1, true⟩ := by rfl
  rw [Session.rawBlock_fragment h, hread]
  simp only [Heading.markdown, if_true, Session.text_write, List.append_nil]
  rw [Session.trimLine_eq]
  exact flatten_trimmed s.output

def headingEnd : List Event := (Tree.raw ["</h1>".toList]).events

theorem ended_headingEnd (hraw : c.raw = none) (hlisting : c.session.context.codeListing = false)
    (first : Text) (more : List Text) (x : σ) :
    let t := c.session.text ++ c.session.mode.literal (first :: more).flatten
    (more.getLastD first).loose ≤ t.length ∧
    ended World.text (feed none ((first :: more).map .characters ++ headingEnd) ⟨x, c⟩) =
      (none, t.take (t.length - (more.getLastD first).loose)) := by
  intro t
  let s : Session := { c.session with
    output := ((first :: more).map c.session.mode.literal).reverse ++ c.session.output }
  have htext : s.text = t := by
    simp only [s, t, Session.text, List.reverse_append, List.reverse_reverse, List.flatten_append]
    rw [Mode.flatten_map_literal]
  have hloose : (s.output.headD []).loose = (more.getLastD first).loose := by
    rw [Converter.headD_pieces, Text.loose_literal]
  have hbound : (s.output.headD []).loose ≤ s.text.length := loose_le_length s.output
  have hfeed : feed none headingEnd ⟨x, { c with session := s }⟩ =
      .ok () ⟨x, { c with session := s.rawBlock "</h1>".toList }⟩ := by
    rw [headingEnd, ← List.append_nil (Tree.events _)]
    exact feed_raw _ [] hraw (x, s)
  have hend := text_rawBlock_closing (s := s) hlisting
  rw [htext, hloose] at hend hbound
  refine ⟨hbound, ?_⟩
  rw [feed_receive, Converter.receive_text hraw, hfeed]
  exact congrArg (Prod.mk none) hend

theorem hides_of_text_eq (h : c.Like SameText c') {first : Text} {more : List Text} {x : σ}
    (htext : ended World.text (feed none ((first :: more).map .characters ++ headingEnd) ⟨x, c'⟩) =
      ended World.text (feed none (.characters (first :: more).flatten :: headingEnd) ⟨x, c⟩)) :
    c.Hides first more := by
  by_contra hshows
  simp only [Converter.Hides, not_or, Bool.not_eq_true, Option.isSome_eq_false_iff,
    Option.isNone_iff_eq_none] at hshows
  obtain ⟨hraw, hlisting, hloose⟩ := hshows
  have hraw' : c'.raw = none := by simpa [Converter.rawText, hraw] using h.rawText_eq
  have hsame : c'.session.text = c.session.text := by
    obtain ⟨⟨ho⟩, -⟩ := h
    exact ho.text.symm
  have hlisting' := h.session.context_eq ▸ hlisting
  obtain ⟨hpartBound, hparted⟩ := ended_headingEnd hraw' hlisting' first more x
  obtain ⟨hwholeBound, hwhole⟩ := ended_headingEnd hraw hlisting (first :: more).flatten [] x
  rw [List.map_singleton, List.flatten_singleton, List.getLastD_nil] at hwhole
  rw [List.flatten_singleton, List.getLastD_nil] at hwholeBound
  rw [h.session.mode_eq, hsame] at hparted hpartBound
  have hlengths := congrArg (fun seen => seen.2.length) (hparted.symm.trans (htext.trans hwhole))
  simp only [List.length_take] at hlengths
  omega

theorem eachRun_hides {l : List Arrival} (h : c.Like SameText c') (x : σ)
    (hsame : ∀ before, before <+: l → ∀ rest,
      ended World.text (feed none (before.flatMap Arrival.inParts ++ rest) ⟨x, c'⟩) =
        ended World.text (feed none (before.map Arrival.whole ++ rest) ⟨x, c⟩)) :
    EachRun Converter.Hides l ⟨x, c⟩ := by
  induction l generalizing c c' x with
  | nil => trivial
  | cons a l ih =>
    have hnext := fun before (hb : before <+: l) =>
      hsame (a :: before) (List.cons_prefix_cons.mpr ⟨rfl, hb⟩)
    cases a with
    | event e =>
      intro v hv
      have he := handle_like kept_sameText h e x
      rw [hv] at he
      generalize hr' : handle none e ⟨x, c'⟩ = r' at he
      obtain ⟨y, hd⟩ := he
      refine ih hd y fun before hb rest => ?_
      have hrest := hnext before hb rest
      rw [List.map_cons, List.flatMap_cons, Arrival.inParts, List.singleton_append,
        List.cons_append, feed_cons hr'] at hrest
      exact hrest.trans (congrArg _ (feed_cons hv))
    | run first more =>
      -- the end of a heading right after the run would show where it has been cut
      have hhides : c.Hides first more := by
        have hfirst : [.run first more] <+: .run first more :: l :=
          List.cons_prefix_cons.mpr ⟨rfl, l.nil_prefix⟩
        have hrun := hsame [.run first more] hfirst headingEnd
        rw [List.flatMap_singleton] at hrun
        exact hides_of_text_eq h hrun
      refine ⟨hhides, ih (h.receive hhides.admits) x fun before hb rest => ?_⟩
      have hrest := hnext before hb rest
      rw [List.map_cons, List.flatMap_cons, Arrival.inParts, List.append_assoc,
        feed_receive] at hrest
      exact hrest

/-- Characters may come in parts. In whatever way runs are cut, a document comes to the same end and
leaves everything the same but for the text that has been written. That text is the same as well, at
every time and in whatever way the document goes on, if and only if every run that is reached is cut
so that it hides it: it stands in a raw section or in a code listing, or its last part has as many
spaces to drop at the end of a heading as the whole run. -/
theorem feed_inParts (l : List Arrival) (w : World σ κ) :
    ended World.outline (feed none (l.flatMap Arrival.inParts) w) =
      ended World.outline (feed none (l.map Arrival.whole) w) ∧
    (EachRun Converter.Hides l w ↔ ∀ before, before <+: l → ∀ rest,
      ended World.text (feed none (before.flatMap Arrival.inParts ++ rest) w) =
        ended World.text (feed none (before.map Arrival.whole ++ rest) w)) := by
  obtain ⟨x, c⟩ := w
  have hlike : c.Like SameText c := .mk (.mk ⟨rfl, fun _ => rfl⟩) rfl
  refine ⟨?_, fun hhides before hbefore rest => ?_, eachRun_hides hlike x⟩
  · have hany : c.Like (fun _ _ _ => True) c := .mk (.mk trivial) rfl
    have hadmits : EachRun (fun c first more => c.Admits (fun _ _ _ => True) (first :: more)) l
        (⟨x, c⟩ : World σ κ) := .of_forall fun _ _ _ _ _ _ _ => trivial
    exact (feed_arrivals kept_anything hany l x hadmits).outline_eq
  · obtain ⟨after, rfl⟩ := hbefore
    have hadmits := (hhides.resume rest).mono fun _ _ _ h => Converter.Hides.admits h
    have hend := (feed_arrivals kept_sameText hlike _ x hadmits).text_eq
    simpa [List.flatMap_append, List.flatMap_map, Function.comp_def, Arrival.inParts,
      Arrival.whole] using hend

theorem text_ne_indentApart :
    let w : World Unit Empty := ⟨(), (Converter.new {}).start false⟩
    (∀ before, before <+: [.run "a_".toList ["b".toList]] → ∀ rest,
      ended World.text (feed none (before.flatMap Arrival.inParts ++ rest) w) =
        ended World.text (feed none (before.map Arrival.whole ++ rest) w)) ∧
    ¬ ∀ before, before <+: [.run "x\n".toList ["  ".toList]] → ∀ rest,
      ended World.text (feed none (before.flatMap Arrival.inParts ++ rest) w) =
        ended World.text (feed none (before.map Arrival.whole ++ rest) w) := by
  intro w
  refine ⟨(feed_inParts _ w).2.mp ⟨.inr (.inr rfl), trivial⟩, fun hsame => ?_⟩
  have hhides := ((feed_inParts _ w).2.mpr hsame).1
  simp only [Converter.Hides] at hhides
  revert hhides
  decide

end Operation
end DocMarkdown
