import DocMarkdown.Proofs.Converter.Evaluation
import DocMarkdown.Proofs.Converter.Balance
import DocMarkdown.Proofs.Layout.Writing

/-! Stretches of a document in which no capture begins or ends. They work on the current session
only, and on the ends of the elements that open within them. What lies around them, the saved
sessions and the ends already pending, is neither looked at nor changed. -/

namespace DocMarkdown
open Layout Xml Operation

def Xml.Event.rawAfter (raw : Option (List Text)) : Event → Option (List Text)
  | .characters t => raw.map (t :: ·)
  | .openRaw => some []
  | .closeRaw => none
  | _ => raw

def Xml.Event.closes : Event → Bool
  | .closeElement _ => true
  | _ => false

theorem Xml.Event.close_of_closes {e : Event} (h : e.closes = true) :
    ∃ name, e = .closeElement name := by
  cases e with
  | closeElement name => exact ⟨name, rfl⟩
  | _ => cases h

def Xml.Event.depthAfter (depth : Nat) : Event → Nat
  | .openElement _ _ => depth + 1
  | .closeElement _ => depth - 1
  | _ => depth

theorem Xml.Event.Nested.of_cons {names : List Text} {e : Event} {rest : List Event}
    (h : Event.Nested names (e :: rest)) :
    (e.closes = true → names ≠ []) ∧
      ∃ names', names'.length = e.depthAfter names.length ∧ Event.Nested names' rest := by
  cases h with
  | @opened names name attributes rest hrest => exact ⟨nofun, name :: names, rfl, hrest⟩
  | @closed names name rest hrest => exact ⟨nofun, names, rfl, hrest⟩
  | text t hrest => exact ⟨nofun, names, rfl, hrest⟩
  | raw hrest => exact ⟨nofun, names, rfl, hrest⟩
  | endRaw hrest => exact ⟨nofun, names, rfl, hrest⟩

/-- The current session, what the elements that have opened leave for their ends, the innermost
first, and the raw section that is being read. -/
structure Stretch where
  session : Session
  ends : List (Option Action) := []
  raw : Option (List Text) := none

namespace Stretch

def after (s : Stretch) : Event → Stretch
  | .openElement name attributes =>
    match Element.ofTag? name with
    | some e =>
      let opened := s.session.openElement e attributes
      { s with session := opened.1, ends := opened.2 :: s.ends }
    | none => { s with ends := none :: s.ends }
  | .closeElement _ =>
    match s.ends with
    | [] => s
    | action :: ends => { s with session := s.session.closeWith action, ends }
  | .characters t =>
    match s.raw with
    | some pieces => { s with raw := some (t :: pieces) }
    | none => { s with session := s.session.literal t }
  | .openRaw => { s with raw := some [] }
  | .closeRaw =>
    { s with session := s.session.rawBlock (s.raw.getD []).reverse.flatten, raw := none }

def run (s : Stretch) (es : List Event) : Stretch := es.foldl after s

theorem run_cons (s : Stretch) (e : Event) (rest : List Event) :
    s.run (e :: rest) = (s.after e).run rest := rfl

theorem run_append (s : Stretch) (es fs : List Event) :
    s.run (es ++ fs) = (s.run es).run fs := List.foldl_append

section
variable {s : Stretch} {name : Text}

theorem after_openLayout {e : Element} (attributes : Attributes)
    (he : Element.ofTag? name = some e) :
    s.after (.openElement name attributes) =
      { s with
        session := (s.session.openElement e attributes).1
        ends := (s.session.openElement e attributes).2 :: s.ends } := by
  simp only [after, he]

theorem after_openOther (attributes : Attributes) (he : Element.ofTag? name = none) :
    s.after (.openElement name attributes) = { s with ends := none :: s.ends } := by
  simp only [after, he]

theorem after_close {action : Option Action} {ends : List (Option Action)} (name : Text)
    (h : s.ends = action :: ends) :
    s.after (.closeElement name) =
      { s with session := s.session.closeWith action, ends } := by
  simp only [after, h]

end

def Sound (s : Stretch) : Prop := s.ends.count (some .endList) ≤ s.session.context.lists.length

theorem sound_new (session : Session) (raw : Option (List Text)) :
    Sound { session, raw } := Nat.zero_le _

end Stretch

namespace Layout.Session
variable {s : Session}

theorem openElement_lists (s : Session) (e : Element) (attributes : Attributes) :
    (s.openElement e attributes).1.context.lists = e.listKind?.toList ++ s.context.lists := by
  have hs : s.Stands s.context.lists s.indent.level := ⟨rfl, rfl⟩
  exact (hs.openElement e attributes).lists

theorem literal_lists (s : Session) (t : Text) :
    (s.literal t).context.lists = s.context.lists := by
  have hs : s.Stands s.context.lists s.indent.level := ⟨rfl, rfl⟩
  exact (hs.literal t).lists

theorem rawBlock_lists (s : Session) (content : Text) :
    (s.rawBlock content).context.lists = s.context.lists := by
  have hs : s.Stands s.context.lists s.indent.level := ⟨rfl, rfl⟩
  exact (hs.rawBlock content).lists

theorem closeWith_lists {action : Option Action} (h : action ≠ some .endList) :
    (s.closeWith action).context.lists = s.context.lists := by
  have hs : s.Stands s.context.lists s.indent.level := ⟨rfl, rfl⟩
  cases action with
  | none => rfl
  | some a =>
    have ha : a ≠ .endList := fun hl => h (congrArg some hl)
    exact (hs.close ha).lists

theorem length_lists_openElement (s : Session) (e : Element) (attributes : Attributes) :
    (s.openElement e attributes).1.context.lists.length = s.context.lists.length +
      if (s.openElement e attributes).2 = some .endList then 1 else 0 := by
  have haction := s.openElement_action_iff e attributes
  rw [openElement_lists, List.length_append, Nat.add_comm]
  cases hk : e.listKind? <;> simp [haction, hk]

theorem length_lists_closeWith (s : Session) (action : Option Action) :
    (s.closeWith action).context.lists.length = s.context.lists.length -
      if action = some .endList then 1 else 0 := by
  by_cases h : action = some .endList
  · rw [if_pos h, h]
    exact List.length_tail
  · rw [if_neg h, closeWith_lists h, Nat.sub_zero]

theorem permits_of_pos {a : Action} (h : a = .endList → 0 < s.context.lists.length) :
    s.permits a = true := by
  by_cases hl : a = .endList
  · have hlists : s.context.lists ≠ [] := List.ne_nil_of_length_pos (h hl)
    simpa [permits, hl] using hlists
  · exact s.permits_of_ne hl

end Layout.Session

namespace Stretch
variable {s : Stretch}

theorem Sound.openElement (h : s.Sound) (name : Text) (attributes : Attributes) :
    (s.after (.openElement name attributes)).Sound := by
  cases he : Element.ofTag? name with
  | none =>
    rw [after_openOther attributes he]
    simpa [Sound, List.count_cons] using h
  | some e =>
    rw [after_openLayout attributes he]
    have hlength := s.session.length_lists_openElement e attributes
    simp only [Sound, List.count_cons, beq_iff_eq] at h ⊢
    omega

theorem Sound.permits {action : Option Action} {ends : List (Option Action)} (h : s.Sound)
    (hends : s.ends = action :: ends) : ∀ a ∈ action, s.session.permits a = true := by
  intro a ha
  refine Session.permits_of_pos fun hl => ?_
  have hpos : 0 < s.ends.count (some .endList) := by
    rw [hends, ha, hl, List.count_cons_self]
    exact Nat.succ_pos _
  exact Nat.lt_of_lt_of_le hpos h

theorem Sound.closeElement {action : Option Action} {ends : List (Option Action)} (h : s.Sound)
    (hends : s.ends = action :: ends) :
    Sound { s with session := s.session.closeWith action, ends } := by
  have hlength := s.session.length_lists_closeWith action
  simp only [Sound, hends, List.count_cons, beq_iff_eq] at h ⊢
  omega

theorem Sound.after (h : s.Sound) (e : Event) : (s.after e).Sound := by
  cases e with
  | openElement name attributes => exact h.openElement name attributes
  | closeElement name =>
    unfold Stretch.after
    cases hends : s.ends with
    | nil => exact h
    | cons action ends => exact h.closeElement hends
  | characters t =>
    unfold Stretch.after
    cases hraw : s.raw with
    | some pieces => exact h
    | none => simpa only [Sound, Session.literal_lists] using h
  | openRaw => exact h
  | closeRaw => simpa only [Sound, Stretch.after, Session.rawBlock_lists] using h

theorem raw_after (s : Stretch) (e : Event) : (s.after e).raw = e.rawAfter s.raw := by
  cases e with
  | openElement name attributes =>
    cases he : Element.ofTag? name with
    | none => simp only [after_openOther attributes he, Event.rawAfter]
    | some e => simp only [after_openLayout attributes he, Event.rawAfter]
  | closeElement name =>
    cases hends : s.ends with
    | nil => simp only [after, hends, Event.rawAfter]
    | cons action ends => simp only [after_close name hends, Event.rawAfter]
  | characters t =>
    simp only [after, Event.rawAfter]
    cases hraw : s.raw with
    | none => simp only [Option.map_none]
    | some pieces => rfl
  | openRaw => rfl
  | closeRaw => rfl

theorem length_ends_after (s : Stretch) (e : Event) :
    (s.after e).ends.length = e.depthAfter s.ends.length := by
  cases e with
  | openElement name attributes =>
    cases he : Element.ofTag? name with
    | none => rw [after_openOther attributes he, List.length_cons, Event.depthAfter]
    | some e => rw [after_openLayout attributes he, List.length_cons, Event.depthAfter]
  | closeElement name =>
    cases hends : s.ends with
    | nil => simp only [after, hends, List.length_nil, Event.depthAfter]
    | cons action ends =>
      rw [after_close name hends, Event.depthAfter, List.length_cons, Nat.add_sub_cancel]
  | characters t =>
    unfold Stretch.after
    cases s.raw <;> rfl
  | openRaw => rfl
  | closeRaw => rfl

theorem mode_after (s : Stretch) (e : Event) : (s.after e).session.mode = s.session.mode := by
  cases e with
  | openElement name attributes =>
    cases he : Element.ofTag? name with
    | none => rw [after_openOther attributes he]
    | some e =>
      rw [after_openLayout attributes he]
      exact s.session.mode_openElement e attributes
  | closeElement name =>
    cases hends : s.ends with
    | nil => simp only [after, hends]
    | cons action ends =>
      rw [after_close name hends]
      exact s.session.mode_closeWith action
  | characters t =>
    unfold after
    cases s.raw with
    | none => exact s.session.mode_literal t
    | some pieces => rfl
  | openRaw => rfl
  | closeRaw => exact s.session.mode_rawBlock _

theorem mode_run (s : Stretch) (es : List Event) : (s.run es).session.mode = s.session.mode := by
  induction es generalizing s with
  | nil => rfl
  | cons e rest ih => exact (ih (s.after e)).trans (s.mode_after e)

theorem width_after (s : Stretch) (e : Event) :
    (s.after e).session.indent.width = s.session.indent.width := by
  cases e with
  | openElement name attributes =>
    cases he : Element.ofTag? name with
    | none => rw [after_openOther attributes he]
    | some e =>
      rw [after_openLayout attributes he]
      exact s.session.width_openElement e attributes
  | closeElement name =>
    cases hends : s.ends with
    | nil => simp only [after, hends]
    | cons action ends =>
      rw [after_close name hends]
      exact s.session.width_closeWith action
  | characters t =>
    unfold after
    cases s.raw with
    | none => exact s.session.width_literal t
    | some pieces => rfl
  | openRaw => rfl
  | closeRaw => exact s.session.width_rawBlock _

theorem width_run (s : Stretch) (es : List Event) :
    (s.run es).session.indent.width = s.session.indent.width := by
  induction es generalizing s with
  | nil => rfl
  | cons e rest ih => exact (ih (s.after e)).trans (s.width_after e)

theorem raw_run (s : Stretch) (es : List Event) :
    (s.run es).raw = es.foldl (fun raw e => e.rawAfter raw) s.raw := by
  induction es generalizing s with
  | nil => rfl
  | cons e rest ih => rw [run_cons, ih, raw_after, List.foldl_cons]

theorem length_ends_add (s : Stretch) {e : Event} {outer depth : Nat}
    (h : s.ends.length + outer = depth) (he : e.closes = true → s.ends ≠ []) :
    (s.after e).ends.length + outer = e.depthAfter depth := by
  rw [length_ends_after]
  cases e with
  | openElement name attributes =>
    simp only [Event.depthAfter]
    omega
  | closeElement name =>
    have hpos : 0 < s.ends.length := List.length_pos_of_ne_nil (he rfl)
    simp only [Event.depthAfter]
    omega
  | _ => exact h

variable {σ κ : Type}

def on (c : Converter κ) (base : List (Pending κ)) (s : Stretch) : Converter κ :=
  { c with session := s.session, pending := s.ends.map .ofAction ++ base, raw := s.raw }

end Stretch

variable {σ κ : Type}

def Passes (client : Option (Client σ κ)) (listening : Bool) (x : σ) (name : Text) : Prop :=
  Element.ofTag? name = none → client = none ∨ listening = false ∨ ∃ c, client = some c ∧
    ∀ attributes (d : Converter κ), c.opening name attributes ⟨x, d⟩ = .ok none ⟨x, d⟩

namespace Builder

theorem root_of_rooted {b : Builder} (hb : b.rooted = true) (name : Text)
    (attributes : Attributes) : b.root name attributes = b := by
  simp only [root, hb, if_true]

theorem passes_of_plain {b : Builder} (hb : b.rooted = true) {name : Text}
    (hname : Part.ofTag? name = none) (listening : Bool) :
    Passes (some client) listening b name := by
  intro _
  refine .inr (.inr ⟨client, rfl, fun attributes d => ?_⟩)
  rw [client_follows.opening]
  simp only [habit, hname, root_of_rooted hb]
  rfl

end Builder

namespace Operation
variable {client : Option (Client σ κ)} {c : Converter κ} {base : List (Pending κ)} {x : σ}
  {s : Stretch}

theorem handle_openPassed {name : Text} (attributes : Attributes)
    (hp : Passes client c.listening x name) :
    handle client (.openElement name attributes) ⟨x, s.on c base⟩ =
      .ok () ⟨x, (s.after (.openElement name attributes)).on c base⟩ := by
  cases he : Element.ofTag? name with
  | some e =>
    rw [handle_openLayout attributes he]
    simp only [Stretch.after, he]
    rfl
  | none =>
    have hnone : (s.after (.openElement name attributes)).on c base =
        (s.on c base).push .nothing := by
      simp only [Stretch.after, he]
      rfl
    rw [hnone]
    rcases hp he with hc | hl | ⟨d, rfl, ho⟩
    · exact handle_openIgnored attributes he (.inl hc)
    · exact handle_openIgnored attributes he (.inr hl)
    · cases hl : c.listening with
      | false => exact handle_openIgnored attributes he (.inr hl)
      | true => exact handle_openOffered he hl (ho attributes (s.on c base))

theorem handle_closePassed {action : Option Action} {ends : List (Option Action)} (name : Text)
    (hs : s.Sound) (hends : s.ends = action :: ends) :
    handle client (.closeElement name) ⟨x, s.on c base⟩ =
      .ok () ⟨x, (s.after (.closeElement name)).on c base⟩ := by
  have hpending : (s.on c base).pending = .ofAction action :: (ends.map .ofAction ++ base) := by
    simp only [Stretch.on, hends, List.map_cons, List.cons_append]
  have hpermits : ∀ a ∈ action, s.session.permits a = true := hs.permits hends
  rw [handle_close name hpending, close_ofAction hpermits]
  simp only [Stretch.after, hends]
  rfl

theorem handle_textPassed (t : Text) :
    handle client (.characters t) ⟨x, s.on c base⟩ =
      .ok () ⟨x, (s.after (.characters t)).on c base⟩ := by
  rw [handle_characters]
  simp only [Converter.characters, Stretch.on, Stretch.after]
  cases s.raw <;> rfl

theorem handle_passed {e : Event} (hs : s.Sound)
    (hopen : ∀ name attributes, e = .openElement name attributes →
      Passes client c.listening x name)
    (hclose : e.closes = true → s.ends ≠ []) :
    handle client e ⟨x, s.on c base⟩ = .ok () ⟨x, (s.after e).on c base⟩ := by
  cases e with
  | openElement name attributes => exact handle_openPassed attributes (hopen name attributes rfl)
  | closeElement name =>
    obtain ⟨action, ends, hends⟩ := List.exists_cons_of_ne_nil (hclose rfl)
    exact handle_closePassed name hs hends
  | characters t => exact handle_textPassed t
  | openRaw => exact handle_openRaw
  | closeRaw => exact handle_closeRaw

theorem feed_stretch (base : List (Pending κ)) {names : List Text} {es : List Event}
    (hes : Event.Nested names es) (hnames : s.ends.length = names.length) (hs : s.Sound)
    (hp : ∀ name attributes, Event.openElement name attributes ∈ es →
      Passes client c.listening x name) :
    feed client es ⟨x, s.on c base⟩ = .ok () ⟨x, (s.run es).on c base⟩ := by
  induction es generalizing s names with
  | nil => rfl
  | cons e rest ih =>
    obtain ⟨hcloses, names', hlength, hrest⟩ := hes.of_cons
    have hne : e.closes = true → s.ends ≠ [] := fun he =>
      List.ne_nil_of_length_pos (hnames ▸ List.length_pos_of_ne_nil (hcloses he))
    have hopen : ∀ name attributes, e = .openElement name attributes →
        Passes client c.listening x name :=
      fun name attributes he => hp name attributes (he ▸ List.mem_cons_self)
    rw [feed_cons (handle_passed hs hopen hne)]
    refine ih hrest ?_ (hs.after e) fun n a h => hp n a (List.mem_cons_of_mem e h)
    rw [s.length_ends_after, hnames, hlength]

end Operation
end DocMarkdown
