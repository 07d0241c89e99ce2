import DocMarkdown.Proofs.Converter.Evaluation
import Mathlib.Data.List.Forall2

/-! What the converter keeps while it is fed, at every point of a document. There is one pending
end for every open element; the sessions follow the elements that a client captures, and each
session has just those lists open that were opened in it.

A capture begun while none is active gives up the session of the elements around it. Those
elements are kept apart here as `lost`: their lists are open in no session any more. -/

namespace DocMarkdown
open Layout Xml Operation

variable {σ κ : Type}

abbrev Opened := Text × Bool

def listKind? (name : Text) : Option ListKind := (Element.ofTag? name).bind Element.listKind?

/-- The kinds of the open lists, for every session a group, the current one first. A captured
element stands in the session around it, and its content in one of its own. -/
def groups : List Opened → List (List ListKind)
  | [] => [[]]
  | (_, true) :: opened => [] :: groups opened
  | (name, false) :: opened => (groups opened).modifyHead ((listKind? name).toList ++ ·)

theorem length_groups (opened : List Opened) :
    (groups opened).length = opened.countP (·.2) + 1 := by
  induction opened with
  | nil => rfl
  | cons o opened ih =>
    obtain ⟨name, _ | _⟩ := o
    · simp [groups, ih]
    · simp [groups, ih]

theorem groups_eq_cons (opened : List Opened) : ∃ own outer, groups opened = own :: outer :=
  List.exists_cons_of_length_pos (length_groups opened ▸ Nat.succ_pos _)

theorem groups_uncaptured {opened : List Opened} {own : List ListKind}
    {outer : List (List ListKind)} (name : Text) (h : groups opened = own :: outer) :
    groups ((name, false) :: opened) = ((listKind? name).toList ++ own) :: outer := by
  rw [groups, h, List.modifyHead_cons]

theorem groups_of_uncaptured {opened : List Opened} (h : ∀ o ∈ opened, o.2 = false) :
    groups opened = [(opened.map (·.1)).filterMap listKind?] := by
  induction opened with
  | nil => rfl
  | cons o opened ih =>
    obtain ⟨name, captured⟩ := o
    obtain ⟨rfl, hopened⟩ := List.forall_mem_cons.mp h
    rw [groups_uncaptured name (ih hopened), List.map_cons, List.filterMap_cons]
    cases listKind? name <;> rfl

theorem any_captured {opened : List Opened} {own : List ListKind} {outer : List (List ListKind)}
    (h : groups opened = own :: outer) : opened.any (·.2) = !outer.isEmpty := by
  induction opened generalizing own with
  | nil =>
    cases h
    rfl
  | cons o opened ih =>
    obtain ⟨own', outer', hg⟩ := groups_eq_cons opened
    obtain ⟨name, _ | _⟩ := o
    · rw [groups, hg, List.modifyHead_cons] at h
      cases h
      simpa using ih hg
    · rw [groups, hg] at h
      cases h
      simp

def Habit.captureAt (habit : Habit σ κ) (name : Text) (attributes : Attributes) (w : World σ κ) :
    Option Mode := (habit.opening name attributes w).1.bind habit.mode

def capturesAt (h : Option (Habit σ κ)) (name : Text) (attributes : Attributes) (w : World σ κ) :
    Bool :=
  match Element.ofTag? name, h with
  | none, some habit => (habit.captureAt name attributes w).isSome
  | _, _ => false

def openedState (h : Option (Habit σ κ)) (name : Text) (attributes : Attributes) (w : World σ κ) :
    σ :=
  match Element.ofTag? name, h with
  | none, some habit => (habit.opening name attributes w).2
  | _, _ => w.client

inductive Leaves (h : Option (Habit σ κ)) : Opened → Pending κ → Prop
  | layout {name : Text} {e : Element} {a : Option Action} (he : Element.ofTag? name = some e)
      (ha : a = some .endList ↔ e.listKind?.isSome = true) : Leaves h (name, false) (.ofAction a)
  | unheard {name : Text} (he : Element.ofTag? name = none) (hh : h = none) :
      Leaves h (name, false) .nothing
  | offered {name : Text} {habit : Habit σ κ} (he : Element.ofTag? name = none)
      (hh : h = some habit) (attributes : Attributes) (w : World σ κ) :
      Leaves h (name, (habit.captureAt name attributes w).isSome)
        (left (habit.opening name attributes w).1)

theorem Leaves.listKind?_eq_none {h : Option (Habit σ κ)} {o : Opened} {p : Pending κ}
    (hp : Leaves h o p) (ho : o.2 = true) : listKind? o.1 = none := by
  cases hp with
  | layout => cases ho
  | unheard => cases ho
  | offered he => rw [listKind?, he, Option.bind_none]

theorem Leaves.not_captured {o : Opened} {p : Pending κ}
    (h : Leaves (none : Option (Habit σ κ)) o p) : o.2 = false := by
  cases h with
  | layout => rfl
  | unheard => rfl
  | offered he hh => cases hh

inductive Notices (h : Option (Habit σ κ)) (name : Text) (x : σ) : σ → Prop
  | unheard (hh : Element.ofTag? name = none → h = none) : Notices h name x x
  | passed {habit : Habit σ κ} (he : Element.ofTag? name = none) (hh : h = some habit)
      {attributes : Attributes} {v : World σ κ}
      (hk : (habit.opening name attributes v).1 = none) : Notices h name x x
  | told {habit : Habit σ κ} {k : κ} (he : Element.ofTag? name = none) (hh : h = some habit)
      {attributes : Attributes} {v : World σ κ} (hk : (habit.opening name attributes v).1 = some k)
      {t : Option Text} (ht : t.isSome = (habit.mode k).isSome) {u : World σ κ}
      (hu : u.client = x) : Notices h name x (habit.closing k t u)

theorem close_uncaptured {client : Option (Client σ κ)} {h : Option (Habit σ κ)} {name : Text}
    {p : Pending κ} {w : World σ κ} {kinds : List ListKind}
    (ha : Attends client w.converter.listening h) (hp : Leaves h (name, false) p)
    (hs : w.converter.session.Balanced ((listKind? name).toList ++ kinds)) :
    ∃ x s, close client p w = .ok () ⟨x, { w.converter with session := s }⟩ ∧
      Notices h name w.client x ∧
      ∀ kinds, w.converter.session.Balanced ((listKind? name).toList ++ kinds) →
        s.Balanced kinds := by
  generalize ho : (name, false) = o at hp
  cases hp with
  | @layout _ e a he hk =>
    cases ho
    rw [listKind?, he, Option.bind_some] at hs ⊢
    have hclose := ((Session.balanced_append.mp hs).closeWith hk).1
    exact ⟨w.client, _, close_ofAction hclose, .unheard fun h => by simp [he] at h,
      fun _ h => ((Session.balanced_append.mp h).closeWith hk).2⟩
  | unheard he hh =>
    cases ho
    rw [listKind?, he]
    exact ⟨w.client, w.converter.session, rfl, .unheard fun _ => hh, fun _ h => h⟩
  | @offered _ habit he hh attributes v =>
    obtain ⟨rfl, hm⟩ := Prod.mk.inj ho
    rw [listKind?, he]
    cases hk : (habit.opening name attributes v).1 with
    | none => exact ⟨w.client, w.converter.session, rfl, .passed he hh hk, fun _ h => h⟩
    | some k =>
      subst hh
      obtain ⟨c, rfl, -, hf⟩ := ha.of_some
      have hclose := hf.closing k w
      rw [Habit.captureAt, hk, Option.bind_some] at hm
      have hmode : habit.mode k = none := by simpa using hm.symm
      rw [hmode] at hclose
      exact ⟨_, w.converter.session, hclose, .told he rfl hk (by rw [hmode]; rfl) rfl,
        fun _ h => h⟩

theorem close_captured {client : Option (Client σ κ)} {h : Option (Habit σ κ)} {name : Text}
    {p : Pending κ} {w : World σ κ} (ha : Attends client w.converter.listening h)
    (hp : Leaves h (name, true) p) :
    ∃ x, close client p w = .ok () ⟨x, w.converter.endCapture.2⟩ ∧ Notices h name w.client x := by
  generalize ho : (name, true) = o at hp
  cases hp with
  | layout => cases ho
  | unheard => cases ho
  | @offered _ habit he hh attributes v =>
    obtain ⟨rfl, hm⟩ := Prod.mk.inj ho
    obtain ⟨mode, hmode⟩ := Option.isSome_iff_exists.mp hm.symm
    obtain ⟨k, hk, hmode⟩ := Option.bind_eq_some_iff.mp hmode
    subst hh
    obtain ⟨c, rfl, -, hf⟩ := ha.of_some
    have hclose := hf.closing k w
    rw [hmode] at hclose
    rw [hk]
    exact ⟨_, hclose, .told he rfl hk (by rw [hmode]; rfl) rfl⟩

def Converter.ground (origin c : Converter κ) : List Session :=
  if !origin.capturing && c.capturing then [c.fresh .markdown] else []

theorem Converter.ground_congr {c c' : Converter κ} (origin : Converter κ)
    (hcap : c'.capturing = c.capturing) (hconfig : c'.config = c.config) :
    origin.ground c' = origin.ground c := by
  simp only [Converter.ground, Converter.fresh, hcap, hconfig]

/-- From `origin` on the converter has been fed up to a point where the elements `live` are open,
and outside them those that are `lost`. -/
structure Tracks (client : Option (Client σ κ)) (h : Option (Habit σ κ)) (origin : Converter κ)
    (live lost : List Opened) (c : Converter κ) : Prop where
  config : c.config = origin.config
  attends : Attends client c.listening h
  pending : List.Forall₂ (Leaves h) (live ++ lost) c.pending
  sessions : ∃ inner, c.saved ++ origin.ground c = inner ++ origin.saved ∧
    List.Forall₂ Session.Balanced (c.session :: inner) (groups live)
  capturing : c.capturing = (origin.capturing || live.any (·.2))
  uncaptured : ∀ o ∈ lost, o.2 = false
  bare : origin.capturing = false → origin.saved = []

namespace Tracks
variable {client : Option (Client σ κ)} {h : Option (Habit σ κ)} {origin : Converter κ}
  {live lost : List Opened} {w : World σ κ} {c : Converter κ}

theorem start {c : Converter κ} (ha : Attends client c.listening h) (hp : c.pending = [])
    (hs : c.session.Balanced []) (hb : c.capturing = false → c.saved = []) :
    Tracks client h c [] [] c where
  config := rfl
  attends := ha
  pending := hp ▸ .nil
  sessions := ⟨[], by cases hc : c.capturing <;> simp [Converter.ground, hc], .cons hs .nil⟩
  capturing := by simp
  uncaptured := nofun
  bare := hb

theorem current (T : Tracks client h origin live lost c) {own : List ListKind}
    {outer : List (List ListKind)} (hg : groups live = own :: outer) :
    ∃ inner, c.saved ++ origin.ground c = inner ++ origin.saved ∧ c.session.Balanced own ∧
      List.Forall₂ Session.Balanced inner outer := by
  obtain ⟨inner, hsaved, hall⟩ := T.sessions
  rw [hg] at hall
  exact ⟨inner, hsaved, List.forall₂_cons.mp hall⟩

theorem top (T : Tracks client h origin live lost c) {o : Opened} {rest : List Opened}
    (ho : live ++ lost = o :: rest) :
    ∃ p pending, c.pending = p :: pending ∧ Leaves h o p := by
  have hp := T.pending
  rw [ho] at hp
  obtain ⟨p, pending, hleaves, -, hc⟩ := List.forall₂_cons_left_iff.mp hp
  exact ⟨p, pending, hc, hleaves⟩

theorem update (T : Tracks client h origin live lost c) {s : Session}
    (hs : ∀ kinds, c.session.Balanced kinds → s.Balanced kinds) :
    Tracks client h origin live lost { c with session := s } := by
  obtain ⟨own, outer, hg⟩ := groups_eq_cons live
  obtain ⟨inner, hsaved, hown, hrest⟩ := T.current hg
  exact { T with sessions := ⟨inner, hsaved, hg ▸ .cons (hs own hown) hrest⟩ }

theorem push (T : Tracks client h origin live lost c) {s : Session} {name : Text}
    {p : Pending κ} (hp : Leaves h (name, false) p)
    (hs : ∀ kinds, c.session.Balanced kinds → s.Balanced ((listKind? name).toList ++ kinds)) :
    Tracks client h origin ((name, false) :: live) lost ({ c with session := s }.push p) := by
  obtain ⟨own, outer, hg⟩ := groups_eq_cons live
  obtain ⟨inner, hsaved, hown, hrest⟩ := T.current hg
  refine { T with pending := .cons hp T.pending, sessions := ⟨inner, hsaved, ?_⟩, capturing := ?_ }
  · rw [groups, hg, List.modifyHead_cons]
    exact .cons (hs own hown) hrest
  · simpa [Converter.push] using T.capturing

theorem pop {name : Text} (T : Tracks client h origin ((name, false) :: live) lost c)
    {s : Session} {pending : List (Pending κ)} {p : Pending κ} (hc : c.pending = p :: pending)
    (hs : ∀ kinds, c.session.Balanced ((listKind? name).toList ++ kinds) → s.Balanced kinds) :
    Tracks client h origin live lost { c with session := s, pending } := by
  obtain ⟨own, outer, hg⟩ := groups_eq_cons live
  obtain ⟨inner, hsaved, hown, hrest⟩ := T.current (groups_uncaptured name hg)
  have hp := T.pending
  rw [hc] at hp
  exact { T with
    pending := (List.forall₂_cons.mp hp).2
    sessions := ⟨inner, hsaved, hg ▸ .cons (hs own hown) hrest⟩
    capturing := by simpa using T.capturing }

theorem capture {name : Text} {p : Pending κ} (T : Tracks client h origin live lost c)
    (hcap : c.capturing = true) (hp : Leaves h (name, true) p) (mode : Mode) :
    Tracks client h origin ((name, true) :: live) lost ((c.beginCapture mode).push p) := by
  obtain ⟨inner, hsaved, hall⟩ := T.sessions
  refine { T with
    pending := .cons hp T.pending
    sessions := ⟨c.session :: inner, ?_, .cons (.new _ mode) hall⟩
    capturing := ?_ }
  · have hground : origin.ground ((c.beginCapture mode).push p) = origin.ground c :=
      Converter.ground_congr origin hcap.symm rfl
    rw [hground]
    simp only [Converter.push, Converter.beginCapture, hcap, if_true, List.cons_append, hsaved]
  · simp [Converter.push, Converter.beginCapture]

theorem uncaptured_sessions (T : Tracks client h origin live lost c)
    (hcap : c.capturing = false) :
    origin.capturing = false ∧ c.saved = [] ∧ origin.saved = [] ∧ ∀ o ∈ live, o.2 = false := by
  have hcapturing := T.capturing
  rw [hcap, eq_comm, Bool.or_eq_false_iff] at hcapturing
  obtain ⟨horigin, hlive⟩ := hcapturing
  have hbase := T.bare horigin
  obtain ⟨own, outer, hg⟩ := groups_eq_cons live
  obtain ⟨inner, hsaved, -, hrest⟩ := T.current hg
  have hinner : inner = [] := by
    rw [any_captured hg, Bool.not_eq_false', List.isEmpty_iff] at hlive
    rw [hlive] at hrest
    cases hrest
    rfl
  refine ⟨horigin, ?_, hbase, by simpa using hlive⟩
  simpa [Converter.ground, hcap, hinner, hbase] using hsaved

theorem captureFirst {name : Text} {p : Pending κ} (T : Tracks client h origin live lost c)
    (hcap : c.capturing = false) (hp : Leaves h (name, true) p) (mode : Mode) :
    Tracks client h origin [(name, true)] (live ++ lost) ((c.beginCapture mode).push p) := by
  obtain ⟨horigin, hsaved, hbase, hlive⟩ := T.uncaptured_sessions hcap
  refine { T with
    pending := .cons hp T.pending
    sessions := ⟨[c.fresh .markdown], ?_, .cons (.new _ mode) (.cons (.new _ .markdown) .nil)⟩
    capturing := by simp [Converter.push, Converter.beginCapture]
    uncaptured := fun o ho => ?_ }
  · simp only [Converter.push, Converter.beginCapture, Converter.ground, hcap, hsaved, hbase,
      horigin]
    rfl
  · exact (List.mem_append.mp ho).elim (hlive o) (T.uncaptured o)

theorem around {name : Text} (T : Tracks client h origin ((name, true) :: live) lost c)
    {own : List ListKind} {outer : List (List ListKind)} (hg : groups live = own :: outer) :
    c.capturing = true ∧ ∃ s inner, c.saved ++ origin.ground c = s :: (inner ++ origin.saved) ∧
      s.Balanced own ∧ List.Forall₂ Session.Balanced inner outer := by
  have hgroups : groups ((name, true) :: live) = [] :: own :: outer := by rw [groups, hg]
  obtain ⟨inner, hsaved, -, hrest⟩ := T.current hgroups
  obtain ⟨s, inner, hs, hinner, rfl⟩ := List.forall₂_cons_right_iff.mp hrest
  exact ⟨by simpa using T.capturing, s, inner, hsaved, hs, hinner⟩

theorem releaseLast {name : Text} (T : Tracks client h origin ((name, true) :: live) lost c)
    (hsv : c.saved = []) {pending : List (Pending κ)}
    (hp : List.Forall₂ (Leaves h) (live ++ lost) pending) :
    Tracks client h origin live lost
      { c with pending, session := c.fresh .markdown, saved := [], capturing := false } := by
  obtain ⟨own, outer, hg⟩ := groups_eq_cons live
  obtain ⟨hcap, s, inner, hsaved, hs, hinner⟩ := T.around hg
  rw [hsv, List.nil_append, Converter.ground, hcap] at hsaved
  cases horigin : origin.capturing with
  | true =>
    rw [horigin] at hsaved
    cases hsaved
  | false =>
    simp only [horigin, Bool.not_false, Bool.true_and, if_true, List.cons.injEq, List.nil_eq,
      List.append_eq_nil_iff] at hsaved
    obtain ⟨rfl, rfl, hbase⟩ := hsaved
    cases hinner
    exact { T with
      pending := hp
      sessions := ⟨[], by simp [Converter.ground, hbase], hg ▸ .cons hs .nil⟩
      capturing := by simpa [horigin] using (any_captured hg).symm }

theorem releaseInner {name : Text} (T : Tracks client h origin ((name, true) :: live) lost c)
    {next : Session} {saved : List Session} (hsv : c.saved = next :: saved) (t : Text)
    {pending : List (Pending κ)} (hp : List.Forall₂ (Leaves h) (live ++ lost) pending) :
    Tracks client h origin live lost { c with pending, session := next.write t, saved } := by
  obtain ⟨own, outer, hg⟩ := groups_eq_cons live
  obtain ⟨hcap, s, inner, hsaved, hs, hinner⟩ := T.around hg
  rw [hsv, List.cons_append, List.cons.injEq] at hsaved
  obtain ⟨rfl, hsaved⟩ := hsaved
  refine { T with
    pending := hp
    sessions := ⟨inner, hsaved, hg ▸ .cons (hs.write t) hinner⟩
    capturing := ?_ }
  rw [any_captured hg]
  cases horigin : origin.capturing with
  | true => exact hcap
  | false =>
    -- the session below all captures is saved as well, so that one of `live` is captured
    rw [T.bare horigin, List.append_nil, Converter.ground, hcap, horigin] at hsaved
    have hlength := hinner.length_eq
    rw [← hsaved, List.length_append] at hlength
    cases outer with
    | nil => simp at hlength
    | cons => exact hcap

theorem release {name : Text} (T : Tracks client h origin ((name, true) :: live) lost c)
    {pending : List (Pending κ)} {p : Pending κ} (hc : c.pending = p :: pending) :
    Tracks client h origin live lost ({ c with pending } : Converter κ).endCapture.2 := by
  have hp := T.pending
  rw [hc] at hp
  have hpending := (List.forall₂_cons.mp hp).2
  cases hsv : c.saved with
  | nil =>
    simp only [Converter.endCapture]
    exact T.releaseLast hsv hpending
  | cons next saved =>
    simp only [Converter.endCapture]
    exact T.releaseInner hsv _ hpending

theorem opens (T : Tracks client h origin live lost w.converter) (name : Text)
    (attributes : Attributes) :
    ∃ w', handle client (.openElement name attributes) w = .ok () w' ∧
      w'.client = openedState h name attributes w ∧
      if capturesAt h name attributes w && !w.converter.capturing then
        Tracks client h origin [(name, true)] (live ++ lost) w'.converter
      else Tracks client h origin ((name, capturesAt h name attributes w) :: live) lost
        w'.converter := by
  cases he : Element.ofTag? name with
  | some e =>
    refine ⟨_, handle_openLayout attributes he, ?_, ?_⟩
    · simp only [openedState, he]
    · simp only [capturesAt, he]
      refine T.push (.layout he (w.converter.session.openElement_action_iff e attributes)) ?_
      intro kinds hs
      rw [listKind?, he]
      exact Session.balanced_append.mpr (hs.openElement e attributes)
  | none =>
    have hkind : listKind? name = none := by rw [listKind?, he]; rfl
    cases h with
    | none =>
      refine ⟨_, handle_openIgnored attributes he T.attends.ignores, ?_, ?_⟩
      · simp only [openedState, he]
      · simp only [capturesAt, he]
        exact T.push (.unheard he rfl) fun kinds hs => hkind ▸ hs
    | some habit =>
      obtain ⟨c, rfl, hl, hf⟩ := T.attends.of_some
      have hleaves := Leaves.offered he rfl attributes w (h := some habit)
      refine ⟨_, handle_openOffered he hl (hf.opening name attributes w), ?_, ?_⟩
      · simp only [openedState, he]
      · simp only [capturesAt, he]
        change if (habit.captureAt name attributes w).isSome && _ then
          Tracks _ _ _ _ _ ((w.converter.enter (habit.captureAt name attributes w)).push _)
          else Tracks _ _ _ _ _ ((w.converter.enter (habit.captureAt name attributes w)).push _)
        cases hm : habit.captureAt name attributes w with
        | none =>
          rw [hm] at hleaves
          exact T.push hleaves fun kinds hs => hkind ▸ hs
        | some mode =>
          rw [hm] at hleaves
          cases hcap : w.converter.capturing with
          | false => exact T.captureFirst hcap hleaves mode
          | true => exact T.capture hcap hleaves mode

theorem closes {name : Text} {captured : Bool} (tag : Text)
    (T : Tracks client h origin ((name, captured) :: live) lost w.converter) :
    ∃ w', handle client (.closeElement tag) w = .ok () w' ∧ Notices h name w.client w'.client ∧
      Tracks client h origin live lost w'.converter := by
  obtain ⟨p, pending, hc, hleaves⟩ := T.top rfl
  rw [handle_close tag hc]
  cases captured with
  | true =>
    obtain ⟨x, hclose, hx⟩ := close_captured (w := ⟨w.client, { w.converter with pending }⟩)
      T.attends hleaves
    exact ⟨_, hclose, hx, T.release hc⟩
  | false =>
    obtain ⟨own, outer, hg⟩ := groups_eq_cons live
    obtain ⟨inner, -, hown, -⟩ := T.current (groups_uncaptured name hg)
    obtain ⟨x, s, hclose, hx, hs⟩ := close_uncaptured
      (w := ⟨w.client, { w.converter with pending }⟩) T.attends hleaves hown
    exact ⟨_, hclose, hx, T.pop hc hs⟩

theorem revive {o : Opened} (T : Tracks client h origin [] (o :: lost) c)
    (ho : listKind? o.1 = none) : Tracks client h origin [o] lost c := by
  obtain ⟨name, captured⟩ := o
  cases T.uncaptured _ List.mem_cons_self
  obtain ⟨inner, hsaved, hall⟩ := T.sessions
  refine { T with
    sessions := ⟨inner, hsaved, ?_⟩
    uncaptured := fun o ho => T.uncaptured o (List.mem_cons_of_mem _ ho) }
  simp only at ho
  simpa [groups, ho] using hall

theorem closes_lostList {o : Opened} (tag : Text)
    (T : Tracks client h origin [] (o :: lost) w.converter)
    (ho : (listKind? o.1).isSome = true) :
    ∃ w', handle client (.closeElement tag) w = .error .emptyPop w' := by
  obtain ⟨inner, -, hs, -⟩ := T.current rfl
  obtain ⟨p, pending, hc, hleaves⟩ := T.top rfl
  rw [handle_close tag hc]
  cases hleaves with
  | layout he ha =>
    rw [listKind?, he, Option.bind_some] at ho
    cases ha.mpr ho
    exact ⟨_, close_layout_refused (Session.permits_endList hs)⟩
  | unheard he => simp [listKind?, he] at ho
  | offered he => simp [listKind?, he] at ho

end Tracks
end DocMarkdown
