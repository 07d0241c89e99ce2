import DocMarkdown.Proofs.Converter.Balance
import Mathlib

/-! When a declaration cannot be built. No capture is active when the builder sets out, so that
its first one gives up the session of the elements around it. A list among them closes later in
a session that has no list open, and the conversion stops there. Within a capture the session
around is saved, and no list is lost. -/

namespace DocMarkdown
open Layout Xml Operation

def Builder.captures (inParameter : Bool) (name : Text) : Bool :=
  match Part.ofTag? name with
  | none | some .parameter => false
  | some .discussion => inParameter
  | some _ => true

/-- An open element, whether it is captured, and whether another one has been captured in it. -/
structure Standing where
  name : Text
  captured : Bool
  holds : Bool

structure Outline where
  opened : List Standing := []
  inParameter : Bool := false

def Standing.hold (o : Standing) : Standing := { o with holds := true }

def Outline.after (k : Outline) : Event → Outline
  | .openElement name _ =>
    let captured := Builder.captures k.inParameter name
    { opened := ⟨name, captured, false⟩ :: if captured then k.opened.map .hold else k.opened
      inParameter := k.inParameter || Part.ofTag? name == some .parameter }
  | .closeElement name =>
    { opened := k.opened.tail
      inParameter := k.inParameter && Part.ofTag? name != some .parameter }
  | _ => k

/-- The innermost open element is a list in which an element has been captured, while no
element is captured around it. -/
def Outline.Stranded (k : Outline) : Prop :=
  ∃ o around, k.opened = o :: around ∧ (listKind? o.name).isSome = true ∧ o.holds = true ∧
    ∀ p ∈ around, p.captured = false

def Outline.Strands (k : Outline) (es : List Event) : Prop :=
  ∃ before name after, es = before ++ .closeElement name :: after ∧
    (before.foldl Outline.after k).Stranded

namespace Outline

theorem names_open (k : Outline) (name : Text) (attributes : Attributes) :
    (k.after (.openElement name attributes)).opened.map (·.name) =
      name :: k.opened.map (·.name) := by
  simp only [after, List.map_cons, List.cons.injEq, true_and]
  split
  · rw [List.map_map]
    rfl
  · rfl

theorem strands_cons (k : Outline) (e : Event) (rest : List Event) :
    k.Strands (e :: rest) ↔
      (∃ name, e = .closeElement name ∧ k.Stranded) ∨ (k.after e).Strands rest := by
  constructor
  · rintro ⟨before, name, after, h, hk⟩
    cases before with
    | nil =>
      cases h
      exact .inl ⟨name, rfl, hk⟩
    | cons b before =>
      cases h
      exact .inr ⟨before, name, after, rfl, hk⟩
  · rintro (⟨name, rfl, hk⟩ | ⟨before, name, after, rfl, hk⟩)
    · exact ⟨[], name, rest, rfl, hk⟩
    · exact ⟨e :: before, name, after, rfl, hk⟩

end Outline

section Builder
variable {name : Text} {attributes : Attributes} {w : World Builder Part}

theorem ofTag?_part_of_element {e : Element} (he : Element.ofTag? name = some e) :
    Part.ofTag? name = none := by
  cases hp : Part.ofTag? name with
  | none => rfl
  | some p =>
    have hname : p.tag = name := by simpa using List.find?_some hp
    have hnone : Element.ofTag? p.tag = none := by cases p <;> decide
    rw [hname, he] at hnone
    cases hnone

theorem Builder.root_parameter (b : Builder) :
    (b.root name attributes).parameter = b.parameter := by
  unfold Builder.root
  split <;> rfl

theorem capturesAt_builder :
    capturesAt (some Builder.habit) name attributes w =
      Builder.captures w.client.parameter.isSome name := by
  unfold capturesAt Builder.captures
  cases he : Element.ofTag? name with
  | some e => simp only [ofTag?_part_of_element he]
  | none =>
    simp only [Habit.captureAt, Builder.habit]
    cases Part.ofTag? name with
    | none => rfl
    | some p =>
      cases p with
      | discussion =>
        simp only [Builder.captureMode, Builder.root_parameter]
        cases w.client.parameter.isSome <;> rfl
      | _ => rfl

theorem openedState_builder :
    (openedState (some Builder.habit) name attributes w).parameter.isSome =
      (w.client.parameter.isSome || Part.ofTag? name == some .parameter) := by
  unfold openedState
  cases he : Element.ofTag? name with
  | some e => simp [ofTag?_part_of_element he]
  | none =>
    simp only [Builder.habit]
    cases Part.ofTag? name with
    | none => simp [Builder.root_parameter]
    | some p => cases p <;> simp [Builder.root_parameter]

theorem Builder.store_parameter (b : Builder) (part : Part) (t : Text) :
    (b.store part t).parameter.isSome = b.parameter.isSome := by
  cases part with
  | name =>
    simp only [Builder.store, Builder.setName]
    split
    · rename_i h
      rw [h]
      rfl
    · rfl
  | discussion => simp [Builder.store, Builder.setDiscussion]
  | _ => rfl

theorem Builder.endParameter_parameter (b : Builder) : b.endParameter.parameter = none := by
  unfold Builder.endParameter
  split
  · rfl
  · assumption

theorem Builder.part_of_opening {k : Part}
    (hk : (Builder.habit.opening name attributes w).1 = some k) : Part.ofTag? name = some k := by
  simp only [Builder.habit] at hk
  cases hp : Part.ofTag? name with
  | none => simp [hp] at hk
  | some p =>
    rw [hp] at hk
    cases p with
    | parameter | name | usr | declaration | resultDiscussion => exact hk
    | discussion =>
      obtain ⟨_, _, rfl⟩ := Option.map_eq_some_iff.mp hk
      rfl

theorem Builder.not_parameter_of_opening
    (hk : (Builder.habit.opening name attributes w).1 = none) :
    Part.ofTag? name ≠ some .parameter := by
  intro hp
  simp [Builder.habit, hp] at hk

theorem Notices.builder_parameter {x y : Builder}
    (hn : Notices (some Builder.habit) name x y) :
    y.parameter.isSome = (x.parameter.isSome && Part.ofTag? name != some .parameter) := by
  cases hn with
  | unheard hh =>
    cases he : Element.ofTag? name with
    | some e => simp [ofTag?_part_of_element he]
    | none => cases hh he
  | passed he hh hk =>
    cases hh
    simp [Builder.not_parameter_of_opening hk]
  | @told _ k he hh _ _ hk t ht u hu =>
    cases hh
    rw [Builder.part_of_opening hk, ← hu]
    cases t with
    | none =>
      have hpart : k = .parameter := by
        cases k with
        | parameter => rfl
        | _ => cases ht
      simp [hpart, Builder.habit, Builder.endParameter_parameter]
    | some t =>
      have hpart : k ≠ .parameter := by
        rintro rfl
        cases ht
      simp [hpart, Builder.habit, Builder.store_parameter]

end Builder

inductive Live : List Standing → Prop
  | bare {inner : List Standing} (h : ∀ o ∈ inner, o.captured = false ∧ o.holds = false) :
      Live inner
  | within (upper : List Standing) {o : Standing} (h : o.captured = true) : Live (upper ++ [o])

namespace Live

theorem cons {o : Standing} {inner : List Standing} (h : Live inner) (ho : o.captured = false)
    (hh : o.holds = false) : Live (o :: inner) := by
  cases h with
  | bare h => exact .bare (List.forall_mem_cons.mpr ⟨⟨ho, hh⟩, h⟩)
  | within upper h => exact .within (o :: upper) h

theorem tail {o : Standing} {inner : List Standing} (h : Live (o :: inner)) : Live inner := by
  generalize hi : o :: inner = all at h
  cases h with
  | bare h =>
    subst hi
    exact .bare fun p hp => h p (List.mem_cons_of_mem _ hp)
  | within upper h =>
    cases upper with
    | nil =>
      cases hi
      exact .bare nofun
    | cons u upper =>
      cases hi
      exact .within upper h

theorem bare_of {inner : List Standing} (h : Live inner) (hi : inner.any (·.captured) = false) :
    ∀ o ∈ inner, o.captured = false ∧ o.holds = false := by
  cases h with
  | bare h => exact h
  | within upper h => simp [h] at hi

theorem within_of {inner : List Standing} (h : Live inner) (hi : inner.any (·.captured) = true) :
    ∃ upper o, inner = upper ++ [o] ∧ o.captured = true := by
  cases h with
  | bare h =>
    obtain ⟨o, ho, hc⟩ := List.any_eq_true.mp hi
    rw [(h o ho).1] at hc
    cases hc
  | within upper h => exact ⟨upper, _, rfl, h⟩

end Live

def Standing.shown (o : Standing) : Opened := (o.name, o.captured)

structure Outline.Reached (origin : Converter Part) (k : Outline) (w : World Builder Part) :
    Prop where
  parameter : w.client.parameter.isSome = k.inParameter
  tracks : ∃ inner outer, k.opened = inner ++ outer ∧ Live inner ∧
    (∀ o ∈ outer, o.holds = true) ∧
    Tracks (some Builder.client) (some Builder.habit) origin (inner.map Standing.shown)
      (outer.map Standing.shown) w.converter

theorem Standing.map_shown_hold (opened : List Standing) :
    (opened.map Standing.hold).map Standing.shown = opened.map Standing.shown := by
  rw [List.map_map]
  rfl

theorem Standing.holds_map_hold (opened : List Standing) :
    ∀ o ∈ opened.map Standing.hold, o.holds = true := List.forall_mem_map.mpr fun _ _ => rfl

namespace Outline.Reached
variable {origin : Converter Part} {k : Outline} {w : World Builder Part}

theorem opens (R : k.Reached origin w) (horigin : origin.capturing = false) (name : Text)
    (attributes : Attributes) :
    ∃ w', handle (some Builder.client) (.openElement name attributes) w = .ok () w' ∧
      (k.after (.openElement name attributes)).Reached origin w' := by
  obtain ⟨inner, outer, hk, hlive, houter, T⟩ := R.tracks
  obtain ⟨w', hw, hclient, hT⟩ := T.opens name attributes
  rw [capturesAt_builder, R.parameter] at hT
  refine ⟨w', hw, by rw [hclient, openedState_builder, R.parameter]; rfl, ?_⟩
  have hcap : w.converter.capturing = inner.any (·.captured) := by
    rw [T.capturing, horigin, Bool.false_or, List.any_map]
    rfl
  simp only [Outline.after, hk, List.map_append]
  cases hc : Builder.captures k.inParameter name with
  | false =>
    rw [hc] at hT
    exact ⟨⟨name, false, false⟩ :: inner, outer, rfl, hlive.cons rfl rfl, houter, hT⟩
  | true =>
    rw [hc, hcap] at hT
    cases hi : inner.any (·.captured) with
    | false =>
      -- the first capture: all sessions around it are given up
      rw [hi] at hT
      refine ⟨[⟨name, true, false⟩], (inner ++ outer).map Standing.hold, ?_, .within [] rfl,
        Standing.holds_map_hold _, ?_⟩
      · simp
      · rw [Standing.map_shown_hold, List.map_append]
        exact hT
    | true =>
      rw [hi] at hT
      refine ⟨⟨name, true, false⟩ :: inner.map Standing.hold, outer.map Standing.hold, ?_, ?_,
        Standing.holds_map_hold _, ?_⟩
      · simp
      · obtain ⟨upper, o, rfl, ho⟩ := hlive.within_of hi
        rw [List.map_append]
        exact .within (_ :: upper.map Standing.hold) ho
      · rw [List.map_cons, Standing.map_shown_hold, Standing.map_shown_hold]
        exact hT

theorem closes (R : k.Reached origin w) {o : Standing} {around : List Standing}
    (hk : k.opened = o :: around) :
    (k.Stranded ∧
      ∃ w', handle (some Builder.client) (.closeElement o.name) w = .error .emptyPop w') ∨
    (¬ k.Stranded ∧ ∃ w', handle (some Builder.client) (.closeElement o.name) w = .ok () w' ∧
      (k.after (.closeElement o.name)).Reached origin w') := by
  obtain ⟨inner, outer, hsplit, hlive, houter, T⟩ := R.tracks
  rw [hk] at hsplit
  have hafter : (k.after (.closeElement o.name)).opened = around := by simp [Outline.after, hk]
  cases inner with
  | nil =>
    cases hsplit
    cases hl : listKind? o.name with
    | some kind =>
      refine .inl ⟨⟨o, around, hk, by rw [hl]; rfl, houter o List.mem_cons_self, fun p hp => ?_⟩,
        T.closes_lostList o.name (by simp [Standing.shown, hl])⟩
      exact T.uncaptured p.shown (List.mem_map_of_mem (List.mem_cons_of_mem o hp))
    | none =>
      obtain ⟨w', hw, hn, hT⟩ := (T.revive hl).closes o.name
      refine .inr ⟨?_, w', hw, ?_, [], around, hafter, .bare nofun,
        fun p hp => houter p (List.mem_cons_of_mem o hp), hT⟩
      · rintro ⟨o', around', ho, hlist, -⟩
        rw [hk] at ho
        cases ho
        rw [hl] at hlist
        cases hlist
      · rw [hn.builder_parameter, R.parameter]
        rfl
  | cons i inner =>
    cases hsplit
    obtain ⟨w', hw, hn, hT⟩ := T.closes o.name
    refine .inr ⟨?_, w', hw, ?_, inner, outer, hafter, hlive.tail, houter, hT⟩
    · rintro ⟨o', around', ho, hlist, hholds, hfree⟩
      rw [hk] at ho
      cases ho
      cases hany : (o :: inner).any (·.captured) with
      | false =>
        rw [(hlive.bare_of hany o List.mem_cons_self).2] at hholds
        cases hholds
      | true =>
        obtain ⟨p, hp, hcaptured⟩ := List.any_eq_true.mp hany
        rcases List.mem_cons.mp hp with rfl | hp
        · obtain ⟨_, _, -, hleaves⟩ := T.top rfl
          have hnone : listKind? p.name = none := hleaves.listKind?_eq_none hcaptured
          rw [hnone] at hlist
          cases hlist
        · rw [hfree p (List.mem_append_left outer hp)] at hcaptured
          cases hcaptured
    · rw [hn.builder_parameter, R.parameter]
      rfl

theorem same (R : k.Reached origin w) {c : Converter Part}
    (hc : ∀ live lost, Tracks (some Builder.client) (some Builder.habit) origin live lost
      w.converter → Tracks (some Builder.client) (some Builder.habit) origin live lost c) :
    k.Reached origin ⟨w.client, c⟩ := by
  obtain ⟨inner, outer, hk, hlive, houter, T⟩ := R.tracks
  exact ⟨R.parameter, inner, outer, hk, hlive, houter, hc _ _ T⟩

theorem next {names : List Text} {e : Event} {rest : List Event}
    (hes : Event.Nested names (e :: rest)) (horigin : origin.capturing = false)
    (R : k.Reached origin w) (hk : k.opened.map (·.name) = names) :
    ((∃ name, e = .closeElement name ∧ k.Stranded) ∧
      ∃ w', handle (some Builder.client) e w = .error .emptyPop w') ∨
    (¬ (∃ name, e = .closeElement name ∧ k.Stranded) ∧
      ∃ w' names', handle (some Builder.client) e w = .ok () w' ∧
        (k.after e).Reached origin w' ∧ Event.Nested names' rest ∧
        (k.after e).opened.map (·.name) = names') := by
  cases hes with
  | @opened names name attributes rest hrest =>
    obtain ⟨v, hv, hR⟩ := R.opens horigin name attributes
    exact .inr ⟨nofun, v, _, hv, hR, hrest, by rw [k.names_open, hk]⟩
  | @closed names name rest hrest =>
    cases hopened : k.opened with
    | nil => simp [hopened] at hk
    | cons o around =>
      rw [hopened] at hk
      obtain ⟨rfl, hnames⟩ := List.cons.inj hk
      rcases R.closes hopened with ⟨hs, v, hv⟩ | ⟨hs, v, hv, hR⟩
      · exact .inl ⟨⟨o.name, rfl, hs⟩, v, hv⟩
      · refine .inr ⟨fun ⟨_, _, h⟩ => hs h, v, names, hv, hR, hrest, ?_⟩
        simpa only [Outline.after, hopened, List.tail_cons] using hnames
  | text t hrest =>
    exact .inr ⟨nofun, _, names, handle_characters t, R.same fun _ _ T => T.characters t, hrest, hk⟩
  | raw hrest =>
    exact .inr ⟨nofun, _, names, handle_openRaw, R.same fun _ _ T => T.openRaw, hrest, hk⟩
  | endRaw hrest =>
    exact .inr ⟨nofun, _, names, handle_closeRaw, R.same fun _ _ T => T.closeRaw, hrest, hk⟩

theorem run {names : List Text} {es : List Event} (hes : Event.Nested names es)
    (horigin : origin.capturing = false) (R : k.Reached origin w)
    (hk : k.opened.map (·.name) = names) :
    (k.Strands es ∧ ∃ w', feed (some Builder.client) es w = .error .emptyPop w') ∨
    (¬ k.Strands es ∧ ∃ w' k', feed (some Builder.client) es w = .ok () w' ∧
      Outline.Reached origin k' w') := by
  induction es generalizing k w names with
  | nil =>
    refine .inr ⟨?_, w, k, rfl, R⟩
    rintro ⟨before, name, after, h, -⟩
    simp at h
  | cons e rest ih =>
    rw [k.strands_cons]
    rcases R.next hes horigin hk with ⟨hs, v, hv⟩ | ⟨hs, v, names', hv, hR, hrest, hnames⟩
    · exact .inl ⟨.inl hs, v, feed_cons_error hv⟩
    · rw [feed_cons hv, or_iff_right hs]
      exact ih hrest hR hnames

theorem new (config : Config) :
    Outline.Reached ((Converter.new config).start true) {}
      ⟨{}, (Converter.new config).start true⟩ :=
  ⟨rfl, [], [], rfl, .bare nofun, nofun,
    .start (.offered Builder.client_follows) rfl (.new config.indentWidth .markdown) fun _ => rfl⟩

end Outline.Reached

namespace Declaration

theorem build_text_ends {config : Config} (hlenient : config.strict = false)
    (units : List TextUnit) :
    let d := Document.text units
    (Outline.Strands {} d.read.events ∧ (build config d).1 = .error .emptyPop) ∨
    (¬ Outline.Strands {} d.read.events ∧ ∃ r, (build config d).1 = .ok r) := by
  intro d
  let w : World Builder Part := ⟨{}, .new config⟩
  have emptyPop_ne : Stop.emptyPop ≠ .aborted := by decide
  unfold build
  rcases Outline.Reached.run d.read_nested rfl (.new config) rfl with
    ⟨hs, v, hv⟩ | ⟨hs, v, k, hv, R⟩
  · have hc := convert_stopped (w := w) emptyPop_ne hv
    refine .inl ⟨hs, ?_⟩
    rw [hc]
  · refine .inr ⟨hs, ?_⟩
    rcases convert_ends (w := w) hv with ⟨c, hc⟩ | ⟨m, c, -, hstrict⟩ | ⟨name, why, c, -, b, hb⟩
    · rw [hc]
      exact ⟨_, rfl⟩
    · obtain ⟨inner, outer, -, -, -, T⟩ := R.tracks
      rw [T.config] at hstrict
      exact absurd hstrict (by simp [Converter.start, Converter.new, hlenient])
    · simp [d] at hb

/-- A lenient builder gives a record for every text but those in which a list is stranded. For
these it stops. -/
theorem build_ok_iff_not_strands {config : Config} (hlenient : config.strict = false)
    (units : List TextUnit) :
    ((∃ r, (build config (.text units)).1 = .ok r) ↔
      ¬ Outline.Strands {} (Document.text units).read.events) ∧
    ((build config (.text units)).1 = .error .emptyPop ↔
      Outline.Strands {} (Document.text units).read.events) := by
  rcases build_text_ends hlenient units with ⟨hs, hb⟩ | ⟨hs, r, hb⟩
  · rw [hb]
    exact ⟨iff_of_false (fun ⟨r, h⟩ => by cases h) (fun h => h hs), iff_of_true rfl hs⟩
  · rw [hb]
    exact ⟨iff_of_true ⟨r, rfl⟩ hs, iff_of_false (by simp) hs⟩

private def listedName : Document :=
  .ofString "<Function><List-Bullet><Name>x</Name></List-Bullet></Function>"

private def listedNameEvents : List Event :=
  [.openElement "Function".toList [], .openElement "List-Bullet".toList [],
    .openElement "Name".toList [], .characters "x".toList, .closeElement "Name".toList]

set_option maxRecDepth 2000 in
private theorem listedName_read : listedName.read =
    ⟨listedNameEvents ++ [.closeElement "List-Bullet".toList, .closeElement "Function".toList],
      .complete⟩ := by cbv

theorem build_listedName :
    ({} : Config).strict = false ∧ (build {} listedName).1 = .error .emptyPop := by
  have hstrands : Outline.Strands {} listedName.read.events := by
    rw [listedName_read]
    exact ⟨listedNameEvents, _, _, rfl, ⟨"List-Bullet".toList, false, true⟩,
      [⟨"Function".toList, false, true⟩], rfl, rfl, rfl, by decide⟩
  exact ⟨rfl, (build_ok_iff_not_strands rfl _).2.mpr hstrands⟩

end Declaration
end DocMarkdown
