import DocMarkdown.Proofs.Client.Signature
import DocMarkdown.Proofs.Converter.Lockstep

/-! One converter for many documents. Whatever earlier conversions have left in it, the next one
comes to the same as in a new converter of the same configuration. Only the reports of the earlier
ones stay. -/

namespace DocMarkdown
open Layout Xml Operation

namespace Outline

def captures (k : Outline) : Event → Bool
  | .openElement name _ => Builder.captures k.inParameter name
  | _ => false

/-- No element is captured in a list that stands outside all captured elements. -/
def Sheltered (k : Outline) (es : List Event) : Prop :=
  ∀ before e after, es = before ++ e :: after → (before.foldl Outline.after k).captures e = true →
    ∀ inner o around, (before.foldl Outline.after k).opened = inner ++ o :: around →
      (listKind? o.name).isSome = true → ∃ p ∈ around, p.captured = true

def Guarded (k : Outline) : Prop :=
  ∀ inner o around, k.opened = inner ++ o :: around → o.holds = true →
    (listKind? o.name).isSome = true → ∃ p ∈ around, p.captured = true

variable {k : Outline}

theorem Sheltered.tail {e : Event} {rest : List Event} (h : k.Sheltered (e :: rest)) :
    (k.after e).Sheltered rest := fun before e' after hes =>
  h (e :: before) e' after (congrArg (e :: ·) hes)

def exposed : List Standing → Bool
  | [] => false
  | o :: around =>
    ((listKind? o.name).isSome && !around.any (·.captured)) || exposed around

theorem exposed_iff (opened : List Standing) :
    exposed opened = true ↔ ∃ inner o around, opened = inner ++ o :: around ∧
      (listKind? o.name).isSome = true ∧ around.any (·.captured) = false := by
  induction opened with
  | nil => simp [exposed]
  | cons p opened ih =>
    rw [exposed, Bool.or_eq_true, Bool.and_eq_true, Bool.not_eq_true', ih]
    constructor
    · rintro (⟨hlist, hfree⟩ | ⟨inner, o, around, rfl, hlist, hfree⟩)
      · exact ⟨[], p, opened, rfl, hlist, hfree⟩
      · exact ⟨p :: inner, o, around, rfl, hlist, hfree⟩
    · rintro ⟨inner, o, around, hopened, hlist, hfree⟩
      cases inner with
      | nil =>
        cases hopened
        exact .inl ⟨hlist, hfree⟩
      | cons i inner =>
        cases hopened
        exact .inr ⟨inner, o, around, rfl, hlist, hfree⟩

theorem sheltered_cons {e : Event} {rest : List Event} :
    k.Sheltered (e :: rest) ↔
      (k.captures e = true → exposed k.opened = false) ∧ (k.after e).Sheltered rest := by
  constructor
  · refine fun h => ⟨fun hcaptures => ?_, h.tail⟩
    rw [Bool.eq_false_iff, ne_eq, exposed_iff]
    rintro ⟨inner, o, around, hopened, hlist, hfree⟩
    have hcaptured := h [] e rest rfl hcaptures inner o around hopened hlist
    exact absurd (List.any_eq_true.mpr hcaptured) (Bool.eq_false_iff.mp hfree)
  · rintro ⟨hfirst, hrest⟩ before e' after hes hcaptures inner o around hopened hlist
    cases before with
    | nil =>
      obtain ⟨rfl, -⟩ := List.cons.inj hes
      have hexposed := hfirst hcaptures
      rw [Bool.eq_false_iff, ne_eq, exposed_iff] at hexposed
      refine List.any_eq_true.mp (Bool.of_not_eq_false fun hfree => hexposed ?_)
      exact ⟨inner, o, around, hopened, hlist, hfree⟩
    | cons b before =>
      obtain ⟨rfl, rfl⟩ := List.cons.inj hes
      exact hrest before e' after rfl hcaptures inner o around hopened hlist

instance decidableSheltered (k : Outline) : (es : List Event) → Decidable (k.Sheltered es)
  | [] => .isTrue fun before _ _ hes => by simp at hes
  | e :: rest =>
    have := decidableSheltered (k.after e) rest
    decidable_of_iff _ sheltered_cons.symm

theorem Guarded.not_stranded (h : k.Guarded) : ¬ k.Stranded := by
  rintro ⟨o, around, hopened, hlist, hholds, hfree⟩
  obtain ⟨p, hp, hcaptured⟩ := h [] o around hopened hholds hlist
  rw [hfree p hp] at hcaptured
  cases hcaptured

theorem Guarded.after (h : k.Guarded) {e : Event} {rest : List Event}
    (hs : k.Sheltered (e :: rest)) : (k.after e).Guarded := by
  cases e with
  | openElement name attributes =>
    intro inner o around hopened hholds hlist
    cases inner with
    | nil =>
      obtain ⟨rfl, -⟩ := List.cons.inj hopened
      cases hholds
    | cons i inner =>
      obtain ⟨-, hopened⟩ := List.cons.inj hopened
      cases hcaptured : Builder.captures k.inParameter name with
      | false =>
        rw [hcaptured] at hopened
        exact h inner o around hopened hholds hlist
      | true =>
        -- an element is captured, and the lists around it are those of the shelter
        rw [hcaptured, if_pos rfl] at hopened
        obtain ⟨inner', tail, hk, rfl, htail⟩ := List.map_eq_append_iff.mp hopened
        obtain ⟨o', around', rfl, rfl, rfl⟩ := List.map_eq_cons_iff.mp htail
        obtain ⟨p, hp, hcap⟩ := hs [] (.openElement name attributes) rest rfl hcaptured
          inner' o' around' hk hlist
        exact ⟨p.hold, List.mem_map_of_mem hp, hcap⟩
  | closeElement name =>
    intro inner o around hopened
    cases hk : k.opened with
    | nil => simp [Outline.after, hk] at hopened
    | cons i opened =>
      simp only [Outline.after, hk, List.tail_cons] at hopened
      exact h (i :: inner) o around (by rw [hk, hopened, List.cons_append])
  | _ => exact h

end Outline

theorem Builder.habit_blind : Builder.habit.Blind where
  opening name attributes w u h := by simp only [habit, h]
  closing k t w u h := by simp only [habit, h]

section Leaves
variable {σ κ : Type} {h : Option (Habit σ κ)} {opened : List Opened} {pending : List (Pending κ)}

theorem Leaves.list_of_endsList {o : Opened} {p : Pending κ} (hp : Leaves h o p)
    (hends : p.endsList = true) : (listKind? o.1).isSome = true := by
  cases hp with
  | layout he ha =>
    rw [listKind?, he, Option.bind_some]
    exact ha.mp ((Pending.endsList_ofAction _).mp hends)
  | unheard => cases hends
  | @offered name habit he hh attributes w =>
    cases hk : (habit.opening name attributes w).1 <;> simp [hk, left, Pending.endsList] at hends

theorem Leaves.countP_endsList (hp : List.Forall₂ (Leaves h) opened pending)
    (hlist : ∀ o ∈ opened, listKind? o.1 = none) : pending.countP Pending.endsList = 0 := by
  induction hp with
  | nil => rfl
  | @cons o p opened pending ho _ ih =>
    obtain ⟨hnone, hlist⟩ := List.forall_mem_cons.mp hlist
    have hends : ¬ p.endsList = true := by
      intro hends
      have hsome := ho.list_of_endsList hends
      rw [hnone] at hsome
      cases hsome
    rw [List.countP_cons_of_neg hends, ih hlist]

theorem Leaves.uncaptured (hp : List.Forall₂ (Leaves h) opened pending)
    (hfree : ∀ p ∈ pending, p.captures h = false) : ∀ o ∈ opened, o.2 = false := by
  intro o ho
  have hmem : o.2 ∈ pending.map (Pending.captures h) := by
    rw [Leaves.map_captures hp]
    exact List.mem_map_of_mem ho
  obtain ⟨p, hp, heq⟩ := List.mem_map.mp hmem
  rw [← heq, hfree p hp]

end Leaves

section Run
variable {origin : Converter Part} {k : Outline} {w u : World Builder Part} {config : Config}

theorem Outline.Reached.pending (R : k.Reached origin w) :
    List.Forall₂ (Leaves (some Builder.habit)) (k.opened.map Standing.shown)
      w.converter.pending := by
  obtain ⟨inner, outer, hk, -, -, T⟩ := R.tracks
  rw [hk, List.map_append]
  exact T.pending

theorem Outline.Reached.shelter (R : k.Reached origin w) {name : Text} {attributes : Attributes}
    {rest : List Event} (hs : k.Sheltered (.openElement name attributes :: rest))
    (hcaptures : capturesAt (some Builder.habit) name attributes w = true)
    (hfree : ∀ p ∈ w.converter.pending, p.captures (some Builder.habit) = false) :
    w.converter.pending.countP Pending.endsList = 0 := by
  rw [capturesAt_builder, R.parameter] at hcaptures
  have huncaptured := List.forall_mem_map.mp (Leaves.uncaptured R.pending hfree)
  refine Leaves.countP_endsList R.pending (List.forall_mem_map.mpr fun o ho => ?_)
  cases hlist : listKind? o.name with
  | none => exact hlist
  | some kind =>
    obtain ⟨inner, around, hopened⟩ := List.append_of_mem ho
    have hsome : (listKind? o.name).isSome = true := hlist ▸ rfl
    obtain ⟨p, hp, hcaptured⟩ := hs [] (.openElement name attributes) rest rfl hcaptures
      inner o around hopened hsome
    have hmem : p ∈ k.opened := hopened ▸ List.mem_append_right inner (List.mem_cons_of_mem o hp)
    exact absurd hcaptured (Bool.eq_false_iff.mp (huncaptured p hmem))

theorem Outline.Reached.run_alike {names : List Text} {es : List Event}
    (hes : Event.Nested names es) (horigin : origin.capturing = false) (R : k.Reached origin w)
    (hk : k.opened.map (·.name) = names) (hs : k.Sheltered es) (hg : k.Guarded)
    (halike : Alike Builder.habit config w u) :
    ∃ w' u', feed (some Builder.client) es w = .ok () w' ∧
      feed (some Builder.client) es u = .ok () u' ∧ w'.client = u'.client := by
  induction es generalizing k w u names with
  | nil => exact ⟨w, u, rfl, rfl, halike.client_eq⟩
  | cons e rest ih =>
    have hstays : ¬ ∃ name, e = .closeElement name ∧ k.Stranded :=
      fun ⟨_, _, hstranded⟩ => hg.not_stranded hstranded
    rcases R.next hes horigin hk with ⟨hstranded, -⟩ | ⟨-, w', names', hw, hR, hrest, hnames⟩
    · exact absurd hstranded hstays
    · obtain ⟨u', hu, halike'⟩ := halike.step Builder.client_follows Builder.habit_blind hw
        fun name attributes he hcaptures hfree => R.shelter (he ▸ hs) hcaptures hfree
      rw [feed_cons hw, feed_cons hu]
      exact ih hrest hR hnames hs.tail (hg.after hs) halike'

end Run

/-- In a converter with any past a document comes to what it comes to in a new one: converted
alone, for its signature, and for its record if it is sheltered. -/
theorem Converter.shared_as_new {κ : Type} (c : Converter κ) (d : Document) :
    (∀ (σ : Type) (x : σ), seen (fun t _ => t) (toMarkdown none d ⟨x, c⟩) =
      ((markdown c.config d).1, c.reports.reverse ++ (markdown c.config d).2)) ∧
    seen (fun _ x => x.signature) (convert (some Extractor.client) d ⟨{}, c.handOver⟩) =
      ((Declaration.extract c.config d).1,
        c.reports.reverse ++ (Declaration.extract c.config d).2) ∧
    (Outline.Sheltered {} d.read.events →
      seen (fun _ x => x.record) (convert (some Builder.client) d ⟨{}, c.handOver⟩) =
        ((Declaration.build c.config d).1,
          c.reports.reverse ++ (Declaration.build c.config d).2)) := by
  refine ⟨fun σ x => ?_, ?_, fun hs => ?_⟩
  · rw [seen_toMarkdown, markdown_alone]
  · rw [Declaration.extract_eq_seen, Extractor.seen_extract (.new c.config) d rfl]
    let stretch : Session → Stretch := fun session => { session }
    have hraw : (stretch c.session).raw = (stretch (.new c.config.indentWidth .markdown)).raw := rfl
    have hfind := Extractor.find_outside c.config.indentWidth d.read.events hraw
    exact Extractor.seen_extract c.handOver d hfind
  · let w₀ : World Builder Part := ⟨{}, .new c.config⟩
    let u₀ : World Builder Part := ⟨{}, c.handOver⟩
    have hguarded : Outline.Guarded {} := fun inner o around hopened => by simp at hopened
    have halike : Alike Builder.habit c.config ⟨{}, w₀.converter.start true⟩
        ⟨{}, u₀.converter.start true⟩ :=
      .outside ⟨rfl, rfl⟩ ⟨rfl, rfl⟩ rfl ⟨.nil, nofun⟩ (Nat.zero_le _)
    obtain ⟨w, u, hw, hu, hclient⟩ := Outline.Reached.run_alike d.read_nested rfl
      (.new c.config) rfl hs hguarded halike
    have hconfig : w.converter.config = c.config :=
      congrArg Circumstances.config (feed_keeps Builder.client_follows hw)
    have hreports : w.converter.reports = [] :=
      congrArg Circumstances.reports (feed_keeps Builder.client_follows hw)
    have hconfig' : u.converter.config = c.config :=
      congrArg Circumstances.config (feed_keeps Builder.client_follows hu)
    have hreports' : u.converter.reports = c.reports :=
      congrArg Circumstances.reports (feed_keeps Builder.client_follows hu)
    have hnew := seen_delivered (w := w₀) (fun _ x => x.record) hw
    have hshared := seen_delivered (w := u₀) (fun _ x => x.record) hu
    rw [Declaration.build_eq_seen, hnew, hshared, hconfig, hreports, hconfig', hreports', hclient]
    rfl

private def littered : Converter Part where
  config :=
    { indentWidth_pos := Config.defaultIndentWidth_pos
      maxFileSize_pos := Config.defaultMaxFileSize_pos }
  session :=
    { mode := .markdown, indent := { width := 4, level := 1 }, output := ["\n".toList]
      context := { lists := [.bullet] } }
  saved := [.new 4 .text]
  capturing := true
  pending := [.layout .endList, .client .name]
  raw := some []

private def listThenName : Document :=
  .ofString "<F><List-Bullet><Item>x</Item></List-Bullet><Name> f</Name></F>"

set_option maxRecDepth 3000 in
private theorem listThenName_read : listThenName.read =
    ⟨[.openElement "F".toList [], .openElement "List-Bullet".toList [],
      .openElement "Item".toList [], .characters "x".toList, .closeElement "Item".toList,
      .closeElement "List-Bullet".toList, .openElement "Name".toList [], .characters " f".toList,
      .closeElement "Name".toList, .closeElement "F".toList], .complete⟩ := by cbv

theorem Converter.littered_as_new :
    Outline.Sheltered {} listThenName.read.events ∧
    seen (fun _ x => x.record)
        (convert (some Builder.client) listThenName ⟨{}, littered.handOver⟩) =
      (.ok { kind := some "F".toList, name := some "f".toList }, []) := by
  have hs : Outline.Sheltered {} listThenName.read.events := by
    rw [listThenName_read]
    decide
  refine ⟨hs, ((Converter.shared_as_new littered listThenName).2.2 hs).trans ?_⟩
  unfold Declaration.build convert
  rw [listThenName_read]
  rfl

end DocMarkdown
