import DocMarkdown.Markdown.Readings
import Mathlib.Data.List.Basic

/-! The tags that are read as images. A value may run over quotes, so that a tag has as many
readings as there are ways to cut it into values. All of them are listed in order of preference, and
the one pass over the tag finds the first. Where no value holds a quote that is the tag as it was
built. -/

namespace DocMarkdown.Markdown

namespace Image

def marked (mark : Text) (value : Option Text) : Text := value.elim [] (mark ++ ·)

def body (i : Image) : Text :=
  i.source ++ (marked titleMark i.title ++ marked alternativeMark i.alternative)

/-- The tag with these values: the source, the title and the alternative text, in this order, and
nothing else. -/
def tag (i : Image) : Text := sourceMark ++ i.body ++ endMark

def values (i : Image) : List Text := i.source :: (i.title.toList ++ i.alternative.toList)

/-- The fragment is the tag with these values, and none of them holds a line feed. -/
def Reads (i : Image) (html : Text) : Prop := html = i.tag ∧ ∀ v ∈ i.values, '\n' ∉ v

def Quoteless (i : Image) : Prop := ∀ v ∈ i.values, '"' ∉ v

instance (i : Image) : Decidable i.Quoteless :=
  inferInstanceAs (Decidable (∀ v ∈ i.values, '"' ∉ v))

/-- A value comes before a longer one and before none. -/
def Preferred : Option Text → Option Text → Prop
  | some v, some w => v.length < w.length
  | some _, none => True
  | none, _ => False

def Precedes (i j : Image) : Prop :=
  i.source.length < j.source.length ∨ i.source = j.source ∧
    (Preferred i.title j.title ∨ i.title = j.title ∧ Preferred i.alternative j.alternative)

theorem Preferred.asymm {o p : Option Text} (h : Preferred o p) : ¬ Preferred p o := by
  cases o with
  | none => exact h.elim
  | some v =>
    cases p with
    | none => exact id
    | some w => exact Nat.lt_asymm h

theorem Precedes.asymm {i j : Image} (h : i.Precedes j) : ¬ j.Precedes i := by
  rintro (hlength | ⟨hsource, htitle | ⟨htitle, halternative⟩⟩)
  · rcases h with h | ⟨hi, -⟩
    · omega
    · rw [hi] at hlength
      omega
  · rcases h with h | ⟨-, h | ⟨hi, -⟩⟩
    · rw [hsource] at h
      omega
    · exact h.asymm htitle
    · rw [hi] at htitle
      exact htitle.asymm htitle
  · rcases h with h | ⟨-, h | ⟨-, h⟩⟩
    · rw [hsource] at h
      omega
    · rw [htitle] at h
      exact h.asymm h
    · exact h.asymm halternative

end Image

section Marks
variable {mark : Text}

theorem isPrefixOf?_marked (h : mark ≠ []) (o : Option Text) :
    mark.isPrefixOf? (Image.marked mark o) = o := by
  cases o with
  | none =>
    obtain ⟨c, rest, rfl⟩ := List.exists_cons_of_ne_nil h
    rfl
  | some v => exact List.isPrefixOf?_eq_some_iff_append_eq.mpr rfl

theorem marked_isPrefixOf? {t : Text} (h : t = [] ∨ mark.isPrefixOf t = true) (hm : mark ≠ []) :
    Image.marked mark (mark.isPrefixOf? t) = t := by
  rcases h with rfl | h
  · obtain ⟨c, rest, rfl⟩ := List.exists_cons_of_ne_nil hm
    rfl
  · rw [← List.isSome_isPrefixOf?_eq_isPrefixOf, Option.isSome_iff_exists] at h
    obtain ⟨v, hv⟩ := h
    rw [hv]
    exact List.isPrefixOf?_eq_some_iff_append_eq.mp hv

theorem marked_eq_nil_or (o : Option Text) :
    Image.marked mark o = [] ∨ mark.isPrefixOf (Image.marked mark o) = true := by
  cases o with
  | none => exact .inl rfl
  | some v => exact .inr (List.isPrefixOf_iff_prefix.mpr (List.prefix_append mark v))

end Marks

section Breaking
variable {begins : Text → Bool}

theorem breakBefore_shortest (begins : Text → Bool) (done t : Text) :
    ∃ p r, breakBefore begins done t = (done.reverse ++ p, r) ∧ t = p ++ r ∧
      (r = [] ∨ begins r = true) ∧
      ∀ x y, t = x ++ y → (y = [] ∨ begins y = true) → x = p ∧ y = r ∨ p.length < x.length := by
  induction t generalizing done with
  | nil =>
    refine ⟨[], [], by simp [breakBefore], rfl, .inl rfl, fun x y ht _ => .inl ?_⟩
    simpa [eq_comm] using ht
  | cons c t ih =>
    cases hc : begins (c :: t) with
    | true =>
      refine ⟨[], c :: t, by simp [breakBefore, hc], rfl, .inr hc, fun x y ht _ => ?_⟩
      cases x with
      | nil => exact .inl ⟨rfl, ht.symm⟩
      | cons d x => exact .inr (Nat.succ_pos _)
    | false =>
      obtain ⟨p, r, hbreak, ht, hr, hfirst⟩ := ih (c :: done)
      refine ⟨c :: p, r, ?_, by rw [ht, List.cons_append], hr, fun x y hxy hy => ?_⟩
      · rw [breakBefore, if_neg (by simp [hc]), hbreak, List.reverse_cons, List.append_assoc,
          List.singleton_append]
      · cases x with
        | nil =>
          rw [List.nil_append] at hxy
          subst hxy
          simp [hc] at hy
        | cons d x =>
          obtain ⟨rfl, hrest⟩ := List.cons_eq_cons.mp hxy
          rcases hfirst x y hrest hy with ⟨rfl, rfl⟩ | hlt
          · exact .inl ⟨rfl, rfl⟩
          · exact .inr (Nat.succ_lt_succ hlt)

theorem breakBefore_of_not_mem (hquote : ∀ y, begins y = true → ∃ y', y = '"' :: y') {x y : Text}
    (hx : '"' ∉ x) (hy : y = [] ∨ begins y = true) : breakBefore begins [] (x ++ y) = (x, y) := by
  obtain ⟨p, r, hbreak, ht, hr, hfirst⟩ := breakBefore_shortest begins [] (x ++ y)
  rw [hbreak, List.reverse_nil, List.nil_append]
  rcases hfirst x y rfl hy with ⟨rfl, rfl⟩ | hlt
  · rfl
  · obtain ⟨u, rfl, hu⟩ | ⟨u, rfl, rfl⟩ := List.append_eq_append_iff.mp ht
    · rw [List.length_append] at hlt
      omega
    · rcases hr with hr | hr
      · obtain ⟨rfl, rfl⟩ := List.append_eq_nil_iff.mp hr
        simp at hlt
      · obtain ⟨y', hy'⟩ := hquote _ hr
        cases u with
        | nil => simp at hlt
        | cons d u =>
          obtain ⟨rfl, -⟩ := List.cons_eq_cons.mp hy'
          simp at hx

end Breaking

theorem withoutEnd?_eq_some_iff {ending t body : Text} :
    withoutEnd? ending t = some body ↔ body ++ ending = t :=
  List.isSuffixOf?_eq_some_iff_append_eq

namespace Image

def later (rest : Text) : Option Text × Option Text :=
  match titleMark.isPrefixOf? rest with
  | some rest =>
    let (title, rest) := breakBefore alternativeMark.isPrefixOf [] rest
    (some title, alternativeMark.isPrefixOf? rest)
  | none => (none, alternativeMark.isPrefixOf? rest)

def beginsLater (t : Text) : Bool := titleMark.isPrefixOf t || alternativeMark.isPrefixOf t

theorem ofBody_eq {body source rest : Text} (h : breakBefore beginsLater [] body = (source, rest)) :
    ofBody body = ⟨source, (later rest).1, (later rest).2⟩ := by
  have hbreak : breakBefore (fun t => titleMark.isPrefixOf t || alternativeMark.isPrefixOf t) []
      body = (source, rest) := h
  simp only [ofBody, hbreak, later]
  cases titleMark.isPrefixOf? rest <;> rfl

theorem later_title {title rest : Text} {t : Text}
    (h : breakBefore alternativeMark.isPrefixOf [] t = (title, rest)) :
    later (titleMark ++ t) = (some title, alternativeMark.isPrefixOf? rest) := by
  have hmark : titleMark.isPrefixOf? (titleMark ++ t) = some t :=
    List.isPrefixOf?_eq_some_iff_append_eq.mpr rfl
  simp only [later, hmark, h]

theorem later_untitled {rest : Text} (h : titleMark.isPrefixOf? rest = none) :
    later rest = (none, alternativeMark.isPrefixOf? rest) := by
  simp only [later, h]

theorem alternativeMark_ne_nil : alternativeMark ≠ [] := by decide

theorem beginsLater_marked (o p : Option Text) :
    let rest := marked titleMark o ++ marked alternativeMark p
    rest = [] ∨ beginsLater rest = true := by
  cases o with
  | some t =>
    right
    rw [beginsLater, marked, Option.elim_some, List.append_assoc,
      List.isPrefixOf_iff_prefix.mpr (List.prefix_append _ _), Bool.true_or]
  | none =>
    refine (marked_eq_nil_or p).imp id fun h => ?_
    exact Bool.or_eq_true_iff.mpr (.inr h)

theorem titleMark_prefix_marked (o : Option Text) :
    titleMark.isPrefixOf? (marked alternativeMark o) = none := by
  cases o <;> rfl

theorem later_first {rest : Text} (h : rest = [] ∨ beginsLater rest = true) :
    marked titleMark (later rest).1 ++ marked alternativeMark (later rest).2 = rest ∧
      ∀ o p, marked titleMark o ++ marked alternativeMark p = rest →
        (o, p) = later rest ∨ Preferred (later rest).1 o := by
  cases ht : titleMark.isPrefixOf? rest with
  | none =>
    have hrest : rest = [] ∨ alternativeMark.isPrefixOf rest = true := by
      refine h.imp id fun hb => ?_
      rw [beginsLater, ← List.isSome_isPrefixOf?_eq_isPrefixOf, ht] at hb
      exact hb
    rw [later_untitled ht]
    refine ⟨marked_isPrefixOf? hrest alternativeMark_ne_nil, fun o p hop => .inl ?_⟩
    cases o with
    | none =>
      rw [← hop, marked, Option.elim_none, List.nil_append,
        isPrefixOf?_marked alternativeMark_ne_nil]
    | some t =>
      rw [← hop, marked, Option.elim_some, List.append_assoc] at ht
      rw [List.isPrefixOf?_eq_some_iff_append_eq.mpr rfl] at ht
      cases ht
  | some t =>
    obtain rfl := (List.isPrefixOf?_eq_some_iff_append_eq.mp ht).symm
    obtain ⟨title, r, hbreak, rfl, hr, hfirst⟩ :=
      breakBefore_shortest alternativeMark.isPrefixOf [] t
    rw [later_title hbreak]
    refine ⟨?_, fun o p hop => ?_⟩
    · simp only [marked_isPrefixOf? hr alternativeMark_ne_nil]
      exact List.append_assoc titleMark title r
    · cases o with
      | none => exact .inr trivial
      | some v =>
        rw [marked, Option.elim_some, List.append_assoc, List.append_cancel_left_eq] at hop
        rcases hfirst v _ hop.symm (marked_eq_nil_or p) with ⟨rfl, hrest⟩ | hlt
        · rw [← hrest, isPrefixOf?_marked alternativeMark_ne_nil]
          exact .inl rfl
        · exact .inr hlt

theorem ofBody_first (body : Text) :
    (ofBody body).body = body ∧
      ∀ i : Image, i.body = body → i = ofBody body ∨ (ofBody body).Precedes i := by
  obtain ⟨source, rest, hbreak, rfl, hrest, hfirst⟩ := breakBefore_shortest beginsLater [] body
  obtain ⟨hlater, hbest⟩ := later_first hrest
  rw [ofBody_eq hbreak]
  refine ⟨congrArg (source ++ ·) hlater, fun i hi => ?_⟩
  obtain ⟨s, o, p⟩ := i
  rcases hfirst s _ hi.symm (beginsLater_marked o p) with ⟨rfl, hop⟩ | hlt
  · rcases hbest o p hop with heq | hpreferred
    · rw [← heq]
      exact .inl rfl
    · exact .inr (.inr ⟨rfl, .inl hpreferred⟩)
  · exact .inr (.inl hlt)

theorem quote_of_isPrefixOf {mark t : Text} (h : List.isPrefixOf ('"' :: mark) t = true) :
    ∃ rest, t = '"' :: rest := by
  obtain ⟨rest, rfl⟩ := List.isPrefixOf_iff_prefix.mp h
  exact ⟨mark ++ rest, rfl⟩

theorem quote_of_beginsLater {t : Text} (h : beginsLater t = true) : ∃ rest, t = '"' :: rest :=
  (Bool.or_eq_true_iff.mp h).elim quote_of_isPrefixOf quote_of_isPrefixOf

theorem later_of_quoteless {o : Option Text} (h : ∀ v ∈ o, '"' ∉ v) (p : Option Text) :
    later (marked titleMark o ++ marked alternativeMark p) = (o, p) := by
  have hp : alternativeMark.isPrefixOf? (marked alternativeMark p) = p :=
    isPrefixOf?_marked alternativeMark_ne_nil p
  cases o with
  | none =>
    rw [marked, Option.elim_none, List.nil_append, later_untitled (titleMark_prefix_marked p), hp]
  | some v =>
    have hquote : ∀ t, alternativeMark.isPrefixOf t = true → ∃ rest, t = '"' :: rest :=
      fun _ => quote_of_isPrefixOf
    have hbreak := breakBefore_of_not_mem hquote (h v rfl) (marked_eq_nil_or p)
    rw [marked, Option.elim_some, List.append_assoc, later_title hbreak, hp]

theorem ofBody_body {i : Image} (h : i.Quoteless) : ofBody i.body = i := by
  obtain ⟨source, title, alternative⟩ := i
  have hsource : '"' ∉ source := h source List.mem_cons_self
  have htitle : ∀ v ∈ title, '"' ∉ v := fun v hv =>
    h v (List.mem_cons_of_mem _ (List.mem_append_left _ (Option.mem_toList.mpr hv)))
  have hbreak := breakBefore_of_not_mem (fun _ => quote_of_beginsLater) hsource
    (beginsLater_marked title alternative)
  rw [body, ofBody_eq hbreak, later_of_quoteless htitle]

end Image

section Readings
variable {t v r : Text} {c : Char}

def longerValues (c : Char) (t : Text) : List (Text × Text) :=
  if c = '\n' then [] else (quotedValues t).map fun (v, r) => (c :: v, r)

theorem quotedValues_cons (c : Char) (t : Text) :
    quotedValues (c :: t) = (if c = '"' then [([], t)] else []) ++ longerValues c t := by
  simp only [quotedValues, longerValues]
  by_cases hc : c = '"' <;> simp [hc]

theorem mem_longerValues :
    (v, r) ∈ longerValues c t ↔ c ≠ '\n' ∧ ∃ w, v = c :: w ∧ (w, r) ∈ quotedValues t := by
  by_cases hc : c = '\n'
  · simp [longerValues, hc]
  · simp [longerValues, hc, eq_comm, and_comm]

theorem mem_quotedValues : (v, r) ∈ quotedValues t ↔ t = v ++ '"' :: r ∧ '\n' ∉ v := by
  induction t generalizing v with
  | nil => simp [quotedValues]
  | cons c t ih =>
    rw [quotedValues_cons, List.mem_append, mem_longerValues]
    constructor
    · rintro (h | ⟨hc, w, rfl, hw⟩)
      · by_cases hc : c = '"' <;> simp_all
      · obtain ⟨rfl, hline⟩ := ih.mp hw
        exact ⟨rfl, by simp [hc.symm, hline]⟩
    · rintro ⟨ht, hline⟩
      cases v with
      | nil =>
        obtain ⟨rfl, rfl⟩ := List.cons_eq_cons.mp ht
        exact .inl (by simp)
      | cons d w =>
        obtain ⟨rfl, hrest⟩ := List.cons_eq_cons.mp ht
        rw [List.mem_cons, not_or] at hline
        exact .inr ⟨fun hc => hline.1 hc.symm, w, rfl, ih.mpr ⟨hrest, hline.2⟩⟩

theorem pairwise_quotedValues (t : Text) :
    (quotedValues t).Pairwise fun a b => a.1.length < b.1.length := by
  induction t with
  | nil => exact .nil
  | cons c t ih =>
    have hlonger : (longerValues c t).Pairwise fun a b => a.1.length < b.1.length := by
      unfold longerValues
      split
      · exact .nil
      · exact List.pairwise_map.mpr (ih.imp Nat.succ_lt_succ)
    have hempty : (if c = '"' then [([], t)] else []).Pairwise
        fun a b : Text × Text => a.1.length < b.1.length := by
      split
      · exact List.pairwise_singleton _ _
      · exact .nil
    rw [quotedValues_cons]
    refine List.pairwise_append.mpr ⟨hempty, hlonger, fun a ha b hb => ?_⟩
    obtain ⟨-, w, hw, -⟩ := mem_longerValues.mp hb
    have ha : a = ([], t) := by
      split at ha
      · exact List.mem_singleton.mp ha
      · cases ha
    rw [ha, hw]
    exact Nat.succ_pos _

variable {label : Text} {o : Option Text}

def presentValues (label t : Text) : List (Option Text × Text) :=
  match label.isPrefixOf? t with
  | some rest => (quotedValues rest).map fun (v, r) => (some v, r)
  | none => []

theorem optionalValues_eq (label t : Text) :
    optionalValues label t = presentValues label t ++ [(none, t)] := rfl

theorem mem_presentValues : (o, r) ∈ presentValues label t ↔
    ∃ v, o = some v ∧ t = label ++ (v ++ '"' :: r) ∧ '\n' ∉ v := by
  unfold presentValues
  cases ht : label.isPrefixOf? t with
  | none =>
    refine iff_of_false List.not_mem_nil ?_
    rintro ⟨v, -, rfl, -⟩
    rw [List.isPrefixOf?_eq_some_iff_append_eq.mpr rfl] at ht
    cases ht
  | some rest =>
    obtain rfl := List.isPrefixOf?_eq_some_iff_append_eq.mp ht
    simp only [List.mem_map, Prod.exists, Prod.mk.injEq, mem_quotedValues,
      List.append_cancel_left_eq]
    constructor
    · rintro ⟨v, r', hv, rfl, rfl⟩
      exact ⟨v, rfl, hv⟩
    · rintro ⟨v, rfl, hv⟩
      exact ⟨v, r, hv, rfl, rfl⟩

theorem mem_optionalValues : (o, r) ∈ optionalValues label t ↔
    '"' :: t = Image.marked ('"' :: label) o ++ '"' :: r ∧ ∀ v ∈ o, '\n' ∉ v := by
  rw [optionalValues_eq, List.mem_append, mem_presentValues, List.mem_singleton]
  cases o with
  | none => simp [Image.marked, eq_comm]
  | some v => simp [Image.marked]

theorem pairwise_optionalValues (label t : Text) :
    (optionalValues label t).Pairwise fun a b => Image.Preferred a.1 b.1 := by
  rw [optionalValues_eq]
  refine List.pairwise_append.mpr ⟨?_, List.pairwise_singleton _ _, fun a ha b hb => ?_⟩
  · unfold presentValues
    split
    · exact List.pairwise_map.mpr (pairwise_quotedValues _)
    · exact .nil
  · obtain ⟨v, hv, -⟩ := mem_presentValues.mp ha
    rw [List.mem_singleton.mp hb, hv]
    trivial

end Readings

namespace Image
variable {html source t : Text} {title : Option Text} {i : Image}

theorem reads_iff : i.Reads html ↔
    html = sourceMark ++ (i.source ++ (marked titleMark i.title ++
      (marked alternativeMark i.alternative ++ endMark))) ∧
    '\n' ∉ i.source ∧ (∀ v ∈ i.title, '\n' ∉ v) ∧ ∀ v ∈ i.alternative, '\n' ∉ v := by
  simp only [Reads, tag, body, values, List.append_assoc, List.mem_cons, List.mem_append,
    Option.mem_toList, Option.mem_def, or_imp, forall_and, forall_eq]

def readingsTitled (source : Text) (title : Option Text) (t : Text) : List Image :=
  (optionalValues " alt=\"".toList t).filterMap fun (alternative, rest) =>
    if rest = "/>".toList then some ⟨source, title, alternative⟩ else none

def readingsFrom (source t : Text) : List Image :=
  (optionalValues " title=\"".toList t).flatMap fun (title, rest) =>
    readingsTitled source title rest

theorem readings_eq (html : Text) :
    readings html = match sourceMark.isPrefixOf? html with
      | none => []
      | some rest => (quotedValues rest).flatMap fun (source, rest) => readingsFrom source rest :=
  rfl

theorem mem_readingsTitled : i ∈ readingsTitled source title t ↔
    i.source = source ∧ i.title = title ∧
      '"' :: t = marked alternativeMark i.alternative ++ endMark ∧
      ∀ v ∈ i.alternative, '\n' ∉ v := by
  rw [readingsTitled, List.mem_filterMap]
  constructor
  · rintro ⟨⟨alternative, rest⟩, hmem, hi⟩
    obtain ⟨ht, hline⟩ := mem_optionalValues.mp hmem
    simp only at hi
    split at hi
    · rename_i hrest
      subst hrest
      cases hi
      exact ⟨rfl, rfl, ht, hline⟩
    · cases hi
  · rintro ⟨rfl, rfl, ht, hline⟩
    exact ⟨(i.alternative, "/>".toList), mem_optionalValues.mpr ⟨ht, hline⟩, if_pos rfl⟩

theorem mem_readingsFrom : i ∈ readingsFrom source t ↔
    i.source = source ∧
      '"' :: t = marked titleMark i.title ++ (marked alternativeMark i.alternative ++ endMark) ∧
      (∀ v ∈ i.title, '\n' ∉ v) ∧ ∀ v ∈ i.alternative, '\n' ∉ v := by
  rw [readingsFrom, List.mem_flatMap]
  constructor
  · rintro ⟨⟨title, rest⟩, hmem, hi⟩
    obtain ⟨ht, htitle⟩ := mem_optionalValues.mp hmem
    obtain ⟨hsource, rfl, hrest, halternative⟩ := mem_readingsTitled.mp hi
    exact ⟨hsource, ht.trans (congrArg (marked titleMark i.title ++ ·) hrest), htitle,
      halternative⟩
  · rintro ⟨hsource, ht, htitle, halternative⟩
    obtain ⟨rest, hrest⟩ : ∃ rest,
        marked alternativeMark i.alternative ++ endMark = '"' :: rest := by
      cases i.alternative <;> exact ⟨_, rfl⟩
    rw [hrest] at ht
    exact ⟨(i.title, rest), mem_optionalValues.mpr ⟨ht, htitle⟩,
      mem_readingsTitled.mpr ⟨hsource, rfl, hrest.symm, halternative⟩⟩

theorem mem_readings : i ∈ readings html ↔ i.Reads html := by
  rw [readings_eq, reads_iff]
  cases hhtml : sourceMark.isPrefixOf? html with
  | none =>
    refine iff_of_false List.not_mem_nil ?_
    rintro ⟨rfl, -⟩
    rw [List.isPrefixOf?_eq_some_iff_append_eq.mpr rfl] at hhtml
    cases hhtml
  | some rest =>
    obtain rfl := List.isPrefixOf?_eq_some_iff_append_eq.mp hhtml
    rw [List.append_cancel_left_eq, List.mem_flatMap]
    constructor
    · rintro ⟨⟨source, r⟩, hmem, hi⟩
      obtain ⟨rfl, hsource⟩ := mem_quotedValues.mp hmem
      obtain ⟨rfl, hr, hvalues⟩ := mem_readingsFrom.mp hi
      exact ⟨congrArg (i.source ++ ·) hr, hsource, hvalues⟩
    · rintro ⟨hrest, hsource, hvalues⟩
      obtain ⟨r, hr⟩ : ∃ r, marked titleMark i.title ++
          (marked alternativeMark i.alternative ++ endMark) = '"' :: r := by
        cases i.title <;> cases i.alternative <;> exact ⟨_, rfl⟩
      rw [hr] at hrest
      exact ⟨(i.source, r), mem_quotedValues.mpr ⟨hrest, hsource⟩,
        mem_readingsFrom.mpr ⟨rfl, hr.symm, hvalues⟩⟩

theorem pairwise_readingsTitled (source : Text) (title : Option Text) (t : Text) :
    (readingsTitled source title t).Pairwise Precedes := by
  refine List.pairwise_filterMap.mpr ((pairwise_optionalValues _ t).imp ?_)
  intro a b hab i hi j hj
  obtain ⟨-, hi⟩ := Option.ite_none_right_eq_some.mp hi
  obtain ⟨-, hj⟩ := Option.ite_none_right_eq_some.mp hj
  cases hi
  cases hj
  exact .inr ⟨rfl, .inr ⟨rfl, hab⟩⟩

theorem pairwise_readingsFrom (source t : Text) : (readingsFrom source t).Pairwise Precedes := by
  rw [readingsFrom, List.pairwise_flatMap]
  refine ⟨fun a _ => pairwise_readingsTitled source a.1 a.2,
    (pairwise_optionalValues _ t).imp ?_⟩
  intro a b hab i hi j hj
  obtain ⟨hi, hti, -⟩ := mem_readingsTitled.mp hi
  obtain ⟨hj, htj, -⟩ := mem_readingsTitled.mp hj
  rw [← hti, ← htj] at hab
  exact .inr ⟨hi.trans hj.symm, .inl hab⟩

theorem pairwise_readings (html : Text) : (readings html).Pairwise Precedes := by
  rw [readings_eq]
  cases sourceMark.isPrefixOf? html with
  | none => exact .nil
  | some rest =>
    have hbetween : (quotedValues rest).Pairwise fun a b =>
        ∀ i ∈ readingsFrom a.1 a.2, ∀ j ∈ readingsFrom b.1 b.2, Precedes i j := by
      refine (pairwise_quotedValues rest).imp ?_
      intro a b hab i hi j hj
      rw [← (mem_readingsFrom.mp hi).1, ← (mem_readingsFrom.mp hj).1] at hab
      exact .inl hab
    exact List.pairwise_flatMap.mpr ⟨fun a _ => pairwise_readingsFrom a.1 a.2, hbetween⟩

theorem not_mem_marked {mark : Text} (h : '\n' ∉ mark) (o : Option Text) :
    '\n' ∉ marked mark o ↔ ∀ v ∈ o, '\n' ∉ v := by
  cases o with
  | none => simp [marked]
  | some v => simp [marked, h]

theorem not_mem_body : '\n' ∉ i.body ↔ ∀ v ∈ i.values, '\n' ∉ v := by
  have htitle : '\n' ∉ titleMark := by decide
  have halternative : '\n' ∉ alternativeMark := by decide
  rw [body, List.mem_append, List.mem_append, not_or, not_or, not_mem_marked htitle,
    not_mem_marked halternative]
  simp only [values, List.mem_cons, List.mem_append, Option.mem_toList, Option.mem_def, or_imp,
    forall_and, forall_eq]

theorem reads_iff_body : i.Reads html ↔
    html = sourceMark ++ i.body ++ endMark ∧ '\n' ∉ i.body := by
  rw [Reads, tag, not_mem_body]

theorem read_eq_some_iff : read html = some i ↔
    ∃ body, '\n' ∉ body ∧ html = sourceMark ++ body ++ endMark ∧ i = ofBody body := by
  have hread : read html = (sourceMark.isPrefixOf? html).bind fun rest =>
      (withoutEnd? endMark rest).bind fun body =>
        if body.contains '\n' then none else some (.ofBody body) := rfl
  simp only [hread, Option.bind_eq_some_iff, List.isPrefixOf?_eq_some_iff_append_eq,
    withoutEnd?_eq_some_iff, Option.ite_none_left_eq_some, List.contains_iff_mem]
  constructor
  · rintro ⟨rest, rfl, body, rfl, hline, hi⟩
    exact ⟨body, hline, (List.append_assoc _ _ _).symm, (Option.some.inj hi).symm⟩
  · rintro ⟨body, hline, rfl, rfl⟩
    exact ⟨body ++ endMark, (List.append_assoc _ _ _).symm, body, rfl, hline, rfl⟩

theorem body_cancel {body body' : Text}
    (h : sourceMark ++ body ++ endMark = sourceMark ++ body' ++ endMark) : body = body' :=
  List.append_cancel_left (List.append_cancel_right h)

theorem read_first (h : read html = some i) :
    i.Reads html ∧ ∀ j : Image, j.Reads html → j = i ∨ i.Precedes j := by
  obtain ⟨body, hline, rfl, rfl⟩ := read_eq_some_iff.mp h
  obtain ⟨hbody, hfirst⟩ := ofBody_first body
  refine ⟨reads_iff_body.mpr ?_, fun j hj => hfirst j ?_⟩
  · rw [hbody]
    exact ⟨rfl, hline⟩
  · exact (body_cancel (reads_iff_body.mp hj).1).symm

theorem isSome_read_iff : (read html).isSome = true ↔
    ∃ s, '\n' ∉ s ∧ html = sourceMark ++ s ++ endMark := by
  simp only [Option.isSome_iff_exists, read_eq_some_iff]
  constructor
  · rintro ⟨i, body, hline, hhtml, -⟩
    exact ⟨body, hline, hhtml⟩
  · rintro ⟨body, hline, hhtml⟩
    exact ⟨ofBody body, body, hline, hhtml, rfl⟩

theorem isSome_read_of_reads (h : i.Reads html) : ∃ j, read html = some j := by
  obtain ⟨hhtml, hline⟩ := reads_iff_body.mp h
  exact Option.isSome_iff_exists.mp (isSome_read_iff.mpr ⟨i.body, hline, hhtml⟩)

theorem read_eq_head? (html : Text) : read html = (readings html).head? := by
  cases hall : readings html with
  | nil =>
    cases hread : read html with
    | none => rfl
    | some i =>
      have hi : i ∈ readings html := mem_readings.mpr (read_first hread).1
      rw [hall] at hi
      cases hi
  | cons k rest =>
    have hk : k ∈ readings html := hall ▸ List.mem_cons_self
    obtain ⟨i, hread⟩ := isSome_read_of_reads (mem_readings.mp hk)
    obtain ⟨hi, hfirst⟩ := read_first hread
    have hbefore := pairwise_readings html
    rw [hall, List.pairwise_cons] at hbefore
    rw [hread, List.head?_cons]
    rcases hfirst k (mem_readings.mp hk) with rfl | hik
    · rfl
    · have hmem := mem_readings.mpr hi
      rw [hall, List.mem_cons] at hmem
      rcases hmem with rfl | hmem
      · rfl
      · exact absurd (hbefore.1 i hmem) hik.asymm

theorem read_tag (hline : ∀ v ∈ i.values, '\n' ∉ v) (hquote : i.Quoteless) :
    read i.tag = some i :=
  read_eq_some_iff.mpr ⟨i.body, not_mem_body.mpr hline, rfl, (ofBody_body hquote).symm⟩

theorem markdown_eq (i : Image) :
    i.markdown = "![".toList ++ i.alternative.getD [] ++ "](".toList ++ i.source ++
      (i.title.elim [] fun t => " \"".toList ++ t ++ ['"']) ++ [')'] := by
  cases h : i.title <;> simp only [markdown, h] <;> rfl

/-- A fragment is read as an image just if it stands between the marks at both ends on one line.
Its values are those of the first reading, in the order in which they are tried. Values without
quotes and line feeds are read from the tag that is built of them, and become the image that has
them. -/
theorem read_eq_first (html : Text) :
    ((read html).isSome = true ↔ ∃ s, '\n' ∉ s ∧ html = sourceMark ++ s ++ endMark) ∧
    (read html = (readings html).head? ∧ (∀ i, i ∈ readings html ↔ i.Reads html) ∧
      (readings html).Pairwise Precedes) ∧
    ∀ i : Image, (∀ v ∈ i.values, '\n' ∉ v) → i.Quoteless →
      (read i.tag).map markdown =
        some ("![".toList ++ i.alternative.getD [] ++ "](".toList ++ i.source ++
          (i.title.elim [] fun t => " \"".toList ++ t ++ ['"']) ++ [')']) := by
  refine ⟨isSome_read_iff, ⟨read_eq_head? html, fun _ => mem_readings, pairwise_readings html⟩,
    fun i hline hquote => ?_⟩
  rw [read_tag hline hquote, Option.map_some, markdown_eq]

private def quotedAlternative : Text :=
  "<img src=\"a\" title=\"\" alt=\"b\" alt=\"c\"/>".toList

private def emptyTitle : Image := ⟨"a".toList, some [], some "b".toList⟩

theorem read_quotedAlternative :
    (readings quotedAlternative).length = 6 ∧
    read quotedAlternative = some ⟨"a".toList, some [], some "b\" alt=\"c".toList⟩ ∧
    (∀ v ∈ emptyTitle.values, '\n' ∉ v) ∧ emptyTitle.Quoteless ∧
    emptyTitle.tag = "<img src=\"a\" title=\"\" alt=\"b\"/>".toList ∧
    (read emptyTitle.tag).map markdown = some "![b](a \"\")".toList := by
  have hline : ∀ v ∈ emptyTitle.values, '\n' ∉ v := by decide
  have hquote : emptyTitle.Quoteless := by decide
  obtain ⟨-, ⟨hread, -⟩, -⟩ := read_eq_first quotedAlternative
  exact ⟨by decide, hread.trans (by decide), hline, hquote, by decide,
    (read_eq_first []).2.2 emptyTitle hline hquote⟩

end Image

end DocMarkdown.Markdown
