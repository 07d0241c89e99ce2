import DocMarkdown.Proofs.Outcome
import DocMarkdown.Proofs.Settings.Nearest

/-! The configuration that is made of a table and overrides. Each field has the value of its
override, or else that of the last key for it in the table, or else its default; whether there is a
configuration depends on these three values and on the keys of the table alone. -/

namespace DocMarkdown

def Config.value (config : Config) : Settings.Field → Settings.Value
  | .indentWidth => .integer config.indentWidth
  | .strict => .boolean config.strict
  | .maxFileSize => .integer config.maxFileSize

namespace Settings
open Files

def Field.Accepts : Field → Value → Prop
  | .strict, v => ∃ b, v = .boolean b
  | _, v => ∃ n : Int, 0 < n ∧ v = .integer n

/-- The value of the last entry for a field. -/
def lastFor (fieldOf : Text → Option Field) (field : Field) (entries : Entries) : Option Value :=
  (entries.reverse.find? fun e => fieldOf e.1 == some field).map (·.2)

def merged (entries overrides : Entries) (field : Field) : Value :=
  (lastFor Field.ofName? field (changes overrides)).getD
    ((lastFor Field.ofKey? field entries).getD (({} : Settings).get field))

/-- The table that a search from a directory finds, with the candidate that gives it. -/
inductive Located (look : Lookup) (directory : Path) : Option (Candidate × Value) → Prop
  | found {before after : List Candidate} {a : Candidate} {v : Value}
      (hsplit : candidates directory = before ++ a :: after)
      (hbefore : ∀ b ∈ before, b.Gives look none) (hgives : a.Gives look (some (.ok v))) :
      Located look directory (some (a, v))
  | nothing (h : ∀ a ∈ candidates directory, a.Gives look none) : Located look directory none

def entriesOf : Option (Candidate × Value) → Option Entries
  | none => some []
  | some (_, .null) => some []
  | some (_, .table entries) => some entries
  | some _ => none

structure Fields (raw : Option (Candidate × Value)) (entries : Entries) : Prop where
  given : entriesOf raw = some entries
  known : ∀ e ∈ entries, Field.ofKey? e.1 ≠ none

theorem get_set (s : Settings) (v : Value) (field field' : Field) :
    (s.set v field).get field' = if field = field' then v else s.get field' := by
  cases field <;> cases field' <;> rfl

section Assign
variable {fieldOf : Text → Option Field}

theorem lastFor_cons (field : Field) (e : Text × Value) (entries : Entries) :
    lastFor fieldOf field (e :: entries) =
      (lastFor fieldOf field entries).or (if fieldOf e.1 = some field then some e.2 else none) := by
  rw [lastFor, lastFor, List.reverse_cons, List.find?_append]
  cases entries.reverse.find? fun e => fieldOf e.1 == some field with
  | some last => rfl
  | none => by_cases h : fieldOf e.1 = some field <;> simp [h]

theorem exists_assign (s : Settings) {entries : Entries}
    (h : ∀ e ∈ entries, fieldOf e.1 ≠ none) : ∃ s', s.assign fieldOf entries = some s' := by
  induction entries generalizing s with
  | nil => exact ⟨s, rfl⟩
  | cons e entries ih =>
    rw [List.forall_mem_cons] at h
    obtain ⟨field, hfield⟩ := Option.ne_none_iff_exists'.mp h.1
    obtain ⟨s', hs'⟩ := ih (s.set e.2 field) h.2
    refine ⟨s', ?_⟩
    rw [assign, hfield]
    exact hs'

theorem of_assign {s s' : Settings} {entries : Entries} (h : s.assign fieldOf entries = some s') :
    (∀ e ∈ entries, fieldOf e.1 ≠ none) ∧
      ∀ field, s'.get field = (lastFor fieldOf field entries).getD (s.get field) := by
  induction entries generalizing s with
  | nil =>
    cases h
    exact ⟨by simp, fun _ => rfl⟩
  | cons e entries ih =>
    rw [assign, Option.bind_eq_some_iff] at h
    obtain ⟨field, hfield, hrest⟩ := h
    obtain ⟨hknown, hget⟩ := ih hrest
    refine ⟨List.forall_mem_cons.mpr ⟨by simp [hfield], hknown⟩, ?_⟩
    intro field'
    rw [hget, get_set, lastFor_cons, Option.getD_or, hfield]
    by_cases h : field = field' <;> simp [h]

theorem assign_eq_none_iff (s : Settings) (entries : Entries) :
    s.assign fieldOf entries = none ↔ ¬ ∀ e ∈ entries, fieldOf e.1 ≠ none := by
  constructor
  · intro hnone hknown
    obtain ⟨s', hs'⟩ := exists_assign s hknown
    rw [hnone] at hs'
    cases hs'
  · intro hunknown
    cases h : s.assign fieldOf entries with
    | none => rfl
    | some s' => exact absurd (of_assign h).1 hunknown

end Assign

theorem eq_of_get {s s' : Settings} (h : ∀ field, s.get field = s'.get field) : s = s' := by
  obtain ⟨indentWidth, strict, maxFileSize⟩ := s
  obtain ⟨indentWidth', strict', maxFileSize'⟩ := s'
  have h₁ : indentWidth = indentWidth' := h .indentWidth
  have h₂ : strict = strict' := h .strict
  have h₃ : maxFileSize = maxFileSize' := h .maxFileSize
  rw [h₁, h₂, h₃]

theorem Field.accepts_value (config : Config) (field : Field) :
    field.Accepts (config.value field) := by
  cases field with
  | indentWidth => exact ⟨config.indentWidth, by have := config.indentWidth_pos; omega, rfl⟩
  | strict => exact ⟨config.strict, rfl⟩
  | maxFileSize => exact ⟨config.maxFileSize, by have := config.maxFileSize_pos; omega, rfl⟩

theorem integer_of_get {s : Settings} {field : Field} {n : Int} (h : s.get field = .integer n) :
    s.integer field = .ok n := by
  rw [integer, h]

theorem of_integer {s : Settings} {field : Field} {n : Int} (h : s.integer field = .ok n) :
    s.get field = .integer n := by
  unfold integer at h
  split at h <;> simp_all

theorem exists_check {s : Settings} (h : ∀ field : Field, field.Accepts (s.get field)) :
    ∃ config, s.check = .ok config := by
  obtain ⟨m, hm, hindent⟩ := h .indentWidth
  obtain ⟨n, hn, hsize⟩ := h .maxFileSize
  obtain ⟨b, hstrict⟩ := h .strict
  have hb : s.strict = .boolean b := hstrict
  refine ⟨⟨m.toNat, b, n.toNat, by omega, by omega⟩, ?_⟩
  rw [check, integer_of_get hindent, integer_of_get hsize, hb]
  simp only [bind, Except.bind, positive, hm, hn]
  rfl

theorem of_positive {n : Int} {field : Field} {p : { n : Nat // 0 < n }}
    (h : positive n field = .ok p) : (p.1 : Int) = n := by
  unfold positive at h
  split at h
  · cases h
    exact Int.toNat_of_nonneg (by omega)
  · cases h

theorem get_of_check {s : Settings} {config : Config} (h : s.check = .ok config) (field : Field) :
    s.get field = config.value field := by
  obtain ⟨m, hindent, h⟩ := Except.of_bind_ok h
  obtain ⟨n, hsize, h⟩ := Except.of_bind_ok h
  obtain ⟨⟨m', hm'⟩, hm, h⟩ := Except.of_bind_ok h
  obtain ⟨⟨n', hn'⟩, hn, h⟩ := Except.of_bind_ok h
  cases hstrict : s.strict with
  | boolean b =>
    rw [hstrict] at h
    cases h
    cases field with
    | indentWidth => rw [of_integer hindent, ← of_positive hm]; rfl
    | strict => exact hstrict
    | maxFileSize => rw [of_integer hsize, ← of_positive hn]; rfl
  | _ =>
    rw [hstrict] at h
    cases h

section Build
variable {look : Lookup} {directory : Path} {raw : Option (Candidate × Value)}
  {entries overrides : Entries}

theorem ofTable_of_fields {a : Candidate} {v : Value} (h : Fields (some (a, v)) entries)
    (path : List Text) (file : Text) :
    ∃ s, assign Field.ofKey? {} entries = some s ∧ ofTable path file v = .ok s := by
  obtain ⟨hentries, hknown⟩ := h
  obtain ⟨s, hs⟩ := exists_assign {} hknown
  cases v with
  | null =>
    cases hentries
    exact ⟨{}, rfl, rfl⟩
  | table entries' =>
    cases hentries
    exact ⟨s, hs, by rw [ofTable, hs]⟩
  | _ => cases hentries

theorem ofTable_of_no_fields {a : Candidate} {v : Value}
    (h : ¬ ∃ entries, Fields (some (a, v)) entries) (path : List Text) (file : Text) :
    ofTable path file v = .error (.badTable path file) := by
  cases v with
  | null => exact absurd ⟨[], rfl, by simp⟩ h
  | table entries =>
    have hunknown : assign Field.ofKey? {} entries = none :=
      (assign_eq_none_iff {} entries).mpr fun hknown => h ⟨entries, rfl, hknown⟩
    rw [ofTable, hunknown]
  | _ => rfl

theorem search_of_fields (hraw : Located look directory raw) (h : Fields raw entries) :
    ∃ s, assign Field.ofKey? {} entries = some s ∧ search (placesFrom look directory) = .ok s := by
  cases hraw with
  | @found before after a v hsplit hbefore hgives =>
    obtain ⟨s, hs, htable⟩ := ofTable_of_fields h a.table a.path.shown
    refine ⟨s, hs, ?_⟩
    rw [search_of_first hsplit hbefore hgives]
    simp only [Candidate.decision, bind, Except.bind, htable]
    rfl
  | nothing hnone =>
    obtain ⟨hentries, -⟩ := h
    cases hentries
    exact ⟨{}, rfl, search_of_none hnone⟩

theorem search_of_no_fields (hraw : Located look directory raw)
    (h : ¬ ∃ entries, Fields raw entries) :
    ∃ f, search (placesFrom look directory) = .error (.settings f) := by
  cases hraw with
  | @found before after a v hsplit hbefore hgives =>
    refine ⟨.badTable a.table a.path.shown, ?_⟩
    rw [search_of_first hsplit hbefore hgives]
    simp only [Candidate.decision, bind, Except.bind, ofTable_of_no_fields h]
    rfl
  | nothing hnone => exact absurd ⟨[], rfl, by simp⟩ h

theorem any_eq_false_of_named {name : Text} (hname : Field.ofName? name = none)
    (h : ∀ e ∈ overrides, Field.ofName? e.1 ≠ none) : overrides.any (·.1 == name) = false := by
  rw [List.any_eq_false]
  intro e he heq
  rw [beq_iff_eq] at heq
  exact h e he (heq ▸ hname)

theorem build_of_search_error {places : List Place} {f : SearchFault}
    (hnamed : ∀ e ∈ overrides, Field.ofName? e.1 ≠ none) (h : search places = .error f) :
    build places overrides = .error (.search f) := by
  rw [build, any_eq_false_of_named (by decide) hnamed, h]
  rfl

theorem build_of_search {places : List Place} {s : Settings}
    (hnamed : ∀ e ∈ overrides, Field.ofName? e.1 ≠ none) (h : search places = .ok s) :
    ∃ s' : Settings, build places overrides = s'.check.mapError .invalid ∧
      ∀ field, s'.get field =
        (lastFor Field.ofName? field (changes overrides)).getD (s.get field) := by
  have hchanges : ∀ e ∈ changes overrides, Field.ofName? e.1 ≠ none :=
    fun e he => hnamed e (List.mem_filter.mp he).1
  obtain ⟨s', hs'⟩ := exists_assign s hchanges
  refine ⟨s', ?_, (of_assign hs').2⟩
  have hoverride : s.override overrides = some s' := by
    rw [override, any_eq_false_of_named (by decide) hnamed]
    exact hs'
  rw [build, any_eq_false_of_named (by decide) hnamed, h]
  simp only [Except.mapError, bind, Except.bind, hoverride]
  rfl

theorem build_of_fields (hraw : Located look directory raw) (h : Fields raw entries)
    (hnamed : ∀ e ∈ overrides, Field.ofName? e.1 ≠ none) :
    ∃ s : Settings, build (placesFrom look directory) overrides = s.check.mapError .invalid ∧
      ∀ field, s.get field = merged entries overrides field := by
  obtain ⟨s, hs, hsearch⟩ := search_of_fields hraw h
  obtain ⟨s', hbuild, hget⟩ := build_of_search hnamed hsearch
  refine ⟨s', hbuild, ?_⟩
  intro field
  rw [hget, (of_assign hs).2, merged]

theorem build_of_no_fields (hraw : Located look directory raw)
    (h : ¬ ∃ entries, Fields raw entries)
    (hnamed : ∀ e ∈ overrides, Field.ofName? e.1 ≠ none) :
    ∃ f, build (placesFrom look directory) overrides = .error (.search (.settings f)) := by
  obtain ⟨f, hf⟩ := search_of_no_fields hraw h
  exact ⟨f, build_of_search_error hnamed hf⟩

/-- A configuration is made of a table that is located, and of overrides of the fields, exactly
when each key of the table stands for a field and each field accepts its merged value; these are
the values it has. Otherwise there is a fault of settings. What the table has for a field that is
overridden makes no difference. -/
theorem build_merged (overrides : Entries) (hraw : Located look directory raw)
    (hnamed : ∀ e ∈ overrides, Field.ofName? e.1 ≠ none) :
    ((∃ config, build (placesFrom look directory) overrides = .ok config) ↔
        ∃ entries, Fields raw entries ∧
          ∀ field : Field, field.Accepts (merged entries overrides field)) ∧
      (∀ config entries, build (placesFrom look directory) overrides = .ok config →
        Fields raw entries → ∀ field, config.value field = merged entries overrides field) ∧
      (∀ fault, build (placesFrom look directory) overrides = .error fault →
        (∃ f, fault = .search (.settings f)) ∨ ∃ f, fault = .invalid f) ∧
      ∀ look' directory' raw' entries entries', Located look' directory' raw' →
        Fields raw entries → Fields raw' entries' →
        (∀ field, lastFor Field.ofName? field (changes overrides) = none →
          lastFor Field.ofKey? field entries' = lastFor Field.ofKey? field entries) →
        build (placesFrom look' directory') overrides =
          build (placesFrom look directory) overrides := by
  refine ⟨⟨?_, ?_⟩, ?_, ?_, ?_⟩
  · rintro ⟨config, hconfig⟩
    by_cases hfields : ∃ entries, Fields raw entries
    · obtain ⟨entries, hfields⟩ := hfields
      obtain ⟨s, hbuild, hget⟩ := build_of_fields hraw hfields hnamed
      rw [hbuild, Except.mapError_ok_iff] at hconfig
      refine ⟨entries, hfields, ?_⟩
      intro field
      rw [← hget, get_of_check hconfig]
      exact Field.accepts_value config field
    · obtain ⟨f, hbuild⟩ := build_of_no_fields hraw hfields hnamed
      rw [hbuild] at hconfig
      cases hconfig
  · rintro ⟨entries, hfields, haccepts⟩
    obtain ⟨s, hbuild, hget⟩ := build_of_fields hraw hfields hnamed
    obtain ⟨config, hcheck⟩ := exists_check fun field => hget field ▸ haccepts field
    exact ⟨config, by rw [hbuild, hcheck]; rfl⟩
  · intro config entries hconfig hfields field
    obtain ⟨s, hbuild, hget⟩ := build_of_fields hraw hfields hnamed
    rw [hbuild, Except.mapError_ok_iff] at hconfig
    rw [← hget, get_of_check hconfig]
  · intro fault hfault
    by_cases hfields : ∃ entries, Fields raw entries
    · obtain ⟨entries, hfields⟩ := hfields
      obtain ⟨s, hbuild, -⟩ := build_of_fields hraw hfields hnamed
      rw [hbuild] at hfault
      obtain ⟨f, -, rfl⟩ := Except.of_mapError_error hfault
      exact .inr ⟨f, rfl⟩
    · obtain ⟨f, hbuild⟩ := build_of_no_fields hraw hfields hnamed
      rw [hbuild] at hfault
      exact .inl ⟨f, (Except.error.inj hfault).symm⟩
  · intro look' directory' raw' entries entries' hraw' hfields hfields' hagree
    obtain ⟨s, hbuild, hget⟩ := build_of_fields hraw hfields hnamed
    obtain ⟨s', hbuild', hget'⟩ := build_of_fields hraw' hfields' hnamed
    have hsame : s' = s := by
      apply eq_of_get
      intro field
      rw [hget, hget', merged, merged]
      cases hoverride : lastFor Field.ofName? field (changes overrides) with
      | some v => rfl
      | none => rw [hagree field hoverride]
    rw [hbuild, hbuild', hsame]

end Build

def rootTable (text : Text) : Lookup := fun p =>
  if p = ⟨['/'], [dotfileName]⟩ then .ofBytes (Text.Utf8.encode text) else .refused .notFound

theorem located_rootTable {text : Text} {entries : Entries}
    (ht : Text.Utf8.decode? (Text.Utf8.encode text) = .ok text)
    (hread : Toml.read text = .ok (.table [(tableName, .table entries)])) :
    Located (rootTable text) ⟨['/'], []⟩
      (some (⟨⟨['/'], [dotfileName]⟩, [tableName]⟩, .table entries)) := by
  have hbefore : Candidate.Gives (rootTable text) ⟨⟨['/'], [projectName]⟩, toolTable⟩ none :=
    .missing rfl
  have hsplit : candidates ⟨['/'], []⟩ = [⟨⟨['/'], [projectName]⟩, toolTable⟩] ++
      ⟨⟨['/'], [dotfileName]⟩, [tableName]⟩ :: [⟨⟨['/'], [dotfileName]⟩, toolTable⟩] := rfl
  refine .found hsplit ?_ (.table rfl ht hread rfl)
  intro b hb
  rw [List.mem_singleton] at hb
  rw [hb]
  exact hbefore

def unsoundText : Text := "[xml-to-markdown]\nindent-width=0\nindent_width=2\nstrict=1".toList

theorem located_unsoundText :
    Located (rootTable unsoundText) ⟨['/'], []⟩ (some (⟨⟨['/'], [dotfileName]⟩, [tableName]⟩,
      .table [("indent-width".toList, .integer 0), ("indent_width".toList, .integer 2),
        ("strict".toList, .integer 1)])) := by
  apply located_rootTable
  · rfl
  · cbv

theorem build_unsoundText :
    (∃ config, build (placesFrom (rootTable unsoundText) ⟨['/'], []⟩)
        [("strict".toList, .boolean true)] = .ok config ∧
      config.value .indentWidth = .integer 2 ∧ config.value .strict = .boolean true) ∧
    ¬ ∃ config, build (placesFrom (rootTable unsoundText) ⟨['/'], []⟩) [] = .ok config := by
  have hfields : Fields (some (⟨⟨['/'], [dotfileName]⟩, [tableName]⟩,
      .table [("indent-width".toList, .integer 0), ("indent_width".toList, .integer 2),
        ("strict".toList, .integer 1)])) _ := ⟨rfl, by decide⟩
  constructor
  · have hbuild := build_merged [("strict".toList, .boolean true)] located_unsoundText (by decide)
    obtain ⟨config, hconfig⟩ := hbuild.1.mpr ⟨_, hfields, fun field => by
      cases field with
      | indentWidth => exact ⟨2, by decide, rfl⟩
      | strict => exact ⟨true, rfl⟩
      | maxFileSize => exact ⟨10485760, by decide, rfl⟩⟩
    exact ⟨config, hconfig, hbuild.2.1 config _ hconfig hfields .indentWidth,
      hbuild.2.1 config _ hconfig hfields .strict⟩
  · intro hconfig
    obtain ⟨entries, hentries, haccepts⟩ :=
      (build_merged [] located_unsoundText (by decide)).1.mp hconfig
    cases hentries.given
    obtain ⟨b, hb⟩ := haccepts .strict
    cases hb

end Settings
end DocMarkdown
