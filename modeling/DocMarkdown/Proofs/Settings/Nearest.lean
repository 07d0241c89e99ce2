import DocMarkdown.Proofs.Settings.LongNumber
import DocMarkdown.Settings.Search
import Mathlib

/-! Which table settings come from. Every directory from the first one up to the root has three
candidates, two of them in one file. The first candidate that gives anything decides, and neither
what stands behind it nor why those before it are passed over makes a difference. A file that holds
a number too long to be read is not passed over; it ends the search. -/

namespace DocMarkdown.Settings
open Files

theorem Place.settings_of_file {p : Place} {file : Value} (h : p.content = .ok (some file)) :
    p.settings = match firstTable file p.tables with
      | none => .ok none
      | some (table, v) =>
        match ofTable table p.path.shown v with
        | .ok s => .ok (some s)
        | .error f => .error (.settings f) := by
  rw [settings, h]
  rfl

theorem Place.settings_of_nothing {p : Place} (h : p.content = .ok none) :
    p.settings = .ok none := by
  rw [settings, h]
  rfl

theorem Place.settings_of_fault {p : Place} {f : SearchFault} (h : p.content = .error f) :
    p.settings = .error f := by
  rw [settings, h]
  rfl

structure Candidate where
  path : Path
  table : List Text

def candidatesIn (directory : Path) : List Candidate :=
  [⟨directory.append projectName, toolTable⟩, ⟨directory.append dotfileName, [tableName]⟩,
    ⟨directory.append dotfileName, toolTable⟩]

def candidates (directory : Path) : List Candidate := (ancestors directory).flatMap candidatesIn

namespace Candidate

/-- What a candidate gives: nothing if there is no file that can be opened, if it is no settings
file or if it lacks the table; otherwise the table, or the reason why the search cannot go on. -/
inductive Gives (look : Lookup) (a : Candidate) : Option (Except SearchFault Value) → Prop
  | missing (hfile : sought (look a.path) = .ok none) : Gives look a none
  | invalid {bytes : List UInt8} {t : Text} (hfile : sought (look a.path) = .ok (some bytes))
      (ht : Text.Utf8.decode? bytes = .ok t) (hread : Toml.read t = .error .invalid) :
      Gives look a none
  | lacking {bytes : List UInt8} {t : Text} {file : Value}
      (hfile : sought (look a.path) = .ok (some bytes)) (ht : Text.Utf8.decode? bytes = .ok t)
      (hread : Toml.read t = .ok file) (htable : file.at? a.table = none) : Gives look a none
  | table {bytes : List UInt8} {t : Text} {file v : Value}
      (hfile : sought (look a.path) = .ok (some bytes)) (ht : Text.Utf8.decode? bytes = .ok t)
      (hread : Toml.read t = .ok file) (htable : file.at? a.table = some v) :
      Gives look a (some (.ok v))
  | longNumber {bytes : List UInt8} {t : Text} {digits : Nat}
      (hfile : sought (look a.path) = .ok (some bytes)) (ht : Text.Utf8.decode? bytes = .ok t)
      (hread : Toml.read t = .error (.longNumber digits)) :
      Gives look a (some (.error (.longNumber digits)))
  | undecodable {bytes : List UInt8} {flaw : Text.Utf8.Flaw}
      (hfile : sought (look a.path) = .ok (some bytes))
      (ht : Text.Utf8.decode? bytes = .error flaw) :
      Gives look a (some (.error (.undecodable flaw)))
  | inaccessible {r : Refusal} (hfile : sought (look a.path) = .error r) :
      Gives look a (some (.error (.inaccessible a.path r)))

def Holds (look : Lookup) (a : Candidate) : Prop := ∃ v, a.Gives look (some (.ok v))

def Stops (look : Lookup) (a : Candidate) : Prop := ∃ f, a.Gives look (some (.error f))

def decision (a : Candidate) (r : Except SearchFault Value) : Except SearchFault Settings := do
  (ofTable a.table a.path.shown (← r)).mapError .settings

def place (look : Lookup) (a : Candidate) : Place := ⟨a.path, [a.table], look a.path⟩

def answer (look : Lookup) (a : Candidate) : Option (Except SearchFault Settings) :=
  match (a.place look).settings with
  | .ok none => none
  | .ok (some s) => some (.ok s)
  | .error f => some (.error f)

variable {look : Lookup} {a : Candidate}

theorem exists_gives (look : Lookup) (a : Candidate) : ∃ r, a.Gives look r := by
  cases hfile : sought (look a.path) with
  | error r => exact ⟨_, .inaccessible hfile⟩
  | ok found =>
    cases found with
    | none => exact ⟨_, .missing hfile⟩
    | some bytes =>
      cases ht : Text.Utf8.decode? bytes with
      | error flaw => exact ⟨_, .undecodable hfile ht⟩
      | ok t =>
        cases hread : Toml.read t with
        | error fault =>
          cases fault with
          | invalid => exact ⟨_, .invalid hfile ht hread⟩
          | longNumber digits => exact ⟨_, .longNumber hfile ht hread⟩
        | ok file =>
          cases htable : file.at? a.table with
          | none => exact ⟨_, .lacking hfile ht hread htable⟩
          | some v => exact ⟨_, .table hfile ht hread htable⟩

theorem gives_unique {r r' : Option (Except SearchFault Value)} (h : a.Gives look r)
    (h' : a.Gives look r') : r = r' := by
  cases h <;> cases h' <;> simp_all

theorem gives_none_iff : a.Gives look none ↔ ¬ a.Holds look ∧ ¬ a.Stops look := by
  constructor
  · intro h
    constructor
    · rintro ⟨v, hv⟩
      cases gives_unique h hv
    · rintro ⟨f, hf⟩
      cases gives_unique h hf
  · rintro ⟨hholds, hstops⟩
    obtain ⟨r, hr⟩ := exists_gives look a
    rcases r with _ | f | v
    · exact hr
    · exact absurd ⟨f, hr⟩ hstops
    · exact absurd ⟨v, hr⟩ hholds

theorem decision_ne_of_gives_error {f : SearchFault} (h : a.Gives look (some (.error f)))
    (b : Candidate) (v : Value) : a.decision (.error f) ≠ b.decision (.ok v) := by
  have hf (g : Fault) : f ≠ .settings g := by
    rintro rfl
    cases h
  intro heq
  cases hv : ofTable b.table b.path.shown v with
  | ok s =>
    simp only [decision, bind, Except.bind, hv] at heq
    cases heq
  | error g =>
    simp only [decision, bind, Except.bind, hv] at heq
    exact hf g (Except.error.inj heq)

theorem content_of_text {bytes : List UInt8} {t : Text}
    (hfile : sought (look a.path) = .ok (some bytes))
    (ht : Text.Utf8.decode? bytes = .ok t) :
    (a.place look).content = match Toml.read t with
      | .ok file => .ok (some file)
      | .error .invalid => .ok none
      | .error (.longNumber digits) => .error (.longNumber digits) := by
  cases hread : Toml.read t with
  | ok file => simp only [place, Place.content, hfile, ht, hread]
  | error fault => cases fault <;> simp only [place, Place.content, hfile, ht, hread]

theorem answer_of_nothing (h : (a.place look).content = .ok none) : a.answer look = none := by
  rw [answer, Place.settings_of_nothing h]

theorem answer_of_fault {f : SearchFault} (h : (a.place look).content = .error f) :
    a.answer look = some (a.decision (.error f)) := by
  rw [answer, Place.settings_of_fault h]
  rfl

theorem answer_of_file {file : Value} (h : (a.place look).content = .ok (some file)) :
    a.answer look = (file.at? a.table).map fun v => a.decision (.ok v) := by
  rw [answer, Place.settings_of_file h]
  cases htable : file.at? a.table with
  | none => simp only [place, firstTable, htable, Option.map]
  | some v =>
    cases hv : ofTable a.table a.path.shown v <;>
      simp only [place, firstTable, htable, hv, Option.map, decision, bind, Except.bind] <;> rfl

theorem answer_of_gives {r : Option (Except SearchFault Value)} (h : a.Gives look r) :
    a.answer look = r.map a.decision := by
  cases h with
  | missing hfile => exact answer_of_nothing (by simp only [place, Place.content, hfile])
  | invalid hfile ht hread =>
    exact answer_of_nothing (by rw [content_of_text hfile ht, hread])
  | lacking hfile ht hread htable =>
    rw [answer_of_file (by rw [content_of_text hfile ht, hread]), htable]
    rfl
  | table hfile ht hread htable =>
    rw [answer_of_file (by rw [content_of_text hfile ht, hread]), htable]
    rfl
  | longNumber hfile ht hread =>
    exact answer_of_fault (by rw [content_of_text hfile ht, hread])
  | undecodable hfile ht =>
    exact answer_of_fault (by simp only [place, Place.content, hfile, ht])
  | inaccessible hfile =>
    exact answer_of_fault (by simp only [place, Place.content, hfile])

end Candidate

variable (look : Lookup)

theorem search_single (a : Candidate) (rest : List Place) :
    search (a.place look :: rest) = (a.answer look).getD (search rest) := by
  rw [search, Candidate.answer]
  rcases (a.place look).settings with f | s | s <;> rfl

theorem settings_more (path : Path) (table : List Text) (tables : List (List Text)) :
    (⟨path, table :: tables, look path⟩ : Place).settings =
      match Candidate.answer look ⟨path, table⟩ with
      | none => (⟨path, tables, look path⟩ : Place).settings
      | some r => r.map some := by
  have hcontent (ts : List (List Text)) : (⟨path, ts, look path⟩ : Place).content =
      (Candidate.place look ⟨path, table⟩).content := rfl
  cases hc : (Candidate.place look ⟨path, table⟩).content with
  | error f =>
    rw [Candidate.answer_of_fault hc, Place.settings_of_fault ((hcontent _).trans hc)]
    rfl
  | ok c =>
    cases c with
    | none =>
      rw [Candidate.answer_of_nothing hc, Place.settings_of_nothing ((hcontent _).trans hc),
        Place.settings_of_nothing ((hcontent _).trans hc)]
    | some file =>
      rw [Candidate.answer_of_file hc, Place.settings_of_file ((hcontent _).trans hc),
        Place.settings_of_file ((hcontent _).trans hc)]
      cases htable : file.at? table with
      | none => simp only [firstTable, htable, Option.map]
      | some v =>
        cases hv : ofTable table path.shown v <;>
          simp only [firstTable, htable, hv, Option.map, Candidate.decision, bind, Except.bind] <;>
          rfl

theorem search_pair (path : Path) (first second : List Text) (rest : List Place) :
    search (⟨path, [first, second], look path⟩ :: rest) =
      (Candidate.answer look ⟨path, first⟩).getD
        ((Candidate.answer look ⟨path, second⟩).getD (search rest)) := by
  rw [search, settings_more]
  cases Candidate.answer look ⟨path, first⟩ with
  | none => exact search_single look ⟨path, second⟩ rest
  | some r => cases r <;> rfl

theorem search_placesIn (directory : Path) (rest : List Place) :
    search (placesIn look directory ++ rest) =
      ((candidatesIn directory).findSome? (·.answer look)).getD (search rest) := by
  have hproject := search_single look ⟨directory.append projectName, toolTable⟩
    (⟨directory.append dotfileName, [[tableName], toolTable],
      look (directory.append dotfileName)⟩ :: rest)
  rw [search_pair] at hproject
  refine hproject.trans ?_
  simp only [candidatesIn, List.findSome?_cons, List.findSome?_nil]
  cases Candidate.answer look ⟨directory.append projectName, toolTable⟩ with
  | some r => rfl
  | none =>
    cases Candidate.answer look ⟨directory.append dotfileName, [tableName]⟩ with
    | some r => rfl
    | none => cases Candidate.answer look ⟨directory.append dotfileName, toolTable⟩ <;> rfl

theorem search_flatMap (directories : List Path) :
    search (directories.flatMap (placesIn look)) =
      ((directories.flatMap candidatesIn).findSome? (·.answer look)).getD (.ok {}) := by
  induction directories with
  | nil => rfl
  | cons directory rest ih =>
    rw [List.flatMap_cons, List.flatMap_cons, search_placesIn, ih, List.findSome?_append,
      Option.getD_or]

theorem search_eq_findSome? (directory : Path) :
    search (placesFrom look directory) =
      ((candidates directory).findSome? (·.answer look)).getD (.ok {}) :=
  search_flatMap look (ancestors directory)

def parent? (directory : Path) : Option Path :=
  if directory.parts = [] then none
  else some { directory with parts := directory.parts.dropLast }

theorem ancestors_eq (directory : Path) :
    ancestors directory = directory :: ((parent? directory).map ancestors).getD [] := by
  obtain ⟨root, parts⟩ := directory
  by_cases hparts : parts = []
  · rw [hparts]
    rfl
  · have hlength : parts.dropLast.length + 1 = parts.length := by
      have := List.length_pos_iff.mpr hparts
      rw [List.length_dropLast]
      omega
    simp only [parent?, hparts, if_false, Option.map_some, Option.getD_some]
    rw [ancestors, List.range_succ_eq_map, List.map_cons, Nat.sub_zero, List.take_length,
      List.map_map, ancestors, hlength]
    congr 1
    apply List.map_congr_left
    intro n hn
    rw [Function.comp_apply, List.dropLast_eq_take, List.take_take, List.length_take]
    congr 2
    dsimp only
    omega

theorem candidates_eq (directory : Path) :
    candidates directory =
      candidatesIn directory ++ ((parent? directory).map candidates).getD [] := by
  rw [candidates, ancestors_eq, List.flatMap_cons]
  cases parent? directory <;> rfl

variable {look}

section First
variable {directory : Path} {before after : List Candidate} {a : Candidate}

theorem search_of_first {r : Except SearchFault Value}
    (hsplit : candidates directory = before ++ a :: after)
    (hbefore : ∀ b ∈ before, b.Gives look none) (hgives : a.Gives look (some r)) :
    search (placesFrom look directory) = a.decision r := by
  have hfirst : (candidates directory).findSome? (·.answer look) = some (a.decision r) :=
    List.findSome?_eq_some_iff.mpr ⟨before, a, after, hsplit, Candidate.answer_of_gives hgives,
      fun b hb => Candidate.answer_of_gives (hbefore b hb)⟩
  rw [search_eq_findSome?, hfirst]
  rfl

theorem search_of_none (h : ∀ a ∈ candidates directory, a.Gives look none) :
    search (placesFrom look directory) = .ok {} := by
  have hnone : (candidates directory).findSome? (·.answer look) = none :=
    List.findSome?_eq_none_iff.mpr fun a ha => Candidate.answer_of_gives (h a ha)
  rw [search_eq_findSome?, hnone]
  rfl

theorem exists_first_stop {as : List Candidate} (hholds : ∀ a ∈ as, ¬ a.Holds look)
    (hstops : ¬ ∀ a ∈ as, ¬ a.Stops look) :
    ∃ before a after f, as = before ++ a :: after ∧ (∀ b ∈ before, b.Gives look none) ∧
      a.Gives look (some (.error f)) := by
  induction as with
  | nil => simp at hstops
  | cons a as ih =>
    rw [List.forall_mem_cons] at hholds hstops
    by_cases hstop : a.Stops look
    · obtain ⟨f, hf⟩ := hstop
      exact ⟨[], a, as, f, rfl, by simp, hf⟩
    · obtain ⟨before, b, after, f, rfl, hbefore, hf⟩ :=
        ih hholds.2 fun h => hstops ⟨hstop, h⟩
      refine ⟨a :: before, b, after, f, rfl, ?_, hf⟩
      rw [List.forall_mem_cons]
      exact ⟨Candidate.gives_none_iff.mpr ⟨hholds.1, hstop⟩, hbefore⟩

theorem search_eq_decision_iff {v : Value} (hsplit : candidates directory = before ++ a :: after)
    (hholds : ∀ b ∈ before, ¬ b.Holds look) (hgives : a.Gives look (some (.ok v))) :
    search (placesFrom look directory) = a.decision (.ok v) ↔ ∀ b ∈ before, ¬ b.Stops look := by
  constructor
  · intro hsearch
    refine Classical.byContradiction fun hstops => ?_
    obtain ⟨start, b, rest, f, rfl, hstart, hf⟩ := exists_first_stop hholds hstops
    rw [List.append_assoc, List.cons_append] at hsplit
    rw [search_of_first hsplit hstart hf] at hsearch
    exact Candidate.decision_ne_of_gives_error hf a v hsearch
  · intro hstops
    apply search_of_first hsplit _ hgives
    intro b hb
    exact Candidate.gives_none_iff.mpr ⟨hholds b hb, hstops b hb⟩

theorem search_eq_default_iff (hholds : ∀ a ∈ candidates directory, ¬ a.Holds look) :
    search (placesFrom look directory) = .ok {} ↔
      ∀ a ∈ candidates directory, ¬ a.Stops look := by
  constructor
  · intro hsearch
    refine Classical.byContradiction fun hstops => ?_
    obtain ⟨start, b, rest, f, hsplit, hstart, hf⟩ := exists_first_stop hholds hstops
    rw [search_of_first hsplit hstart hf] at hsearch
    cases hsearch
  · intro hstops
    apply search_of_none
    intro b hb
    exact Candidate.gives_none_iff.mpr ⟨hholds b hb, hstops b hb⟩

end First

/-- The search goes from a directory to those that contain it. The first candidate that gives
anything decides, whatever else the files hold, and without one nothing is set. So the first
table that is there is the one that is used, but for files before it that end the search. -/
theorem search_nearest (look : Lookup) (directory : Path) :
    candidates directory =
        candidatesIn directory ++ ((parent? directory).map candidates).getD [] ∧
      (∀ a : Candidate, ∃! r, a.Gives look r) ∧
      (∀ before a after r, candidates directory = before ++ a :: after →
        (∀ b ∈ before, b.Gives look none) → a.Gives look (some r) →
          search (placesFrom look directory) = a.decision r ∧
          ∀ look', (∀ b ∈ before, b.Gives look' none) → a.Gives look' (some r) →
            search (placesFrom look' directory) = search (placesFrom look directory)) ∧
      (∀ before a after v, candidates directory = before ++ a :: after →
        (∀ b ∈ before, ¬ b.Holds look) → a.Gives look (some (.ok v)) →
          (search (placesFrom look directory) = a.decision (.ok v) ↔
            ∀ b ∈ before, ¬ b.Stops look)) ∧
      ((∀ a ∈ candidates directory, ¬ a.Holds look) →
        (search (placesFrom look directory) = .ok {} ↔
          ∀ a ∈ candidates directory, ¬ a.Stops look)) := by
  refine ⟨candidates_eq directory, ?_, ?_, ?_, search_eq_default_iff⟩
  · intro a
    obtain ⟨r, hr⟩ := Candidate.exists_gives look a
    exact ⟨r, hr, fun r' hr' => Candidate.gives_unique hr' hr⟩
  · intro before a after r hsplit hbefore hgives
    refine ⟨search_of_first hsplit hbefore hgives, ?_⟩
    intro look' hbefore' hgives'
    rw [search_of_first hsplit hbefore' hgives', search_of_first hsplit hbefore hgives]
  · intro before a after v hsplit hholds hgives
    exact search_eq_decision_iff hsplit hholds hgives

def belowTable (text : Text) : Lookup := fun p =>
  if p = ⟨['/'], ["docs".toList, projectName]⟩ then .ofBytes (Text.Utf8.encode text)
  else if p = ⟨['/'], [dotfileName]⟩ then
    .ofBytes (Text.Utf8.encode "[xml-to-markdown]\nstrict=0".toList)
  else .refused .notFound

theorem search_belowTable :
    search (placesFrom (belowTable "x=1".toList) ⟨['/'], ["docs".toList]⟩) =
        .ok { strict := .integer 0 } ∧
      search (placesFrom (belowTable (Toml.onesLine 4301)) ⟨['/'], ["docs".toList]⟩) =
        .error (.longNumber 4301) := by
  have hread : Toml.read "[xml-to-markdown]\nstrict=0".toList =
      .ok (.table [(tableName, .table [("strict".toList, .integer 0)])]) := by cbv
  have htable (text : Text) : Candidate.Gives (belowTable text)
      ⟨⟨['/'], [dotfileName]⟩, [tableName]⟩ (some (.ok (.table [("strict".toList, .integer 0)]))) :=
    .table rfl rfl hread rfl
  have hother : Toml.read "x=1".toList = .ok (.table [("x".toList, .integer 1)]) := by cbv
  have hproject : Candidate.Gives (belowTable "x=1".toList)
      ⟨⟨['/'], ["docs".toList, projectName]⟩, toolTable⟩ none :=
    .lacking rfl rfl hother rfl
  have hlong : Candidate.Gives (belowTable (Toml.onesLine 4301))
      ⟨⟨['/'], ["docs".toList, projectName]⟩, toolTable⟩ (some (.error (.longNumber 4301))) :=
    .longNumber rfl (Toml.decode?_onesLine 4301) (Toml.read_onesLine (by decide))
  have hmissing {p : Path} (table : List Text)
      (h : sought (belowTable "x=1".toList p) = .ok none) :
      Candidate.Gives (belowTable "x=1".toList) ⟨p, table⟩ none :=
    .missing h
  constructor
  · refine ((search_nearest (belowTable "x=1".toList) ⟨['/'], ["docs".toList]⟩).2.2.1
      [⟨⟨['/'], ["docs".toList, projectName]⟩, toolTable⟩,
        ⟨⟨['/'], ["docs".toList, dotfileName]⟩, [tableName]⟩,
        ⟨⟨['/'], ["docs".toList, dotfileName]⟩, toolTable⟩, ⟨⟨['/'], [projectName]⟩, toolTable⟩]
      _ _ _ rfl ?_ (htable _)).1
    simp only [List.forall_mem_cons]
    exact ⟨hproject, hmissing _ rfl, hmissing _ rfl, hmissing _ rfl, by simp⟩
  · exact ((search_nearest (belowTable (Toml.onesLine 4301)) ⟨['/'], ["docs".toList]⟩).2.2.1
      [] _ _ _ rfl (by simp) hlong).1

end DocMarkdown.Settings
