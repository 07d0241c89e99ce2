import DocMarkdown.Proofs.CommandLine.Calls
import DocMarkdown.Proofs.Settings.Merged

/-! Settings files that cannot be read. A file with text that makes no sense is as good as none. So
is one whose bytes are no text, or that holds a number with too many digits, but only where the
search does not get to it. Where it does, the search ends with a fault that is no fault of settings,
and a run of the command breaks off. -/

namespace DocMarkdown
open Files

namespace Settings

def isInvalid (bytes : List UInt8) : Bool :=
  match Text.Utf8.decode? bytes with
  | .error _ => false
  | .ok t =>
    match Toml.read t with
    | .error .invalid => true
    | _ => false

/-- The bytes are no text, or text that gives no value. -/
def isUnreadable (bytes : List UInt8) : Bool :=
  match Text.Utf8.decode? bytes with
  | .error _ => true
  | .ok t => !(Toml.read t).isOk

def without (hidden : List UInt8 → Bool) (look : Lookup) : Lookup := fun p =>
  match sought (look p) with
  | .ok (some bytes) => if hidden bytes then .refused .notFound else look p
  | _ => look p

inductive EndsSearch (bytes : List UInt8) : SearchFault → Prop
  | undecodable {flaw : Text.Utf8.Flaw} (h : Text.Utf8.decode? bytes = .error flaw) :
      EndsSearch bytes (.undecodable flaw)
  | longNumber {t : Text} {digits : Nat} (ht : Text.Utf8.decode? bytes = .ok t)
      (hread : Toml.read t = .error (.longNumber digits)) :
      EndsSearch bytes (.longNumber digits)

/-- Before any candidate gives a table, the search comes to a file that ends it. -/
inductive Blocked (look : Lookup) (directory : Path) (f : SearchFault) : Prop
  | intro {before after : List Candidate} {a : Candidate} {bytes : List UInt8}
      (hsplit : candidates directory = before ++ a :: after)
      (hbefore : ∀ b ∈ before, b.Gives look none)
      (hfile : sought (look a.path) = .ok (some bytes)) (hends : EndsSearch bytes f)

section Bytes
variable {bytes : List UInt8} {f : SearchFault}

theorem isInvalid_or_endsSearch (h : isUnreadable bytes = true) :
    isInvalid bytes = true ∨ ∃ f, EndsSearch bytes f := by
  cases ht : Text.Utf8.decode? bytes with
  | error flaw => exact .inr ⟨_, .undecodable ht⟩
  | ok t =>
    cases hread : Toml.read t with
    | ok v => simp [isUnreadable, ht, hread, Except.isOk, Except.toBool] at h
    | error fault =>
      cases fault with
      | invalid => exact .inl (by simp only [isInvalid, ht, hread])
      | longNumber digits => exact .inr ⟨_, .longNumber ht hread⟩

theorem isUnreadable_of_endsSearch (h : EndsSearch bytes f) : isUnreadable bytes = true := by
  cases h with
  | undecodable h => simp only [isUnreadable, h]
  | longNumber ht hread => simp only [isUnreadable, ht, hread]; rfl

theorem EndsSearch.ne_settings (h : EndsSearch bytes f) (g : Fault) : f ≠ .settings g := by
  cases h <;> nofun

theorem EndsSearch.ne_inaccessible (h : EndsSearch bytes f) (p : Path) (r : Refusal) :
    f ≠ .inaccessible p r := by
  cases h <;> nofun

end Bytes

namespace Candidate
variable {look look' : Lookup} {a : Candidate} {bytes : List UInt8} {f : SearchFault}
  {r : Option (Except SearchFault Value)} {hidden : List UInt8 → Bool}

theorem Gives.congr (h : a.Gives look r) (hlook : sought (look' a.path) = sought (look a.path)) :
    a.Gives look' r := by
  cases h with
  | missing hfile => exact .missing (hlook.trans hfile)
  | invalid hfile ht hread => exact .invalid (hlook.trans hfile) ht hread
  | lacking hfile ht hread htable => exact .lacking (hlook.trans hfile) ht hread htable
  | table hfile ht hread htable => exact .table (hlook.trans hfile) ht hread htable
  | longNumber hfile ht hread => exact .longNumber (hlook.trans hfile) ht hread
  | undecodable hfile ht => exact .undecodable (hlook.trans hfile) ht
  | inaccessible hfile => exact .inaccessible (hlook.trans hfile)

theorem gives_of_isInvalid (hfile : sought (look a.path) = .ok (some bytes))
    (h : isInvalid bytes = true) : a.Gives look none := by
  cases ht : Text.Utf8.decode? bytes with
  | error flaw => simp only [isInvalid, ht, Bool.false_eq_true] at h
  | ok t =>
    cases hread : Toml.read t with
    | ok v => simp only [isInvalid, ht, hread, Bool.false_eq_true] at h
    | error fault =>
      cases fault with
      | invalid => exact .invalid hfile ht hread
      | longNumber digits => simp only [isInvalid, ht, hread, Bool.false_eq_true] at h

theorem gives_of_endsSearch (hfile : sought (look a.path) = .ok (some bytes))
    (h : EndsSearch bytes f) : a.Gives look (some (.error f)) := by
  cases h with
  | undecodable ht => exact .undecodable hfile ht
  | longNumber ht hread => exact .longNumber hfile ht hread

theorem without_of_hidden (hfile : sought (look a.path) = .ok (some bytes))
    (h : hidden bytes = true) : sought (without hidden look a.path) = .ok none := by
  simp only [Settings.without, hfile, h, if_true]
  rfl

theorem without_of_not_hidden
    (h : ∀ bytes, sought (look a.path) = .ok (some bytes) → hidden bytes = false) :
    without hidden look a.path = look a.path := by
  unfold Settings.without
  split
  · rename_i bytes hfile
    simp only [h bytes hfile, Bool.false_eq_true, if_false]
  · rfl

theorem Gives.without (h : a.Gives look r)
    (hr : ∀ bytes, sought (look a.path) = .ok (some bytes) → hidden bytes = true → r = none) :
    a.Gives (without hidden look) r := by
  by_cases hhidden : ∃ bytes, sought (look a.path) = .ok (some bytes) ∧ hidden bytes = true
  · obtain ⟨bytes, hfile, hhidden⟩ := hhidden
    obtain rfl := hr bytes hfile hhidden
    exact .missing (without_of_hidden hfile hhidden)
  · refine h.congr (congrArg sought (without_of_not_hidden fun bytes hfile => ?_))
    exact Bool.of_not_eq_true fun hbytes => hhidden ⟨bytes, hfile, hbytes⟩

theorem not_hidden_of_without
    (hfile : sought (Settings.without hidden look a.path) = .ok (some bytes)) :
    hidden bytes = false := by
  by_cases hhidden : ∃ bytes, sought (look a.path) = .ok (some bytes) ∧ hidden bytes = true
  · obtain ⟨bytes, hlook, hhidden⟩ := hhidden
    rw [without_of_hidden hlook hhidden] at hfile
    cases hfile
  · have hshown (bytes : List UInt8) (hlook : sought (look a.path) = .ok (some bytes)) :
        hidden bytes = false := Bool.of_not_eq_true fun h => hhidden ⟨bytes, hlook, h⟩
    rw [without_of_not_hidden hshown] at hfile
    exact hshown bytes hfile

theorem Gives.error_readable (h : a.Gives (Settings.without isUnreadable look) (some (.error f))) :
    ∃ p r, f = .inaccessible p r := by
  cases h with
  | longNumber hfile ht hread =>
    have hunreadable := isUnreadable_of_endsSearch (.longNumber ht hread)
    rw [not_hidden_of_without hfile] at hunreadable
    cases hunreadable
  | undecodable hfile ht =>
    have hunreadable := isUnreadable_of_endsSearch (.undecodable ht)
    rw [not_hidden_of_without hfile] at hunreadable
    cases hunreadable
  | inaccessible hfile => exact ⟨_, _, rfl⟩

theorem decision_error {g : SearchFault} {x : Except SearchFault Value}
    (h : a.decision x = .error g) : x = .error g ∨ ∃ fault, g = .settings fault := by
  cases x with
  | error f =>
    obtain rfl : f = g := Except.error.inj h
    exact .inl rfl
  | ok v =>
    obtain ⟨fault, -, rfl⟩ := Except.of_mapError_error h
    exact .inr ⟨fault, rfl⟩

end Candidate

section Search
variable {look : Lookup} {directory : Path} {f : SearchFault} {hidden : List UInt8 → Bool}

theorem exists_first (look : Lookup) (as : List Candidate) :
    (∀ a ∈ as, a.Gives look none) ∨
    ∃ before a after r, as = before ++ a :: after ∧ (∀ b ∈ before, b.Gives look none) ∧
      a.Gives look (some r) := by
  induction as with
  | nil => exact .inl (by simp)
  | cons a as ih =>
    obtain ⟨_ | r, hr⟩ := Candidate.exists_gives look a
    · rcases ih with hnone | ⟨before, b, after, r, rfl, hbefore, hb⟩
      · exact .inl (List.forall_mem_cons.mpr ⟨hr, hnone⟩)
      · exact .inr ⟨a :: before, b, after, r, rfl, List.forall_mem_cons.mpr ⟨hr, hbefore⟩, hb⟩
    · exact .inr ⟨[], a, as, r, rfl, by simp, hr⟩

theorem search_without (h : ∀ before a after r bytes, candidates directory = before ++ a :: after →
      (∀ b ∈ before, b.Gives look none) → a.Gives look (some r) →
      sought (look a.path) = .ok (some bytes) → hidden bytes = false) :
    search (placesFrom (without hidden look) directory) = search (placesFrom look directory) := by
  rcases exists_first look (candidates directory) with
    hnone | ⟨before, a, after, r, hsplit, hbefore, ha⟩
  · rw [search_of_none hnone]
    exact search_of_none fun a ha => (hnone a ha).without fun _ _ _ => rfl
  · rw [search_of_first hsplit hbefore ha]
    refine search_of_first hsplit (fun b hb => (hbefore b hb).without fun _ _ _ => rfl) ?_
    refine ha.without fun bytes hfile hhidden => ?_
    rw [h before a after r bytes hsplit hbefore ha hfile] at hhidden
    cases hhidden

theorem not_isInvalid_of_gives {a : Candidate} {r : Except SearchFault Value} {bytes : List UInt8}
    (ha : a.Gives look (some r)) (hfile : sought (look a.path) = .ok (some bytes)) :
    isInvalid bytes = false := by
  refine Bool.of_not_eq_true fun hinvalid => ?_
  cases Candidate.gives_unique ha (Candidate.gives_of_isInvalid hfile hinvalid)

theorem search_without_invalid (look : Lookup) (directory : Path) :
    search (placesFrom (without isInvalid look) directory) = search (placesFrom look directory) :=
  search_without fun _ _ _ _ _ _ _ ha hfile => not_isInvalid_of_gives ha hfile

theorem search_without_unreadable (h : ∀ f, ¬ Blocked look directory f) :
    search (placesFrom (without isUnreadable look) directory) =
      search (placesFrom look directory) := by
  refine search_without fun before a after r bytes hsplit hbefore ha hfile => ?_
  refine Bool.of_not_eq_true fun hunreadable => ?_
  rcases isInvalid_or_endsSearch hunreadable with hinvalid | ⟨f, hends⟩
  · rw [not_isInvalid_of_gives ha hfile] at hinvalid
    cases hinvalid
  · exact h f ⟨hsplit, hbefore, hfile, hends⟩

theorem search_of_blocked (h : Blocked look directory f) :
    search (placesFrom look directory) = .error f := by
  obtain ⟨hsplit, hbefore, hfile, hends⟩ := h
  exact search_of_first hsplit hbefore (Candidate.gives_of_endsSearch hfile hends)

theorem search_readable_error
    (h : search (placesFrom (without isUnreadable look) directory) = .error f) :
    (∃ g, f = .settings g) ∨ ∃ p r, f = .inaccessible p r := by
  rcases exists_first (without isUnreadable look) (candidates directory) with
    hnone | ⟨before, a, after, r, hsplit, hbefore, ha⟩
  · rw [search_of_none hnone] at h
    cases h
  · rw [search_of_first hsplit hbefore ha] at h
    rcases Candidate.decision_error h with rfl | hsettings
    · exact .inr ha.error_readable
    · exact .inl hsettings

theorem search_readable_ne (h : Blocked look directory f) :
    search (placesFrom (without isUnreadable look) directory) ≠ .error f := by
  obtain ⟨-, -, -, hends⟩ := h
  intro heq
  rcases search_readable_error heq with ⟨g, hg⟩ | ⟨p, r, hr⟩
  · exact hends.ne_settings g hg
  · exact hends.ne_inaccessible p r hr

theorem search_eq_readable_iff :
    search (placesFrom look directory) =
      search (placesFrom (without isUnreadable look) directory) ↔
        ∀ f, ¬ Blocked look directory f := by
  constructor
  · intro heq f hblocked
    rw [search_of_blocked hblocked] at heq
    exact search_readable_ne hblocked heq.symm
  · intro h
    exact (search_without_unreadable h).symm

end Search
end Settings

namespace CommandLine

def Ending.settingsFault? : Ending → Option Settings.SearchFault
  | .crashed (.settings f) => some f
  | _ => none

theorem settingsFault?_convertDocument (config : Config) (f : Format) (t : Text) :
    (convertDocument config f t).ending.settingsFault? = none := by
  unfold convertDocument
  obtain ⟨stop | text, reports⟩ := render config f (.ofText t)
  · cases stop <;> rfl
  · rfl

theorem settingsFault?_convertFile (config : Config) (f : Format) (limit : Int) (p : Path)
    (e : Entry) : (convertFile config f limit p e).ending.settingsFault? = none := by
  unfold convertFile
  split
  · exact settingsFault?_convertDocument config f _
  · rfl
  · rfl
  · rfl

theorem settingsFault?_sequence {α : Type} {contribution : α → Outcome}
    (h : ∀ a, (contribution a).ending.settingsFault? = none) (l : List α) :
    (sequence contribution l).ending.settingsFault? = none := by
  induction l with
  | nil => rfl
  | cons a rest ih =>
    unfold sequence
    split
    · exact ih
    · exact h a

theorem settingsFault?_convertAll (s : Surroundings) (f : Format) (config : Config)
    (files : List Text) : (convertAll s f config files).ending.settingsFault? = none := by
  unfold convertAll
  split
  · rfl
  · split
    · exact settingsFault?_convertDocument config f s.input
    · exact settingsFault?_sequence (fun file =>
        settingsFault?_convertFile config f _ (Path.read file) (s.look (Path.read file))) files

theorem settingsFault?_refused {fault : Settings.BuildFault} {f : Settings.SearchFault}
    (h : (refused fault).settingsFault? = some f) : fault = .search f := by
  unfold refused at h
  split at h
  · cases h
  · cases h
  · cases h
    rfl
  · cases h

theorem overrides_named (strict : Option Bool) (indentWidth : Option Int) :
    ∀ e ∈ overrides strict indentWidth, Settings.Field.ofName? e.1 ≠ none := by
  simp only [overrides, List.forall_mem_cons]
  exact ⟨by decide, by decide, by simp⟩

theorem build_search_iff {places : List Settings.Place} {f : Settings.SearchFault}
    (strict : Option Bool) (indentWidth : Option Int) :
    Settings.build places (overrides strict indentWidth) = .error (.search f) ↔
      Settings.search places = .error f := by
  have hnamed := overrides_named strict indentWidth
  constructor
  · intro h
    cases hsearch : Settings.search places with
    | error g =>
      rw [Settings.build_of_search_error hnamed hsearch] at h
      cases h
      rfl
    | ok s =>
      obtain ⟨s', hbuild, -⟩ := Settings.build_of_search hnamed hsearch
      rw [hbuild] at h
      obtain ⟨g, -, hg⟩ := Except.of_mapError_error h
      cases hg
  · exact Settings.build_of_search_error hnamed

theorem settingsFault?_perform {s : Surroundings} {c : Call} {f : Settings.SearchFault}
    (hf : ∀ g, f ≠ .settings g) :
    (perform s c).ending.settingsFault? = some f ↔ Settings.search s.places = .error f := by
  rw [← build_search_iff c.strict c.indentWidth]
  unfold perform
  cases hbuild : Settings.build s.places (overrides c.strict c.indentWidth) with
  | ok config =>
    simp only [settingsFault?_convertAll]
    constructor <;> intro h <;> cases h
  | error fault =>
    constructor
    · intro h
      rw [settingsFault?_refused h]
    · rintro ⟨⟩
      cases f with
      | settings g => exact absurd rfl (hf g)
      | undecodable | longNumber | inaccessible => rfl

theorem run_settings_iff {fw : Framework} {s : Surroundings} {arguments : List Text}
    {f : Settings.SearchFault} (hf : ∀ g, f ≠ .settings g) :
    (run fw s arguments).exit = .error (.settings f) ↔
      Settings.search s.places = .error f ∧ Converts fw s arguments := by
  cases hread : fw.read parameters s.mayRead arguments with
  | call c =>
    have hconverts : Converts fw s arguments := ⟨c, hread⟩
    rw [run_of_call hread, finish_exit_error_iff, ← settingsFault?_perform hf (c := c)]
    cases (perform s c).ending with
    | crashed crash => cases crash <;> simp [Ending.settingsFault?, hconverts]
    | done | complained => simp [Ending.settingsFault?]
  | ended | crashed => simp [run, Converts, hread]

end CommandLine

namespace Settings
open CommandLine

/-- A file with text that makes no sense is as good as none. Without the unreadable files a search
gives settings, or a fault of settings, unless a path cannot be asked for; and the search comes to
the same with them just if none of them blocks it. One that does ends the search with its own fault,
which is none of settings, and breaks off every run of the command that converts. -/
theorem search_unreadable (look : Lookup) (directory : Path) :
    let found := search (placesFrom look directory)
    let readable := search (placesFrom (without isUnreadable look) directory)
    search (placesFrom (without isInvalid look) directory) = found ∧
    (∀ f, readable = .error f → (∃ g, f = .settings g) ∨ ∃ p r, f = .inaccessible p r) ∧
    (found = readable ↔ ∀ f, ¬ Blocked look directory f) ∧
    ∀ f, (∃ bytes, EndsSearch bytes f) → (∀ g, f ≠ .settings g) ∧
      (found = .error f ↔ Blocked look directory f) ∧
      ∀ (fw : Framework) (s : Surroundings) (arguments : List Text),
        s.places = placesFrom look directory →
          ((run fw s arguments).exit = .error (.settings f) ↔
            Blocked look directory f ∧ Converts fw s arguments) := by
  intro found readable
  have hfault {f : SearchFault} (hf : ∃ bytes, EndsSearch bytes f) :
      found = .error f ↔ Blocked look directory f := by
    obtain ⟨bytes, hends⟩ := hf
    refine ⟨fun h => ?_, search_of_blocked⟩
    refine Classical.byContradiction fun hblocked => ?_
    have hnone : ∀ g, ¬ Blocked look directory g := by
      intro g hg
      have hsame : Except.error g = (Except.error f : Except SearchFault Settings) :=
        (search_of_blocked hg).symm.trans h
      cases hsame
      exact hblocked hg
    have hreadable : readable = .error f := (search_without_unreadable hnone).trans h
    rcases search_readable_error hreadable with ⟨g, hg⟩ | ⟨p, r, hr⟩
    · exact hends.ne_settings g hg
    · exact hends.ne_inaccessible p r hr
  refine ⟨search_without_invalid look directory, fun f => search_readable_error,
    search_eq_readable_iff, ?_⟩
  intro f hf
  have hsettings : ∀ g, f ≠ .settings g := by
    obtain ⟨bytes, hends⟩ := hf
    exact hends.ne_settings
  refine ⟨hsettings, hfault hf, fun fw s arguments hplaces => ?_⟩
  rw [← hfault hf, run_settings_iff hsettings, hplaces]

def byteThenNumber : Lookup := fun p =>
  if p = ⟨['/'], [projectName]⟩ then .ofBytes [0xff]
  else if p = ⟨['/'], [dotfileName]⟩ then
    .ofBytes (Text.Utf8.encode "xml-to-markdown=0".toList)
  else .refused .notFound

theorem search_byteThenNumber :
    let fault := SearchFault.undecodable ⟨.badStart, 0xff, 0, 1⟩
    let places := placesFrom byteThenNumber ⟨['/'], []⟩
    let s : Surroundings := ⟨places, none, [], byteThenNumber, fun _ => .ok true⟩
    (search places = .error fault ∧ (run plain s []).exit = .error (.settings fault)) ∧
    ∃ f, search (placesFrom (without isUnreadable byteThenNumber) ⟨['/'], []⟩) = .error f ∧
      ((∃ g, f = .settings g) ∨ ∃ p r, f = .inaccessible p r) := by
  intro fault places s
  let project : Candidate := ⟨⟨['/'], [projectName]⟩, toolTable⟩
  let dotfile : Candidate := ⟨⟨['/'], [dotfileName]⟩, [tableName]⟩
  let later : Candidate := ⟨⟨['/'], [dotfileName]⟩, toolTable⟩
  have hfirst : candidates ⟨['/'], []⟩ = [] ++ project :: [dotfile, later] := rfl
  have hsecond : candidates ⟨['/'], []⟩ = [project] ++ dotfile :: [later] := rfl
  have hends : EndsSearch [0xff] fault := .undecodable rfl
  have hblocked : Blocked byteThenNumber ⟨['/'], []⟩ fault :=
    ⟨hfirst, by simp, rfl, hends⟩
  obtain ⟨-, hsettings, -, hfaults⟩ := search_unreadable byteThenNumber ⟨['/'], []⟩
  obtain ⟨-, hsearch, hrun⟩ := hfaults fault ⟨_, hends⟩
  have hnumber : Toml.read "xml-to-markdown=0".toList =
      .ok (.table [(tableName, .integer 0)]) := by cbv
  have hreadable : isUnreadable (Text.Utf8.encode "xml-to-markdown=0".toList) = false := by
    have ht : Text.Utf8.decode? (Text.Utf8.encode "xml-to-markdown=0".toList) =
        .ok "xml-to-markdown=0".toList := rfl
    simp only [isUnreadable, ht, hnumber]
    rfl
  have hproject : project.Gives (without isUnreadable byteThenNumber) none :=
    .missing rfl
  have hfile : sought (without isUnreadable byteThenNumber dotfile.path) =
      .ok (some (Text.Utf8.encode "xml-to-markdown=0".toList)) := by
    have hlook : sought (byteThenNumber dotfile.path) =
        .ok (some (Text.Utf8.encode "xml-to-markdown=0".toList)) := rfl
    simp only [without, hlook, hreadable, Bool.false_eq_true, if_false]
  have hdotfile : dotfile.Gives (without isUnreadable byteThenNumber)
      (some (.ok (.integer 0))) := .table hfile rfl hnumber rfl
  have hfound := search_of_first hsecond (List.forall_mem_singleton.mpr hproject) hdotfile
  refine ⟨⟨hsearch.mpr hblocked, ?_⟩, _, hfound, hsettings _ hfound⟩
  exact (hrun plain s [] rfl).mpr ⟨hblocked, _, rfl⟩

end Settings
end DocMarkdown
