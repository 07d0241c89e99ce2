import DocMarkdown.Proofs.Xml.Additions
import DocMarkdown.Proofs.Xml.SteadyLexemes
import DocMarkdown.Proofs.Xml.SteadyTokens

/-! Content at the beginning of a document is read in the same way whatever follows it. The end of
an element in particular, once it has been delivered, is delivered after the same events in every
document that begins with the same cells up to its tag. -/

namespace DocMarkdown.Xml

/-- The same content, as the beginning of another document has it. -/
structure Source.Again (s s' : Source) : Prop where
  scope : ∃ early early' unit, s.scope = .document early unit ∧ s'.scope = .document early' unit
  converts : s.converts = s'.converts
  doctype : s.doctype = s'.doctype
  opened : s.opened = s'.opened

section
variable {s s' : Source} {expand : Expansion} {names : List Text} {start : Nat} {piece : Text}
  {cells rest after more : List Cell} {c : Cell} {t t' : Trail}

theorem Source.Again.account (hs : s.Again s') : s.scope.account = s'.scope.account := by
  obtain ⟨early, early', unit, hscope, hscope'⟩ := hs.scope
  rw [hscope, hscope']
  rfl

theorem spend_again (hs : s.Again s') (hplace : offsetOf s.stop rest = offsetOf s'.stop more)
    (start : Nat) : Delivery.spend s start rest = Delivery.spend s' start more := by
  unfold Delivery.spend
  rw [hs.account, hplace]

theorem collect_again (hs : s.Again s') (start : Nat) (piece : Text) (c : Cell)
    (rest more : List Cell) :
    readRaw.collect s start piece (c :: rest) = readRaw.collect s' start piece (c :: more) := by
  have hplace : offsetOf s.stop (c :: rest) = offsetOf s'.stop (c :: more) := rfl
  unfold readRaw.collect Delivery.text
  rw [spend_again hs hplace, hs.converts]

theorem bracket_mark {offset : Nat} (h : bracket cells = .mark offset after) :
    ∃ d e, cells = d :: e :: after ∧ (d.char = ']' ∧ e.char = '>') ∧ e.offset = offset := by
  unfold bracket at h
  split at h
  · cases h
  · split at h <;> cases h
  · split at h
    · cases h
      rename_i hmark
      exact ⟨_, _, rfl, by simpa using hmark, rfl⟩
    · cases h

section
variable (hbad : c.kind ≠ .bad) (hcut : c.kind ≠ .cut) (hline : c.kind ≠ .lineFeed)
  (hreturn : c.kind ≠ .carriageReturn)
include hbad hcut hline hreturn

theorem readRaw_mark (hchar : c.char = ']') {offset : Nat}
    (hmark : bracket rest = .mark offset after) :
    readRaw s start piece (c :: rest) = (do
      readRaw.collect s start piece (c :: rest)
      Delivery.spend s c.offset after
      Delivery.event .closeRaw
      return after) := by
  rw [readRaw.eq_def]
  obtain ⟨x, kind, wide, offset⟩ := c
  cases kind <;> simp_all

theorem readRaw_bracket (hchar : c.char = ']') (htext : bracket rest = .text) :
    readRaw s start piece (c :: rest) = (do
      readRaw.collect s start piece (c :: rest)
      readRaw s c.offset [']'] rest) := by
  rw [readRaw.eq_def]
  obtain ⟨x, kind, wide, offset⟩ := c
  cases kind <;> simp_all

theorem readRaw_other (hchar : c.char ≠ ']') :
    readRaw s start piece (c :: rest) = readRaw s start (c.char :: piece) rest := by
  rw [readRaw.eq_def]
  obtain ⟨x, kind, wide, offset⟩ := c
  cases kind <;> simp_all

end

/-- The end of a raw section, reached by cells that lead to it whatever follows them. -/
def EndsAgain (s : Source) (start : Nat) (piece : Text) (cells after : List Cell)
    (t t' : Trail) : Prop :=
  ∃ taken, cells = taken ++ after ∧ 3 ≤ taken.length ∧
    ∀ {s' : Source}, s.Again s' → ∀ {more}, offsetOf s.stop after = offsetOf s'.stop more →
      readRaw s' start piece (taken ++ more) t = .ok more t'

theorem EndsAgain.step {start' : Nat} {piece' : Text} {t₁ : Trail} (c : Cell) (pre : List Cell)
    (h : EndsAgain s start' piece' rest after t₁ t')
    (hstep : ∀ {s' : Source}, s.Again s' → ∀ {taken more}, rest = taken ++ after →
      3 ≤ taken.length → offsetOf s.stop rest = offsetOf s'.stop (taken ++ more) →
        readRaw s' start piece (c :: pre ++ (taken ++ more)) t =
          readRaw s' start' piece' (taken ++ more) t₁) :
    EndsAgain s start piece (c :: pre ++ rest) after t t' := by
  obtain ⟨taken, rfl, hlength, hsame⟩ := h
  refine ⟨c :: pre ++ taken, (List.append_assoc ..).symm, ?_, fun {s'} hs {more} hplace => ?_⟩
  · rw [List.length_append]
    omega
  · rw [List.append_assoc, hstep hs rfl hlength (offsetOf_append hplace taken)]
    exact hsame hs hplace

theorem readRaw_again (h : readRaw s start piece cells t = .ok after t') :
    EndsAgain s start piece cells after t t' := by
  fun_induction readRaw s start piece cells generalizing t with
  | case1 start piece | case2 start piece c rest hc | case3 start piece c rest hc =>
    obtain ⟨_, _, -, h⟩ := EStateM.of_bind_ok h
    cases h
  | case4 start piece c rest hc ih =>
    obtain ⟨⟨⟩, t₁, hcollect, h⟩ := EStateM.of_bind_ok h
    obtain ⟨⟨⟩, t₂, hspend, h⟩ := EStateM.of_bind_ok h
    obtain ⟨⟨⟩, t₃, hchar, h⟩ := EStateM.of_bind_ok h
    refine (ih h).step c [] fun {s'} hs {taken more} _ _ hplace => ?_
    rw [collect_again hs start piece c _ (taken ++ more)] at hcollect
    rw [spend_again hs hplace] at hspend
    rw [List.cons_append, List.nil_append, readRaw.eq_def]
    simp only [hc]
    rw [EStateM.bind_of_ok hcollect, EStateM.bind_of_ok hspend, EStateM.bind_of_ok hchar, hplace]
  | case5 start piece c rest hc ih =>
    obtain ⟨⟨⟩, t₁, hcollect, h⟩ := EStateM.of_bind_ok h
    cases rest with
    | nil => cases h
    | cons d rest =>
      simp only at ih h
      split at h
      · rename_i hd
        obtain ⟨⟨⟩, t₂, hspend, h⟩ := EStateM.of_bind_ok h
        obtain ⟨⟨⟩, t₃, hchar, h⟩ := EStateM.of_bind_ok h
        refine (ih.1 h).step c [d] fun {s'} hs {taken more} _ _ hplace => ?_
        rw [collect_again hs start piece c _ (d :: (taken ++ more))] at hcollect
        rw [spend_again hs hplace] at hspend
        rw [List.cons_append, List.cons_append, List.nil_append, readRaw.eq_def]
        simp only [hc, hd, if_true]
        rw [EStateM.bind_of_ok hcollect, EStateM.bind_of_ok hspend, EStateM.bind_of_ok hchar,
          hplace]
      · rename_i hd
        obtain ⟨⟨⟩, t₂, hspend, h⟩ := EStateM.of_bind_ok h
        obtain ⟨⟨⟩, t₃, hchar, h⟩ := EStateM.of_bind_ok h
        refine (ih.2 h).step c [] fun {s'} hs {taken more} htaken hlength hplace => ?_
        obtain ⟨e, taken, rfl⟩ := List.exists_cons_of_length_pos (Nat.zero_lt_of_lt hlength)
        obtain ⟨rfl, rfl⟩ := List.cons.inj htaken
        rw [collect_again hs start piece c _ (d :: (taken ++ more))] at hcollect
        rw [spend_again hs hplace, List.cons_append] at hspend
        rw [List.cons_append, List.nil_append, List.cons_append, readRaw.eq_def]
        simp only [hc, hd, if_false]
        rw [EStateM.bind_of_ok hcollect, EStateM.bind_of_ok hspend, EStateM.bind_of_ok hchar]
  | case6 start piece c rest hbracket hbad hcut hline hreturn ih =>
    obtain ⟨⟨⟩, t₁, hcollect, h⟩ := EStateM.of_bind_ok h
    have hcollect' {s' : Source} (hs : s.Again s') (rest' : List Cell) :
        readRaw.collect s' start piece (c :: rest') t = .ok () t₁ := by
      rwa [collect_again hs start piece c rest rest'] at hcollect
    cases hmark : bracket rest with
    | mark offset middle =>
      simp only [hmark] at h
      obtain ⟨⟨⟩, t₂, hspend, h⟩ := EStateM.of_bind_ok h
      obtain ⟨⟨⟩, t₃, hevent, h⟩ := EStateM.of_bind_ok h
      cases h
      obtain ⟨d, e, rfl, hd, he⟩ := bracket_mark hmark
      refine ⟨[c, d, e], rfl, Nat.le_refl 3, fun {s'} hs {more} hplace => ?_⟩
      rw [spend_again hs hplace] at hspend
      have hmark' : bracket (d :: e :: more) = .mark e.offset more := by simp [bracket, hd]
      simp only [List.cons_append, List.nil_append]
      rw [readRaw_mark hbad hcut hline hreturn hbracket hmark', EStateM.bind_of_ok (hcollect' hs _),
        EStateM.bind_of_ok hspend, EStateM.bind_of_ok hevent]
      rfl
    | cutOff =>
      simp only [hmark] at h
      cases h
    | text =>
      simp only [hmark] at h ih
      refine (ih h).step c [] fun {s'} hs {taken more} htaken hlength _ => ?_
      rw [htaken] at hmark
      have hmark' := (Steady.bracket_append (Nat.le_of_succ_le hlength) _ more).1.mp hmark
      rw [List.cons_append, List.nil_append,
        readRaw_bracket hbad hcut hline hreturn hbracket hmark',
        EStateM.bind_of_ok (hcollect' hs _)]
  | case7 start piece c rest hbracket hbad hcut hline hreturn ih =>
    refine (ih h).step c [] fun {s'} hs {taken more} _ _ _ => ?_
    rw [List.cons_append, List.nil_append, readRaw_other hbad hcut hline hreturn hbracket]

def Sealed (x : Char) (cells after : List Cell) : Prop :=
  ∃ taken d, cells = taken ++ d :: after ∧ d.char = x

theorem Sealed.within {x : Char} (h : Sealed x rest after) (hrest : rest <:+ cells) :
    Sealed x cells after := by
  obtain ⟨taken, d, rfl, hd⟩ := h
  obtain ⟨before, rfl⟩ := hrest
  exact ⟨before ++ taken, d, (List.append_assoc ..).symm, hd⟩

theorem expectChar_sealed {x : Char} (h : expectChar x cells = .ok after) :
    Sealed x cells after := by
  obtain ⟨d, rfl, hd⟩ := expectChar_ok h
  exact ⟨[], d, rfl, hd⟩

theorem readName_suffix {n : Text} (h : readName cells = .ok (n, after)) : after <:+ cells := by
  obtain ⟨taken, rfl, -⟩ := readName_taken h
  exact List.suffix_append _ _

theorem readReference_sealed {name : Text} (h : readReference cells = .ok (.entity name, after)) :
    Sealed ';' cells after := by
  have hnumber {base : Nat} {isDigit : Cell → Bool} {cells : List Cell} :
      readNumber base isDigit cells ≠ .ok (.entity name, after) := by
    intro h
    unfold readNumber at h
    simp only at h
    split at h
    · cases h
    · obtain ⟨_, -, h⟩ := Except.of_bind_ok h
      cases h
  cases cells with
  | nil => cases h
  | cons c rest =>
    simp only [readReference] at h
    split at h
    · cases rest with
      | nil => cases h
      | cons d rest =>
        simp only at h
        split at h <;> exact absurd h hnumber
    · obtain ⟨⟨n, middle⟩, hname, h⟩ := Except.of_bind_ok h
      cases middle with
      | nil => cases h
      | cons d middle =>
        simp only at h
        split at h
        · cases h
          exact Sealed.within ⟨[], d, rfl, ‹_›⟩ (readName_suffix hname)
        · cases h

theorem tagEndOr_sealed {next : Cell → CellReader (List RawAttribute × Bool)}
    {p : List RawAttribute × Bool} (h : tagEndOr next cells = .ok (p, after))
    (hnext : ∀ {c rest}, c :: rest <:+ cells → next c rest = .ok (p, after) →
      Sealed '>' (c :: rest) after) : Sealed '>' cells after := by
  cases cells with
  | nil => cases h
  | cons c rest =>
    simp only [tagEndOr] at h
    split at h
    · cases h
      exact ⟨[], c, rfl, ‹_›⟩
    · split at h
      · obtain ⟨_, hend, h⟩ := Except.of_map_ok h
        cases h
        exact (expectChar_sealed hend).within (List.suffix_cons c rest)
      · exact hnext (List.suffix_refl _) h

theorem readTagRest_sealed {halt : List Cell → Halt} {fuel : Nat} {p : List RawAttribute × Bool}
    (h : readTagRest halt fuel cells = .ok (p, after)) : Sealed '>' cells after := by
  induction fuel generalizing halt cells p with
  | zero => cases h
  | succ fuel ih =>
    refine tagEndOr_sealed h fun {c rest} _ h => ?_
    split at h
    · refine (tagEndOr_sealed h fun {d rest} _ h => ?_).within
        ((List.dropWhile_suffix _).trans (List.suffix_cons c rest))
      obtain ⟨⟨first, middle⟩, hfirst, h⟩ := Except.of_bind_ok h
      obtain ⟨⟨⟨others, isEmpty⟩, last⟩, hothers, h⟩ := Except.of_bind_ok h
      cases h
      obtain ⟨taken, htaken, -⟩ := Steady.readAttribute.takes (Nat.le_refl _) hfirst
      exact (ih hothers).within ⟨taken, htaken.symm⟩
    · cases h

theorem readTag_sealed {tag : Tag} (h : readTag cells = .ok (tag, after)) :
    Sealed '>' cells after := by
  obtain ⟨⟨name, middle⟩, hname, h⟩ := Except.of_bind_ok h
  obtain ⟨⟨⟨others, isEmpty⟩, last⟩, hothers, h⟩ := Except.of_bind_ok h
  cases h
  exact (readTagRest_sealed hothers).within (readName_suffix hname)

theorem readEndTag_sealed {n : Text} (h : readEndTag cells = .ok (n, after)) :
    Sealed '>' cells after := by
  obtain ⟨⟨name, middle⟩, hname, h⟩ := Except.of_bind_ok h
  refine Sealed.within ?_ (readName_suffix hname)
  cases middle with
  | nil => cases h
  | cons c rest =>
    simp only at h
    split at h
    · obtain ⟨last, hend, h⟩ := Except.of_bind_ok h
      cases h
      exact (expectChar_sealed hend).within (List.dropWhile_suffix _)
    · cases h

theorem readMarkup_sealed {stop : Nat} {token : Token} (htoken : token.mayClose = true)
    (h : readMarkup stop cells = .ok (token, after)) : Sealed '>' cells after := by
  cases cells with
  | nil => cases h
  | cons c rest =>
    simp only [readMarkup] at h
    split at h
    · cases rest with
      | nil => cases h
      | cons d rest =>
        simp only at h
        split at h
        · obtain ⟨_, -, h⟩ := Except.of_map_ok h
          cases h
          cases htoken
        · split at h
          · obtain ⟨_, -, h⟩ := Except.of_map_ok h
            cases h
            cases htoken
          · cases h
    · split at h
      · obtain ⟨_, -, h⟩ := Except.of_map_ok h
        simp only [Prod.mk.injEq] at h
        split at h <;> obtain ⟨rfl, -⟩ := h <;> cases htoken
      · split at h
        · obtain ⟨_, hend, h⟩ := Except.of_map_ok h
          cases h
          exact (readEndTag_sealed hend).within (List.suffix_cons c rest)
        · obtain ⟨_, htag, h⟩ := Except.of_map_ok h
          cases h
          exact readTag_sealed htag

theorem readMarkup_stop {stop : Nat} {p : Token × List Cell}
    (h : readMarkup stop cells = .ok p) (stop' : Nat) : readMarkup stop' cells = .ok p := by
  have hraw {cells after : List Cell} (h : readRawStart stop cells = .ok after) :
      readRawStart stop' cells = .ok after :=
    Except.mapError_ok_iff.mpr (Except.mapError_ok_iff.mp h)
  cases cells with
  | nil => exact h
  | cons c rest =>
    simp only [readMarkup] at h ⊢
    split at h
    · rw [if_pos ‹_›]
      cases rest with
      | nil => exact h
      | cons d rest =>
        simp only at h ⊢
        split at h
        · rw [if_pos ‹_›]
          exact h
        · rw [if_neg ‹_›]
          split at h
          · obtain ⟨after, hafter, rfl⟩ := Except.of_map_ok h
            rw [if_pos ‹_›, hraw hafter]
            rfl
          · rw [if_neg ‹_›]
            exact h
    · rw [if_neg ‹_›]
      exact h

theorem readToken_stop {stop : Nat} {p : Token × List Cell} (h : readToken stop c rest = .ok p)
    (stop' : Nat) : readToken stop' c rest = .ok p := by
  unfold readToken at h ⊢
  split at h <;> try exact h
  split at h
  · rw [if_pos ‹_›]
    exact readMarkup_stop h stop'
  · rw [if_neg ‹_›]
    exact h

def Closing (core : List Cell) : Prop :=
  ∃ d, core.getLast? = some d ∧ (d.char = '>' ∨ d.char = ';')

theorem Closing.before {core : List Cell} (h : Closing core) (before : List Cell) :
    Closing (before ++ core) := by
  obtain ⟨d, hlast, hd⟩ := h
  exact ⟨d, by rw [List.getLast?_append, hlast, Option.some_or], hd⟩

theorem Steady.sealed {α : Type} {f : CellReader α} {a : α} {x : Char}
    (hf : ∀ l, Steady l 0 2 f) (h : f cells = .ok (a, after)) (hx : Sealed x cells after)
    (hchar : x = '>' ∨ x = ';') :
    ∃ core, cells = core ++ after ∧ 2 ≤ core.length ∧ Closing core ∧
      ∀ more, f (core ++ more) = .ok (a, more) := by
  obtain ⟨core, rfl, hlength⟩ := (hf _).takes (Nat.le_refl _) h
  obtain ⟨taken, d, hcells, rfl⟩ := hx
  rw [List.append_cons, List.append_cancel_right_eq] at hcells
  subst hcells
  have hnone : f (taken ++ [d] ++ after) = .ok (a, [] ++ after) := h
  exact ⟨_, rfl, hlength, ⟨d, by simp, hchar⟩, Steady.carry hf hnone (Nat.le_refl 0)⟩

theorem textToken_mayClose {token : Token} (h : textToken c rest = .ok (token, after)) :
    token.mayClose = false := by
  obtain ⟨_, -, h⟩ := Except.of_map_ok h
  cases h
  rfl

theorem bracketToken_mayClose {token : Token} (h : bracketToken c rest = .ok (token, after)) :
    token.mayClose = false := by
  unfold bracketToken at h
  split at h
  · cases h
  · cases h
    rfl
  · exact textToken_mayClose h

theorem lineEndToken_mayClose {token : Token} (h : lineEndToken c rest = .ok (token, after)) :
    token.mayClose = false := by
  cases rest <;> cases h <;> rfl

theorem readToken_closing {stop : Nat} {token : Token} (htoken : token.mayClose = true)
    (h : readToken stop c rest = .ok (token, after)) :
    ∃ core, rest = core ++ after ∧ 2 ≤ core.length ∧ Closing core ∧
      ∀ stop' more, readToken stop' c (core ++ more) = .ok (token, more) := by
  have hno (hfalse : token.mayClose = false) : False := by
    rw [htoken] at hfalse
    cases hfalse
  -- only markup and references can close anything
  have hmarkup : (readMarkup stop rest = .ok (token, after) ∧
        ∀ cells, readToken stop c cells = readMarkup stop cells) ∨
      ∃ name, token = .reference (.entity name) ∧
        readReference rest = .ok (.entity name, after) ∧ ∀ cells, readToken stop c cells =
          (readReference cells).map fun p => (.reference p.1, p.2) := by
    obtain ⟨x, kind, wide, offset⟩ := c
    unfold readToken at h ⊢
    cases kind with
    | bad | cut => cases h
    | lineFeed =>
      cases h
      cases htoken
    | carriageReturn => exact (hno (lineEndToken_mayClose h)).elim
    | letter | inner | other | blank =>
      simp only at h ⊢
      split at h
      · exact .inl ⟨h, fun _ => if_pos ‹_›⟩
      · split at h
        · obtain ⟨⟨r, last⟩, hr, h⟩ := Except.of_map_ok h
          cases h
          cases r with
          | character x => cases htoken
          | entity name => exact .inr ⟨name, rfl, hr, fun _ => (if_neg ‹_›).trans (if_pos ‹_›)⟩
        · split at h
          · exact (hno (bracketToken_mayClose h)).elim
          · exact (hno (textToken_mayClose h)).elim
  rcases hmarkup with ⟨hread, hsame⟩ | ⟨name, rfl, hread, hsame⟩
  · obtain ⟨core, hrest, hlength, hclosing, hread'⟩ := Steady.sealed
      (fun _ => Steady.readMarkup stop) hread (readMarkup_sealed htoken hread) (.inl rfl)
    refine ⟨core, hrest, hlength, hclosing, fun stop' more => ?_⟩
    exact readToken_stop ((hsame _).trans (hread' more)) stop'
  · obtain ⟨core, hrest, hlength, hclosing, hread'⟩ := Steady.sealed
      (fun _ => Steady.readReference) hread (readReference_sealed hread) (.inr rfl)
    refine ⟨core, hrest, hlength, hclosing, fun stop' more => ?_⟩
    exact readToken_stop ((hsame _).trans (congrArg _ (hread' more))) stop'

end

theorem List.of_append_eq {α : Type} {more xs later ys : List α} {a : α}
    (h : more ++ xs = later ++ a :: ys) :
    (∃ left, xs = left ++ a :: ys) ∨ a ∈ more ∧ xs <:+ ys := by
  rcases List.append_eq_append_iff.mp h with ⟨x, -, hx⟩ | ⟨x, hmore, hx⟩
  · exact .inl ⟨x, hx⟩
  · cases x with
    | nil => exact .inl ⟨[], hx.symm⟩
    | cons b x =>
      obtain ⟨rfl, rfl⟩ := List.cons.inj hx
      exact .inr ⟨by simp [hmore], List.suffix_append x xs⟩

section
variable {ε α β : Type} {x : EStateM ε Trail α} {f : α → EStateM ε Trail β} {t : Trail}
  {later es : List Event} {name : Text}

theorem Adds.no_end (hx : Adds Event.Continues x) (hes : t.events <:+ es) :
    (reached x t).events ≠ later ++ .closeElement name :: es := by
  intro h
  obtain ⟨more, hevents, hmore⟩ := hx t
  rw [hevents] at h
  rcases List.of_append_eq h with ⟨left, hleft⟩ | ⟨hmem, -⟩
  · have := congrArg List.length hleft
    have := hes.length_le
    simp only [List.length_append, List.length_cons] at *
    omega
  · exact hmore _ hmem name rfl

theorem Adds.bind_end (hf : ∀ a, Adds Event.Continues (f a))
    (h : (reached (x >>= f) t).events = later ++ .closeElement name :: es) :
    ∃ later', (reached x t).events = later' ++ .closeElement name :: es := by
  cases hx : x t with
  | ok a t' =>
    rw [reached_bind f hx] at h
    obtain ⟨more, hevents, hmore⟩ := hf a t'
    rw [hevents] at h
    rw [reached_ok hx]
    exact (List.of_append_eq h).resolve_right fun hmem => hmore _ hmem.1 name rfl
  | error e t' =>
    rw [reached_bind_error f hx] at h
    exact ⟨later, by rw [reached_error hx, h]⟩

theorem Grows.bind_of_end (hf : ∀ a, Grows (f a))
    (h : (reached x t).events = later ++ .closeElement name :: es) :
    ∃ later', (reached (x >>= f) t).events = later' ++ .closeElement name :: es := by
  cases hx : x t with
  | ok a t' =>
    obtain ⟨more, hevents, -⟩ := hf a t'
    rw [reached_ok hx] at h
    exact ⟨more ++ later, by rw [reached_bind f hx, hevents, h, List.append_assoc]⟩
  | error e t' =>
    rw [reached_error hx] at h
    exact ⟨later, by rw [reached_bind_error f hx, h]⟩

end

section
variable {s s' : Source} {expand : Expansion} {names names' : List Text} {start : Nat}
  {cells rest after left more : List Cell} {c : Cell} {t t' : Trail} {token : Token} {turn : Turn}

theorem deliverToken_again (hs : s.Again s') (htoken : ∀ t offset, token ≠ .tail t offset)
    (start : Nat) : deliverToken s expand names start token =
      deliverToken s' expand names start token := by
  obtain ⟨scope, stop, converts, doctype, opened⟩ := s
  obtain ⟨scope', stop', converts', doctype', opened'⟩ := s'
  obtain ⟨⟨early, early', unit, rfl, rfl⟩, rfl, rfl, rfl⟩ := hs
  cases token with
  | tail t offset => exact absurd rfl (htoken t offset)
  | reference r => rcases r with name | (_ | x) <;> rfl
  | closeTag name offset => cases names <;> rfl
  | _ => rfl

theorem deliverToken_tail (hs : s.Again s') {text : Text} {offset : Option Nat} :
    deliverToken s expand names start (.tail text offset) t ≠ .ok turn t' := by
  intro h
  obtain ⟨early, _, unit, hscope, -⟩ := hs.scope
  obtain ⟨_, _, -, h⟩ := EStateM.of_bind_ok h
  rw [hscope] at h
  cases h

theorem goOn_again (h : turn.goOn s after t = .ok (some names, left ++ rest) t') :
    ∃ between, after = between ++ left ++ rest ∧ ∀ {s'}, s.Again s' → ∀ {more},
      offsetOf s.stop rest = offsetOf s'.stop more →
        turn.goOn s' (between ++ left ++ more) t = .ok (some names, left ++ more) t' := by
  cases turn with
  | next names =>
    cases h
    exact ⟨[], rfl, fun _ _ _ => rfl⟩
  | raw names =>
    obtain ⟨last, t₁, hread, h⟩ := EStateM.of_bind_ok h
    cases h
    obtain ⟨taken, rfl, -, hsame⟩ := readRaw_again hread
    refine ⟨taken, (List.append_assoc ..).symm, fun {s'} hs {more} hplace => ?_⟩
    have hplace' := offsetOf_append hplace left
    rw [offsetOf_append hplace' taken] at hsame
    rw [Turn.goOn, List.append_assoc, EStateM.bind_of_ok (hsame hs hplace')]
    rfl
  | done => cases h

/-- A turn after which there is more content leads to the same place of it, whatever follows. -/
theorem readTurn_again
    (h : readTurn s expand names c cells t = .ok (some names', left ++ rest) t')
    (hleft : 3 ≤ left.length) :
    ∃ taken, cells = taken ++ left ++ rest ∧ ∀ {s'}, s.Again s' → ∀ {more},
      offsetOf s.stop rest = offsetOf s'.stop more →
        readTurn s' expand names c (taken ++ left ++ more) t =
          .ok (some names', left ++ more) t' := by
  unfold readTurn at h
  cases hread : readToken s.stop c cells with
  | error halt =>
    simp only [hread] at h
    cases h
  | ok p =>
    obtain ⟨token, after⟩ := p
    simp only [hread] at h
    obtain ⟨⟨⟩, t₁, hspend, h⟩ := EStateM.of_bind_ok h
    obtain ⟨turn, t₂, hdeliver, h⟩ := EStateM.of_bind_ok h
    obtain ⟨between, rfl, hgoOn⟩ := goOn_again h
    obtain ⟨token', rfl, -⟩ := (Steady.readToken s.stop c).takes (Nat.le_refl _) hread
    simp only [← List.append_assoc] at hread ⊢
    refine ⟨token' ++ between, rfl, fun {s'} hs {more} hplace => ?_⟩
    have hread' := Steady.carry (fun _ => Steady.readToken s.stop c) hread
      (Nat.le_trans hleft (by simp)) more
    rw [spend_again hs (offsetOf_append hplace (between ++ left))] at hspend
    have htoken (text : Text) (offset : Option Nat) : token ≠ .tail text offset := by
      rintro rfl
      exact deliverToken_tail hs hdeliver
    rw [deliverToken_again hs htoken] at hdeliver
    unfold readTurn
    rw [readToken_stop hread' s'.stop]
    simp only
    rw [EStateM.bind_of_ok hspend, EStateM.bind_of_ok hdeliver]
    exact hgoOn hs hplace

theorem readTurn_closing {later es : List Event} {name : Text} (hes : t.events <:+ es)
    (h : (reached (readTurn s expand names c cells) t).events =
      later ++ .closeElement name :: es) :
    ∃ core rest, cells = core ++ rest ∧ 2 ≤ core.length ∧ Closing core ∧
      ∀ {s'}, s.Again s' → ∀ {more}, offsetOf s.stop rest = offsetOf s'.stop more →
        ∃ later', (reached (readTurn s' expand names c (core ++ more)) t).events =
          later' ++ .closeElement name :: es := by
  unfold readTurn at h
  cases hread : readToken s.stop c cells with
  | error halt =>
    simp only [hread] at h
    exact absurd h ((Adds.throw _).no_end hes)
  | ok p =>
    obtain ⟨token, after⟩ := p
    simp only [hread, ← bind_assoc] at h
    obtain ⟨later₁, hdeliver⟩ := Adds.bind_end (Adds.goOn s after) h
    cases htoken : token.mayClose with
    | false =>
      have hplain : Adds Event.Continues (do
          Delivery.spend s c.offset after
          deliverToken s expand names c.offset token) :=
        (Adds.spend s _ _).bind fun _ => Adds.deliverOther s expand names c.offset htoken
      exact absurd hdeliver (hplain.no_end hes)
    | true =>
      obtain ⟨core, rfl, hlength, hclosing, hread'⟩ := readToken_closing htoken hread
      refine ⟨core, after, rfl, hlength, hclosing, fun {s'} hs {more} hplace => ?_⟩
      have htail (text : Text) (offset : Option Nat) : token ≠ .tail text offset := by
        rintro rfl
        cases htoken
      rw [spend_again hs hplace, deliverToken_again hs htail] at hdeliver
      unfold readTurn
      simp only [hread' s'.stop more, ← bind_assoc]
      exact Grows.bind_of_end (fun turn => (Adds.goOn s' more turn).mono fun _ _ => trivial)
        hdeliver

/-- A beginning of the cells is enough to deliver the end of the element `name` after `es`,
whatever follows it in a document. -/
def ClosesAgain (s : Source) (expand : Expansion) (names : List Text) (cells : List Cell)
    (t : Trail) (name : Text) (es : List Event) : Prop :=
  ∃ core rest, cells = core ++ rest ∧ 3 ≤ core.length ∧ Closing core ∧
    ∀ {s'}, s.Again s' → ∀ {more}, offsetOf s.stop rest = offsetOf s'.stop more →
      ∀ {fuel}, (core ++ more).length < fuel →
        ∃ later, (reached (readContent s' expand fuel names (core ++ more)) t).events =
          later ++ .closeElement name :: es

theorem readContent_again (hexpand : ∀ name, Grows (expand name)) {fuel : Nat}
    {later es : List Event} {name : Text} (hes : t.events <:+ es)
    (h : (reached (readContent s expand fuel names cells) t).events =
      later ++ .closeElement name :: es) : ClosesAgain s expand names cells t name es := by
  induction fuel generalizing names cells t later with
  | zero => exact absurd h ((Adds.throw _).no_end hes)
  | succ fuel ih =>
    cases cells with
    | nil =>
      have hplain : Adds Event.Continues (readContent s expand (fuel + 1) names []) :=
        (Adds.contentEnd s names s.stop).bind fun _ => .pure _
      exact absurd h (hplain.no_end hes)
    | cons c cells =>
      have hturn {later : List Event}
          (h : (reached (readTurn s expand names c cells) t).events =
            later ++ .closeElement name :: es) :
          ClosesAgain s expand names (c :: cells) t name es := by
        obtain ⟨core, rest, rfl, hlength, hclosing, hsame⟩ := readTurn_closing hes h
        refine ⟨c :: core, rest, rfl, Nat.succ_le_succ hlength, hclosing.before [c], ?_⟩
        intro s' hs more hplace fuel' hfuel
        obtain ⟨fuel', rfl⟩ :=
          Nat.exists_eq_succ_of_ne_zero (Nat.ne_of_gt (Nat.zero_lt_of_lt hfuel))
        obtain ⟨later', hlater⟩ := hsame hs hplace
        refine Grows.bind_of_end (fun ⟨turn, rest⟩ => ?_) hlater
        cases turn with
        | some names => exact Adds.readContent hexpand s' fuel' names rest
        | none => exact .pure _
      rw [readContent] at h
      cases hr : readTurn s expand names c cells t with
      | error e t₁ =>
        rw [reached_bind_error _ hr] at h
        exact hturn (by rw [reached_error hr, h])
      | ok p t₁ =>
        obtain ⟨turn, after⟩ := p
        rw [reached_bind _ hr] at h
        cases turn with
        | none => exact hturn (by rw [reached_ok hr]; exact h)
        | some names' =>
          simp only at h
          obtain ⟨added, hadded, -⟩ := Adds.readContent hexpand s fuel names' after t₁
          rcases List.of_append_eq (hadded.symm.trans h) with ⟨left, hleft⟩ | ⟨-, hes₁⟩
          · exact hturn (by rw [reached_ok hr, hleft])
          -- the end comes in a later turn, and the turns after this one are the same by induction
          obtain ⟨core, rest, rfl, hlength, hclosing, hsame⟩ := ih hes₁ h
          obtain ⟨taken, rfl, hturn'⟩ := readTurn_again hr hlength
          refine ⟨c :: (taken ++ core), rest, rfl, ?_, hclosing.before (c :: taken), ?_⟩
          · simp only [List.length_cons, List.length_append]
            omega
          intro s' hs more hplace fuel' hfuel
          obtain ⟨fuel', rfl⟩ :=
            Nat.exists_eq_succ_of_ne_zero (Nat.ne_of_gt (Nat.zero_lt_of_lt hfuel))
          rw [List.cons_append, readContent, reached_bind _ (hturn' hs hplace)]
          refine hsame hs hplace ?_
          simp only [List.cons_append, List.length_cons, List.length_append] at hfuel ⊢
          omega

end
end DocMarkdown.Xml
