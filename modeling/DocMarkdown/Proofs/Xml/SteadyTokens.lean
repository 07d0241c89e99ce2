import DocMarkdown.Proofs.Xml.Steady
import DocMarkdown.Xml.Token

/-! The tokens of content. A token that is markup is the same whatever follows it; of a text, three
cells after it tell that it is complete. -/

namespace DocMarkdown.Xml

def IsMark (quote : Char) : Prop := quote = '"' ∨ quote = '\''

theorem not_isQuote_of_isName {c : Cell} (hc : c.isName = true) (quote : Char) :
    c.isQuote quote = false := by
  unfold Cell.isName at hc
  unfold Cell.isQuote
  cases hkind : c.kind <;> simp [hkind] at hc ⊢

theorem not_isQuote_of_char {c : Cell} {quote : Char} (hc : c.char ≠ quote) :
    c.isQuote quote = false := by
  simp [Cell.isQuote, hc]

theorem readName_taken {cells after : List Cell} {n : Text} (h : readName cells = .ok (n, after)) :
    ∃ taken, cells = taken ++ after ∧ ∀ c ∈ taken, c.isName = true := by
  cases cells with
  | nil => cases h
  | cons c rest =>
    simp only [readName] at h
    split at h
    · simp only [Except.ok.injEq, Prod.mk.injEq] at h
      exact ⟨_, (h.2 ▸ List.takeWhile_append_dropWhile).symm,
        List.all_eq_true.mp List.all_takeWhile⟩
    · cases h

theorem expectChar_ok {x : Char} {cells after : List Cell} (h : expectChar x cells = .ok after) :
    ∃ c, cells = c :: after ∧ c.char = x := by
  cases cells with
  | nil => cases h
  | cons c rest =>
    simp only [expectChar] at h
    split at h
    · cases h
      exact ⟨c, rfl, ‹_›⟩
    · cases h

theorem readNumber_taken {base : Nat} {isDigit : Cell → Bool} {cells after : List Cell}
    {r : Reference} (h : readNumber base isDigit cells = .ok (r, after)) :
    ∃ digits d, cells = digits ++ d :: after ∧ d.char = ';' ∧ ∀ c ∈ digits, isDigit c = true := by
  unfold readNumber at h
  simp only at h
  split at h
  · cases h
  · obtain ⟨rest, hrest, h⟩ := Except.of_bind_ok h
    cases h
    obtain ⟨d, hd, hchar⟩ := expectChar_ok hrest
    refine ⟨cells.takeWhile isDigit, d, ?_, hchar, List.all_eq_true.mp List.all_takeWhile⟩
    rw [← hd, List.takeWhile_append_dropWhile]

section
variable {quote : Char} (hquote : IsMark quote)
include hquote

theorem not_isQuote_of_not_isMark {c : Cell} {x : Char} (hc : c.char = x) (hx : ¬IsMark x) :
    c.isQuote quote = false :=
  not_isQuote_of_char fun heq => hx (by rwa [← hc, heq])

theorem not_isQuote_of_isHexDigit {c : Cell} (hc : c.isHexDigit = true) :
    c.isQuote quote = false := by
  refine not_isQuote_of_not_isMark hquote rfl fun hmark => ?_
  rcases hmark with hmark | hmark <;>
  · rw [Cell.isHexDigit, hmark] at hc
    exact absurd hc (by decide)

/-- What has been taken holds no quote, and so ends before the value it stands in does. -/
def Unquoted (quote : Char) (cells after : List Cell) : Prop :=
  ∃ taken, cells = taken ++ after ∧ ∀ c ∈ taken, c.isQuote quote = false

omit hquote in
theorem Unquoted.cons {cells after : List Cell} (h : Unquoted quote cells after) {c : Cell}
    (hc : c.isQuote quote = false) : Unquoted quote (c :: cells) after := by
  obtain ⟨taken, rfl, hall⟩ := h
  exact ⟨c :: taken, rfl, List.forall_mem_cons.mpr ⟨hc, hall⟩⟩

theorem unquoted_semicolon {taken cells after : List Cell} {d : Cell}
    (hcells : cells = taken ++ d :: after) (hall : ∀ c ∈ taken, c.isQuote quote = false)
    (hd : d.char = ';') : Unquoted quote cells after := by
  refine ⟨taken ++ [d], by rw [hcells, List.append_cons], fun c hc => ?_⟩
  rcases List.mem_append.mp hc with hc | hc
  · exact hall c hc
  · rw [List.mem_singleton.mp hc]
    exact not_isQuote_of_not_isMark hquote hd (by simp [IsMark])

theorem readNumber_unquoted {base : Nat} {isDigit : Cell → Bool} {cells after : List Cell}
    {r : Reference} (hdigits : ∀ c, isDigit c = true → c.isHexDigit = true)
    (h : readNumber base isDigit cells = .ok (r, after)) : Unquoted quote cells after := by
  obtain ⟨digits, d, hcells, hd, hall⟩ := readNumber_taken h
  exact unquoted_semicolon hquote hcells
    (fun c hc => not_isQuote_of_isHexDigit hquote (hdigits c (hall c hc))) hd

theorem readReference_unquoted {cells after : List Cell} {r : Reference}
    (h : readReference cells = .ok (r, after)) : Unquoted quote cells after := by
  cases cells with
  | nil => cases h
  | cons c rest =>
    simp only [readReference] at h
    split at h
    · rename_i hc
      have hhash := not_isQuote_of_not_isMark hquote hc (by simp [IsMark])
      cases rest with
      | nil => cases h
      | cons d rest =>
        simp only at h
        split at h
        · rename_i hd
          have hx := not_isQuote_of_not_isMark hquote hd (by simp [IsMark])
          exact ((readNumber_unquoted hquote (fun _ => id) h).cons hx).cons hhash
        · exact (readNumber_unquoted hquote
            (fun c hc => by simp_all [Cell.isDigit, Cell.isHexDigit]) h).cons hhash
    · obtain ⟨⟨n, middle⟩, hname, h⟩ := Except.of_bind_ok h
      obtain ⟨taken, hcells, hall⟩ := readName_taken hname
      cases middle with
      | nil => cases h
      | cons d middle =>
        simp only at h
        split at h
        · cases h
          exact unquoted_semicolon hquote hcells
            (fun e he => not_isQuote_of_isName (hall e he) quote) ‹_›
        · cases h

end

theorem readValue_taken {quote : Char} {done cells after : List Cell} {v : List Cell × Nat}
    (h : readValue quote done cells = .ok (v, after)) :
    ∃ taken c, cells = taken ++ c :: after ∧ c.isQuote quote = true := by
  induction cells generalizing done with
  | nil => cases h
  | cons c rest ih =>
    have hnext (h : readValue quote (c :: done) rest = .ok (v, after)) :
        ∃ taken d, c :: rest = taken ++ d :: after ∧ d.isQuote quote = true := by
      obtain ⟨taken, d, rfl, hd⟩ := ih h
      exact ⟨c :: taken, d, rfl, hd⟩
    simp only [readValue] at h
    split at h
    · rename_i hc
      cases h
      exact ⟨[], c, rfl, hc⟩
    · cases hrefusal : c.refusal with
      | some halt =>
        rw [hrefusal] at h
        cases h
      | none =>
        rw [hrefusal] at h
        simp only at h
        split at h
        · cases h
        · split at h
          · obtain ⟨_, -, h⟩ := Except.of_bind_ok h
            exact hnext h
          · exact hnext h

namespace Steady
variable {l l' m n i k : Nat} {f g : CellReader α}

theorem readValue {quote : Char} (hquote : IsMark quote) (done : List Cell) :
    Steady l 0 1 (Xml.readValue quote done) := by
  induction l using Nat.strongRecOn generalizing done with
  | ind l ih =>
    refine of_cons (by simp [Xml.readValue]) fun c l' hl => ?_
    simp only [Xml.readValue]
    refine .ite (.pure (done.reverse, c.offset)) ?_
    have hnext := (ih l' hl (c :: done)).eats_le (Nat.zero_le 1)
    cases c.refusal with
    | some halt => exact .error fun _ => halt
    | none =>
      refine .ite (.error fun _ => .invalid c.offset) (.ite ?_ hnext)
      refine readReference.guarded hnext fun {cells b middle a after} hr hv => ?_
      obtain ⟨taken, hcells, hall⟩ := readReference_unquoted hquote hr
      obtain ⟨before, d, hcells', hd⟩ := readValue_taken hv
      rw [hcells] at hcells'
      rcases List.append_eq_append_iff.mp hcells' with ⟨x, -, rfl⟩ | ⟨x, rfl, hx⟩
      · simp only [List.length_append, List.length_cons]
        omega
      · cases x with
        | nil =>
          have := congrArg List.length hx
          simp only [List.length_cons, List.nil_append] at this
          omega
        | cons e x =>
          -- the closing quote would be in the reference
          rw [List.cons_append, List.cons.injEq] at hx
          have := hall d (by simp [hx.1])
          rw [hd] at this
          cases this

theorem readQuoted : Steady l 0 1 Xml.readQuoted := by
  refine of_cons (by simp [Xml.readQuoted]) fun c l' _ => ?_
  simp only [Xml.readQuoted]
  split
  · rename_i hc
    exact (readValue (by simpa [IsMark] using hc) []).eats_le (Nat.zero_le 1)
  · exact .error fun _ => .invalid c.offset

theorem expectEquals : Steady l 0 1 (passing Xml.expectEquals) := by
  refine of_cons (by simp [passing, Xml.expectEquals, Except.map]) fun c l' _ => ?_
  simp only [passing, Xml.expectEquals, apply_ite (Except.map _)]
  exact .ite ((expectChar '=').skip.cons c (Nat.lt_succ_self l'))
    (.error fun rest => .beforeName (c :: rest))

theorem readAttribute : Steady l 0 1 Xml.readAttribute := by
  refine of_cons (by simp [Xml.readAttribute, Xml.readName, Bind.bind, Except.bind])
    fun c l' _ => ?_
  simp only [Xml.readAttribute, offsetOf]
  refine ((readName.cons c (Nat.lt_succ_self l')).bind (n := 0) (k := 2) (fun name => ?_)
    (Nat.le_succ 1)).eats_le (Nat.zero_le _)
  simp only
  refine expectEquals.andThen (k := 1) ?_ (Nat.zero_le 1)
  exact (skip readQuoted).map fun value => (⟨name, c.offset, value.1, value.2⟩ : RawAttribute)

theorem tagEndOr {next : Cell → CellReader (List RawAttribute × Bool)}
    (hnext : ∀ c, ∀ l' < l, Steady l' 0 0 (next c)) : Steady l 0 1 (Xml.tagEndOr next) := by
  refine of_cons (by simp [Xml.tagEndOr]) fun c l' hl => ?_
  simp only [Xml.tagEndOr]
  refine .ite (.pure (([], false) : List RawAttribute × Bool)) (.ite ?_ (hnext c l' hl))
  exact ((expectChar '>').giving (([], true) : List RawAttribute × Bool)).eats_le (Nat.zero_le 1)

theorem readTagRest (halt : List Cell → Halt) (fuel : Nat) :
    Steady l 0 1 (Xml.readTagRest halt fuel) := by
  induction fuel generalizing l halt with
  | zero => exact .error fun _ => .unfinished
  | succ fuel ih =>
    refine tagEndOr fun c l' _ => .ite ?_ (.error fun rest => halt (c :: rest))
    refine (skip (tagEndOr fun d l'' _ => ?_)).eats_le (Nat.zero_le 1)
    refine ((readAttribute.cons d (Nat.lt_succ_self l'')).bind (n := 0) (k := 1) (fun first => ?_)
      (Nat.zero_le _)).eats_le (Nat.zero_le _)
    exact (ih .before).map fun p => (first :: p.1, p.2)

theorem tagEndOr_congr {next next' : Cell → CellReader (List RawAttribute × Bool)}
    {cells : List Cell} (h : ∀ c rest, cells = c :: rest → next c rest = next' c rest) :
    Xml.tagEndOr next cells = Xml.tagEndOr next' cells := by
  cases cells with
  | nil => rfl
  | cons c rest => rw [Xml.tagEndOr, Xml.tagEndOr, h c rest rfl]

theorem readTagRest_fuel {halt : List Cell → Halt} {fuel fuel' : Nat} {cells : List Cell}
    (hfuel : cells.length < fuel) (hfuel' : cells.length < fuel') :
    Xml.readTagRest halt fuel cells = Xml.readTagRest halt fuel' cells := by
  induction fuel generalizing halt fuel' cells with
  | zero => omega
  | succ fuel ih =>
    cases fuel' with
    | zero => omega
    | succ fuel' =>
      rw [Xml.readTagRest, Xml.readTagRest]
      refine tagEndOr_congr fun c rest hcells => ?_
      by_cases hc : c.isBlank = true
      case neg => rw [if_neg hc, if_neg hc]
      rw [if_pos hc, if_pos hc]
      refine tagEndOr_congr fun d rest' hrest => ?_
      have hlength := (List.dropWhile_suffix (l := rest) Cell.isBlank).length_le
      change skipBlanks rest = d :: rest' at hrest
      change (skipBlanks rest).length ≤ rest.length at hlength
      rw [hrest] at hlength
      rw [hcells, List.length_cons] at hfuel hfuel'
      cases hread : Xml.readAttribute (d :: rest') with
      | error halt => rfl
      | ok p =>
        obtain ⟨taken, htaken, heats⟩ := readAttribute.takes (Nat.le_refl _) hread
        have := congrArg List.length htaken
        rw [List.length_append] at this
        simp only [Bind.bind, Except.bind]
        rw [@ih .before fuel' _ (by omega) (by omega)]

theorem readTag : Steady l 0 2 Xml.readTag := by
  refine readName.bind (n := 0) (k := 1) (fun name => ?_) (Nat.le_refl 1)
  simp only
  have h : Steady l 0 1 fun cells => Xml.readTagRest .beforeName (cells.length + 1) cells := by
    refine (readTagRest .beforeName (l + 1)).congr fun cells hsize p => ?_
    rw [readTagRest_fuel (Nat.lt_succ_self _) (Nat.lt_succ_of_le hsize)]
  exact h.map fun p => (⟨name, p.1, p.2⟩ : Tag)

theorem readEndTag : Steady l 0 2 Xml.readEndTag := by
  refine readName.bind (n := 0) (k := 1) (fun name => ?_) (Nat.le_refl 1)
  refine of_cons (by simp [throw, throwThe, MonadExceptOf.throw]) fun c l' _ => ?_
  simp only
  refine .ite ?_ (.error fun rest => .beforeName (c :: rest))
  exact ((expectChar '>').skip.cons c (Nat.lt_succ_self l')).giving
    (f := fun rest => Xml.expectChar '>' (skipBlanks (c :: rest))) name

theorem bracket_append {core : List Cell} (hcore : 2 ≤ core.length) (rest more : List Cell) :
    (bracket (core ++ rest) = .text ↔ bracket (core ++ more) = .text) ∧
      bracket (core ++ rest) ≠ .cutOff := by
  match core, hcore with
  | d :: e :: core, _ =>
    simp only [List.cons_append, bracket]
    split <;> simp

theorem textRun_takes {done t : Text} {cells after : List Cell}
    (h : Xml.textRun done cells = .ok (t, after)) : after <:+ cells := by
  fun_induction Xml.textRun done cells with
  | case1 =>
    cases h
    exact List.suffix_refl _
  | case2 | case3 | case4 | case5 | case6 | case8 =>
    cases h
    exact List.suffix_refl _
  | case7 => cases h
  | case9 | case10 =>
    rename_i ih
    exact (ih h).trans (List.suffix_cons _ _)

theorem textRun (done : Text) : Steady l 3 0 (Xml.textRun done) := by
  induction l using Nat.strongRecOn generalizing done with
  | ind l ih =>
    refine of_suffix (by omega) textRun_takes
      fun {c core rest more t left} hrest hmore h hleft => ?_
    have hcore : 2 ≤ core.length := by
      have := (textRun_takes h).length_le
      simp only [List.length_append, List.length_cons] at this
      omega
    obtain ⟨hsame, hcut⟩ := bracket_append hcore rest more
    have hnext (h : Xml.textRun (c.char :: done) (core ++ rest) = .ok (t, left ++ rest)) :
        Xml.textRun (c.char :: done) (core ++ more) = .ok (t, left ++ more) :=
      (ih (l - 1) (Nat.sub_one_lt_of_lt hrest) _).same (Nat.le_sub_one_of_lt hrest)
        (Nat.le_sub_one_of_lt hmore) h hleft
    obtain ⟨x, kind, wide, offset⟩ := c
    simp only [Xml.textRun] at h ⊢
    cases kind with
    | bad | cut | carriageReturn | lineFeed => exact ok_carry (_ :: core) h more
    | letter | inner | other | blank =>
      simp only at h ⊢
      split at h
      · rw [if_pos ‹_›]
        exact ok_carry (_ :: core) h more
      · rw [if_neg ‹_›]
        split at h
        · rw [if_pos ‹_›]
          split at h
          · cases h
          · exact absurd ‹_› hcut
          · rw [hsame.mp ‹_›]
            exact hnext h
        · rw [if_neg ‹_›]
          exact hnext h

theorem readRawStart (stop : Nat) : Steady l 0 6 (passing (Xml.readRawStart stop)) := by
  refine (expectWord "CDATA[".toList).congr fun cells _ p => ?_
  unfold passing Xml.readRawStart
  cases Xml.expectWord "CDATA[".toList cells with
  | ok rest => rfl
  | error halt => constructor <;> intro h <;> cases h

theorem readMarkup (stop : Nat) : Steady l 0 2 (Xml.readMarkup stop) := by
  refine of_cons (by simp [Xml.readMarkup]) fun c l' hl => ?_
  simp only [Xml.readMarkup]
  refine .ite ?_ (.ite ?_ (.ite ?_ ?_))
  · refine (of_cons (i := 0) (by simp) fun d l'' _ => ?_)
    refine .ite ?_ (.ite ?_ (.error fun _ => .invalid d.offset))
    · exact (readComment.giving Token.skipped).eats_le (Nat.zero_le 2)
    · exact ((readRawStart stop).giving Token.rawStart).eats_le (Nat.zero_le 6)
  · let token (i : Instruction) : Token := if i.isDeclaration then .declaration else .skipped
    exact (readInstruction.map token).eats_le (Nat.le_succ 1)
  · refine of_cons (by simp [Xml.readEndTag, Xml.readName, Bind.bind, Except.bind, Except.map])
      fun d l'' hl' => ?_
    exact ((readEndTag.cons d hl').map fun name => Token.closeTag name d.offset).eats_le
      (Nat.zero_le 1)
  · exact ((readTag.cons c (Nat.lt_succ_self l')).map Token.openTag)

theorem textToken (c : Cell) : Steady l 3 0 (Xml.textToken c) :=
  (textRun [c.char]).map Token.text

theorem bracketToken (c : Cell) : Steady l 3 0 (Xml.bracketToken c) where
  takes := by
    intro cells b after hsize h
    unfold Xml.bracketToken at h
    split at h
    · cases h
    · cases h
      exact ⟨cells, (List.append_nil cells).symm, Nat.zero_le _⟩
    · exact (textToken c).takes hsize h
  same := by
    intro core rest more b left hrest hmore h hleft
    unfold Xml.bracketToken at h ⊢
    split at h
    · cases h
    · simp only [Except.ok.injEq, Prod.mk.injEq] at h
      have := congrArg List.length h.2
      simp only [List.length_nil, List.length_append] at this
      omega
    · obtain ⟨taken, hcells, -⟩ := (textToken c).takes hrest h
      have := congrArg List.length hcells
      simp only [List.length_append] at this
      have hcore : 2 ≤ core.length := by omega
      obtain ⟨hsame, -⟩ := bracket_append hcore rest more
      rw [hsame.mp ‹_›]
      exact (textToken c).same hrest hmore h hleft

theorem lineEndToken (c : Cell) : Steady l 1 0 (Xml.lineEndToken c) := by
  have takes {cells after : List Cell} {a : Token} (h : Xml.lineEndToken c cells = .ok (a, after)) :
      after <:+ cells := by
    cases cells with
    | nil =>
      cases h
      exact List.suffix_refl _
    | cons d rest =>
      simp only [Xml.lineEndToken, Except.ok.injEq, Prod.mk.injEq] at h
      rw [← h.2]
      split
      · exact List.suffix_cons d rest
      · exact List.suffix_refl _
  refine of_suffix (Nat.le_refl 1) takes fun {d core rest more a left} _ _ h _ => ?_
  simp only [Xml.lineEndToken, apply_ite (Prod.mk _), apply_ite Except.ok] at h ⊢
  split at h
  · rw [if_pos ‹_›]
    exact ok_carry core h more
  · rw [if_neg ‹_›]
    exact ok_carry (d :: core) h more

theorem readToken (stop : Nat) (c : Cell) : Steady l 3 0 (Xml.readToken stop c) := by
  obtain ⟨x, kind, wide, offset⟩ := c
  unfold Xml.readToken
  cases kind with
  | bad => exact .error fun _ => .invalid offset
  | cut => exact .error fun _ => .cutCharacter
  | lineFeed => exact .pure (Token.text ['\n'])
  | carriageReturn => exact (lineEndToken _).weaken (by omega) (Nat.le_refl 0)
  | letter | inner | other | blank =>
    refine .ite ?_ (.ite ?_ (.ite (bracketToken _) (textToken _)))
    · exact (readMarkup stop).weaken (Nat.zero_le 3) (Nat.zero_le 2)
    · exact (readReference.map Token.reference).weaken (Nat.zero_le 3) (Nat.zero_le 2)

end Steady
end DocMarkdown.Xml
