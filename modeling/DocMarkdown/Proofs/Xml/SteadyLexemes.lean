import DocMarkdown.Proofs.Xml.Steady
import DocMarkdown.Xml.Prolog

/-! Lexemes are steady, and so are all those up to the root: where the root begins, what has been
declared before it is the same whatever follows. -/

namespace DocMarkdown.Xml
namespace Steady

variable {α : Type} {l l' m n i k : Nat} {f g : CellReader α}

theorem complete (signs : String) (a : α) (e : List Cell → Halt) : Steady l 1 0 fun cells =>
    if endsWith signs cells = true then (.ok (a, cells) : Except Halt _) else .error (e cells) := by
  refine looking (fun {cells b after} h => ?_) fun {core rest b} hcore h more => ?_
  · split at h <;> cases h
    rfl
  · cases core with
    | nil => cases hcore
    | cons c core =>
      have hsame : endsWith signs (c :: core ++ more) = endsWith signs (c :: core ++ rest) := rfl
      by_cases hends : endsWith signs (c :: core ++ rest) = true
      · rw [if_pos hends] at h
        rw [if_pos (hsame.trans hends)]
        cases h
        rfl
      · rw [if_neg hends] at h
        cases h

theorem literalEnd (quote : Char) (done : List Cell) :
    Steady l 0 1 (Xml.literalEnd quote done) := by
  induction l using Nat.strongRecOn generalizing done with
  | ind l ih =>
    refine of_cons (by simp [Xml.literalEnd]) fun c l' hl => ?_
    simp only [Xml.literalEnd]
    cases c.refusal with
    | some halt => exact .error fun _ => halt
    | none => exact .ite (.pure done.reverse) ((ih l' hl (c :: done)).eats_le (Nat.zero_le 1))

theorem readLiteral (quote : Char) : Steady l 1 1 (Xml.readLiteral quote) := by
  refine (literalEnd quote []).bind (n := 1) (k := 0) (fun value => ?_) (Nat.zero_le _)
  exact complete ">%[" (Lexeme.literal value) .before

theorem readReserved : Steady l 1 1 Xml.readReserved := by
  refine readName.bind (n := 1) (k := 0) (fun n => ?_) (Nat.le_refl 1)
  exact complete ")>%|" (Lexeme.reserved n) .beforeName

theorem readPercent : Steady l 1 0 Xml.readPercent := by
  refine of_peek (Nat.le_refl 1) (by simp [Xml.readPercent]) fun c => ?_
  simp only [Xml.readPercent]
  split
  · exact .inr ⟨.percent, fun _ => rfl⟩
  · refine .inl fun l' _ => ?_
    refine ((readName.cons c (Nat.lt_succ_self l')).bind (n := 1) (k := 1) (fun name => ?_)
      (Nat.le_succ 1)).eats_le (Nat.zero_le _)
    refine of_cons (by simp [throw, throwThe, MonadExceptOf.throw]) fun d l'' _ => ?_
    exact .ite (.pure Lexeme.parameterReference) (.error fun rest => .beforeName (d :: rest))

theorem endOpening (keyword : Text) : Steady l 2 0 (Xml.endOpening keyword) := by
  refine looking (fun {cells a after} h => ?_) fun {core rest a} hcore h more => ?_
  · unfold Xml.endOpening at h
    split at h
    · cases h
    · split at h
      · cases h
        rfl
      · split at h
        · split at h
          · cases h
          · split at h <;> cases h
            rfl
        · cases h
  · match core, hcore with
    | d :: e :: core, _ =>
      simp only [Xml.endOpening, List.cons_append] at h ⊢
      split at h
      · rw [if_pos ‹_›]
        cases h
        rfl
      · rw [if_neg ‹_›]
        split at h
        · rw [if_pos ‹_›]
          split at h
          · cases h
          · rw [if_neg ‹_›]
            cases h
            rfl
        · cases h

theorem readDeclarationStart : Steady l 2 1 Xml.readDeclarationStart := by
  refine of_cons (by simp [Xml.readDeclarationStart]) fun c l' _ => ?_
  simp only [Xml.readDeclarationStart]
  refine .ite ?_ (.ite (.pure Lexeme.sectionStart) ?_)
  · exact (readComment.giving Lexeme.comment).weaken (Nat.zero_le 2) (Nat.zero_le 2)
  · by_cases hc : isKeywordCell c = true
    · simp only [hc, Bool.not_true, Bool.false_eq_true, if_false, List.takeWhile_cons_of_pos,
        List.dropWhile_cons_of_pos]
      exact (span isKeywordCell).bind (s := fun p => Xml.endOpening (chars (c :: p.1)) p.2)
        (fun taken => endOpening (chars (c :: taken))) (by omega)
    · simp only [hc]
      exact .error fun _ => .invalid c.offset

theorem readAngle : Steady l 2 0 Xml.readAngle := by
  refine of_peek (by omega) (by simp [Xml.readAngle]) fun d => ?_
  simp only [Xml.readAngle]
  by_cases hbang : d.char = '!'
  · simp only [hbang, if_true]
    exact .inl fun l' _ => readDeclarationStart.eats_le (Nat.zero_le 1)
  by_cases hmark : d.char = '?'
  · simp only [hmark, Char.reduceEq, if_true, if_false]
    exact .inl fun l' _ =>
      (readInstruction.map Lexeme.instruction).weaken (Nat.zero_le 2) (Nat.zero_le 2)
  simp only [hbang, hmark, if_false]
  split
  · exact .inr ⟨.root, fun _ => rfl⟩
  · exact .inl fun l' _ => .error fun _ => .invalid d.offset

theorem endNameLexeme (first : CellKind) (name : Text) :
    Steady l 1 0 (Xml.endNameLexeme first name) := by
  refine of_peek (Nat.le_refl 1) (by simp [Xml.endNameLexeme, endsWith]) fun c => ?_
  have hends (rest : List Cell) : endsWith ">),|[%" (c :: rest) = endsWith ">),|[%" [c] := rfl
  simp only [Xml.endNameLexeme, hends]
  split
  · exact .inr ⟨_, fun _ => rfl⟩
  · refine .inl fun l' _ => ?_
    exact .ite (.pure (Lexeme.name name (some c.char))) (.error fun rest => .beforeName (c :: rest))

theorem readNameLexeme (first : CellKind) {c : Cell} (hc : c.isName = true) :
    Steady l 1 0 fun rest => Xml.readNameLexeme first (c :: rest) := by
  simp only [Xml.readNameLexeme, List.takeWhile_cons_of_pos hc, List.dropWhile_cons_of_pos hc]
  exact (span Cell.isName).bind (s := fun p => Xml.endNameLexeme first (chars (c :: p.1)) p.2)
    (fun taken => endNameLexeme first (chars (c :: taken))) (Nat.le_refl 1)

theorem readCloseParen : Steady l 1 0 Xml.readCloseParen := by
  refine of_peek (Nat.le_refl 1) (by simp [Xml.readCloseParen]) fun c => ?_
  have hends (rest : List Cell) : endsWith ">,|)" (c :: rest) = endsWith ">,|)" [c] := rfl
  simp only [Xml.readCloseParen, hends]
  split
  · exact .inl fun l' _ => .pure (Lexeme.closeParen (some c.char))
  · split
    · exact .inr ⟨.closeParen none, fun _ => rfl⟩
    · exact .inl fun l' _ => .error fun _ => .invalid c.offset

theorem readCloseBracket : Steady l 2 0 Xml.readCloseBracket := by
  have takes {cells after : List Cell} {a : Lexeme}
      (h : Xml.readCloseBracket cells = .ok (a, after)) :
      after <:+ cells := by
    unfold Xml.readCloseBracket at h
    split at h
    · split at h <;> cases h
      exact List.suffix_refl _
    · split at h <;> cases h
      · exact (List.suffix_cons _ _).trans (List.suffix_cons _ _)
      · exact List.suffix_refl _
    · cases h
      exact List.suffix_refl _
  refine of_suffix (Nat.le_succ 1) takes fun {c core rest more a left} _ _ h hleft => ?_
  cases core with
  | nil =>
    have := (takes h).length_le
    simp only [List.nil_append, List.length_append, List.length_cons] at this
    omega
  | cons d core =>
    simp only [Xml.readCloseBracket, List.cons_append] at h ⊢
    split at h
    · rw [if_pos ‹_›]
      exact ok_carry core h more
    · rw [if_neg ‹_›]
      exact ok_carry (c :: d :: core) h more

theorem readLexeme (c : Cell) : Steady l 2 0 (Xml.readLexeme c) := by
  obtain ⟨x, kind, wide, offset⟩ := c
  unfold Xml.readLexeme
  cases kind with
  | cut => exact .error fun _ => .cutCharacter
  | letter | inner =>
    exact (readNameLexeme _ rfl).weaken (Nat.le_succ 1) (Nat.le_refl 0)
  | blank | carriageReturn | lineFeed | bad => exact .error fun _ => .invalid offset
  | other =>
    simp only
    split
    · exact (readLiteral _).weaken (Nat.le_succ 1) (Nat.zero_le 1)
    · exact (readLiteral _).weaken (Nat.le_succ 1) (Nat.zero_le 1)
    · exact readAngle
    · exact readPercent.weaken (Nat.le_succ 1) (Nat.le_refl 0)
    · exact .pure Lexeme.comma
    · exact .pure Lexeme.openBracket
    · exact readCloseBracket
    · exact .pure Lexeme.openParen
    · exact readCloseParen.weaken (Nat.le_succ 1) (Nat.le_refl 0)
    · exact .pure Lexeme.bar
    · exact .pure Lexeme.close
    · exact readReserved.weaken (Nat.le_succ 1) (Nat.zero_le 1)
    · exact .error fun _ => .invalid offset

end Steady

theorem offsetOf_append {stop stop' : Nat} {rest more : List Cell}
    (hplace : offsetOf stop rest = offsetOf stop' more) (core : List Cell) :
    offsetOf stop (core ++ rest) = offsetOf stop' (core ++ more) := by
  cases core with
  | nil => exact hplace
  | cons c core => rfl

theorem endOpening_ne_root {keyword : Text} {cells after : List Cell} :
    endOpening keyword cells ≠ .ok (.root, after) := by
  fun_cases endOpening keyword cells <;> simp

theorem readDeclarationStart_ne_root {cells after : List Cell} :
    readDeclarationStart cells ≠ .ok (.root, after) := by
  fun_cases readDeclarationStart cells with
  | case2 =>
    intro h
    obtain ⟨_, -, h⟩ := Except.of_map_ok h
    cases h
  | case5 => exact endOpening_ne_root
  | _ => simp

theorem endNameLexeme_ne_root {first : CellKind} {n : Text} {cells after : List Cell} :
    endNameLexeme first n cells ≠ .ok (.root, after) := by
  fun_cases endNameLexeme first n cells <;> simp +zetaDelta <;> split <;> simp

theorem readCloseParen_ne_root {cells after : List Cell} :
    readCloseParen cells ≠ .ok (.root, after) := by
  fun_cases readCloseParen cells <;> simp [*]

theorem readCloseBracket_ne_root {cells after : List Cell} :
    readCloseBracket cells ≠ .ok (.root, after) := by
  fun_cases readCloseBracket cells <;> simp

theorem readPercent_ne_root {cells after : List Cell} :
    readPercent cells ≠ .ok (.root, after) := by
  intro h
  unfold readPercent at h
  split at h
  · cases h
  · split at h
    · cases h
    · obtain ⟨_, -, h⟩ := Except.of_bind_ok h
      simp only at h
      split at h
      · split at h <;> cases h
      · cases h

theorem readLiteral_ne_root {quote : Char} {cells after : List Cell} :
    readLiteral quote cells ≠ .ok (.root, after) := by
  intro h
  obtain ⟨_, -, h⟩ := Except.of_bind_ok h
  simp only at h
  split at h <;> cases h

theorem readReserved_ne_root {cells after : List Cell} :
    readReserved cells ≠ .ok (.root, after) := by
  intro h
  obtain ⟨_, -, h⟩ := Except.of_bind_ok h
  simp only at h
  split at h <;> cases h

theorem readAngle_root {cells after : List Cell} (h : readAngle cells = .ok (.root, after)) :
    after = cells := by
  unfold readAngle at h
  split at h
  · cases h
  · split at h
    · exact absurd h readDeclarationStart_ne_root
    · split at h
      · obtain ⟨_, -, h⟩ := Except.of_map_ok h
        cases h
      · split at h <;> cases h
        rfl

theorem readLexeme_root {c : Cell} {cells after : List Cell}
    (h : readLexeme c cells = .ok (.root, after)) : after = cells := by
  obtain ⟨x, kind, wide, offset⟩ := c
  unfold readLexeme at h
  cases kind with
  | cut | blank | carriageReturn | lineFeed | bad => cases h
  | letter | inner => exact absurd h endNameLexeme_ne_root
  | other =>
    simp only at h
    split at h
    · exact absurd h readLiteral_ne_root
    · exact absurd h readLiteral_ne_root
    · exact readAngle_root h
    · exact absurd h readPercent_ne_root
    · cases h
    · cases h
    · exact absurd h readCloseBracket_ne_root
    · cases h
    · exact absurd h readCloseParen_ne_root
    · cases h
    · cases h
    · exact absurd h readReserved_ne_root
    · cases h

theorem skipBlanks_same {core rest : List Cell} (left : List Cell)
    (h : skipBlanks (core ++ rest) = left ++ rest) (hleft : 1 ≤ left.length) (more : List Cell) :
    skipBlanks (core ++ more) = left ++ more := by
  let blanks := (core ++ rest).takeWhile Cell.isBlank
  have hread : (.ok (blanks, skipBlanks (core ++ rest)) : Except Halt (List Cell × List Cell)) =
      .ok (blanks, left ++ rest) := by rw [h]
  have hsame := Steady.carry (fun _ => Steady.span Cell.isBlank) hread hleft more
  exact (Prod.mk.inj (Except.ok.inj hsame)).2

theorem suffix_root (ragged : Bool) (stop fuel : Nat) (done : List Placed) (cells : List Cell) :
    (lexemesFrom ragged stop fuel done cells).root <:+ cells := by
  induction fuel generalizing done cells with
  | zero => exact List.nil_suffix
  | succ fuel ih =>
    rw [lexemesFrom]
    have hskip : skipBlanks cells <:+ cells := List.dropWhile_suffix _
    split
    · exact List.nil_suffix
    · rename_i c rest hcells
      rw [hcells] at hskip
      split
      · exact List.nil_suffix
      · exact hskip
      · rename_i lexeme after _ hread
        obtain ⟨taken, rfl, -⟩ := (Steady.readLexeme c).takes (Nat.le_refl _) hread
        split
        · exact List.nil_suffix
        · exact (ih _ _).trans ((List.suffix_append taken after).trans
            ((List.suffix_cons c _).trans hskip))

section
variable {ragged : Bool} {stop fuel : Nat} {done : List Placed} {cells rest after : List Cell}
  {c : Cell}

theorem lexemesFrom_root (hskip : skipBlanks cells = c :: rest)
    (hread : readLexeme c rest = .ok (.root, after)) :
    lexemesFrom ragged stop (fuel + 1) done cells =
      ⟨(⟨.root, c.offset, c.offset⟩ :: done).reverse, c.offset, none, c :: rest⟩ := by
  rw [lexemesFrom, hskip]
  simp only [hread]

theorem lexemesFrom_next {lexeme : Lexeme} (hskip : skipBlanks cells = c :: rest)
    (hread : readLexeme c rest = .ok (lexeme, after)) (hlexeme : lexeme ≠ .root)
    (hafter : after ≠ []) :
    lexemesFrom ragged stop (fuel + 1) done cells =
      lexemesFrom ragged stop fuel (⟨lexeme, c.offset, offsetOf stop after⟩ :: done) after := by
  have hmore : after.isEmpty = false := by simpa using hafter
  rw [lexemesFrom, hskip]
  simp only [hread, hmore, Bool.and_false]

theorem lexemesFrom_reaches (h : (lexemesFrom ragged stop fuel done cells).root ≠ []) :
    ∃ turns c rest lexeme after, fuel = turns + 1 ∧ skipBlanks cells = c :: rest ∧
      readLexeme c rest = .ok (lexeme, after) ∧
      (lexeme = .root ∨ lexeme ≠ .root ∧ after ≠ []) := by
  cases fuel with
  | zero => exact absurd rfl h
  | succ fuel =>
    rw [lexemesFrom] at h
    split at h
    · exact absurd rfl h
    · rename_i c rest hskip
      split at h
      · exact absurd rfl h
      · exact ⟨fuel, c, rest, .root, _, rfl, hskip, ‹_›, .inl rfl⟩
      · rename_i lexeme after hlexeme hread
        refine ⟨fuel, c, rest, lexeme, after, rfl, hskip, hread, .inr ⟨hlexeme, ?_⟩⟩
        · rintro rfl
          split at h
          · exact absurd rfl h
          · exact h (List.suffix_nil.mp (suffix_root ..))

end

def Lexemes.before (l : Lexemes) (root : List Cell) : Lexemes := { l with root }

/-- The lexemes up to the root are the same whatever follows a beginning of it. -/
theorem lexemesFrom_same {ragged : Bool} {stop fuel fuel' : Nat} {done : List Placed}
    {core rest left : List Cell}
    (hroot : (lexemesFrom ragged stop fuel done (core ++ rest)).root = left ++ rest)
    (hleft : 3 ≤ left.length) (ragged' : Bool) (stop' : Nat) (more : List Cell)
    (hfuel : (core ++ more).length < fuel') :
    lexemesFrom ragged' stop' fuel' done (core ++ more) =
      (lexemesFrom ragged stop fuel done (core ++ rest)).before (left ++ more) := by
  have hne : left ++ rest ≠ [] :=
    List.append_ne_nil_of_left_ne_nil (List.ne_nil_of_length_pos (Nat.zero_lt_of_lt hleft)) rest
  induction fuel generalizing fuel' done core with
  | zero => exact absurd hroot.symm hne
  | succ fuel ih =>
    obtain ⟨fuel', rfl⟩ := Nat.exists_eq_succ_of_ne_zero (Nat.ne_of_gt (Nat.zero_lt_of_lt hfuel))
    obtain ⟨fuel₁, c, r, lexeme, after, hturns, hskip, hread, hlexeme⟩ :=
      lexemesFrom_reaches (hroot ▸ hne)
    obtain rfl := Nat.succ.inj hturns
    rcases hlexeme with rfl | ⟨hlexeme, hafter⟩
    · obtain rfl := readLexeme_root hread
      rw [lexemesFrom_root hskip hread] at hroot ⊢
      obtain ⟨d, left, rfl⟩ := List.exists_cons_of_length_pos (Nat.zero_lt_of_lt hleft)
      obtain ⟨rfl, rfl⟩ := List.cons.inj hroot
      have hskip' := skipBlanks_same (c :: left) hskip (Nat.succ_pos _) more
      have hread' := Steady.carry (fun _ => Steady.readLexeme c) hread
        (Nat.le_of_succ_le_succ hleft) more
      rw [lexemesFrom_root hskip' hread']
      rfl
    · rw [lexemesFrom_next hskip hread hlexeme hafter] at hroot ⊢
      obtain ⟨taken, rfl, -⟩ := (Steady.readLexeme c).takes (Nat.le_refl _) hread
      obtain ⟨kept, rfl, hkept⟩ : ∃ kept, after = kept ++ rest ∧ 3 ≤ kept.length := by
        obtain ⟨between, hbetween⟩ := hroot ▸ suffix_root ragged stop fuel _ after
        refine ⟨between ++ left, (List.append_assoc ..).trans hbetween |>.symm, ?_⟩
        exact Nat.le_trans hleft (by simp)
      rw [← List.append_assoc] at hread hskip
      have hskip' := skipBlanks_same (c :: (taken ++ kept)) hskip (Nat.succ_pos _) more
      have hread' := Steady.carry (fun _ => Steady.readLexeme c) hread (Nat.le_of_succ_le hkept)
        more
      have hmore : kept ++ more ≠ [] :=
        List.append_ne_nil_of_left_ne_nil (List.ne_nil_of_length_pos (Nat.zero_lt_of_lt hkept)) more
      have hlength : (kept ++ more).length < fuel' := by
        have := (List.dropWhile_suffix (l := core ++ more) Cell.isBlank).length_le
        change (skipBlanks (core ++ more)).length ≤ _ at this
        rw [hskip'] at this
        simp only [List.cons_append, List.length_cons, List.length_append] at this hfuel ⊢
        omega
      have hplace : offsetOf stop (kept ++ rest) = offsetOf stop' (kept ++ more) := by
        cases kept with
        | nil => cases hkept
        | cons => rfl
      rw [lexemesFrom_next hskip' hread' hlexeme hmore, ← hplace]
      exact ih hroot hlength

theorem readProlog_same {ragged : Bool} {stop : Nat} {a : Account} {tally tally' : Tally}
    {d d' : Doctype} {core rest left : List Cell}
    (h : readProlog ragged stop a tally d (core ++ rest) = .ok ((d', left ++ rest), tally'))
    (hleft : 3 ≤ left.length) (ragged' : Bool) {stop' : Nat} {more : List Cell}
    (hplace : offsetOf stop rest = offsetOf stop' more) :
    readProlog ragged' stop' a tally d (core ++ more) = .ok ((d', left ++ more), tally') := by
  unfold readProlog at h ⊢
  simp only at h ⊢
  obtain ⟨⟨d'', tally''⟩, hread, h⟩ := Except.of_map_ok h
  simp only [Prod.mk.injEq] at h
  obtain ⟨⟨rfl, hroot⟩, rfl⟩ := h
  have hsame := lexemesFrom_same hroot hleft ragged' stop' more (Nat.lt_succ_self _)
  unfold lexemes
  rw [hsame, ← offsetOf_append hplace]
  exact congrArg (Except.map _) hread

end DocMarkdown.Xml
