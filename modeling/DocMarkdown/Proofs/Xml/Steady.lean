import DocMarkdown.Proofs.Outcome
import DocMarkdown.Xml.Scan

/-! Readers that do not depend on what follows. Such a reader makes of the beginning of a text what
it makes of it in any other text that begins so, provided that what it has taken lies in it, and a
few cells more that it may have looked at. Readers put together from steady ones are steady. -/

namespace DocMarkdown.Xml

variable {α β : Type}

abbrev CellReader (α : Type) := List Cell → Except Halt (α × List Cell)

/-- What is read at the beginning of a text, of at most `size` cells, stays the same whatever
follows. The reader takes at least `eats` cells, and looks at no more than `spare` after those. -/
structure Steady (size spare eats : Nat) (read : CellReader α) : Prop where
  takes : ∀ {cells a after}, cells.length ≤ size → read cells = .ok (a, after) →
    ∃ taken, cells = taken ++ after ∧ eats ≤ taken.length
  same : ∀ {core rest more a left}, (core ++ rest).length ≤ size → (core ++ more).length ≤ size →
    read (core ++ rest) = .ok (a, left ++ rest) → spare ≤ left.length →
    read (core ++ more) = .ok (a, left ++ more)

namespace Steady

variable {l l' m n i k : Nat} {f g : CellReader α}

theorem le (h : Steady l m i f) (hl : l' ≤ l) (hm : m ≤ n) (hi : k ≤ i) : Steady l' n k f where
  takes hsize hr := by
    obtain ⟨taken, hcells, hlength⟩ := h.takes (Nat.le_trans hsize hl) hr
    exact ⟨taken, hcells, Nat.le_trans hi hlength⟩
  same hrest hmore hr hleft :=
    h.same (Nat.le_trans hrest hl) (Nat.le_trans hmore hl) hr (Nat.le_trans hm hleft)

theorem weaken (h : Steady l m i f) (hm : m ≤ n) (hi : k ≤ i) : Steady l n k f :=
  h.le (Nat.le_refl l) hm hi

theorem eats_le (h : Steady l m i f) (hi : k ≤ i) : Steady l m k f :=
  h.weaken (Nat.le_refl m) hi

theorem carry (hf : ∀ l, Steady l m i f) {core rest left : List Cell} {a : α}
    (h : f (core ++ rest) = .ok (a, left ++ rest)) (hleft : m ≤ left.length) (more : List Cell) :
    f (core ++ more) = .ok (a, left ++ more) :=
  (hf _).same (Nat.le_max_left _ (core ++ more).length) (Nat.le_max_right _ _) h hleft

theorem ok_carry (core : List Cell) {rest left : List Cell} {a b : α}
    (h : (.ok (b, core ++ rest) : Except Halt _) = .ok (a, left ++ rest)) (more : List Cell) :
    (.ok (b, core ++ more) : Except Halt _) = .ok (a, left ++ more) := by
  simp only [Except.ok.injEq, Prod.mk.injEq, List.append_cancel_right_eq] at h
  rw [h.1, h.2]

theorem error (e : List Cell → Halt) :
    Steady l m i fun cells => (.error (e cells) : Except Halt (α × List Cell)) where
  takes _ h := by cases h
  same _ _ h := by cases h

theorem pure (a : α) :
    Steady l m 0 fun cells => (.ok (a, cells) : Except Halt (α × List Cell)) where
  takes _ h := by
    cases h
    exact ⟨[], rfl, Nat.le_refl 0⟩
  same _ _ h _ := ok_carry _ h _

theorem ite {p : Prop} [Decidable p] (hf : Steady l m i f) (hg : Steady l m i g) :
    Steady l m i fun cells => if p then f cells else g cells := by
  split
  · exact hf
  · exact hg

theorem bind {s : α × List Cell → Except Halt (β × List Cell)} (hf : Steady l m i f)
    (hs : ∀ a, Steady l n k fun cells => s (a, cells)) (hreach : m ≤ n + k) :
    Steady l n (i + k) fun cells => f cells >>= s where
  takes := by
    intro cells b after hsize h
    obtain ⟨⟨a, middle⟩, hr, hrest⟩ := Except.of_bind_ok h
    obtain ⟨taken, rfl, hi⟩ := hf.takes hsize hr
    obtain ⟨taken', rfl, hk⟩ := (hs a).takes (by simp at hsize ⊢; omega) hrest
    exact ⟨taken ++ taken', (List.append_assoc ..).symm, by simpa using Nat.add_le_add hi hk⟩
  same := by
    intro core rest more b left hrest hmore h hleft
    obtain ⟨⟨a, middle⟩, hr, h⟩ := Except.of_bind_ok h
    obtain ⟨before, hcells, -⟩ := hf.takes hrest hr
    have hmiddle : middle.length ≤ l := by
      have := congrArg List.length hcells
      simp only [List.length_append] at this hrest
      omega
    obtain ⟨taken, rfl, hk⟩ := (hs a).takes hmiddle h
    rw [← List.append_assoc] at hr h hcells hmiddle
    have hsame := hf.same hrest hmore hr (by rw [List.length_append]; omega)
    refine (Except.bind_of_ok hsame s).trans ((hs a).same hmiddle ?_ h hleft)
    have := congrArg List.length hcells
    simp only [List.length_append] at *
    omega

theorem map (hf : Steady l m i f) (g : α → β) :
    Steady l m i fun cells => (f cells).map fun p => (g p.1, p.2) where
  takes hsize h := by
    obtain ⟨⟨a, after⟩, hr, h⟩ := Except.of_map_ok h
    cases h
    exact hf.takes hsize hr
  same hrest hmore h hleft := by
    obtain ⟨⟨a, after⟩, hr, h⟩ := Except.of_map_ok h
    cases h
    rw [hf.same hrest hmore hr hleft]
    rfl

/-- A reader that takes something, or looks at what it leaves, reads nothing of what follows. -/
theorem of_core (hreach : 1 ≤ m + i)
    (takes : ∀ {cells a after}, cells.length ≤ l → f cells = .ok (a, after) →
      ∃ taken, cells = taken ++ after ∧ i ≤ taken.length)
    (same : ∀ {c core rest more a left}, (core ++ rest).length < l → (core ++ more).length < l →
      f (c :: (core ++ rest)) = .ok (a, left ++ rest) → m ≤ left.length →
      f (c :: (core ++ more)) = .ok (a, left ++ more)) : Steady l m i f where
  takes := takes
  same := by
    intro core rest more a left hrest hmore h hleft
    cases core with
    | nil =>
      obtain ⟨taken, hcells, hi⟩ := takes hrest h
      have := congrArg List.length hcells
      simp only [List.nil_append, List.length_append] at this
      omega
    | cons c core => exact same hrest hmore h hleft

theorem of_cons (hnil : ∀ p, f [] ≠ .ok p)
    (hcons : ∀ c, ∀ l' < l, Steady l' m i fun rest => f (c :: rest)) : Steady l m (i + 1) f := by
  refine of_core (Nat.le_add_left 1 (m + i)) (fun {cells a after} hsize h => ?_)
    fun {c _ _ _ _ _} hrest hmore h hleft => ?_
  · cases cells with
    | nil => exact absurd h (hnil _)
    | cons c rest =>
      obtain ⟨taken, rfl, hi⟩ := (hcons c _ hsize).takes (Nat.le_refl _) h
      exact ⟨c :: taken, rfl, Nat.succ_le_succ hi⟩
  · have hl : l - 1 < l := Nat.sub_one_lt (Nat.ne_of_gt (Nat.zero_lt_of_lt hrest))
    exact (hcons c _ hl).same (Nat.le_sub_one_of_lt hrest) (Nat.le_sub_one_of_lt hmore) h hleft

theorem of_peek (hm : 1 ≤ m) (hnil : ∀ {a after}, f [] = .ok (a, after) → after = [])
    (hcons : ∀ c, (∀ l' < l, Steady l' m 0 fun rest => f (c :: rest)) ∨
      ∃ a, ∀ rest, f (c :: rest) = .ok (a, c :: rest)) : Steady l m 0 f := by
  refine of_core (Nat.le_add_right_of_le hm) (fun {cells a after} hsize h => ?_)
    fun {c core rest more a left} hrest hmore h hleft => ?_
  · cases cells with
    | nil => exact ⟨[], (hnil h).symm, Nat.le_refl 0⟩
    | cons c rest =>
      rcases hcons c with hc | ⟨b, hb⟩
      · obtain ⟨taken, rfl, -⟩ := (hc _ hsize).takes (Nat.le_refl _) h
        exact ⟨c :: taken, rfl, Nat.zero_le _⟩
      · rw [hb] at h
        cases h
        exact ⟨[], rfl, Nat.le_refl 0⟩
  · rcases hcons c with hc | ⟨b, hb⟩
    · have hl : l - 1 < l := Nat.sub_one_lt (Nat.ne_of_gt (Nat.zero_lt_of_lt hrest))
      exact (hc _ hl).same (Nat.le_sub_one_of_lt hrest) (Nat.le_sub_one_of_lt hmore) h hleft
    · rw [hb, ← List.cons_append] at h ⊢
      exact ok_carry (c :: core) h more

theorem of_suffix (hm : 1 ≤ m)
    (takes : ∀ {cells a after}, f cells = .ok (a, after) → after <:+ cells)
    (same : ∀ {c core rest more a left}, (core ++ rest).length < l → (core ++ more).length < l →
      f (c :: (core ++ rest)) = .ok (a, left ++ rest) → m ≤ left.length →
      f (c :: (core ++ more)) = .ok (a, left ++ more)) : Steady l m 0 f := by
  refine of_core (Nat.le_add_right_of_le hm) (fun {cells a after} _ h => ?_) same
  obtain ⟨taken, hcells⟩ := takes h
  exact ⟨taken, hcells.symm, Nat.zero_le _⟩

theorem looking (hstay : ∀ {cells a after}, f cells = .ok (a, after) → after = cells)
    (hlook : ∀ {core rest a}, m ≤ core.length → f (core ++ rest) = .ok (a, core ++ rest) →
      ∀ more, f (core ++ more) = .ok (a, core ++ more)) : Steady l m 0 f where
  takes _ h := ⟨[], (hstay h).symm, Nat.le_refl 0⟩
  same _ _ h hleft := by
    have heq := List.append_cancel_right (hstay h)
    subst heq
    exact hlook hleft h _

theorem cons (hf : Steady l m (i + 1) f) (c : Cell) (hl : l' < l) :
    Steady l' m i fun rest => f (c :: rest) where
  takes := by
    intro cells a after hsize h
    have hsize : (c :: cells).length ≤ l := Nat.lt_of_le_of_lt hsize hl
    obtain ⟨taken, hcells, hi⟩ := hf.takes hsize h
    cases taken with
    | nil => exact absurd hi (Nat.not_succ_le_zero i)
    | cons d taken =>
      rw [List.cons_append, List.cons.injEq] at hcells
      exact ⟨taken, hcells.2, Nat.le_of_succ_le_succ hi⟩
  same := by
    intro core rest more a left hrest hmore h hleft
    have hrest : (c :: core ++ rest).length ≤ l := Nat.lt_of_le_of_lt hrest hl
    exact hf.same hrest (Nat.lt_of_le_of_lt hmore hl) h hleft

theorem congr (hf : Steady l m i f)
    (hsame : ∀ cells, cells.length ≤ l → ∀ p, g cells = .ok p ↔ f cells = .ok p) :
    Steady l m i g where
  takes hsize h := hf.takes hsize ((hsame _ hsize _).mp h)
  same hrest hmore h hleft :=
    (hsame _ hmore _).mpr (hf.same hrest hmore ((hsame _ hrest _).mp h) hleft)

theorem span (p : Cell → Bool) :
    Steady l 1 0 fun cells => (.ok (cells.takeWhile p, cells.dropWhile p) : Except Halt _) where
  takes _ h := by
    simp only [Except.ok.injEq, Prod.mk.injEq] at h
    exact ⟨_, (h.2 ▸ List.takeWhile_append_dropWhile).symm, Nat.zero_le _⟩
  same := by
    intro core rest more a left hrest hmore h hleft
    simp only [Except.ok.injEq, Prod.mk.injEq] at h ⊢
    induction core generalizing a with
    | nil =>
      have := congrArg List.length h.2
      have := (List.dropWhile_suffix (l := rest) p).length_le
      simp only [List.nil_append, List.length_append] at *
      omega
    | cons c core ih =>
      by_cases hc : p c = true
      · simp only [List.cons_append, List.takeWhile_cons_of_pos hc,
          List.dropWhile_cons_of_pos hc] at h ⊢
        obtain ⟨rfl, h⟩ := h
        obtain ⟨htake, hdrop⟩ := ih (Nat.le_of_succ_le hrest) (Nat.le_of_succ_le hmore) ⟨rfl, h⟩
        exact ⟨congrArg (c :: ·) htake, hdrop⟩
      · simp only [List.cons_append, List.takeWhile_cons_of_neg hc,
          List.dropWhile_cons_of_neg hc] at h ⊢
        rw [← List.cons_append] at h ⊢
        exact ⟨h.1, congrArg (· ++ more) (List.append_cancel_right h.2)⟩

theorem skip (hf : Steady l m (i + 1) f) :
    Steady l m (i + 1) fun cells => f (skipBlanks cells) := by
  have h := (span (l := l) Cell.isBlank).bind (s := fun p => f p.2) (fun _ => hf) (by omega)
  rwa [Nat.zero_add] at h

def passing (f : List Cell → Except Halt (List Cell)) : CellReader Unit :=
  fun cells => (f cells).map fun rest => ((), rest)

theorem andThen {f : List Cell → Except Halt (List Cell)} (hf : Steady l m i (passing f))
    (hg : Steady l n k g) (hreach : m ≤ n + k) :
    Steady l n (i + k) fun cells => f cells >>= g := by
  have h := bind (s := fun p => g p.2) hf (fun _ => hg) hreach
  have hsame : (fun cells => passing f cells >>= fun p => g p.2) =
      fun cells => f cells >>= g := by
    funext cells
    unfold passing
    cases f cells <;> rfl
  rwa [hsame] at h

theorem passing_bind (f g : List Cell → Except Halt (List Cell)) :
    passing (fun cells => f cells >>= g) = fun cells => f cells >>= passing g := by
  funext cells
  cases h : f cells <;> simp only [passing, h] <;> rfl

theorem giving {f : List Cell → Except Halt (List Cell)} (hf : Steady l m i (passing f)) (a : α) :
    Steady l m i fun cells => (f cells).map (a, ·) := by
  have h := hf.map fun _ => a
  have hsame : (fun cells => (passing f cells).map fun p => (a, p.2)) =
      fun cells => (f cells).map (a, ·) := by
    funext cells
    unfold passing
    cases f cells <;> rfl
  rwa [hsame] at h

theorem expectChar (x : Char) : Steady l 0 1 (passing (Xml.expectChar x)) := by
  refine of_cons (by simp [passing, Xml.expectChar, Except.map]) fun c l' _ => ?_
  simp only [passing, Xml.expectChar]
  by_cases hc : c.char = x
  · simp only [hc, if_true]
    exact .pure ()
  · simp only [hc, if_false]
    exact .error fun _ => .invalid c.offset

theorem expectWord (w : Text) : Steady l 0 w.length (passing (Xml.expectWord w)) := by
  induction w with
  | nil => exact .pure ()
  | cons x w ih =>
    have h : Steady l 0 (1 + w.length) fun cells =>
        Xml.expectChar x cells >>= passing (Xml.expectWord w) :=
      (expectChar x).andThen ih (Nat.zero_le _)
    rw [← passing_bind, Nat.add_comm] at h
    exact h

theorem readName : Steady l 1 1 Xml.readName := by
  refine of_cons (by simp [Xml.readName]) fun c l' _ => ?_
  simp only [Xml.readName]
  by_cases hc : c.kind = .letter
  · have hname : c.isName = true := by simp [Cell.isName, hc]
    simp only [hc, if_true, List.takeWhile_cons_of_pos hname, List.dropWhile_cons_of_pos hname]
    exact (span Cell.isName).map fun cells => chars (c :: cells)
  · simp only [hc, if_false]
    exact .error fun rest => .beforeName (c :: rest)

theorem readNumber (base : Nat) (isDigit : Cell → Bool) :
    Steady l 0 1 (Xml.readNumber base isDigit) := by
  let code (digits : List Cell) : Nat := digits.foldl (fun n c => base * n + digitCode c.char) 0
  let next : List Cell × List Cell → Except Halt (Reference × List Cell) := fun p =>
    if p.1.isEmpty then .error .unfinished
    else (Xml.expectChar ';' p.2).map (Reference.character (numberedChar (code p.1)), ·)
  have hnext (digits : List Cell) : Steady l 0 1 fun cells => next (digits, cells) :=
    .ite (p := digits.isEmpty = true) (.error fun _ => .unfinished)
      ((expectChar ';').giving (Reference.character (numberedChar (code digits))))
  refine ((span isDigit).bind hnext (Nat.le_refl 1)).congr fun cells _ p => ?_
  simp only [Xml.readNumber, next, code, Bind.bind, Except.bind, throw, throwThe,
    MonadExceptOf.throw]
  split
  · simp
  · cases Xml.expectChar ';' (cells.dropWhile isDigit) <;>
      simp [Except.map, Pure.pure, Except.pure]

theorem readReference : Steady l 0 2 Xml.readReference := by
  refine of_cons (by simp [Xml.readReference]) fun c l' _ => ?_
  simp only [Xml.readReference]
  refine .ite ?_ ?_
  · refine of_cons (by simp) fun d l'' hl => ?_
    exact .ite ((readNumber 16 _).eats_le (Nat.zero_le 1)) ((readNumber 10 _).cons d hl)
  · refine (readName.cons c (Nat.lt_succ_self l')).bind (n := 0) (k := 1) (fun n => ?_)
      (Nat.le_refl 1)
    refine of_cons (by simp [throw, throwThe, MonadExceptOf.throw]) fun d l'' _ => ?_
    exact .ite (.pure (Reference.entity n)) (.error fun rest => .beforeName (d :: rest))

theorem commentEnd : Steady l 0 1 (passing Xml.commentEnd) := by
  induction l using Nat.strongRecOn with
  | ind l ih =>
    refine of_cons (by simp [passing, Xml.commentEnd, Except.map]) fun c l' hl => ?_
    simp only [passing, Xml.commentEnd]
    cases c.refusal with
    | some halt => exact .error fun _ => halt
    | none =>
      simp only [apply_ite (Except.map _)]
      refine .ite ?_ ((ih l' hl).eats_le (Nat.zero_le 1))
      refine (of_cons (i := 0) (by simp [Except.map]) fun d l'' hl' => ?_).eats_le (Nat.zero_le 1)
      simp only [apply_ite (Except.map _)]
      exact .ite ((expectChar '>').eats_le (Nat.zero_le 1)) ((ih l' hl).cons d hl')

theorem readComment : Steady l 0 2 (passing Xml.readComment) := by
  have h : Steady l 0 (1 + 1) fun cells => Xml.expectChar '-' cells >>= passing Xml.commentEnd :=
    (expectChar '-').andThen commentEnd (Nat.zero_le _)
  rw [← passing_bind] at h
  exact h

theorem instructionBody (done : List Cell) : Steady l 0 1 (Xml.instructionBody done) := by
  induction l using Nat.strongRecOn generalizing done with
  | ind l ih =>
    refine of_cons (by simp [Xml.instructionBody]) fun c l' hl => ?_
    simp only [Xml.instructionBody]
    cases c.refusal with
    | some halt => exact .error fun _ => halt
    | none =>
      have hnext := ih l' hl (c :: done)
      refine .ite ?_ (hnext.eats_le (Nat.zero_le 1))
      refine (of_cons (i := 0) (by simp) fun d l'' hl' => ?_).eats_le (Nat.zero_le 1)
      exact .ite (.pure (done.reverse, c.offset)) (hnext.cons d hl')

theorem readInstruction : Steady l 0 2 Xml.readInstruction := by
  refine readName.bind (n := 0) (k := 1) (fun target => ?_) (Nat.le_refl 1)
  refine of_cons (by simp [throw, throwThe, MonadExceptOf.throw]) fun c l' _ => ?_
  simp only
  refine .ite ?_ (.ite ?_ (.error fun rest => .beforeName (c :: rest)))
  · split
    · exact .error fun _ => .invalid c.offset
    · refine ((instructionBody [c]).bind (n := 0) (k := 0) (fun body => ?_)
        (Nat.le_refl 0)).eats_le (Nat.zero_le 1)
      exact .pure (⟨target, body.1, body.2⟩ : Instruction)
  · split
    · exact .error fun _ => .invalid c.offset
    · exact ((expectChar '>').giving (⟨target, [], c.offset⟩ : Instruction)).eats_le
        (Nat.zero_le 1)

theorem guarded {check : CellReader β} (hcheck : Steady l m i check) (hf : Steady l n k f)
    (hwithin : ∀ {cells b middle a after}, check cells = .ok (b, middle) →
      f cells = .ok (a, after) → after.length + m ≤ middle.length + n) :
    Steady l n k fun cells => check cells >>= fun _ => f cells where
  takes hsize h := by
    obtain ⟨_, -, h⟩ := Except.of_bind_ok h
    exact hf.takes hsize h
  same := by
    intro core rest more a left hrest hmore h hleft
    obtain ⟨⟨b, middle⟩, hc, h⟩ := Except.of_bind_ok h
    have hlength := hwithin hc h
    obtain ⟨taken, hcells, -⟩ := hcheck.takes hrest hc
    rw [List.length_append] at hlength
    obtain ⟨left', rfl⟩ := List.suffix_of_suffix_length_le (List.suffix_append core rest)
      ⟨taken, hcells.symm⟩ (by omega)
    rw [List.length_append] at hlength
    exact (Except.bind_of_ok (hcheck.same hrest hmore hc (by omega)) _).trans
      (hf.same hrest hmore h hleft)
end Steady
end DocMarkdown.Xml
