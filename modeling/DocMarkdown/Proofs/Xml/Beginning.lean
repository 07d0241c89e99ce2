import DocMarkdown.Proofs.Xml.Continuation

/-! Documents that begin alike. -/

namespace DocMarkdown

namespace Xml

section
variable {ragged : Bool} {stop : Nat} {c : Cell} {cells rest left : List Cell}

theorem readLexeme_first (hroot : (lexemes ragged stop (c :: cells)).root = left ++ rest)
    (hleft : 3 ≤ left.length) (hc : c.isBlank = false) :
    ∃ lexeme kept, readLexeme c cells = .ok (lexeme, kept ++ rest) ∧ 2 ≤ kept.length := by
  have hne : left ++ rest ≠ [] :=
    List.append_ne_nil_of_left_ne_nil (List.ne_nil_of_length_pos (Nat.zero_lt_of_lt hleft)) rest
  unfold lexemes at hroot
  obtain ⟨fuel, d, r, lexeme, after, hfuel, hskip, hread, hlexeme⟩ :=
    lexemesFrom_reaches (hroot ▸ hne)
  have hcells : skipBlanks (c :: cells) = c :: cells :=
    List.dropWhile_cons_of_neg (by rw [hc]; nofun)
  obtain ⟨rfl, rfl⟩ := List.cons.inj (hcells.symm.trans hskip)
  rw [hfuel] at hroot
  rcases hlexeme with rfl | ⟨hlexeme, hafter⟩
  · obtain rfl := readLexeme_root hread
    rw [lexemesFrom_root hskip hread] at hroot
    obtain ⟨d, left, rfl⟩ := List.exists_cons_of_length_pos (Nat.zero_lt_of_lt hleft)
    obtain ⟨rfl, rfl⟩ := List.cons.inj hroot
    exact ⟨.root, left, hread, Nat.le_of_succ_le_succ hleft⟩
  · rw [lexemesFrom_next hskip hread hlexeme hafter] at hroot
    obtain ⟨between, hbetween⟩ := hroot ▸ suffix_root ragged stop fuel _ after
    refine ⟨lexeme, between ++ left, ?_, ?_⟩
    · rw [hread, List.append_assoc, hbetween]
    · rw [List.length_append]
      omega

theorem readLexeme_blank (hc : c.isBlank = true) :
    readLexeme c cells = .error (.invalid c.offset) := by
  obtain ⟨x, kind, wide, offset⟩ := c
  cases kind <;> first | rfl | cases hc

theorem readLexeme_first_same {core : List Cell}
    (hroot : (lexemes ragged stop (c :: (core ++ rest))).root = left ++ rest)
    (hleft : 3 ≤ left.length) (hc : c.isBlank = false) :
    ∃ lexeme kept, readLexeme c (core ++ rest) = .ok (lexeme, kept ++ rest) ∧
      ∀ more, readLexeme c (core ++ more) = .ok (lexeme, kept ++ more) := by
  obtain ⟨lexeme, kept, hread, hkept⟩ := readLexeme_first hroot hleft hc
  exact ⟨lexeme, kept, hread, Steady.carry (fun _ => Steady.readLexeme c) hread hkept⟩

end

theorem readProlog_root {ragged : Bool} {stop : Nat} {a : Account} {tally tally' : Tally}
    {d d' : Doctype} {cells root : List Cell}
    (h : readProlog ragged stop a tally d cells = .ok ((d', root), tally')) :
    (lexemes ragged stop cells).root = root := by
  obtain ⟨_, -, h⟩ := Except.of_map_ok h
  cases h
  rfl

namespace Body
variable {b b' : Body}

def source (b : Body) (d : Doctype) : Source :=
  ⟨.document b.early b.encoding.unit, b.stop, b.encoding.converts, d, []⟩

theorem again (hencoding : b'.encoding = b.encoding) (d : Doctype) :
    (b.source d).Again (b'.source d) where
  scope := ⟨b.early, b'.early, b.encoding.unit, rfl, by rw [source, hencoding]⟩
  converts := by rw [source, source, hencoding]
  doctype := rfl
  opened := rfl

theorem read_events {d : Doctype} {root : List Cell} {tally : Tally}
    (h : readProlog b.ragged b.stop b.account ⟨b.bytesRead, 0⟩ { standalone := b.standalone }
      b.rest = .ok ((d, root), tally)) :
    b.read.events = (reached (readContent (b.source d) (expandInContent d d.depth [])
      (root.length + 1) [] root) { tally }).events.reverse := by
  change _ = (reached (readRoot (.document b.early b.encoding.unit) b.stop b.encoding.converts d root)
    { tally }).events.reverse
  unfold read reached
  simp only [h]
  cases readRoot (.document b.early b.encoding.unit) b.stop b.encoding.converts d root
    { tally } with
  | error f trail => rfl
  | ok rest trail =>
    simp only
    split <;> rfl

theorem read_again {before after : List Event} {name : Text}
    (h : b.read.events = before ++ .closeElement name :: after) :
    ∃ prolog left rest, b.rest = prolog ++ left ++ rest ∧
      (lexemes b.ragged b.stop b.rest).root = left ++ rest ∧ 3 ≤ left.length ∧ Closing left ∧
      ∀ b' : Body, b'.encoding = b.encoding → b'.standalone = b.standalone →
        ∀ {more}, b'.rest = prolog ++ left ++ more → offsetOf b.stop rest = offsetOf b'.stop more →
          ∃ after', b'.read.events = before ++ .closeElement name :: after' := by
  cases hprolog : readProlog b.ragged b.stop b.account ⟨b.bytesRead, 0⟩
      { standalone := b.standalone } b.rest with
  | error f =>
    unfold read at h
    simp only [hprolog] at h
    exact absurd h.symm (List.append_ne_nil_of_right_ne_nil before (List.cons_ne_nil _ _))
  | ok p =>
    obtain ⟨⟨d, root⟩, tally⟩ := p
    have hroot := readProlog_root hprolog
    have hreached := congrArg List.reverse ((read_events hprolog).symm.trans h)
    rw [List.reverse_reverse, List.reverse_append, List.reverse_cons, List.append_assoc] at hreached
    obtain ⟨left, rest, rfl, hlength, hclosing, hsame⟩ := readContent_again
      (fun name => Adds.expandInContent d d.depth [] name) List.nil_suffix hreached
    obtain ⟨prolog, hcells⟩ := hroot ▸ suffix_root b.ragged b.stop (b.rest.length + 1) [] b.rest
    rw [← List.append_assoc] at hcells
    refine ⟨prolog, left, rest, hcells.symm, hroot, hlength, hclosing, ?_⟩
    intro b' hencoding hstandalone more hrest hplace
    rw [← hcells] at hprolog
    have hprolog' := readProlog_same hprolog hlength b'.ragged hplace
    have hbytes : b'.bytesRead = b.bytesRead := by
      rw [bytesRead, bytesRead, hrest, hencoding, ← hcells, offsetOf_append hplace]
    have haccount : b'.account = b.account := by rw [account, account, hencoding]
    rw [← hrest, ← hstandalone, ← haccount, ← hbytes] at hprolog'
    rw [read_events hprolog']
    obtain ⟨later, hlater⟩ := hsame (again hencoding d) hplace (Nat.lt_succ_self _)
    rw [hlater]
    exact ⟨later.reverse, by simp⟩

def front (e : Encoding) (marked : Bool) (bytes : List UInt8) : List Cell :=
  if marked then (e.cells bytes).tail else e.cells bytes

def Undeclared (cells : List Cell) : Prop :=
  ∀ c rest i after, cells = c :: rest → readLexeme c rest = .ok (.instruction i, after) →
    i.isDeclaration = false

inductive Declared : List Cell → Header → List Cell → Prop
  | intro {c : Cell} {cells rest : List Cell} {i : Instruction} {header : Header}
      (hlexeme : readLexeme c cells = .ok (.instruction i, rest))
      (hdeclaration : i.isDeclaration = true)
      (hheader : Header.read i.body i.endOffset = .ok header) : Declared (c :: cells) header rest

variable {bytes : List UInt8} {e : Encoding} {marked : Bool}

theorem open_undeclared (h : Undeclared (front e marked bytes)) :
    Body.open true bytes e marked = .ok ⟨bytes, e.cells bytes, e, false, front e marked bytes⟩ := by
  unfold Body.open
  simp only
  split
  · rename_i c rest hcells
    split
    · rename_i i after hread
      rw [h c rest i after hcells hread]
      rfl
    · rfl
  · rfl

theorem open_declared {header : Header} {rest : List Cell}
    (h : Declared (front e marked bytes) header rest) :
    Body.open true bytes e marked = .ok ⟨bytes, e.cells bytes, e, header.standalone, rest⟩ := by
  generalize hfront : front e marked bytes = cells at h
  obtain ⟨hlexeme, hdeclaration, hheader⟩ := h
  unfold Body.open
  simp only [show (if marked = true then (e.cells bytes).tail else e.cells bytes) = _ from hfront,
    hlexeme, hdeclaration, hheader, if_true]

theorem open_text (h : Body.open true bytes e marked = .ok b) :
    Undeclared (front e marked bytes) ∨
      ∃ header rest, Declared (front e marked bytes) header rest := by
  unfold Body.open at h
  simp only at h
  split at h
  · rename_i c rest hcells
    change front e marked bytes = c :: rest at hcells
    rw [hcells]
    split at h
    · rename_i i after hread
      cases hdeclaration : i.isDeclaration with
      | false =>
        refine .inl fun c' rest' i' after' hcons hread' => ?_
        obtain ⟨rfl, rfl⟩ := List.cons.inj hcons
        cases hread.symm.trans hread'
        exact hdeclaration
      | true =>
        rw [if_pos hdeclaration] at h
        split at h
        · cases h
        · exact .inr ⟨_, _, hread, hdeclaration, ‹_›⟩
    · rename_i hread
      refine .inl fun c' rest' i after hcons hread' => ?_
      obtain ⟨rfl, rfl⟩ := List.cons.inj hcons
      exact absurd hread' (hread i after)
  · rename_i hcells
    change front e marked bytes = [] at hcells
    exact .inl fun c rest i after hcons _ => absurd (hcells.symm.trans hcons) nofun

theorem front_eq {core rest : List Cell} (h : front e marked bytes = core ++ rest)
    (hcore : core ≠ []) : ∃ mark, e.cells bytes = mark ++ core ++ rest ∧
      ∀ {bytes' more}, e.cells bytes' = mark ++ core ++ more →
        front e marked bytes' = core ++ more := by
  unfold front at *
  cases marked with
  | false => exact ⟨[], h, fun h => h⟩
  | true =>
    simp only [if_true] at h ⊢
    cases hcells : e.cells bytes with
    | nil =>
      rw [hcells, List.tail_nil, eq_comm, List.append_eq_nil_iff] at h
      exact absurd h.1 hcore
    | cons c cells =>
      rw [hcells] at h
      exact ⟨[c], congrArg (c :: ·) h, fun h => by rw [h]; rfl⟩

theorem Undeclared.again {ragged : Bool} {stop : Nat} {prolog left rest : List Cell}
    (h : Undeclared (prolog ++ left ++ rest))
    (hroot : (lexemes ragged stop (prolog ++ left ++ rest)).root = left ++ rest)
    (hleft : 3 ≤ left.length) (more : List Cell) : Undeclared (prolog ++ left ++ more) := by
  intro c cells i last hcons hread
  obtain ⟨d, core, hcore⟩ : ∃ d core, prolog ++ left = d :: core :=
    List.exists_cons_of_ne_nil (List.append_ne_nil_of_right_ne_nil prolog
      (List.ne_nil_of_length_pos (Nat.zero_lt_of_lt hleft)))
  rw [hcore, List.cons_append] at h hroot hcons
  obtain ⟨rfl, rfl⟩ := List.cons.inj hcons
  cases hblank : d.isBlank with
  | true => cases (readLexeme_blank hblank).symm.trans hread
  | false =>
    obtain ⟨lexeme, kept, hfirst, hsame⟩ := readLexeme_first_same hroot hleft hblank
    cases (hsame more).symm.trans hread
    exact h d _ i _ rfl hfirst

theorem Declared.again {header : Header} {cells left rest : List Cell}
    (h : Declared cells header (left ++ rest)) (hleft : 2 ≤ left.length) :
    ∃ c taken, cells = c :: taken ++ left ++ rest ∧
      ∀ more, Declared (c :: taken ++ left ++ more) header (left ++ more) := by
  obtain ⟨hlexeme, hdeclaration, hheader⟩ := h
  rename_i c cells i
  obtain ⟨taken, rfl, -⟩ := (Steady.readLexeme c).takes (Nat.le_refl _) hlexeme
  rw [← List.append_assoc] at hlexeme
  refine ⟨c, taken, by simp, fun more => ?_⟩
  exact ⟨Steady.carry (fun _ => Steady.readLexeme c) hlexeme hleft more, hdeclaration, hheader⟩

theorem open_again (hopen : Body.open true bytes e marked = .ok b) {before after : List Event}
    {name : Text} (h : b.read.events = before ++ .closeElement name :: after) :
    ∃ core rest, front e marked bytes = core ++ rest ∧ 3 ≤ core.length ∧ Closing core ∧
      ∀ {bytes' more}, front e marked bytes' = core ++ more →
        offsetOf (bytes.length / e.unit) rest = offsetOf (bytes'.length / e.unit) more →
          ∃ b' after', Body.open true bytes' e marked = .ok b' ∧
            b'.read.events = before ++ .closeElement name :: after' := by
  obtain ⟨prolog, left, rest, hrest, hroot, hlength, hclosing, hsame⟩ := read_again h
  have hlong : 3 ≤ (prolog ++ left).length := by
    rw [List.length_append]
    omega
  rcases open_text hopen with hfront | ⟨header, after, hfront⟩
  · rw [open_undeclared hfront] at hopen
    cases hopen
    change front e marked bytes = prolog ++ left ++ rest at hrest
    refine ⟨prolog ++ left, rest, hrest, hlong, hclosing.before prolog, ?_⟩
    intro bytes' more hcells hplace
    have hfront' : Undeclared (front e marked bytes') := by
      rw [hrest] at hfront hroot
      exact hcells ▸ hfront.again hroot hlength more
    let b' : Body := ⟨bytes', e.cells bytes', e, false, front e marked bytes'⟩
    obtain ⟨after', hafter⟩ := hsame b' rfl rfl hcells hplace
    exact ⟨b', after', open_undeclared hfront', hafter⟩
  · rw [open_declared hfront] at hopen
    cases hopen
    obtain rfl : after = prolog ++ left ++ rest := hrest
    obtain ⟨c, taken, hcells, hsame'⟩ := hfront.again (Nat.le_of_succ_le hlong)
    refine ⟨c :: taken ++ (prolog ++ left), rest, hcells, by rw [List.length_append]; omega,
      (hclosing.before prolog).before (c :: taken), ?_⟩
    intro bytes' more hcells' hplace
    have hfront' : Declared (front e marked bytes') header (prolog ++ left ++ more) :=
      hcells' ▸ hsame' more
    let b' : Body := ⟨bytes', e.cells bytes', e, header.standalone, prolog ++ left ++ more⟩
    obtain ⟨after', hafter⟩ := hsame b' rfl rfl rfl hplace
    exact ⟨b', after', open_declared hfront', hafter⟩

end Body

namespace Encoding

def Whole (core : List Cell) : Prop := ∀ d, core.getLast? = some d → d.char ≠ '\uFFFD'

theorem whole_of_closing {core : List Cell} (h : Closing core) : Whole core := by
  obtain ⟨d, hlast, hd⟩ := h
  intro d' hlast'
  obtain rfl := Option.some.inj (hlast.symm.trans hlast')
  rcases hd with hd | hd <;> rw [hd] <;> decide

theorem Whole.tail {c : Cell} {core : List Cell} (h : Whole (c :: core)) : Whole core := by
  intro d hlast
  refine h d ?_
  rw [List.getLast?_cons, hlast]
  rfl

/-- Where the cells are cut the bytes are cut, and the cells before the cut are the same whatever
bytes follow. -/
def Splits (unit : Nat) (cellsFrom : Nat → List UInt8 → List Cell) (offset : Nat)
    (bytes : List UInt8) : Prop :=
  ∀ core rest, cellsFrom offset bytes = core ++ rest → Whole core →
    ∃ x y n, bytes = x ++ y ∧ x.length = n * unit ∧ core.length ≤ x.length ∧
      ∀ z, cellsFrom offset (x ++ z) = core ++ cellsFrom (offset + n) z

namespace Splits
variable {unit offset k : Nat} {cellsFrom : Nat → List UInt8 → List Cell} {bytes : List UInt8}

theorem empty {core : List Cell} (hcore : core = []) : ∃ x y n, bytes = x ++ y ∧
    x.length = n * unit ∧ core.length ≤ x.length ∧
      ∀ z, cellsFrom offset (x ++ z) = core ++ cellsFrom (offset + n) z := by
  subst hcore
  exact ⟨[], bytes, 0, rfl, (Nat.zero_mul unit).symm, Nat.le_refl 0, fun _ => rfl⟩

theorem nil (h : cellsFrom offset bytes = []) : Splits unit cellsFrom offset bytes := by
  intro core rest hcells _
  rw [h, eq_comm, List.append_eq_nil_iff] at hcells
  exact empty hcells.1

theorem cut (h : cellsFrom offset bytes = [.cut offset]) : Splits unit cellsFrom offset bytes := by
  intro core rest hcells hcore
  cases core with
  | nil => exact empty rfl
  | cons c core =>
    rw [h] at hcells
    obtain ⟨rfl, hnil⟩ := List.cons.inj hcells
    obtain ⟨rfl, -⟩ := List.append_eq_nil_iff.mp hnil.symm
    exact absurd rfl (hcore (.cut offset) rfl)

theorem step {b : UInt8} (taken : List UInt8) (cell : Cell)
    (hlength : (b :: taken).length = k * unit)
    (hstep : ∀ z, cellsFrom offset (b :: taken ++ z) = cell :: cellsFrom (offset + k) z)
    (h : Splits unit cellsFrom (offset + k) bytes) :
    Splits unit cellsFrom offset (b :: taken ++ bytes) := by
  intro core rest hcells hcore
  cases core with
  | nil => exact empty rfl
  | cons c core =>
    rw [hstep] at hcells
    obtain ⟨rfl, hrest⟩ := List.cons.inj hcells
    obtain ⟨x, y, n, rfl, hx, hcount, hsame⟩ := h core rest hrest hcore.tail
    refine ⟨b :: taken ++ x, y, k + n, (List.append_assoc ..).symm, ?_, ?_, fun z => ?_⟩
    · rw [List.length_append, hlength, hx, Nat.add_mul]
    · simp only [List.length_append, List.length_cons]
      omega
    · rw [List.append_assoc, hstep, hsame, Nat.add_assoc]
      rfl

end Splits

theorem utf8Cells_splits (offset : Nat) (bytes : List UInt8) :
    Splits 1 utf8Cells offset bytes := by
  fun_induction utf8Cells offset bytes with
  | case1 => exact Splits.nil rfl
  | case2 offset b rest hb ih =>
    refine Splits.step [] (.bad false offset) rfl (fun z => ?_) ih
    rw [List.cons_append, List.nil_append, utf8Cells.eq_def]
    simp only [hb]
  | case3 offset b rest hb ih =>
    refine Splits.step [] ⟨Char.ofNat b.toNat, asciiKind b.toNat, false, offset⟩ rfl
      (fun z => ?_) ih
    rw [List.cons_append, List.nil_append, utf8Cells.eq_def]
    simp only [hb]
  | case4 offset b hb c rest ih =>
    exact Splits.step [c] (sequenceCell b [c] offset) rfl (fun z => by simp [utf8Cells, hb]) ih
  | case6 offset b hb c d rest ih =>
    exact Splits.step [c, d] (sequenceCell b [c, d] offset) rfl
      (fun z => by simp [utf8Cells, hb]) ih
  | case8 offset b c d e rest hzero hone htwo hthree ih =>
    exact Splits.step [c, d, e] (sequenceCell b [c, d, e] offset) rfl
      (fun z => by simp [utf8Cells]) ih
  | case5 offset b rest hb hrest | case7 offset b rest hb hrest =>
    refine Splits.cut ?_
    rw [utf8Cells.eq_def]
    simp only [hb]
  | case9 offset b rest hzero hone htwo hthree hrest =>
    refine Splits.cut ?_
    rw [utf8Cells.eq_def]
    simp

theorem utf16Cells_splits (bigEndian : Bool) (offset : Nat) (bytes : List UInt8) :
    Splits 2 (utf16Cells bigEndian) offset bytes := by
  fun_induction utf16Cells bigEndian offset bytes with
  | case1 offset b c hhigh d e rest ih =>
    exact Splits.step [c, d, e] _ rfl (fun z => if_pos hhigh) ih
  | case2 offset b c rest hhigh hrest =>
    refine Splits.cut ?_
    rw [utf16Cells.eq_def]
    simp only [hhigh, if_true]
  | case3 offset b c rest hhigh ih =>
    refine Splits.step [c] (unitCell (codeUnit bigEndian b c) offset) rfl (fun z => ?_) ih
    rw [utf16Cells.eq_def]
    exact if_neg hhigh
  | case4 offset bytes hbytes =>
    refine Splits.nil ?_
    rw [utf16Cells.eq_def]
    split
    · exact absurd rfl (hbytes _ _ _)
    · rfl

theorem sequenceCell_offset (b : UInt8) (more : List UInt8) (offset : Nat) :
    (sequenceCell b more offset).offset = offset := by
  unfold sequenceCell
  split <;> rfl

theorem unitCell_offset (n offset : Nat) : (unitCell n offset).offset = offset := by
  unfold unitCell
  split
  · rfl
  · split <;> rfl

theorem offsetOf_utf8Cells (offset : Nat) (bytes : List UInt8) :
    offsetOf (offset + bytes.length / 1) (utf8Cells offset bytes) = offset := by
  fun_cases utf8Cells offset bytes with
  | case4 | case6 | case8 => exact sequenceCell_offset ..
  | _ => rfl

theorem offsetOf_utf16Cells (bigEndian : Bool) (offset : Nat) (bytes : List UInt8) :
    offsetOf (offset + bytes.length / 2) (utf16Cells bigEndian offset bytes) = offset := by
  match bytes with
  | [] => rfl
  | [b] =>
    change offset + 1 / 2 = offset
    omega
  | b :: c :: rest =>
    rw [utf16Cells.eq_def]
    simp only
    split
    · split <;> rfl
    · exact unitCell_offset ..

inductive Unicode : Encoding → Prop
  | utf8 : Unicode .utf8
  | utf16 (bigEndian : Bool) : Unicode (.utf16 bigEndian)

theorem cells_again {e : Encoding} (he : Unicode e) {bytes : List UInt8} {core rest : List Cell}
    (h : e.cells bytes = core ++ rest) (hcore : Whole core) :
    ∃ x y, bytes = x ++ y ∧ core.length ≤ x.length ∧ ∀ z, ∃ more, e.cells (x ++ z) = core ++ more ∧
      offsetOf (bytes.length / e.unit) rest = offsetOf ((x ++ z).length / e.unit) more := by
  obtain ⟨cellsFrom, hcells, hsplits, hplace⟩ : ∃ cellsFrom, e.cells = cellsFrom 0 ∧
      (∀ bytes, Splits e.unit cellsFrom 0 bytes) ∧
      ∀ offset bytes,
        offsetOf (offset + bytes.length / e.unit) (cellsFrom offset bytes) = offset := by
    cases he with
    | utf8 => exact ⟨utf8Cells, rfl, utf8Cells_splits 0, offsetOf_utf8Cells⟩
    | utf16 bigEndian =>
      exact ⟨utf16Cells bigEndian, rfl, utf16Cells_splits bigEndian 0,
        offsetOf_utf16Cells bigEndian⟩
  have hunit : 0 < e.unit := by
    cases he
    · exact Nat.one_pos
    · exact Nat.two_pos
  rw [hcells] at h
  obtain ⟨x, y, n, rfl, hlength, hcount, hsame⟩ := hsplits bytes core rest h hcore
  have hend (z : List UInt8) : (x ++ z).length / e.unit = 0 + n + z.length / e.unit := by
    rw [List.length_append, hlength, Nat.mul_comm, Nat.mul_add_div hunit, Nat.zero_add]
  obtain rfl : cellsFrom (0 + n) y = rest := List.append_cancel_left ((hsame y).symm.trans h)
  refine ⟨x, y, rfl, hcount, fun z => ⟨cellsFrom (0 + n) z, by rw [hcells, hsame], ?_⟩⟩
  rw [hend, hend, hplace, hplace]

end Encoding

theorem Opening.read_append {x : List UInt8} (hx : 3 ≤ x.length) (y z : List UInt8) :
    Opening.read (x ++ y) = Opening.read (x ++ z) := by
  match x, hx with
  | a :: b :: c :: x, _ => rfl

theorem Opening.unicode {bytes : List UInt8} {e : Encoding}
    (h : Opening.read bytes = .plain e ∨ Opening.read bytes = .marked e) : Encoding.Unicode e := by
  have hpair {b c : UInt8} (h : Opening.ofPair b c = .plain e ∨ Opening.ofPair b c = .marked e) :
      Encoding.Unicode e := by
    unfold Opening.ofPair at h
    repeat' split at h
    all_goals
      rcases h with h | h <;> cases h
      constructor
  unfold Opening.read at h
  split at h
  · rcases h with h | h <;> cases h
  · split at h <;> rcases h with h | h <;> cases h
    constructor
  · split at h
    · rcases h with h | h <;> cases h
    · exact hpair h
  · split at h
    · rcases h with h | h <;> cases h
      constructor
    · exact hpair h

theorem readBytes_of_open {isText marked : Bool} {bytes : List UInt8} {e : Encoding} {b : Body}
    (hread : Opening.read bytes = if marked then .marked e else .plain e)
    (hopen : Body.open isText bytes e marked = .ok b) : readBytes isText bytes = b.read := by
  unfold readBytes
  cases marked <;> simp only [hread, hopen, if_true, Bool.false_eq_true, if_false]

theorem open_of_readBytes {isText : Bool} {bytes : List UInt8}
    (h : (readBytes isText bytes).events ≠ []) :
    ∃ e marked b, Opening.read bytes = (if marked then .marked e else .plain e) ∧
      Body.open isText bytes e marked = .ok b := by
  unfold readBytes at h
  simp only at h
  split at h
  · exact absurd rfl h
  · rename_i b hopened
    split at hopened
    · cases hopened
    · cases hopened
    · exact ⟨_, false, b, ‹_›, hopened⟩
    · exact ⟨_, true, b, ‹_›, hopened⟩

/-- The end of an element that a text delivers is delivered, after the same events, whatever follows
its tag in the text. -/
theorem readBytes_again {bytes : List UInt8} {before after : List Event} {name : Text}
    (h : (readBytes true bytes).events = before ++ .closeElement name :: after) :
    ∃ x y, bytes = x ++ y ∧ ∀ z, ∃ after',
      (readBytes true (x ++ z)).events = before ++ .closeElement name :: after' := by
  have hne : (readBytes true bytes).events ≠ [] := by
    rw [h]
    exact List.append_ne_nil_of_right_ne_nil before (List.cons_ne_nil _ _)
  obtain ⟨e, marked, b, hread, hopen⟩ := open_of_readBytes hne
  have he : Encoding.Unicode e := by
    cases marked
    · exact Opening.unicode (.inl hread)
    · exact Opening.unicode (.inr hread)
  rw [readBytes_of_open hread hopen] at h
  obtain ⟨core, rest, hfront, hlength, hclosing, hsame⟩ := Body.open_again hopen h
  obtain ⟨mark, hcells, hmark⟩ := Body.front_eq hfront (List.ne_nil_of_length_pos (by omega))
  obtain ⟨x, y, rfl, hx, hagain⟩ :=
    Encoding.cells_again he hcells (Encoding.whole_of_closing (hclosing.before mark))
  rw [List.length_append] at hx
  refine ⟨x, y, rfl, fun z => ?_⟩
  obtain ⟨more, hmore, hplace⟩ := hagain z
  obtain ⟨b', after', hopen', hafter⟩ := hsame (hmark hmore) hplace
  rw [Opening.read_append (by omega) y z] at hread
  exact ⟨after', by rw [readBytes_of_open hread hopen', hafter]⟩

end Xml

namespace Document
open Xml

theorem scalars?_map (t : Text) : scalars? (t.map .scalar) = some t := by
  induction t with
  | nil => rfl
  | cons c t ih => rw [List.map_cons, scalars?, ih, Option.map_some]

theorem eq_map_of_scalars? {units : List TextUnit} {t : Text} (h : scalars? units = some t) :
    units = t.map .scalar := by
  induction units generalizing t with
  | nil =>
    cases h
    rfl
  | cons u units ih =>
    cases u with
    | surrogate code => cases h
    | scalar c =>
      obtain ⟨rest, hrest, rfl⟩ := Option.map_eq_some_iff.mp h
      rw [List.map_cons, ih hrest]

theorem read_ofText (t : Text) : (ofText t).read = readBytes true (Text.Utf8.encode t) := by
  unfold ofText read
  simp only [scalars?_map]

theorem eq_ofText {units : List TextUnit} (h : (text units).read.events ≠ []) :
    ∃ t, text units = ofText t := by
  unfold read at h
  cases hunits : scalars? units with
  | none =>
    simp only [hunits] at h
    exact absurd rfl h
  | some t => exact ⟨t, congrArg text (eq_map_of_scalars? hunits)⟩

/-- Once the end of an element has been delivered, it and the events before it are the same however
the text goes on. -/
theorem read_goesOn {t : Text} {before after : List Event} {name : Text}
    (h : (ofText t).read.events = before ++ .closeElement name :: after) (more : Text) :
    ∃ after', (ofText (t ++ more)).read.events = before ++ .closeElement name :: after' := by
  rw [read_ofText] at h
  obtain ⟨x, y, hbytes, hsame⟩ := readBytes_again h
  have hencode : Text.Utf8.encode (t ++ more) = x ++ (y ++ Text.Utf8.encode more) := by
    rw [Text.Utf8.encode, List.flatMap_append, ← List.append_assoc, ← hbytes]
    rfl
  rw [read_ofText, hencode]
  exact hsame _

end Document
end DocMarkdown
