import DocMarkdown.Proofs.Layout.Prose
import DocMarkdown.Proofs.Layout.Trimming
import Mathlib.Data.List.Basic
import Mathlib.Data.List.TakeWhile

/-! Code listings as lines. A listing is a fenced block: every section of its code is written behind
the indentation and ended with a line feed, and a section may hold several lines. The block is read
back line by line, up to the first line that closes it. What comes out is the code with every
further line of a section short of its indentation, up to its first line that is a closing fence
itself. -/

namespace DocMarkdown

namespace Text
variable {t u : Text}

def lines (t : Text) : List Text := t.splitOn '\n'

theorem lines_append_feed (t u : Text) : lines (t ++ '\n' :: u) = lines t ++ lines u :=
  List.splitOn_append_cons_self t u

theorem lines_of_not_mem (h : '\n' ∉ t) : lines t = [t] := List.splitOn_eq_singleton h

theorem lines_append_of_not_mem (h : '\n' ∉ t) (u : Text) :
    lines (t ++ u) = (lines u).modifyHead (t ++ ·) := by
  induction t with
  | nil => exact (congrFun List.modifyHead_id (lines u)).symm
  | cons c t ih =>
    rw [List.mem_cons, not_or] at h
    have hc : ¬ (c == '\n') = true := fun hc => h.1 (beq_iff_eq.mp hc).symm
    rw [List.cons_append, lines, List.splitOn_cons_eq_if_modifyHead, if_neg hc]
    change (lines (t ++ u)).modifyHead _ = _
    rw [ih h.2, List.modifyHead_modifyHead]
    rfl

theorem exists_lines (t : Text) : ∃ first further, lines t = first :: further :=
  List.exists_cons_of_ne_nil (List.splitOn_ne_nil '\n' t)

theorem exists_further (h : '\n' ∈ t) :
    ∃ first line further, lines t = first :: line :: further := by
  obtain ⟨a, b, rfl⟩ := List.append_of_mem h
  obtain ⟨first, further, ha⟩ := exists_lines a
  obtain ⟨line, rest, hb⟩ := exists_lines b
  rw [lines_append_feed, ha, hb]
  cases further with
  | nil => exact ⟨first, line, rest, rfl⟩
  | cons l further => exact ⟨first, l, further ++ line :: rest, rfl⟩

theorem dropWhile_append_of_head {p : Char → Bool} {c : Char} (hc : p c = false) (t u : Text) :
    (t ++ c :: u).dropWhile p = t.dropWhile p ++ c :: u := by
  have hstop : (c :: u).dropWhile p = c :: u := List.dropWhile_cons_of_neg (by simp [hc])
  rw [List.dropWhile_append, hstop]
  split
  · rename_i hempty
    rw [List.isEmpty_iff.mp hempty, List.nil_append]
  · rfl

theorem dropWhile_append_of_not_all {p : Char → Bool} {t : Text} (h : t.all p = false) (u : Text) :
    (t ++ u).dropWhile p = t.dropWhile p ++ u := by
  rw [List.dropWhile_append, if_neg]
  rw [List.isEmpty_iff, List.dropWhile_eq_nil_iff]
  intro hall
  rw [List.all_eq_true.mpr hall] at h
  cases h

theorem dropEnd_append_of_last {p : Char → Bool} {c : Char} (hc : p c = false) (t u : Text) :
    dropEnd p (t ++ c :: u) = t ++ c :: dropEnd p u := by
  simp only [dropEnd, List.reverse_append, List.reverse_cons, List.append_assoc,
    List.singleton_append, dropWhile_append_of_head hc]
  simp

def linesAbove (t : Text) : List Text :=
  if t.allBlank then [] else lines (t.dropWhile isBlank)

theorem lines_trim {before block u : Text} {c : Char}
    (hbegin : before.allBlank = true → ∃ d v, block = d :: v ∧ isBlank d = false)
    (hend : block = u ++ [c]) (hc : isBlank c = false) (later : Text) :
    ∃ below, (trim (before ++ '\n' :: (block ++ '\n' :: later))).lines =
      before.linesAbove ++ (block.lines ++ below) := by
  let rest : Text := '\n' :: later
  have hrest : ∃ below, ∀ t : Text, (t ++ dropEnd isBlank rest).lines = t.lines ++ below := by
    have hcut := dropEnd_prefix isBlank rest
    rcases List.prefix_cons_iff.mp hcut with hnil | ⟨v, hv, -⟩
    · exact ⟨[], fun t => by rw [hnil, List.append_nil, List.append_nil]⟩
    · exact ⟨lines v, fun t => by rw [hv, lines_append_feed]⟩
  have hstop : ∀ t : Text, dropEnd isBlank (t ++ (block ++ rest)) =
      t ++ (block ++ dropEnd isBlank rest) := by
    intro t
    have hlast := dropEnd_append_of_last hc (t ++ u) rest
    simpa [hend] using hlast
  obtain ⟨below, hbelow⟩ := hrest
  refine ⟨below, ?_⟩
  cases hblank : before.allBlank with
  | false =>
    have hdrop := dropWhile_append_of_not_all hblank ('\n' :: (block ++ rest))
    have htrim := hstop (before.dropWhile isBlank ++ ['\n'])
    rw [List.append_assoc, List.append_assoc, List.singleton_append, List.singleton_append] at htrim
    rw [trim, hdrop, htrim, lines_append_feed, hbelow, linesAbove, hblank,
      if_neg Bool.false_ne_true]
  | true =>
    obtain ⟨d, v, hblock, hd⟩ := hbegin hblank
    have hdrop : (before ++ '\n' :: (block ++ rest)).dropWhile isBlank = block ++ rest := by
      have hhead := dropWhile_append_of_head hd (before ++ ['\n']) (v ++ rest)
      have hnil : (before ++ ['\n']).dropWhile isBlank = [] := by
        rw [List.dropWhile_eq_nil_iff]
        simpa [allBlank, isBlank, or_imp, forall_and] using hblank
      rw [hnil] at hhead
      simpa [hblock] using hhead
    have htrim := hstop []
    rw [List.nil_append, List.nil_append] at htrim
    rw [trim, hdrop, htrim, hbelow, linesAbove, hblank, if_pos rfl, List.nil_append]

end Text

namespace Markdown
open Prose

def unindent : Nat → Text → Text
  | n + 1, ' ' :: t => unindent n t
  | _, t => t

/-- The content of a fenced block whose lines are indented by `n`: what stands between its first
line, which must be an opening fence, and the first line that closes it. -/
def readFenced (closes : Text → Bool) (n : Nat) : List Text → Option (List Text)
  | [] => none
  | opening :: rest =>
    let content := rest.map (unindent n)
    if fence.isPrefixOf (unindent n opening) && content.any closes then
      some (content.takeWhile (!closes ·))
    else none

def isClosingFence (t : Text) : Bool := decide (3 ≤ t.length) && t.all (· == '`')

def padding (n : Nat) : Text := List.replicate n ' '

def writtenLines (n : Nat) (t : Text) : List Text := t.lines.modifyHead (padding n ++ ·)

def keptLines (n : Nat) (t : Text) : List Text :=
  match t.lines with
  | [] => []
  | first :: further => first :: further.map (unindent n)

def blockLines (n : Nat) (language : Text) (code : List Text) : List Text :=
  (padding n ++ fence ++ language) :: (code.flatMap (writtenLines n) ++ [padding n ++ fence])

def fencedBlock (n : Nat) (language : Text) (code : List Text) : Text :=
  padding n ++ fence ++ language ++ '\n' ::
    (code.flatMap (fun t => padding n ++ t ++ ['\n']) ++ (padding n ++ fence))

section Lines
variable {n : Nat} {t : Text}

theorem unindent_padding (n : Nat) (t : Text) : unindent n (padding n ++ t) = t := by
  induction n with
  | zero => cases t <;> rfl
  | succ n ih => exact ih

theorem unindent_zero (t : Text) : unindent 0 t = t := by
  cases t <;> rfl

theorem not_mem_padding (n : Nat) : '\n' ∉ padding n := by
  intro h
  have hc := List.eq_of_mem_replicate h
  revert hc
  decide

theorem not_mem_fence : '\n' ∉ fence := by decide

theorem lines_padding_append (n : Nat) (t : Text) : (padding n ++ t).lines = writtenLines n t :=
  Text.lines_append_of_not_mem (not_mem_padding n) t

theorem keptLines_eq {first : Text} {further : List Text} (h : t.lines = first :: further)
    (n : Nat) : keptLines n t = first :: further.map (unindent n) := by
  rw [keptLines, h]

theorem map_unindent_writtenLines (n : Nat) (t : Text) :
    (writtenLines n t).map (unindent n) = keptLines n t := by
  obtain ⟨first, further, ht⟩ := Text.exists_lines t
  rw [writtenLines, keptLines_eq ht, ht, List.modifyHead_cons, List.map_cons, unindent_padding]

theorem length_keptLines (n : Nat) (t : Text) : (keptLines n t).length = t.lines.length := by
  obtain ⟨first, further, ht⟩ := Text.exists_lines t
  rw [keptLines_eq ht, ht, List.length_cons, List.length_cons, List.length_map]

theorem keptLines_zero (t : Text) : keptLines 0 t = t.lines := by
  obtain ⟨first, further, ht⟩ := Text.exists_lines t
  rw [keptLines_eq ht, ht, List.map_congr_left fun l _ => unindent_zero l, List.map_id']

theorem keptLines_of_not_mem (n : Nat) (h : '\n' ∉ t) : keptLines n t = t.lines := by
  have ht : t.lines = [t] := Text.lines_of_not_mem h
  rw [keptLines_eq ht, ht, List.map_nil]

theorem not_mem_of_kept (hn : n ≠ 0) (hkept : keptLines n t = t.lines)
    (hpadded : ∀ line ∈ writtenLines n t, padding n <+: line) : '\n' ∉ t := by
  intro h
  obtain ⟨first, line, further, ht⟩ := Text.exists_further h
  rw [keptLines_eq ht, ht, List.map_cons, List.cons.injEq, List.cons.injEq] at hkept
  have hline : line ∈ writtenLines n t := by simp [writtenLines, ht]
  obtain ⟨rest, rfl⟩ := hpadded line hline
  have hlength := congrArg List.length hkept.2.1
  rw [unindent_padding, List.length_append, padding, List.length_replicate] at hlength
  omega

end Lines

section Blocks
variable {n : Nat} {language : Text} {code : List Text} {closes : Text → Bool}

theorem lines_sections (n : Nat) (code : List Text) (rest : Text) :
    Text.lines (code.flatMap (fun t => padding n ++ t ++ ['\n']) ++ rest) =
      code.flatMap (writtenLines n) ++ rest.lines := by
  induction code with
  | nil => rfl
  | cons t code ih =>
    rw [List.flatMap_cons, List.flatMap_cons, List.append_assoc, List.append_assoc,
      List.singleton_append, Text.lines_append_feed, lines_padding_append, ih, List.append_assoc]

theorem lines_fencedBlock (n : Nat) (hlanguage : '\n' ∉ language) (code : List Text) :
    (fencedBlock n language code).lines = blockLines n language code := by
  have hopening : '\n' ∉ padding n ++ fence ++ language := by
    simp [not_mem_padding, not_mem_fence, hlanguage]
  have hclosing : '\n' ∉ padding n ++ fence := by simp [not_mem_padding, not_mem_fence]
  rw [fencedBlock, Text.lines_append_feed, Text.lines_of_not_mem hopening, lines_sections,
    Text.lines_of_not_mem hclosing]
  rfl

theorem lines_trim_fencedBlock {n : Nat} {language before : Text}
    (hlanguage : '\n' ∉ language) (hindented : before.allBlank = true → n = 0)
    (code : List Text) (later : Text) :
    ∃ below, (Text.trim (before ++ '\n' :: (fencedBlock n language code ++ '\n' :: later))).lines =
      before.linesAbove ++ (blockLines n language code ++ below) := by
  have hend : fencedBlock n language code =
      (padding n ++ fence ++ language ++ '\n' ::
        (code.flatMap (fun t => padding n ++ t ++ ['\n']) ++ (padding n ++ "``".toList))) ++
        ['`'] := by
    simp [fencedBlock, fence]
  have hbegin : before.allBlank = true →
      ∃ d v, fencedBlock n language code = d :: v ∧ Text.isBlank d = false := by
    intro hblank
    rw [hindented hblank]
    exact ⟨'`', _, rfl, by decide⟩
  rw [← lines_fencedBlock n hlanguage code]
  exact Text.lines_trim hbegin hend (by decide) later

theorem readFenced_blockLines (n : Nat) (language : Text) (code below : List Text)
    (hcloses : closes fence = true) :
    readFenced closes n (blockLines n language code ++ below) =
      some ((code.flatMap (keptLines n)).takeWhile (!closes ·)) := by
  let rest := below.map (unindent n)
  have hopening : fence.isPrefixOf (unindent n (padding n ++ fence ++ language)) = true := by
    rw [List.append_assoc, unindent_padding, List.isPrefixOf_iff_prefix]
    exact List.prefix_append _ _
  have hcontent :
      (code.flatMap (writtenLines n) ++ [padding n ++ fence] ++ below).map (unindent n) =
      code.flatMap (keptLines n) ++ fence :: rest := by
    have hclosing := unindent_padding n fence
    simp only [List.map_append, List.map_flatMap, map_unindent_writtenLines, List.map_cons,
      hclosing, List.append_assoc, List.singleton_append, rest]
  have hends : (code.flatMap (keptLines n) ++ fence :: rest).takeWhile (!closes ·) =
      (code.flatMap (keptLines n)).takeWhile (!closes ·) := by
    have hfence : (fence :: rest).takeWhile (!closes ·) = [] := by simp [hcloses]
    rw [List.takeWhile_append, hfence, List.append_nil]
    split
    · rename_i hall
      exact ((List.takeWhile_prefix _).eq_of_length hall).symm
    · rfl
  rw [blockLines, List.cons_append, readFenced]
  simp only [hopening, hcontent, List.any_append, List.any_cons, hcloses, Bool.true_or,
    Bool.or_true, Bool.and_true, if_true, hends]

theorem eq_of_flatMap_eq {f g : Text → List Text} (hlength : ∀ t, (f t).length = (g t).length)
    (h : code.flatMap f = code.flatMap g) : ∀ t ∈ code, f t = g t := by
  induction code with
  | nil => exact nofun
  | cons t code ih =>
    rw [List.flatMap_cons, List.flatMap_cons] at h
    obtain ⟨hhead, htail⟩ := List.append_inj h (hlength t)
    exact List.forall_mem_cons.mpr ⟨hhead, ih htail⟩

theorem flatMap_keptLines (h : n = 0 ∨ ∀ t ∈ code, '\n' ∉ t) :
    code.flatMap (keptLines n) = code.flatMap Text.lines := by
  refine List.flatMap_congr fun t ht => ?_
  rcases h with rfl | h
  · exact keptLines_zero t
  · exact keptLines_of_not_mem n (h t ht)

theorem padded_blockLines (h : n = 0 ∨ ∀ t ∈ code, '\n' ∉ t) :
    ∀ line ∈ blockLines n language code, padding n <+: line := by
  intro line hline
  rcases h with rfl | h
  · exact List.nil_prefix
  · rw [blockLines, List.mem_cons, List.mem_append, List.mem_singleton, List.mem_flatMap] at hline
    rcases hline with rfl | ⟨t, ht, hline⟩ | rfl
    · rw [List.append_assoc]
      exact List.prefix_append _ _
    · rw [writtenLines, Text.lines_of_not_mem (h t ht), List.modifyHead_cons,
        List.mem_singleton] at hline
      exact hline ▸ List.prefix_append _ _
    · exact List.prefix_append _ _

theorem kept_of_readFenced {below : List Text} (hcloses : closes fence = true)
    (h : readFenced closes n (blockLines n language code ++ below) =
      some (code.flatMap Text.lines)) :
    code.flatMap (keptLines n) = code.flatMap Text.lines ∧
      ∀ line ∈ code.flatMap Text.lines, closes line = false := by
  rw [readFenced_blockLines n language code below hcloses, Option.some.injEq] at h
  have hlength : (code.flatMap (keptLines n)).length = (code.flatMap Text.lines).length := by
    simp only [List.length_flatMap, length_keptLines]
  have hall : (code.flatMap (keptLines n)).takeWhile (!closes ·) = code.flatMap (keptLines n) := by
    refine (List.takeWhile_prefix _).eq_of_length ?_
    rw [hlength, h]
  rw [hall] at h
  refine ⟨h, fun line hline => ?_⟩
  rw [← h] at hline
  simpa using List.takeWhile_eq_self_iff.mp hall line hline

theorem survives_iff (n : Nat) (language : Text) (code below : List Text)
    (hcloses : closes fence = true) :
    ((∀ line ∈ blockLines n language code, padding n <+: line) ∧
      readFenced closes n (blockLines n language code ++ below) =
        some (code.flatMap Text.lines)) ↔
    (n = 0 ∨ ∀ t ∈ code, '\n' ∉ t) ∧ ∀ line ∈ code.flatMap Text.lines, closes line = false := by
  constructor
  · rintro ⟨hpadded, hread⟩
    obtain ⟨hkept, hopen⟩ := kept_of_readFenced hcloses hread
    refine ⟨or_iff_not_imp_left.mpr fun hn t ht => not_mem_of_kept hn ?_ ?_, hopen⟩
    · exact eq_of_flatMap_eq (length_keptLines n) hkept t ht
    · intro line hline
      refine hpadded line (List.mem_cons_of_mem _ (List.mem_append_left _ ?_))
      exact List.mem_flatMap.mpr ⟨t, ht, hline⟩
  · rintro ⟨hfurther, hopen⟩
    refine ⟨padded_blockLines hfurther, ?_⟩
    rw [readFenced_blockLines n language code below hcloses, flatMap_keptLines hfurther]
    refine congrArg some (List.takeWhile_eq_self_iff.mpr fun line hline => ?_)
    rw [hopen line hline, Bool.not_false]

end Blocks

end Markdown
end DocMarkdown
