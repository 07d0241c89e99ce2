import DocMarkdown.Markdown.Escape
import Mathlib.Algebra.Ring.Parity
import Mathlib.Data.List.Infix
import Mathlib.Data.List.TakeWhile

/-! How escaped text is displayed. A reader goes from left to right: a backslash before a backslash
or before a special character shows that character, and any other character stands for itself. A
special character that is met without a backslash is markup.

A backslash of the text is not escaped, so that it may use up the one that was put before a special
character. What is displayed therefore depends on how many backslashes stand before each other. -/

namespace DocMarkdown.Markdown

/-- What a reader makes of a character: it is displayed as it is, or taken for markup. -/
inductive Sign
  | shown (c : Char)
  | markup (c : Char)
  deriving DecidableEq

namespace Sign

def char : Sign → Char
  | shown c => c
  | markup c => c

def bare (c : Char) : Sign := if isSpecial c then markup c else shown c

end Sign

def isEscapable (c : Char) : Bool := c == '\\' || isSpecial c

def display : Text → List Sign
  | [] => []
  | [c] => [.bare c]
  | c :: d :: t =>
    if c = '\\' ∧ isEscapable d then .shown d :: display t else .bare c :: display (d :: t)

def endingBackslashes (t : Text) : Nat := (t.reverse.takeWhile (· == '\\')).length

/-- A special character that stands in the text with an odd number of backslashes before it. -/
def Exposed (c : Char) (t : Text) : Prop :=
  isSpecial c = true ∧ ∃ before after, t = before ++ c :: after ∧ Odd (endingBackslashes before)

section Reading
variable {c : Char} {t : Text}

theorem bare_of_not_special (h : isSpecial c = false) : Sign.bare c = .shown c := by
  simp [Sign.bare, h]

theorem display_cons (h : c ≠ '\\') (t : Text) : display (c :: t) = .bare c :: display t := by
  cases t with
  | nil => rfl
  | cons d t => simp [display, h]

theorem display_escaped (h : isEscapable c = true) (t : Text) :
    display ('\\' :: c :: t) = .shown c :: display t := by
  simp [display, h]

theorem display_backslash (h : ∀ d ∈ t.head?, isEscapable d = false) :
    display ('\\' :: t) = .shown '\\' :: display t := by
  cases t with
  | nil => rfl
  | cons d t =>
    have hd : isEscapable d = false := h d rfl
    rw [display, if_neg (by simp [hd])]
    rfl

end Reading

@[elab_as_elim]
theorem backslashInduction {motive : Text → Prop} (nil : motive [])
    (other : ∀ c t, c ≠ '\\' → motive t → motive (c :: t))
    (lone : ∀ t, (∀ d ∈ t.head?, isEscapable d = false) → motive t → motive ('\\' :: t))
    (pair : ∀ t, motive t → motive ('\\' :: '\\' :: t))
    (special : ∀ d t, isSpecial d = true → motive t → motive ('\\' :: d :: t)) :
    ∀ t, motive t
  | [] => nil
  | [c] => by
    by_cases hc : c = '\\'
    · exact hc ▸ lone [] nofun nil
    · exact other c [] hc nil
  | c :: d :: t => by
    by_cases hc : c = '\\'
    · subst hc
      by_cases hd : d = '\\'
      · exact hd ▸ pair t (backslashInduction nil other lone pair special t)
      · cases hs : isSpecial d with
        | true => exact special d t hs (backslashInduction nil other lone pair special t)
        | false =>
          have hescape : isEscapable d = false := by simp [isEscapable, hd, hs]
          refine lone (d :: t) ?_ (backslashInduction nil other lone pair special (d :: t))
          rintro _ ⟨⟩
          exact hescape
    · exact other c (d :: t) hc (backslashInduction nil other lone pair special (d :: t))

section Escaped
variable {c : Char} {t : Text}

theorem isSpecial_backslash : isSpecial '\\' = false := by decide

theorem ne_backslash_of_isSpecial (h : isSpecial c = true) : c ≠ '\\' := by
  rintro rfl
  rw [isSpecial_backslash] at h
  cases h

theorem escape_backslash (t : Text) : escape ('\\' :: t) = '\\' :: escape t := by
  rw [escape_cons, escapeChar, isSpecial_backslash]
  rfl

theorem display_escape_other (h : c ≠ '\\') (t : Text) :
    display (escape (c :: t)) = .shown c :: display (escape t) := by
  rw [escape_cons, escapeChar]
  cases hs : isSpecial c with
  | true =>
    rw [if_pos rfl]
    exact display_escaped (by simp [isEscapable, hs]) (escape t)
  | false =>
    rw [if_neg Bool.false_ne_true, List.singleton_append, display_cons h, bare_of_not_special hs]

theorem display_escape_lone (h : ∀ d ∈ t.head?, isEscapable d = false) :
    display (escape ('\\' :: t)) = .shown '\\' :: display (escape t) := by
  rw [escape_backslash]
  refine display_backslash ?_
  cases t with
  | nil => exact nofun
  | cons d t =>
    have hd : isEscapable d = false := h d rfl
    have hs : isSpecial d = false := by
      rw [isEscapable, Bool.or_eq_false_iff] at hd
      exact hd.2
    rw [escape_cons, escapeChar, hs]
    rintro _ ⟨⟩
    exact hd

theorem display_escape_pair (t : Text) :
    display (escape ('\\' :: '\\' :: t)) = .shown '\\' :: display (escape t) := by
  rw [escape_backslash, escape_backslash]
  exact display_escaped rfl (escape t)

theorem display_escape_special (h : isSpecial c = true) (t : Text) :
    display (escape ('\\' :: c :: t)) = .shown '\\' :: .markup c :: display (escape t) := by
  have hescape : escape ('\\' :: c :: t) = '\\' :: '\\' :: c :: escape t := by
    rw [escape_backslash, escape_cons, escapeChar, if_pos h]
    rfl
  rw [hescape, display_escaped rfl, display_cons (ne_backslash_of_isSpecial h), Sign.bare,
    if_pos h]

end Escaped

theorem length_display_escape_le (t : Text) : (display (escape t)).length ≤ t.length := by
  induction t using backslashInduction with
  | nil => exact Nat.le_refl 0
  | other c t hc ih =>
    rw [display_escape_other hc, List.length_cons, List.length_cons]
    exact Nat.succ_le_succ ih
  | lone t ht ih =>
    rw [display_escape_lone ht, List.length_cons, List.length_cons]
    exact Nat.succ_le_succ ih
  | pair t ih =>
    rw [display_escape_pair, List.length_cons, List.length_cons, List.length_cons]
    omega
  | special d t hd ih =>
    rw [display_escape_special hd]
    simp only [List.length_cons]
    omega

theorem map_char_display_escape (t : Text) :
    (display (escape t)).map Sign.char = t ↔ ¬ ['\\', '\\'] <:+: t := by
  induction t using backslashInduction with
  | nil => simp [display]
  | other c t hc ih =>
    rw [display_escape_other hc, List.map_cons, List.infix_cons_iff]
    simp [Sign.char, hc.symm, ih]
  | lone t ht ih =>
    have hhead : ¬ ['\\'] <+: t := by
      cases t with
      | nil => simp
      | cons d t =>
        have hd : isEscapable d = false := ht d rfl
        have hne : '\\' ≠ d := by
          rintro rfl
          cases hd
        simp [hne]
    rw [display_escape_lone ht, List.map_cons, List.infix_cons_iff]
    simp [Sign.char, hhead, ih]
  | pair t ih =>
    have hlength := length_display_escape_le t
    rw [display_escape_pair]
    refine iff_of_false (fun h => ?_) fun h => h (List.infix_append [] _ t)
    have hlengths := congrArg List.length h
    simp only [List.map_cons, List.length_cons, List.length_map] at hlengths
    omega
  | special d t hd ih =>
    have hne : '\\' ≠ d := (ne_backslash_of_isSpecial hd).symm
    rw [display_escape_special hd, List.map_cons, List.map_cons, List.infix_cons_iff,
      List.infix_cons_iff]
    simp [Sign.char, hne, ih]

section Runs
variable {c d : Char} {t : Text}

theorem endingBackslashes_cons_other (h : d ≠ '\\') (t : Text) :
    endingBackslashes (d :: t) = endingBackslashes t := by
  have hd : [d].takeWhile (· == '\\') = [] := by simp [h]
  rw [endingBackslashes, List.reverse_cons, List.takeWhile_append, hd, List.append_nil]
  split
  · rename_i hall
    rw [endingBackslashes, hall]
  · rfl

theorem endingBackslashes_of_all (h : ∀ d ∈ t, d = '\\') : endingBackslashes t = t.length := by
  have hall : t.reverse.takeWhile (· == '\\') = t.reverse :=
    List.takeWhile_eq_self_iff.mpr fun d hd => beq_iff_eq.mpr (h d (List.mem_reverse.mp hd))
  rw [endingBackslashes, hall, List.length_reverse]

theorem endingBackslashes_cons_of_mem (h : d ∈ t) (hd : d ≠ '\\') (c : Char) :
    endingBackslashes (c :: t) = endingBackslashes t := by
  have hshort : ¬ (t.reverse.takeWhile (· == '\\')).length = t.reverse.length := by
    intro hlength
    have hself := (List.takeWhile_prefix (· == '\\') (l := t.reverse)).eq_of_length hlength
    have hback := List.takeWhile_eq_self_iff.mp hself d (List.mem_reverse.mpr h)
    exact hd (beq_iff_eq.mp hback)
  rw [endingBackslashes, List.reverse_cons, List.takeWhile_append, if_neg hshort]
  rfl

theorem odd_endingBackslashes_pair (t : Text) :
    Odd (endingBackslashes ('\\' :: '\\' :: t)) ↔ Odd (endingBackslashes t) := by
  by_cases h : ∀ d ∈ t, d = '\\'
  · have hpair : ∀ d ∈ '\\' :: '\\' :: t, d = '\\' := by simpa using h
    rw [endingBackslashes_of_all hpair, endingBackslashes_of_all h]
    simp only [List.length_cons, Nat.odd_iff]
    omega
  · push Not at h
    obtain ⟨d, hmem, hd⟩ := h
    rw [endingBackslashes_cons_of_mem (List.mem_cons_of_mem _ hmem) hd,
      endingBackslashes_cons_of_mem hmem hd]

theorem exposed_cons : Exposed c (d :: t) ↔ isSpecial c = true ∧
    ∃ before after, t = before ++ c :: after ∧ Odd (endingBackslashes (d :: before)) := by
  refine and_congr_right fun _ => ⟨?_, ?_⟩
  · rintro ⟨_ | ⟨x, before⟩, after, ht, hodd⟩
    · simp [endingBackslashes] at hodd
    · obtain ⟨rfl, rfl⟩ := List.cons_eq_cons.mp ht
      exact ⟨before, after, rfl, hodd⟩
  · rintro ⟨before, after, rfl, hodd⟩
    exact ⟨d :: before, after, rfl, hodd⟩

theorem exposed_other (h : d ≠ '\\') (t : Text) : Exposed c (d :: t) ↔ Exposed c t := by
  rw [exposed_cons, Exposed]
  simp only [endingBackslashes_cons_other h]

theorem exposed_lone (h : ∀ d ∈ t.head?, isEscapable d = false) :
    Exposed c ('\\' :: t) ↔ Exposed c t := by
  rw [exposed_cons, Exposed]
  refine and_congr_right fun hc => exists₂_congr fun before after => and_congr_right fun ht => ?_
  subst ht
  cases before with
  | nil =>
    have hescape : isEscapable c = false := h c rfl
    simp [isEscapable, hc] at hescape
  | cons d before =>
    have hd : d ≠ '\\' := by
      rintro rfl
      cases h '\\' rfl
    rw [endingBackslashes_cons_of_mem List.mem_cons_self hd]

theorem exposed_pair (t : Text) : Exposed c ('\\' :: '\\' :: t) ↔ Exposed c t := by
  rw [exposed_cons, Exposed]
  refine and_congr_right fun hc => ⟨?_, ?_⟩
  · rintro ⟨_ | ⟨d, before⟩, after, ht, hodd⟩
    · obtain ⟨rfl, -⟩ := List.cons_eq_cons.mp ht
      exact absurd rfl (ne_backslash_of_isSpecial hc)
    · obtain ⟨rfl, rfl⟩ := List.cons_eq_cons.mp ht
      exact ⟨before, after, rfl, (odd_endingBackslashes_pair before).mp hodd⟩
  · rintro ⟨before, after, rfl, hodd⟩
    exact ⟨'\\' :: before, after, rfl, (odd_endingBackslashes_pair before).mpr hodd⟩

theorem exposed_special (h : isSpecial d = true) (t : Text) :
    Exposed c ('\\' :: d :: t) ↔ c = d ∨ Exposed c t := by
  have hd : d ≠ '\\' := ne_backslash_of_isSpecial h
  rw [exposed_cons]
  constructor
  · rintro ⟨hc, _ | ⟨x, before⟩, after, ht, hodd⟩
    · exact .inl (List.cons_eq_cons.mp ht).1.symm
    · obtain ⟨rfl, rfl⟩ := List.cons_eq_cons.mp ht
      rw [endingBackslashes_cons_of_mem List.mem_cons_self hd,
        endingBackslashes_cons_other hd] at hodd
      exact .inr ⟨hc, before, after, rfl, hodd⟩
  · rintro (rfl | ⟨hc, before, after, rfl, hodd⟩)
    · exact ⟨h, [], t, rfl, by decide⟩
    · refine ⟨hc, d :: before, after, rfl, ?_⟩
      rwa [endingBackslashes_cons_of_mem List.mem_cons_self hd, endingBackslashes_cons_other hd]

end Runs

theorem markup_mem_display_escape (c : Char) (t : Text) :
    .markup c ∈ display (escape t) ↔ Exposed c t := by
  induction t using backslashInduction with
  | nil => simp [display, Exposed]
  | other d t hd ih =>
    rw [display_escape_other hd, exposed_other hd, ← ih]
    simp
  | lone t ht ih =>
    rw [display_escape_lone ht, exposed_lone ht, ← ih]
    simp
  | pair t ih =>
    rw [display_escape_pair, exposed_pair, ← ih]
    simp
  | special d t hd ih =>
    rw [display_escape_special hd, exposed_special hd, ← ih]
    simp

theorem display_escape_eq_shown (t : Text) :
    display (escape t) = t.map .shown ↔ ∀ c, isEscapable c = true → ¬ ['\\', c] <:+: t := by
  induction t using backslashInduction with
  | nil => simp [display]
  | other d t hd ih =>
    rw [display_escape_other hd, List.map_cons, List.cons.injEq, eq_self, true_and, ih]
    simp [List.infix_cons_iff, hd.symm]
  | lone t ht ih =>
    have hhead : ∀ c, isEscapable c = true → ¬ [c] <+: t := by
      rintro c hc ⟨rest, rfl⟩
      rw [ht c rfl] at hc
      cases hc
    rw [display_escape_lone ht, List.map_cons, List.cons.injEq, eq_self, true_and, ih]
    refine forall₂_congr fun c hc => ?_
    simp [List.infix_cons_iff, hhead c hc]
  | pair t ih =>
    have hlength := length_display_escape_le t
    rw [display_escape_pair]
    refine iff_of_false (fun h => ?_) fun h => h '\\' rfl (List.infix_append [] _ t)
    have hlengths := congrArg List.length h
    simp only [List.map_cons, List.length_cons, List.length_map] at hlengths
    omega
  | special d t hd ih =>
    rw [display_escape_special hd]
    refine iff_of_false (fun h => ?_) fun h => ?_
    · simp at h
    · exact h d (by simp [isEscapable, hd]) (List.infix_append [] _ t)

/-- A text is displayed verbatim, with no markup in it, just if no backslash of it stands before
another one or before a special character. Of two backslashes next to each other one is lost, and a
special character is markup where an odd number of backslashes stands before it. -/
theorem display_escape (t : Text) :
    (display (escape t) = t.map .shown ↔ ∀ c, isEscapable c = true → ¬ ['\\', c] <:+: t) ∧
    ((display (escape t)).map Sign.char = t ↔ ¬ ['\\', '\\'] <:+: t) ∧
    ∀ c, .markup c ∈ display (escape t) ↔ Exposed c t :=
  ⟨display_escape_eq_shown t, map_char_display_escape t, fun c => markup_mem_display_escape c t⟩

theorem display_escapedStar :
    escape "\\*".toList = "\\\\*".toList ∧
    display (escape "\\*".toList) = [.shown '\\', .markup '*'] ∧
    ¬ display (escape "\\*".toList) = "\\*".toList.map .shown := by
  have hpair : ['\\', '*'] <:+: "\\*".toList := List.infix_rfl
  exact ⟨by decide, by decide, fun h => (display_escape _).1.mp h '*' (by decide) hpair⟩

end DocMarkdown.Markdown
