import DocMarkdown.Proofs.Markdown.Display

/-! Escaping loses nothing. The backslashes that it puts in are told from those of the text by what
stands behind them, since an escaped text never begins with a special character: they are the ones
directly before the special characters. Taken out, they leave the text. The escaped texts are those
in which every special character has such a backslash. -/

namespace DocMarkdown.Markdown

def beginsSpecial (t : Text) : Bool := t.head?.any isSpecial

/-- Takes out every backslash that stands directly before a special character. -/
def unescape : Text → Text
  | [] => []
  | c :: t => if c = '\\' ∧ beginsSpecial t then unescape t else c :: unescape t

def Marked (t : Text) : Prop :=
  ∀ before c after, t = before ++ c :: after → isSpecial c = true → before.getLast? = some '\\'

section Unescaping
variable {c : Char} {t u : Text}

theorem unescape_other (h : c ≠ '\\') (t : Text) : unescape (c :: t) = c :: unescape t := by
  rw [unescape, if_neg fun hc => h hc.1]

theorem unescape_backslash (h : beginsSpecial t = false) :
    unescape ('\\' :: t) = '\\' :: unescape t := by
  rw [unescape, if_neg (by simp [h])]

theorem unescape_special (h : isSpecial c = true) (t : Text) :
    unescape ('\\' :: c :: t) = c :: unescape t := by
  have hbegins : beginsSpecial (c :: t) = true := h
  rw [unescape, if_pos ⟨rfl, hbegins⟩, unescape_other (ne_backslash_of_isSpecial h)]

theorem escape_special (h : isSpecial c = true) (t : Text) :
    escape (c :: t) = '\\' :: c :: escape t := by
  rw [escape_cons, escapeChar, if_pos h]
  rfl

theorem escape_other (h : isSpecial c = false) (t : Text) : escape (c :: t) = c :: escape t := by
  rw [escape_cons, escapeChar, if_neg (by simp [h])]
  rfl

theorem beginsSpecial_escape (t : Text) : beginsSpecial (escape t) = false := by
  cases t with
  | nil => rfl
  | cons c t =>
    cases hc : isSpecial c with
    | true =>
      rw [escape_special hc]
      exact isSpecial_backslash
    | false =>
      rw [escape_other hc]
      exact hc

theorem unescape_escape (t : Text) : unescape (escape t) = t := by
  induction t with
  | nil => rfl
  | cons c t ih =>
    cases hc : isSpecial c with
    | true => rw [escape_special hc, unescape_special hc, ih]
    | false =>
      rw [escape_other hc]
      by_cases hback : c = '\\'
      · rw [hback, unescape_backslash (beginsSpecial_escape t), ih]
      · rw [unescape_other hback, ih]

end Unescaping

namespace Marked
variable {c : Char} {t u : Text}

theorem append (ht : Marked t) (hu : Marked u) : Marked (t ++ u) := by
  intro before c after heq hc
  rcases List.append_eq_append_iff.mp heq with ⟨rest, rfl, hrest⟩ | ⟨rest, rfl, hrest⟩
  · have hlast := hu rest c after hrest hc
    rw [List.getLast?_append, hlast]
    rfl
  · cases rest with
    | nil =>
      have hlast := hu [] c after hrest.symm hc
      cases hlast
    | cons d rest =>
      obtain ⟨rfl, rfl⟩ := List.cons_eq_cons.mp hrest
      exact ht before _ rest rfl hc

theorem escapeChar (c : Char) : Marked (escapeChar c) := by
  intro before d after heq hd
  cases hc : isSpecial c with
  | true =>
    rw [Markdown.escapeChar, if_pos hc] at heq
    rcases before with _ | ⟨x, _ | ⟨y, before⟩⟩
    · obtain ⟨rfl, -⟩ := List.cons_eq_cons.mp heq
      exact absurd rfl (ne_backslash_of_isSpecial hd)
    · obtain ⟨rfl, -⟩ := List.cons_eq_cons.mp heq
      rfl
    · simp at heq
  | false =>
    rw [Markdown.escapeChar, if_neg (by simp [hc])] at heq
    rcases before with _ | ⟨x, before⟩
    · obtain ⟨rfl, -⟩ := List.cons_eq_cons.mp heq
      rw [hc] at hd
      cases hd
    · simp at heq

theorem escape (t : Text) : Marked (escape t) := by
  induction t with
  | nil =>
    intro before c after heq
    simp at heq
  | cons c t ih =>
    rw [escape_cons]
    exact (escapeChar c).append ih

theorem of_append (h : Marked (t ++ u))
    (hgap : t.getLast? = some '\\' → beginsSpecial u = false) : Marked u := by
  rintro before c after rfl hc
  have hlast := h (t ++ before) c after (List.append_assoc ..).symm hc
  cases before with
  | nil =>
    rw [List.append_nil] at hlast
    have hbegins : beginsSpecial ([] ++ c :: after) = true := hc
    rw [hgap hlast] at hbegins
    cases hbegins
  | cons d before => rwa [List.getLast?_append_of_ne_nil _ (List.cons_ne_nil d before)] at hlast

end Marked

theorem escape_unescape_or_behind (t : Text) :
    (Marked t → escape (unescape t) = t) ∧
    (beginsSpecial t = true → Marked ('\\' :: t) → escape (unescape t) = '\\' :: t) := by
  induction t with
  | nil => exact ⟨fun _ => rfl, nofun⟩
  | cons c t ih =>
    constructor
    · intro h
      have hc : isSpecial c = false := by
        cases hc : isSpecial c with
        | false => rfl
        | true => cases h [] c t rfl hc
      by_cases hmark : c = '\\' ∧ beginsSpecial t = true
      · rw [unescape, if_pos hmark, hmark.1]
        exact ih.2 hmark.2 (hmark.1 ▸ h)
      · have ht : Marked t := by
          refine h.of_append (t := [c]) fun hlast => ?_
          have hback : c = '\\' := by simpa using hlast
          exact Bool.of_not_eq_true fun hbegins => hmark ⟨hback, hbegins⟩
        rw [unescape, if_neg hmark, escape_other hc, ih.1 ht]
    · intro hbegins h
      have hc : isSpecial c = true := hbegins
      have hback : c ≠ '\\' := ne_backslash_of_isSpecial hc
      have ht : Marked t := by
        refine h.of_append (t := ['\\', c]) fun hlast => ?_
        exact absurd (by simpa using hlast) hback
      rw [unescape_other hback, escape_special hc, ih.1 ht]

theorem Marked.escape_unescape {t : Text} (h : Marked t) : Markdown.escape (unescape t) = t :=
  (escape_unescape_or_behind t).1 h

/-- Escaping a text in parts is the same as escaping it at once. The backslashes directly before
the special characters, and only these, have been put in, so that the text can be had back and no
two texts are escaped alike. A text is the escape of some text just if a backslash stands directly
before each of its special characters. -/
theorem escape_lossless :
    (∀ t u, escape (t ++ u) = escape t ++ escape u) ∧
    (∀ t, unescape (escape t) = t) ∧ Function.Injective escape ∧
    (∀ t, Marked (escape t)) ∧ ∀ u, (∃ t, escape t = u) ↔ Marked u := by
  refine ⟨escape_append, unescape_escape, ?_, Marked.escape, fun u => ⟨?_, ?_⟩⟩
  · exact Function.LeftInverse.injective unescape_escape
  · rintro ⟨t, rfl⟩
    exact .escape t
  · intro h
    exact ⟨unescape u, h.escape_unescape⟩

example : unescape (escape "\\\\*\\a".toList) = "\\\\*\\a".toList := by decide

end DocMarkdown.Markdown
