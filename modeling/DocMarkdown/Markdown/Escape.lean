import DocMarkdown.Text.Blank

/-! Escaping of literal text: a backslash is put before each of the seven characters
that the renderer would read as markup, and nothing else changes. -/

namespace DocMarkdown.Markdown

def isSpecial (c : Char) : Bool := "-_*+`.#".toList.contains c

def escapeChar (c : Char) : Text := if isSpecial c then ['\\', c] else [c]

def escape (t : Text) : Text := t.flatMap escapeChar

@[simp] theorem escape_nil : escape [] = [] := rfl

theorem escape_cons (c : Char) (t : Text) : escape (c :: t) = escapeChar c ++ escape t := by
  simp [escape]

@[simp] theorem escape_append (t u : Text) : escape (t ++ u) = escape t ++ escape u := by
  simp [escape]

theorem isBlank_of_isSpecial {c : Char} (h : isSpecial c = true) : Text.isBlank c = false := by
  have hmem : c = '-' ∨ c = '_' ∨ c = '*' ∨ c = '+' ∨ c = '`' ∨ c = '.' ∨ c = '#' := by
    simpa [isSpecial] using h
  rcases hmem with rfl | rfl | rfl | rfl | rfl | rfl | rfl <;> decide

theorem escapeChar_of_blank {c : Char} (h : Text.isBlank c = true) : escapeChar c = [c] := by
  apply if_neg
  intro hspecial
  rw [isBlank_of_isSpecial hspecial] at h
  cases h

theorem escape_of_allBlank {t : Text} (h : t.allBlank = true) : escape t = t := by
  induction t with
  | nil => rfl
  | cons c t ih =>
    simp only [Text.allBlank, List.all_cons, Bool.and_eq_true] at h
    rw [escape_cons, escapeChar_of_blank h.1, ih h.2]
    rfl

theorem mem_escape {c : Char} {t : Text} (h : c ∈ t) : c ∈ escape t := by
  rw [escape, List.mem_flatMap]
  refine ⟨c, h, ?_⟩
  unfold escapeChar
  split <;> simp

end DocMarkdown.Markdown
