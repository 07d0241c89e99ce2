/-! Running text is a list of characters. This module holds the blank characters
and trimming: a trimmed text neither begins nor ends with a blank. -/

namespace DocMarkdown

abbrev Text := List Char

namespace Text

def isBlank (c : Char) : Bool :=
  let n := c.toNat
  (9 ≤ n && n ≤ 13) || (0x1c ≤ n && n ≤ 0x20) || n == 0x85 || n == 0xa0 || n == 0x1680 ||
    (0x2000 ≤ n && n ≤ 0x200a) || n == 0x2028 || n == 0x2029 || n == 0x202f || n == 0x205f ||
    n == 0x3000

def dropEnd (p : Char → Bool) (t : Text) : Text := (t.reverse.dropWhile p).reverse

def trim (t : Text) : Text := dropEnd isBlank (t.dropWhile isBlank)

def allBlank (t : Text) : Bool := t.all isBlank

theorem dropEnd_append_of_all {p : Char → Bool} (t : Text) {u : Text} (h : u.all p = true) :
    dropEnd p (t ++ u) = dropEnd p t := by
  have hd : ∀ l : Text, l.all p = true → ∀ m : Text, (l ++ m).dropWhile p = m.dropWhile p := by
    intro l hl m
    induction l with
    | nil => rfl
    | cons c l ih =>
      simp only [List.all_cons, Bool.and_eq_true] at hl
      simp [hl.1, ih hl.2]
  simp [dropEnd, List.reverse_append, hd u.reverse (by simpa using h)]

end Text
end DocMarkdown
