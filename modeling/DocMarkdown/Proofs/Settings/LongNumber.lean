import DocMarkdown.Text.Utf8
import DocMarkdown.Toml.Read

/-! A settings file that is well-formed but cannot be read: its one line gives a key a number with
more digits than are converted. -/

namespace DocMarkdown

theorem Text.Utf8.start_ascii {c : Char} (h : c.toNat < 0x80) :
    start c.toNat.toUInt8 = .single c := by
  have hvalue : c.toNat.toUInt8.toNat = c.toNat := by
    rw [Nat.toUInt8, UInt8.toNat_ofNat']
    omega
  have hsmall : c.toNat.toUInt8 < 0x80 := by
    rw [UInt8.lt_iff_toNat_lt, hvalue]
    exact h
  rw [start, if_pos hsmall, hvalue, Char.ofNat_toNat]

theorem Text.Utf8.items_encode_ascii {t : Text} (h : ∀ c ∈ t, c.toNat < 0x80) (offset : Nat) :
    items offset none (encode t) = t.map .char := by
  induction t generalizing offset with
  | nil => rfl
  | cons c t ih =>
    rw [List.forall_mem_cons] at h
    have hencode : encode (c :: t) = c.toNat.toUInt8 :: encode t := by
      rw [encode, List.flatMap_cons, encodeChar, if_pos h.1]
      rfl
    rw [hencode, items, items.fresh, start_ascii h.1]
    simp only [ih h.2, List.map_cons]

theorem Text.Utf8.collect_map_char (t : Text) : collect (t.map .char) = .ok t := by
  induction t with
  | nil => rfl
  | cons c t ih =>
    rw [List.map_cons, collect, ih]
    rfl

theorem Text.Utf8.decode?_encode_ascii {t : Text} (h : ∀ c ∈ t, c.toNat < 0x80) :
    decode? (encode t) = .ok t := by
  rw [decode?, items_encode_ascii h, collect_map_char]

namespace Toml
open Settings

def onesLine (n : Nat) : Text := "x = ".toList ++ List.replicate n '1'

theorem moreDigits_ones (n : Nat) :
    moreDigits Char.isDigit (List.replicate n '1') = (List.replicate n '1', []) := by
  induction n with
  | zero => rfl
  | succ n ih =>
    rw [List.replicate_succ, moreDigits, if_pos (by decide), ih]
    intro _ _ h
    exact absurd h (by decide)

theorem joinLineEnds_ones (n : Nat) :
    joinLineEnds (List.replicate n '1') = List.replicate n '1' := by
  induction n with
  | zero => rfl
  | succ n ih =>
    rw [List.replicate_succ, joinLineEnds, ih]
    intro _ h
    exact absurd h (by decide)

theorem readNumber_ones (n : Nat) :
    readNumber (List.replicate (n + 5) '1') =
      (integerOf false (List.replicate (n + 5) '1')).map (·, []) := by
  have hmoment : readMoment (List.replicate (n + 5) '1') = none := rfl
  have htime : readTime (List.replicate (n + 5) '1') = none := rfl
  have hsign : readSign (List.replicate (n + 5) '1') = (false, List.replicate (n + 5) '1') := rfl
  have hwhole : readWhole (List.replicate (n + 5) '1') =
      some (List.replicate (n + 5) '1', []) := by
    change readDigits Char.isDigit (List.replicate (n + 5) '1') = _
    rw [List.replicate_succ, readDigits, if_pos (by decide), moreDigits_ones]
  have hdecimal : readDecimal (List.replicate (n + 5) '1') =
      some ((integerOf false (List.replicate (n + 5) '1')).map (·, [])) := by
    rw [readDecimal, hsign]
    simp only [hwhole]
    rfl
  rw [readNumber, hmoment, htime, hdecimal]
  rfl

theorem read_onesLine {n : Nat} (h : Text.digitLimit < n) :
    read (onesLine n) = .error (.longNumber n) := by
  obtain ⟨n, rfl⟩ : ∃ m, n = m + 5 := ⟨n - 5, by rw [Text.digitLimit] at h; omega⟩
  have hnumber : readNumber (List.replicate (n + 5) '1') = .error (.longNumber (n + 5)) := by
    rw [readNumber_ones, integerOf, List.length_replicate, if_pos h]
    rfl
  have hvalue (fuel : Nat) : readValue (fuel + 1) (List.replicate (n + 5) '1') =
      .error (.longNumber (n + 5)) := by
    rw [← hnumber]
    rfl
  have hentry (fuel : Nat) : readEntry (fuel + 2) (onesLine (n + 5)) =
      .error (.longNumber (n + 5)) := by
    have hkey : readKey (onesLine (n + 5)) =
        .ok (["x".toList], '=' :: ' ' :: List.replicate (n + 5) '1') := rfl
    have hblanks : skipBlanks (' ' :: List.replicate (n + 5) '1') =
        List.replicate (n + 5) '1' := rfl
    rw [readEntry, hkey]
    simp only [bind, Except.bind, hblanks, hvalue]
  have hstatement : readStatement (onesLine (n + 5)) {} = .error (.longNumber (n + 5)) := by
    change (readEntry (4 * (List.replicate (n + 5) '1').length + 18 + 2) (onesLine (n + 5)) >>=
      _) = _
    rw [hentry]
    rfl
  have hline : joinLineEnds (onesLine (n + 5)) = onesLine (n + 5) := by
    change "x = ".toList ++ joinLineEnds (List.replicate (n + 5) '1') = _
    rw [joinLineEnds_ones]
    rfl
  have hblanks : skipBlanks (onesLine (n + 5)) = onesLine (n + 5) := rfl
  rw [read, hline]
  simp only [readLines, hblanks, hstatement, bind, Except.bind]

theorem decode?_onesLine (n : Nat) :
    Text.Utf8.decode? (Text.Utf8.encode (onesLine n)) = .ok (onesLine n) := by
  apply Text.Utf8.decode?_encode_ascii
  intro c hc
  rcases List.mem_append.mp hc with hc | hc
  · have hkey : "x = ".toList.all (fun c => decide (c.toNat < 0x80)) = true := rfl
    exact of_decide_eq_true (List.all_eq_true.mp hkey c hc)
  · rw [List.eq_of_mem_replicate hc]
    decide

end Toml
end DocMarkdown
