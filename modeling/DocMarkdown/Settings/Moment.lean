import DocMarkdown.Text.Integer

/-! Calendar dates and times of day, and how they are written. -/

namespace DocMarkdown.Settings

structure Date where
  year : Nat
  month : Nat
  day : Nat
  deriving DecidableEq

structure Time where
  hour : Nat
  minute : Nat
  second : Nat
  microsecond : Nat
  deriving DecidableEq

def padded (width n : Nat) : Text :=
  let digits := Text.ofNat n
  List.replicate (width - digits.length) '0' ++ digits

namespace Date

def isLeap (year : Nat) : Bool := year % 4 == 0 && (year % 100 != 0 || year % 400 == 0)

def daysIn (year month : Nat) : Nat :=
  if month = 2 then if isLeap year then 29 else 28
  else if month ∈ [4, 6, 9, 11] then 30 else 31

def isValid (d : Date) : Bool :=
  1 ≤ d.year && 1 ≤ d.month && d.month ≤ 12 && 1 ≤ d.day && d.day ≤ daysIn d.year d.month

def shown (d : Date) : Text := padded 4 d.year ++ '-' :: padded 2 d.month ++ '-' :: padded 2 d.day

end Date

def Time.shown (t : Time) : Text :=
  padded 2 t.hour ++ ':' :: padded 2 t.minute ++ ':' :: padded 2 t.second ++
    if t.microsecond = 0 then [] else '.' :: padded 6 t.microsecond

def offsetShown (minutes : Int) : Text :=
  (if minutes < 0 then '-' else '+') ::
    padded 2 (minutes.natAbs / 60) ++ ':' :: padded 2 (minutes.natAbs % 60)

def datetimeShown (d : Date) (t : Time) (offset : Option Int) : Text :=
  d.shown ++ ' ' :: t.shown ++ (offset.map offsetShown).getD []

example : datetimeShown ⟨1979, 5, 27⟩ ⟨7, 32, 0, 1000⟩ (some (-420)) =
    "1979-05-27 07:32:00.001000-07:00".toList := by decide
example : (⟨1900, 2, 29⟩ : Date).isValid = false := by decide

end DocMarkdown.Settings
