import DocMarkdown.Decimal.Nearest

/-! The shortest decimal form of a binary number: the fewest digits that read back as the
number, and of those the nearest to it. A positive finite number is `m * 2 ^ q`. -/

namespace DocMarkdown.Decimal

structure Binary where
  m : Nat
  q : Int
  deriving DecidableEq

def Binary.ofBits (bits : Nat) : Binary :=
  let exponent : Nat := bits / Nat.pow 2 52 % Nat.pow 2 11
  let fraction := bits % Nat.pow 2 52
  if exponent = 0 then ⟨fraction, -1074⟩ else ⟨Nat.pow 2 52 + fraction, (exponent : Int) - 1075⟩

/-- Four times a number, as whole units of `2 ^ (q - 2)`, with the ends of the interval of
the reals that are read as this number. Below a power of two the neighbour is half as far. -/
structure Interval where
  low : Nat
  value : Nat
  high : Nat
  closed : Bool

def Binary.interval (b : Binary) : Interval where
  low := 4 * b.m - (if b.m = Nat.pow 2 52 && -1074 < b.q then 1 else 2)
  value := 4 * b.m
  high := 4 * b.m + 2
  closed := b.m % 2 = 0

def Interval.contains (i : Interval) (n den : Nat) : Bool :=
  if i.closed then i.low * den ≤ n && n ≤ i.high * den else i.low * den < n && n < i.high * den

structure Digits where
  d : Nat
  e : Int
  deriving DecidableEq

def scale (two ten : Int) : Nat × Nat :=
  (Nat.pow 2 two.toNat * Nat.pow 10 ten.toNat, Nat.pow 2 (-two).toNat * Nat.pow 10 (-ten).toNat)

def Binary.onGrid (b : Binary) (e : Int) : Option Digits :=
  let i := b.interval
  let (num, den) := scale (2 - b.q) e
  let below := i.value * den / num
  let fits := fun d => i.contains (d * num) den
  let above := below + 1
  let down := i.value * den - below * num
  let up := above * num - i.value * den
  let nearer := if down < up || (down = up && below % 2 = 0) then below else above
  if below * num = i.value * den then some ⟨below, e⟩
  else if fits below && fits above then some ⟨nearer, e⟩
  else if fits below then some ⟨below, e⟩
  else if fits above then some ⟨above, e⟩
  else none

def Binary.magnitude (b : Binary) : Int :=
  if 0 ≤ b.q then (Text.ofNat (b.m * Nat.pow 2 b.q.toNat)).length
  else
    let den := Nat.pow 2 (-b.q).toNat
    if den ≤ b.m then (Text.ofNat (b.m / den)).length
    else
      -- the zeros after the point: the quotient by the number has one digit more
      let inverse := (den - 1) / b.m
      1 - (Text.ofNat inverse).length

/-- From one digit on, the first grid with a number that reads back. Seventeen digits always do. -/
def Binary.shortest (b : Binary) : Digits :=
  let k := b.magnitude
  ((List.range 17).findSome? fun (n : Nat) => b.onGrid (k - 1 - n)).getD ⟨0, 0⟩

def Digits.text (g : Digits) : Text :=
  let digits := Text.dropEnd (· == '0') (Text.ofNat g.d)
  let point := (Text.ofNat g.d).length + g.e
  if -4 < point && point ≤ 16 then
    if point ≤ 0 then "0.".toList ++ List.replicate (-point).toNat '0' ++ digits
    else
      let n := point.toNat
      let whole := digits.take n
      let rest := digits.drop n
      whole ++ List.replicate (n - whole.length) '0' ++ '.' :: if rest.isEmpty then ['0'] else rest
  else
    let e := point - 1
    let size := Text.ofNat e.natAbs
    digits.take 1 ++ (if digits.length ≤ 1 then [] else '.' :: digits.drop 1) ++
      'e' :: (if e < 0 then '-' else '+') :: List.replicate (2 - size.length) '0' ++ size

def textOfBits (bits : Nat) : Text :=
  let negative := Nat.pow 2 63 ≤ bits
  let rest := bits % Nat.pow 2 63
  if infinityBits < rest then "nan".toList
  else
    let body :=
      if rest = infinityBits then "inf".toList
      else if rest = 0 then "0.0".toList
      else (Binary.ofBits rest).shortest.text
    if negative then '-' :: body else body

def text (x : Float) : Text := textOfBits x.toBits.toNat

example : textOfBits 0x3fb999999999999a = "0.1".toList := by decide +kernel
example : textOfBits 0x4341c37937e08000 = "1e+16".toList := by decide +kernel
example : textOfBits 1 = "5e-324".toList := by decide +kernel

end DocMarkdown.Decimal
