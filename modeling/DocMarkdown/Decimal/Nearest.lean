import DocMarkdown.Text.Integer

/-! Reading decimal numbers as binary ones of 53 digits. The exact value is a fraction,
rounded once to the nearest binary number, a tie to the even neighbour. -/

namespace DocMarkdown.Decimal

def roundDiv (num den : Nat) : Nat :=
  let n := num / den
  let twice := 2 * (num % den)
  if twice < den then n
  else if den < twice then n + 1
  else n + n % 2

def binaryExponent (num den : Nat) : Int :=
  let guess : Int := (num.log2 : Int) - den.log2 - 52
  let tooLarge := if guess < 0 then num * Nat.pow 2 (-guess).toNat < Nat.pow 2 52 * den
    else num < Nat.pow 2 52 * den * Nat.pow 2 guess.toNat
  max (if tooLarge then guess - 1 else guess) (-1074)

def infinityBits : Nat := 0x7ff * Nat.pow 2 52

def nearestBits (num den : Nat) : Nat :=
  let q := binaryExponent num den
  let significand :=
    if q < 0 then roundDiv (num * Nat.pow 2 (-q).toNat) den
    else roundDiv num (den * Nat.pow 2 q.toNat)
  min infinityBits ((q + 1074).toNat * Nat.pow 2 52 + significand)

def nearest (m : Nat) (e : Int) : Float :=
  let magnitude := (Text.ofNat m).length + e
  let bits :=
    if m = 0 || magnitude < -330 then 0
    else if 310 < magnitude then infinityBits
    else if e < 0 then nearestBits m (Nat.pow 10 (-e).toNat)
    else nearestBits (m * Nat.pow 10 e.toNat) 1
  .ofBits bits.toUInt64

example : nearestBits 1 1 = 0x3ff0000000000000 := by decide
example : nearestBits 1 10 = 0x3fb999999999999a := by decide
example : nearestBits 1 (Nat.pow 2 1074) = 1 := by decide +kernel

def digits? (t : Text) : Option Nat :=
  if !t.isEmpty && t.all Char.isDigit then some (Text.decimal (t.map fun c => c.toNat - '0'.toNat))
  else none

def exponent? : Text → Option Int
  | '-' :: t => (digits? t).map fun n => -(n : Int)
  | '+' :: t => (digits? t).map Int.ofNat
  | t => (digits? t).map Int.ofNat

def readUnsigned (t : Text) : Option Float :=
  if t = "inf".toList then some (.ofBits infinityBits.toUInt64)
  else if t = "nan".toList then some (.ofBits 0x7ff8000000000000)
  else
    let isMark := fun c => c == 'e' || c == 'E'
    let body := t.takeWhile fun c => !isMark c
    let whole := body.takeWhile (· != '.')
    let fraction := (body.dropWhile (· != '.')).drop 1
    do
      let e ← match t.dropWhile fun c => !isMark c with
        | [] => some 0
        | _ :: e => exponent? e
      let m ← digits? (whole ++ fraction)
      some (nearest m (e - fraction.length))

def read (t : Text) : Option Float :=
  match t with
  | '-' :: t => (readUnsigned t).map fun x => -x
  | '+' :: t => readUnsigned t
  | t => readUnsigned t

end DocMarkdown.Decimal
