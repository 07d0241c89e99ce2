import DocMarkdown.Text.Blank

/-! Whole numbers in text: optional white space around, one optional sign, decimal
digits of any script, single underscores between digits. -/

namespace DocMarkdown.Text

def digitZeros : List Nat :=
  [0x30, 0x660, 0x6f0, 0x7c0, 0x966, 0x9e6, 0xa66, 0xae6, 0xb66, 0xbe6, 0xc66, 0xce6, 0xd66,
    0xde6, 0xe50, 0xed0, 0xf20, 0x1040, 0x1090, 0x17e0, 0x1810, 0x1946, 0x19d0, 0x1a80, 0x1a90,
    0x1b50, 0x1bb0, 0x1c40, 0x1c50, 0xa620, 0xa8d0, 0xa900, 0xa9d0, 0xa9f0, 0xaa50, 0xabf0,
    0xff10, 0x104a0, 0x10d30, 0x11066, 0x110f0, 0x11136, 0x111d0, 0x112f0, 0x11450, 0x114d0,
    0x11650, 0x116c0, 0x11730, 0x118e0, 0x11950, 0x11c50, 0x11d50, 0x11da0, 0x16a60, 0x16ac0,
    0x16b50, 0x1d7ce, 0x1d7d8, 0x1d7e2, 0x1d7ec, 0x1d7f6, 0x1e140, 0x1e2f0, 0x1e950, 0x1fbf0]

def digitValue (c : Char) : Option Nat :=
  (digitZeros.find? fun z => z ≤ c.toNat && c.toNat < z + 10).map (c.toNat - ·)

def groupedDigits (afterDigit : Bool) : Text → Option (List Nat)
  | [] => if afterDigit then some [] else none
  | '_' :: rest => if afterDigit then groupedDigits false rest else none
  | c :: rest => do
    let d ← digitValue c
    return d :: (← groupedDigits true rest)

def decimal (digits : List Nat) : Nat := digits.foldl (fun n d => 10 * n + d) 0

def digitLimit : Nat := 4300

def readNatural (t : Text) : Option Nat := do
  let digits ← groupedDigits false t
  guard (digits.length ≤ digitLimit)
  return decimal digits

/-- The separators U+001C to U+001F are blank in running text but not around a number. -/
def isNumberMargin (c : Char) : Bool := isBlank c && !(0x1c ≤ c.toNat && c.toNat ≤ 0x1f)

def readInteger (t : Text) : Option Int :=
  match dropEnd isNumberMargin (t.dropWhile isNumberMargin) with
  | '-' :: rest => (readNatural rest).map fun n => -(n : Int)
  | '+' :: rest => (readNatural rest).map Int.ofNat
  | rest => (readNatural rest).map Int.ofNat

def ofNat (n : Nat) : Text := Nat.toDigits 10 n

def ofInt : Int → Text
  | .ofNat n => ofNat n
  | .negSucc n => '-' :: ofNat (n + 1)

example : readInteger " +1_000\n".toList = some 1000 := by decide
example : readInteger "-٣".toList = some (-3) := by decide
example : readInteger "1__0".toList = none := by decide
example : readInteger "\x1c6".toList = none := by decide

end DocMarkdown.Text
