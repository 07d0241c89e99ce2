import DocMarkdown.Decimal.Nearest
import DocMarkdown.Settings.Value
import DocMarkdown.Toml.Scan

/-! Numbers, dates and times of a settings file. Each reader takes the longest beginning that
has its form; what follows is for the caller to refuse. -/

namespace DocMarkdown.Toml
open Settings

def moreDigits (isDigit : Char → Bool) : Text → Text × Text
  | [] => ([], [])
  | c :: rest =>
    if isDigit c then
      let (digits, rest) := moreDigits isDigit rest
      (c :: digits, rest)
    else match c, rest with
      | '_', d :: after =>
        if isDigit d then
          let (digits, after) := moreDigits isDigit after
          (d :: digits, after)
        else ([], c :: rest)
      | _, _ => ([], c :: rest)

def readDigits (isDigit : Char → Bool) : Text → Option (Text × Text)
  | [] => none
  | c :: rest =>
    if isDigit c then
      let (digits, rest) := moreDigits isDigit rest
      some (c :: digits, rest)
    else none

def readSign : Text → Bool × Text
  | '-' :: t => (true, t)
  | '+' :: t => (false, t)
  | t => (false, t)

def readWhole : Text → Option (Text × Text)
  | '0' :: rest => some (['0'], rest)
  | t => readDigits Char.isDigit t

def readFraction : Text → Option (Text × Text)
  | '.' :: rest => readDigits Char.isDigit rest
  | _ => none

def readExponent : Text → Option (Int × Text)
  | 'e' :: rest | 'E' :: rest =>
    let (negative, rest) := readSign rest
    (readDigits Char.isDigit rest).map fun (digits, rest) =>
      let n : Int := inBase 10 digits
      (if negative then -n else n, rest)
  | _ => none

def signed (negative : Bool) (n : Nat) : Int := if negative then -n else n

def integerOf (negative : Bool) (digits : Text) : Except Fault Value :=
  if Text.digitLimit < digits.length then .error (.longNumber digits.length)
  else .ok (.integer (signed negative (inBase 10 digits)))

def floatOf (negative : Bool) (whole fraction : Text) (exponent : Int) : Value :=
  let x := Decimal.nearest (inBase 10 (whole ++ fraction)) (exponent - fraction.length)
  .float (if negative then -x else x)

def readDecimal (t : Text) : Option (Except Fault (Value × Text)) := do
  let (negative, rest) := readSign t
  let (whole, rest) ← readWhole rest
  match readFraction rest, readExponent rest with
  | some (fraction, rest), _ =>
    let (exponent, rest) := (readExponent rest).getD (0, rest)
    return .ok (floatOf negative whole fraction exponent, rest)
  | none, some (exponent, rest) => return .ok (floatOf negative whole [] exponent, rest)
  | none, none => return (integerOf negative whole).map (·, rest)

/-- A number in base sixteen, two or eight has no sign and no limit on its digits. -/
def readBased (t : Text) : Option (Value × Text) :=
  let number := fun (base : Nat) (isDigit : Char → Bool) (t : Text) =>
    (readDigits isDigit t).map fun (digits, rest) => (Value.integer (inBase base digits), rest)
  match t with
  | '0' :: 'x' :: rest => number 16 isHexDigit rest
  | '0' :: 'b' :: rest => number 2 (fun c => c == '0' || c == '1') rest
  | '0' :: 'o' :: rest => number 8 (fun c => '0' ≤ c && c ≤ '7') rest
  | _ => none

def readNamed (t : Text) : Option (Value × Text) :=
  let (negative, rest) := readSign t
  match rest with
  | 'i' :: 'n' :: 'f' :: rest =>
    let x := Float.ofBits Decimal.infinityBits.toUInt64
    some (.float (if negative then -x else x), rest)
  | 'n' :: 'a' :: 'n' :: rest => some (.float (.ofBits 0x7ff8000000000000), rest)
  | _ => none

def readPair (low high : Nat) : Text → Option (Nat × Text)
  | a :: b :: rest =>
    let n := inBase 10 [a, b]
    if a.isDigit && b.isDigit && low ≤ n && n ≤ high then some (n, rest) else none
  | _ => none

def expect (c : Char) : Text → Option Text
  | d :: rest => if d = c then some rest else none
  | [] => none

def readDate (t : Text) : Option (Date × Text) := do
  let year := t.take 4
  guard (year.length = 4 && year.all Char.isDigit)
  let rest ← expect '-' (t.drop 4)
  let (month, rest) ← readPair 1 12 rest
  let rest ← expect '-' rest
  let (day, rest) ← readPair 1 31 rest
  return (⟨inBase 10 year, month, day⟩, rest)

def readMicroseconds : Text → Nat × Text
  | '.' :: rest =>
    let digits := rest.takeWhile Char.isDigit
    if digits.isEmpty then (0, '.' :: rest)
    else
      let six := digits.take 6
      (inBase 10 (six ++ List.replicate (6 - six.length) '0'), rest.dropWhile Char.isDigit)
  | t => (0, t)

def readTime (t : Text) : Option (Time × Text) := do
  let (hour, rest) ← readPair 0 23 t
  let rest ← expect ':' rest
  let (minute, rest) ← readPair 0 59 rest
  let rest ← expect ':' rest
  let (second, rest) ← readPair 0 59 rest
  let (microsecond, rest) := readMicroseconds rest
  return (⟨hour, minute, second, microsecond⟩, rest)

def readOffset : Text → Option Int × Text
  | 'Z' :: rest | 'z' :: rest => (some 0, rest)
  | t =>
    let minutes := do
      guard (t.head? = some '+' || t.head? = some '-')
      let (negative, rest) := readSign t
      let (hours, rest) ← readPair 0 23 rest
      let rest ← expect ':' rest
      let (minutes, rest) ← readPair 0 59 rest
      return (signed negative (60 * hours + minutes), rest)
    match minutes with
    | some (n, rest) => (some n, rest)
    | none => (none, t)

def readMoment (t : Text) : Option (Except Fault (Value × Text)) := do
  let (date, rest) ← readDate t
  let time := match rest with
    | c :: rest => if c == 'T' || c == 't' || c == ' ' then readTime rest else none
    | [] => none
  if !date.isValid then return .error .invalid
  match time with
  | some (time, rest) =>
    let (offset, rest) := readOffset rest
    return .ok (.datetime date time offset, rest)
  | none => return .ok (.date date, rest)

def readNumber (t : Text) : Except Fault (Value × Text) :=
  match readMoment t with
  | some result => result
  | none =>
    match readTime t with
    | some (time, rest) => .ok (.time time, rest)
    | none =>
      match readBased t with
      | some result => .ok result
      | none =>
        match readDecimal t with
        | some result => result
        | none =>
          match readNamed t with
          | some result => .ok result
          | none => .error .invalid

end DocMarkdown.Toml
