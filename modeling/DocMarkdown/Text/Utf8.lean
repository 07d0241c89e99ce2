import DocMarkdown.Text.Integer

/-! The UTF-8 form of text. `decode?` is strict and names the first flaw;
`decodeLossy` puts U+FFFD for every flaw, a cut sequence counting once. -/

namespace DocMarkdown.Text.Utf8

inductive Cause
  | badStart
  | badContinuation
  | cutShort
  deriving DecidableEq

structure Flaw where
  cause : Cause
  first : UInt8
  offset : Nat
  length : Nat
  deriving DecidableEq

def Cause.message : Cause → String
  | .badStart => "invalid start byte"
  | .badContinuation => "invalid continuation byte"
  | .cutShort => "unexpected end of data"

def hexDigit (n : Nat) : Char := Nat.digitChar (n % 16)

def hexByte (b : UInt8) : Text := [hexDigit (b.toNat / 16), hexDigit b.toNat]

def Flaw.message (f : Flaw) : Text :=
  let place :=
    if f.length = 1 then
      "byte 0x".toList ++ hexByte f.first ++ " in position ".toList ++ ofNat f.offset
    else
      "bytes in position ".toList ++ ofNat f.offset ++ '-' :: ofNat (f.offset + f.length - 1)
  "'utf-8' codec can't decode ".toList ++ place ++ ": ".toList ++ f.cause.message.toList

/-- For a byte that opens a longer sequence, how many bytes continue it and the bounds of
the first of them. The bounds leave out overlong forms and surrogates. -/
def opening (b : UInt8) : Option (Nat × UInt8 × UInt8) :=
  if 0xc2 ≤ b && b ≤ 0xdf then some (1, 0x80, 0xbf)
  else if b == 0xe0 then some (2, 0xa0, 0xbf)
  else if b == 0xed then some (2, 0x80, 0x9f)
  else if 0xe1 ≤ b && b ≤ 0xef then some (2, 0x80, 0xbf)
  else if b == 0xf0 then some (3, 0x90, 0xbf)
  else if b == 0xf4 then some (3, 0x80, 0x8f)
  else if 0xf1 ≤ b && b ≤ 0xf3 then some (3, 0x80, 0xbf)
  else none

def isContinuation (b : UInt8) : Bool := 0x80 ≤ b && b ≤ 0xbf

structure Open where
  first : UInt8
  value : Nat
  read : Nat
  owed : Nat
  low : UInt8
  high : UInt8

def leadValue (b : UInt8) : Nat → Nat
  | 1 => b.toNat % 0x20
  | 2 => b.toNat % 0x10
  | _ => b.toNat % 0x08

inductive Start
  | single (c : Char)
  | within (s : Open)
  | refused

def start (b : UInt8) : Start :=
  if b < 0x80 then .single (Char.ofNat b.toNat)
  else match opening b with
    | some (owed, low, high) => .within ⟨b, leadValue b owed, 1, owed, low, high⟩
    | none => .refused

def Open.accepts (s : Open) (b : UInt8) : Bool := s.low ≤ b && b ≤ s.high

def Open.next (s : Open) (b : UInt8) : Open :=
  { s with
    value := s.value * 0x40 + b.toNat % 0x40, read := s.read + 1, owed := s.owed - 1
    low := 0x80, high := 0xbf }

/-- What the bytes hold: characters and flaws in order. A byte that breaks a sequence
begins the next item itself. -/
inductive Item
  | char (c : Char)
  | flaw (f : Flaw)

def items (offset : Nat) : Option Open → List UInt8 → List Item
  | none, [] => []
  | some s, [] => [.flaw ⟨.cutShort, s.first, offset - s.read, s.read⟩]
  | none, b :: rest => fresh offset b (items (offset + 1) · rest)
  | some s, b :: rest =>
    if s.accepts b then
      if s.owed = 1 then .char (Char.ofNat (s.next b).value) :: items (offset + 1) none rest
      else items (offset + 1) (some (s.next b)) rest
    else
      .flaw ⟨.badContinuation, s.first, offset - s.read, s.read⟩ ::
        fresh offset b (items (offset + 1) · rest)
where
  fresh (offset : Nat) (b : UInt8) (go : Option Open → List Item) : List Item :=
    match start b with
    | .single c => .char c :: go none
    | .within s => go (some s)
    | .refused => .flaw ⟨.badStart, b, offset, 1⟩ :: go none

def collect : List Item → Except Flaw Text
  | [] => .ok []
  | .char c :: rest => (collect rest).map (c :: ·)
  | .flaw f :: _ => .error f

def decode? (bytes : List UInt8) : Except Flaw Text := collect (items 0 none bytes)

def Item.shown : Item → Char
  | .char c => c
  | .flaw _ => '\uFFFD'

def decodeLossy (bytes : List UInt8) : Text := (items 0 none bytes).map Item.shown

def encodeChar (c : Char) : List UInt8 :=
  let n := c.toNat
  if n < 0x80 then [n.toUInt8]
  else if n < 0x800 then [(0xc0 + n / 0x40).toUInt8, (0x80 + n % 0x40).toUInt8]
  else if n < 0x10000 then
    [(0xe0 + n / 0x1000).toUInt8, (0x80 + n / 0x40 % 0x40).toUInt8, (0x80 + n % 0x40).toUInt8]
  else
    [(0xf0 + n / 0x40000).toUInt8, (0x80 + n / 0x1000 % 0x40).toUInt8,
      (0x80 + n / 0x40 % 0x40).toUInt8, (0x80 + n % 0x40).toUInt8]

def encode (t : Text) : List UInt8 := t.flatMap encodeChar

def width (c : Char) : Nat := (encodeChar c).length

example : decode? [0x61, 0xff] = .error ⟨.badStart, 0xff, 1, 1⟩ := by rfl
example : decode? (encode "é日😀".toList) = .ok "é日😀".toList := by rfl
example : decodeLossy [0xe2, 0x82, 0x41, 0xf0, 0x9f] = "\uFFFDA\uFFFD".toList := by decide

end DocMarkdown.Text.Utf8
