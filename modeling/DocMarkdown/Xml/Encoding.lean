import DocMarkdown.Xml.Cell
import DocMarkdown.Xml.CodePage

/-! Encodings: which bytes make which cells, and how a document's first bytes show its
encoding. A byte sequence that is no character becomes a bad cell. -/

namespace DocMarkdown.Xml

inductive Encoding
  | utf8
  | ascii
  | latin1
  | utf16 (bigEndian : Bool)
  | eightBit (page : EightBit)
  deriving DecidableEq

namespace Encoding

def unit : Encoding → Nat
  | .utf16 _ => 2
  | _ => 1

/-- Encodings whose text is handed on without conversion keep a run of characters in one piece. -/
def converts : Encoding → Bool
  | .utf8 | .ascii => false
  | _ => true

def sequenceLength (b : UInt8) : Nat :=
  if b < 0x80 then 1
  else if b < 0xc0 then 0
  else if b < 0xe0 then 2
  else if b < 0xf0 then 3
  else if b < 0xf5 then 4
  else 0

def sequenceChar? (b : UInt8) (more : List UInt8) : Option Char := do
  let (owed, low, high) ← Text.Utf8.opening b
  let second ← more.head?
  guard (low ≤ second && second ≤ high && more.all Text.Utf8.isContinuation)
  return Char.ofNat
    (more.foldl (fun n c => n * 0x40 + c.toNat % 0x40) (Text.Utf8.leadValue b owed))

def sequenceCell (b : UInt8) (more : List UInt8) (offset : Nat) : Cell :=
  match sequenceChar? b more with
  | some c => ⟨c, wideKind c.toNat, true, offset⟩
  | none => .bad true offset

def utf8Cells (offset : Nat) : List UInt8 → List Cell
  | [] => []
  | b :: rest =>
    match sequenceLength b with
    | 0 => .bad false offset :: utf8Cells (offset + 1) rest
    | 1 => ⟨Char.ofNat b.toNat, asciiKind b.toNat, false, offset⟩ :: utf8Cells (offset + 1) rest
    | 2 => match rest with
      | c :: rest => sequenceCell b [c] offset :: utf8Cells (offset + 2) rest
      | _ => [.cut offset]
    | 3 => match rest with
      | c :: d :: rest => sequenceCell b [c, d] offset :: utf8Cells (offset + 3) rest
      | _ => [.cut offset]
    | _ => match rest with
      | c :: d :: e :: rest => sequenceCell b [c, d, e] offset :: utf8Cells (offset + 4) rest
      | _ => [.cut offset]

def codeUnit (bigEndian : Bool) (b c : UInt8) : Nat :=
  if bigEndian then b.toNat * 0x100 + c.toNat else c.toNat * 0x100 + b.toNat

def isHighSurrogate (n : Nat) : Bool := 0xd800 ≤ n && n < 0xdc00

def isLowSurrogate (n : Nat) : Bool := 0xdc00 ≤ n && n < 0xe000

def unitCell (n offset : Nat) : Cell :=
  if isLowSurrogate n then .bad false offset
  else if n < 0x100 then ⟨Char.ofNat n, latinKind n, false, offset⟩
  else ⟨Char.ofNat n, wideKind n, !isNoncharacter n, offset⟩

/-- A high surrogate takes the unit after it, whatever that is. -/
def pairCell (n m offset : Nat) : Cell :=
  ⟨Char.ofNat (0x10000 + n % 0x400 * 0x400 + m % 0x400), .other, true, offset⟩

def utf16Cells (bigEndian : Bool) (offset : Nat) : List UInt8 → List Cell
  | b :: c :: rest =>
    if isHighSurrogate (codeUnit bigEndian b c) then
      match rest with
      | d :: e :: rest =>
        pairCell (codeUnit bigEndian b c) (codeUnit bigEndian d e) offset ::
          utf16Cells bigEndian (offset + 2) rest
      | _ => [.cut offset]
    else unitCell (codeUnit bigEndian b c) offset :: utf16Cells bigEndian (offset + 1) rest
  | _ => []

def byteCells (cell : UInt8 → Nat → Cell) (offset : Nat) : List UInt8 → List Cell
  | [] => []
  | b :: rest => cell b offset :: byteCells cell (offset + 1) rest

def asciiCell (b : UInt8) (offset : Nat) : Cell :=
  if b < 0x80 then ⟨Char.ofNat b.toNat, asciiKind b.toNat, false, offset⟩ else .bad false offset

def latinCell (b : UInt8) (offset : Nat) : Cell :=
  ⟨Char.ofNat b.toNat, latinKind b.toNat, false, offset⟩

def pageCell (escape : Option Char) (upper : Array Char) (b : UInt8) (offset : Nat) : Cell :=
  if b < 0x80 then
    if escape = some (Char.ofNat b.toNat) then .bad false offset else asciiCell b offset
  else match upper[b.toNat - 0x80]? with
    | some c =>
      if c = '\uFFFD' then .bad false offset
      else if c.toNat < 0x80 then ⟨c, asciiKind c.toNat, false, offset⟩
      else ⟨c, wideKind c.toNat, false, offset⟩
    | none => .bad false offset

def cells (e : Encoding) (bytes : List UInt8) : List Cell :=
  match e with
  | .utf8 => utf8Cells 0 bytes
  | .ascii => byteCells asciiCell 0 bytes
  | .latin1 => byteCells latinCell 0 bytes
  | .utf16 bigEndian => utf16Cells bigEndian 0 bytes
  | .eightBit page => byteCells (pageCell page.escape page.upper.toArray) 0 bytes

def ragged (e : Encoding) (bytes : List UInt8) : Bool := bytes.length % e.unit != 0

end Encoding

inductive Opening
  | nothing
  | cutShort
  | plain (e : Encoding)
  | marked (e : Encoding)

def Opening.ofPair (b c : UInt8) : Opening :=
  if b == 0xfe && c == 0xff then .marked (.utf16 true)
  else if b == 0xff && c == 0xfe then .marked (.utf16 false)
  else if b == 0 then .plain (.utf16 true)
  else if c == 0 then .plain (.utf16 false)
  else .plain .utf8

def Opening.read : List UInt8 → Opening
  | [] => .nothing
  | [b] => if b == 0xfe || b == 0xff || b == 0xef || b == 0x00 || b == 0x3c then .cutShort
    else .plain .utf8
  | [b, c] => if b == 0xef && c == 0xbb then .cutShort else .ofPair b c
  | b :: c :: d :: _ =>
    if b == 0xef && c == 0xbb && d == 0xbf then .marked .utf8 else .ofPair b c

end DocMarkdown.Xml
