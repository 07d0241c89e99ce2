import DocMarkdown.Xml.Encoding
import DocMarkdown.Xml.Fault

/-! The XML declaration that may begin a document: a version, an encoding and whether the
document stands alone. What does not fit is named by its place. -/

namespace DocMarkdown.Xml

structure Setting where
  name : Text
  nameOffset : Nat
  value : Text
  valueOffset : Nat

structure Header where
  encoding : Option (Text × Nat) := none
  standalone : Bool := false

def isAscii (c : Cell) : Bool := c.char.toNat < 0x80

def isValueChar (c : Cell) : Bool :=
  isAscii c && (c.char.isAlphanum || c.char = '.' || c.char = '-' || c.char = '_')

def readSetting (endOffset : Nat) (cells : List Cell) : Except Nat (Option Setting × List Cell) :=
  match cells with
  | [] => .ok (none, [])
  | c :: _ =>
    if !c.isBlank then .error c.offset
    else match skipBlanks cells with
      | [] => .ok (none, [])
      | d :: rest' => do
        let rest := d :: rest'
        let isName := fun c : Cell => isAscii c && !c.isBlank && c.char != '='
        let name := chars (rest.takeWhile isName)
        let value ← equals name (rest.dropWhile isName)
        match skipBlanks value with
        | [] => throw endOffset
        | q :: value =>
          if q.char ≠ '"' && q.char ≠ '\'' then throw q.offset
          let text := value.takeWhile isValueChar
          match value.dropWhile isValueChar with
          | [] => throw endOffset
          | e :: after =>
            if e.char ≠ q.char then throw e.offset
            let start := (value.head?.map Cell.offset).getD endOffset
            return (some ⟨name, d.offset, chars text, start⟩, after)
where
  equals (name : Text) (cells : List Cell) : Except Nat (List Cell) :=
    match cells with
    | [] => .error endOffset
    | c :: _ =>
      if name.isEmpty || !isAscii c then .error c.offset
      else match skipBlanks cells with
        | [] => .error endOffset
        | d :: rest => if d.char = '=' then .ok rest else .error d.offset

def Header.read (body : List Cell) (endOffset : Nat) : Except Nat Header := do
  let (first, rest) ← readSetting endOffset body
  match first with
  | none => throw ((body.head?.map Cell.offset).getD endOffset)
  | some s =>
    if s.name ≠ "version".toList then throw s.nameOffset
    let (second, rest) ← readSetting endOffset rest
    match second with
    | none => return {}
    | some s =>
      if s.name = "encoding".toList then
        if !(s.value.head?.any Char.isAlpha) then throw s.valueOffset
        let (third, rest) ← readSetting endOffset rest
        match third with
        | none => return { encoding := some (s.value, s.valueOffset) }
        | some t =>
          return { encoding := some (s.value, s.valueOffset), standalone := ← standing t rest }
      else return { standalone := ← standing s rest }
where
  standing (s : Setting) (rest : List Cell) : Except Nat Bool := do
    if s.name ≠ "standalone".toList then throw s.nameOffset
    if s.value ≠ "yes".toList && s.value ≠ "no".toList then throw s.valueOffset
    match skipBlanks rest with
    | [] => return s.value = "yes".toList
    | c :: _ => throw c.offset

inductive Choice
  | use (e : Encoding)
  | refused (r : Reason)
  | unusable (why : Misfit)

/-- Encodings known by name. The byte order of a text cannot be declared to be another one. -/
def namedEncoding? (current : Encoding) (name : Text) : Option Encoding :=
  let name := name.map Char.toUpper
  if name = "UTF-16".toList && current.unit = 2 then some current
  else if name = "ISO-8859-1".toList then some .latin1
  else if name = "US-ASCII".toList then some .ascii
  else if name = "UTF-8".toList then some .utf8
  else if name = "UTF-16".toList || name = "UTF-16BE".toList then some (.utf16 true)
  else if name = "UTF-16LE".toList then some (.utf16 false)
  else none

def chooseEncoding (current : Encoding) (name : Text) : Choice :=
  match namedEncoding? current name with
  | some e =>
    if e.unit ≠ current.unit || (e.unit = 2 && e ≠ current) then .refused .incorrectEncoding
    else .use e
  | none =>
    match CharacterSet.ofName name with
    | .eightBit page => .use (.eightBit page)
    | .foreign => .refused .unknownEncoding
    | .unusable why => .unusable why

end DocMarkdown.Xml
