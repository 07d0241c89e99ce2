import DocMarkdown.Xml.Scan

/-! Start tags. The value of an attribute is kept as cells: what its references stand for is
decided when the tag is delivered. -/

namespace DocMarkdown.Xml

structure RawAttribute where
  name : Text
  nameOffset : Nat
  value : List Cell
  stop : Nat

structure Tag where
  name : Text
  attributes : List RawAttribute
  isEmpty : Bool

/-- Names and numbers hold no quotes, so that no reference goes beyond the value it is in. -/
def Cell.isQuote (c : Cell) (quote : Char) : Bool := c.kind == .other && c.char == quote

def readValue (quote : Char) (done : List Cell) :
    List Cell → Except Halt ((List Cell × Nat) × List Cell)
  | [] => .error .unfinished
  | c :: rest =>
    if c.isQuote quote then .ok ((done.reverse, c.offset), rest)
    else match c.refusal with
      | some halt => .error halt
      | none => do
        if c.char = '<' then throw (.invalid c.offset)
        if c.char = '&' then let _ ← readReference rest
        readValue quote (c :: done) rest

def readQuoted : List Cell → Except Halt ((List Cell × Nat) × List Cell)
  | [] => .error .unfinished
  | c :: rest =>
    if c.char = '"' || c.char = '\'' then readValue c.char [] rest
    else .error (.invalid c.offset)

def expectEquals (cells : List Cell) : Except Halt (List Cell) :=
  match cells with
  | [] => .error .unfinished
  | c :: _ =>
    if c.isBlank || c.char = '=' then expectChar '=' (skipBlanks cells)
    else .error (.beforeName cells)

def readAttribute (cells : List Cell) : Except Halt (RawAttribute × List Cell) := do
  let (name, rest) ← readName cells
  let rest ← expectEquals rest
  let ((value, stop), rest) ← readQuoted (skipBlanks rest)
  return (⟨name, offsetOf 0 cells, value, stop⟩, rest)

def tagEndOr (next : Cell → List Cell → Except Halt ((List RawAttribute × Bool) × List Cell)) :
    List Cell → Except Halt ((List RawAttribute × Bool) × List Cell)
  | [] => .error .unfinished
  | c :: rest =>
    if c.char = '>' then .ok (([], false), rest)
    else if c.char = '/' then (expectChar '>' rest).map (([], true), ·)
    else next c rest

/-- Reads on after a name or a value. Each turn takes an attribute, so that `fuel` turns are
enough for a tag of that many cells. -/
def readTagRest (halt : List Cell → Halt) :
    Nat → List Cell → Except Halt ((List RawAttribute × Bool) × List Cell)
  | 0, _ => .error .unfinished
  | fuel + 1, cells => tagEndOr (fun c rest =>
      if c.isBlank then
        tagEndOr (fun d rest => do
          let (first, rest) ← readAttribute (d :: rest)
          let ((others, isEmpty), rest) ← readTagRest .before fuel rest
          return ((first :: others, isEmpty), rest)) (skipBlanks rest)
      else .error (halt (c :: rest))) cells

def readTag (cells : List Cell) : Except Halt (Tag × List Cell) := do
  let (name, rest) ← readName cells
  let ((attributes, isEmpty), rest) ← readTagRest .beforeName (rest.length + 1) rest
  return (⟨name, attributes, isEmpty⟩, rest)

def readEndTag (cells : List Cell) : Except Halt (Text × List Cell) := do
  let (name, rest) ← readName cells
  match rest with
  | [] => throw .unfinished
  | c :: _ =>
    if c.isBlank || c.char = '>' then return (name, ← expectChar '>' (skipBlanks rest))
    else throw (.beforeName rest)

end DocMarkdown.Xml
