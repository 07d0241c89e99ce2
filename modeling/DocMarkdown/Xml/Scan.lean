import DocMarkdown.Xml.Cell

/-! Reading single constructs from a list of cells: names, references, comments, processing
instructions. A construct that cannot be read halts at the first cell that does not fit, or
says that the text ends within it. -/

namespace DocMarkdown.Xml

inductive Halt
  | invalid (offset : Nat)
  | unfinished
  | cutCharacter
  deriving DecidableEq

def Halt.before : List Cell → Halt
  | [] => .unfinished
  | c :: _ => .invalid c.offset

def Halt.beforeName : List Cell → Halt
  | [] => .unfinished
  | c :: _ => if c.kind = .cut then .cutCharacter else .invalid c.offset

def Cell.refusal (c : Cell) : Option Halt :=
  match c.kind with
  | .bad => some (.invalid c.offset)
  | .cut => some .cutCharacter
  | _ => none

def skipBlanks (cells : List Cell) : List Cell := cells.dropWhile Cell.isBlank

def expectChar (x : Char) : List Cell → Except Halt (List Cell)
  | [] => .error .unfinished
  | c :: rest => if c.char = x then .ok rest else .error (.invalid c.offset)

def expectWord : Text → List Cell → Except Halt (List Cell)
  | [], cells => .ok cells
  | x :: word, cells => do expectWord word (← expectChar x cells)

def readName (cells : List Cell) : Except Halt (Text × List Cell) :=
  match cells with
  | c :: _ =>
    if c.kind = .letter then
      .ok (chars (cells.takeWhile Cell.isName), cells.dropWhile Cell.isName)
    else .error (.beforeName cells)
  | [] => .error .unfinished

inductive Reference
  | entity (name : Text)
  | character (c : Option Char)
  deriving DecidableEq

def digitCode (c : Char) : Nat :=
  if c.isDigit then c.toNat - '0'.toNat
  else if 'a' ≤ c then c.toNat - 'a'.toNat + 10
  else c.toNat - 'A'.toNat + 10

def readNumber (base : Nat) (isDigit : Cell → Bool) (cells : List Cell) :
    Except Halt (Reference × List Cell) := do
  let digits := cells.takeWhile isDigit
  if digits.isEmpty then throw (.before cells)
  let code := digits.foldl (fun n c => base * n + digitCode c.char) 0
  let rest ← expectChar ';' (cells.dropWhile isDigit)
  return (.character (numberedChar code), rest)

def readReference : List Cell → Except Halt (Reference × List Cell)
  | [] => .error .unfinished
  | c :: rest =>
    if c.char = '#' then
      match rest with
      | [] => .error .unfinished
      | d :: rest' =>
        if d.char = 'x' then readNumber 16 Cell.isHexDigit rest'
        else readNumber 10 Cell.isDigit rest
    else do
      let (name, rest) ← readName (c :: rest)
      match rest with
      | d :: rest' =>
        if d.char = ';' then return (.entity name, rest') else throw (.beforeName rest)
      | [] => throw .unfinished

def commentEnd : List Cell → Except Halt (List Cell)
  | [] => .error .unfinished
  | c :: rest =>
    match c.refusal with
    | some halt => .error halt
    | none =>
      if c.char = '-' then
        match rest with
        | [] => .error .unfinished
        | d :: rest' => if d.char = '-' then expectChar '>' rest' else commentEnd rest
      else commentEnd rest

def readComment (cells : List Cell) : Except Halt (List Cell) := do
  commentEnd (← expectChar '-' cells)

structure Instruction where
  target : Text
  body : List Cell
  endOffset : Nat

def Instruction.isDeclaration (i : Instruction) : Bool := i.target == "xml".toList

def instructionBody (done : List Cell) :
    List Cell → Except Halt ((List Cell × Nat) × List Cell)
  | [] => .error .unfinished
  | c :: rest =>
    match c.refusal with
    | some halt => .error halt
    | none =>
      if c.char = '?' then
        match rest with
        | [] => .error .unfinished
        | d :: rest' =>
          if d.char = '>' then .ok ((done.reverse, c.offset), rest')
          else instructionBody (c :: done) rest
      else instructionBody (c :: done) rest

/-- The target may be spelled like that of the declaration in small letters only. -/
def isReservedTarget (target : Text) : Bool :=
  target != "xml".toList && target.map Char.toLower == "xml".toList

def readInstruction (cells : List Cell) : Except Halt (Instruction × List Cell) := do
  let (target, rest) ← readName cells
  match rest with
  | [] => throw .unfinished
  | c :: rest' =>
    if c.isBlank then
      if isReservedTarget target then throw (.invalid c.offset)
      let ((body, endOffset), rest) ← instructionBody [c] rest'
      return (⟨target, body, endOffset⟩, rest)
    else if c.char = '?' then
      if isReservedTarget target then throw (.invalid c.offset)
      return (⟨target, [], c.offset⟩, ← expectChar '>' rest')
    else throw (.beforeName rest)

end DocMarkdown.Xml
