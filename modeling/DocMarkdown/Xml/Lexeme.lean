import DocMarkdown.Xml.Fault

/-! The lexemes outside the root element: markup declarations are made of names, literals and
signs. White space between lexemes is dropped. -/

namespace DocMarkdown.Xml

/-- A `name` or a closing parenthesis may carry a sign of repetition. `root` stands where the
root element begins, of which nothing is read here. -/
inductive Lexeme
  | instruction (i : Instruction)
  | comment
  | opening (keyword : Text)
  | sectionStart
  | sectionEnd
  | openBracket
  | closeBracket
  | openParen
  | closeParen (repeated : Option Char)
  | comma
  | bar
  | close
  | percent
  | parameterReference
  | literal (cells : List Cell)
  | name (n : Text) (repeated : Option Char)
  | nameToken (n : Text)
  | reserved (n : Text)
  | root

def isRepetition (c : Char) : Bool := c == '?' || c == '*' || c == '+'

def endsWith (signs : String) (cells : List Cell) : Bool :=
  match cells with
  | [] => true
  | c :: _ => c.isBlank || signs.toList.contains c.char

def literalEnd (quote : Char) (done : List Cell) :
    List Cell → Except Halt (List Cell × List Cell)
  | [] => .error .unfinished
  | c :: rest =>
    match c.refusal with
    | some halt => .error halt
    | none =>
      if c.char = quote then .ok (done.reverse, rest) else literalEnd quote (c :: done) rest

def readLiteral (quote : Char) (cells : List Cell) : Except Halt (Lexeme × List Cell) := do
  let (value, rest) ← literalEnd quote [] cells
  if endsWith ">%[" rest then return (.literal value, rest) else throw (.before rest)

def readReserved (cells : List Cell) : Except Halt (Lexeme × List Cell) := do
  let (n, rest) ← readName cells
  if endsWith ")>%|" rest then return (.reserved n, rest) else throw (.beforeName rest)

def readPercent (cells : List Cell) : Except Halt (Lexeme × List Cell) :=
  match cells with
  | [] => .error .unfinished
  | c :: _ =>
    if c.isBlank || c.char = '%' then .ok (.percent, cells)
    else do
      let (_, rest) ← readName cells
      match rest with
      | d :: rest' =>
        if d.char = ';' then return (.parameterReference, rest') else throw (.beforeName rest)
      | [] => throw .unfinished

def isKeywordCell (c : Cell) : Bool := c.kind == .letter && !c.wide

def endOpening (keyword : Text) : List Cell → Except Halt (Lexeme × List Cell)
  | [] => .error .unfinished
  | d :: rest =>
    if d.isBlank then .ok (.opening keyword, d :: rest)
    else if d.char = '%' then
      match rest with
      | [] => .error .unfinished
      | e :: _ =>
        if e.isBlank || e.char = '%' then .error (.invalid d.offset)
        else .ok (.opening keyword, d :: rest)
    else .error (.invalid d.offset)

def readDeclarationStart (cells : List Cell) : Except Halt (Lexeme × List Cell) :=
  match cells with
  | [] => .error .unfinished
  | c :: rest =>
    if c.char = '-' then (readComment rest).map (Lexeme.comment, ·)
    else if c.char = '[' then .ok (.sectionStart, rest)
    else if !isKeywordCell c then .error (.invalid c.offset)
    else endOpening (chars (cells.takeWhile isKeywordCell)) (cells.dropWhile isKeywordCell)

def readAngle (rest : List Cell) : Except Halt (Lexeme × List Cell) :=
  match rest with
  | [] => .error .unfinished
  | d :: rest' =>
    if d.char = '!' then readDeclarationStart rest'
    else if d.char = '?' then (readInstruction rest').map fun (i, rest) => (.instruction i, rest)
    else if d.kind = .letter || d.wide then .ok (.root, rest)
    else .error (.invalid d.offset)

def endNameLexeme (first : CellKind) (n : Text) (rest : List Cell) :
    Except Halt (Lexeme × List Cell) :=
  let plain : Lexeme := if first = .letter then .name n none else .nameToken n
  if endsWith ">),|[%" rest then .ok (plain, rest)
  else match rest with
    | [] => .ok (plain, rest)
    | c :: rest' =>
      if isRepetition c.char && first = .letter then .ok (.name n (some c.char), rest')
      else .error (.beforeName rest)

def readNameLexeme (first : CellKind) (cells : List Cell) : Except Halt (Lexeme × List Cell) :=
  endNameLexeme first (chars (cells.takeWhile Cell.isName)) (cells.dropWhile Cell.isName)

def readCloseParen (rest : List Cell) : Except Halt (Lexeme × List Cell) :=
  match rest with
  | [] => .ok (.closeParen none, [])
  | c :: rest' =>
    if isRepetition c.char then .ok (.closeParen (some c.char), rest')
    else if endsWith ">,|)" rest then .ok (.closeParen none, rest)
    else .error (.invalid c.offset)

def readCloseBracket (rest : List Cell) : Except Halt (Lexeme × List Cell) :=
  match rest with
  | [c] => if c.char = ']' then .error .unfinished else .ok (.closeBracket, rest)
  | c :: d :: rest' =>
    if c.char = ']' && d.char = '>' then .ok (.sectionEnd, rest') else .ok (.closeBracket, rest)
  | [] => .ok (.closeBracket, [])

def readLexeme (c : Cell) (rest : List Cell) : Except Halt (Lexeme × List Cell) :=
  match c.kind with
  | .cut => .error .cutCharacter
  | .blank | .carriageReturn | .lineFeed | .bad => .error (.invalid c.offset)
  | .letter | .inner => readNameLexeme c.kind (c :: rest)
  | .other =>
    match c.char with
    | '"' | '\'' => readLiteral c.char rest
    | '<' => readAngle rest
    | '%' => readPercent rest
    | ',' => .ok (.comma, rest)
    | '[' => .ok (.openBracket, rest)
    | ']' => readCloseBracket rest
    | '(' => .ok (.openParen, rest)
    | ')' => readCloseParen rest
    | '|' => .ok (.bar, rest)
    | '>' => .ok (.close, rest)
    | '#' => readReserved rest
    | _ => .error (.invalid c.offset)

/-- An odd byte at the very end belongs to the lexeme that reaches it, unless that one is
complete whatever follows. A name with it is no keyword, and a literal ends within its quote. -/
def Lexeme.withOddByte? (stop : Nat) : Lexeme → Option Lexeme
  | .name n none => some (.name (n ++ ['\uFFFD']) none)
  | .nameToken n => some (.nameToken (n ++ ['\uFFFD']))
  | .reserved n => some (.reserved (n ++ ['\uFFFD']))
  | .literal cells => some (.literal (cells ++ [.cut (stop - 1)]))
  | .closeBracket => some .closeBracket
  | .closeParen none => some (.closeParen none)
  | _ => none

structure Placed where
  lexeme : Lexeme
  offset : Nat
  stop : Nat

structure Lexemes where
  placed : List Placed
  stop : Nat
  fault : Option Fault
  root : List Cell

def lexemesFrom (ragged : Bool) (stop : Nat) : Nat → List Placed → List Cell → Lexemes
  | 0, done, cells => ⟨done.reverse, offsetOf stop cells, none, []⟩
  | fuel + 1, done, cells =>
    match skipBlanks cells with
    | [] => ⟨done.reverse, stop, if ragged then some ⟨.unclosedToken, stop⟩ else none, []⟩
    | c :: rest =>
      match readLexeme c rest with
      | .error halt => ⟨done.reverse, c.offset, some (halt.fault c.offset), []⟩
      | .ok (.root, _) =>
        ⟨(⟨.root, c.offset, c.offset⟩ :: done).reverse, c.offset, none, c :: rest⟩
      | .ok (lexeme, rest) =>
        match ragged && rest.isEmpty, lexeme.withOddByte? stop with
        | true, some whole => ⟨(⟨whole, c.offset, stop⟩ :: done).reverse, stop, none, []⟩
        | _, _ =>
          lexemesFrom ragged stop fuel (⟨lexeme, c.offset, offsetOf stop rest⟩ :: done) rest

def lexemes (ragged : Bool) (stop : Nat) (cells : List Cell) : Lexemes :=
  lexemesFrom ragged stop (cells.length + 1) [] cells

end DocMarkdown.Xml
