import DocMarkdown.Xml.Lexeme
import DocMarkdown.Xml.Value

/-! What lies outside of the root. In the prolog a document type may declare entities and
attributes; other declarations are only checked for their form. -/

namespace DocMarkdown.Xml

structure Outside where
  ahead : List Placed
  stop : Nat
  fault : Option Fault
  place : Nat
  account : Account
  tally : Tally

def Outside.start (l : Lexemes) (place : Nat) (a : Account) (tally : Tally) : Outside :=
  ⟨l.placed, l.stop, l.fault, place, a, tally⟩

abbrev Reader := StateT Outside (Except Fault)

def Placed.fault (p : Placed) : Fault :=
  match p.lexeme with
  | .parameterReference => ⟨.illegalParameterReference, p.offset⟩
  | .instruction i => ⟨if i.isDeclaration then .misplacedDeclaration else .syntaxError, p.offset⟩
  | _ => ⟨.syntaxError, p.offset⟩

def spendTo (stop : Nat) : Reader Unit := fun o =>
  match o.tally.spend o.account o.place stop with
  | .ok tally => .ok ((), { o with place := stop, tally })
  | .error reason => .error ⟨reason, o.place⟩

def next? : Reader (Option Placed) := do
  let o ← get
  match o.ahead with
  | p :: ahead =>
    spendTo p.offset
    spendTo p.stop
    modify fun o => { o with ahead }
    return some p
  | [] =>
    spendTo o.stop
    match o.fault with
    | some f => throw f
    | none => return none

def take : Reader Placed := do
  match ← next? with
  | some p => return p
  | none => throw ⟨.noElement, (← get).stop⟩

def refuse {α : Type} (p : Placed) : Reader α := throw p.fault

def turns : Reader Nat := return (← get).ahead.length + 1

def expectClose : Reader Unit := do
  let p ← take
  match p.lexeme with
  | .close => return
  | _ => refuse p

def expectName : Reader Text := do
  let p ← take
  match p.lexeme with
  | .name n none => return n
  | _ => refuse p

def expectLiteral : Reader (List Cell × Nat) := do
  let p ← take
  match p.lexeme with
  | .literal cells => return (cells, p.offset)
  | _ => refuse p

def isPublicIdCell (c : Cell) : Bool :=
  c.kind == .cut || (c.char.isAlphanum && c.char.toNat < 0x80) ||
    " \r\n-'()+,./:=?;!*#@$_%".toList.contains c.char

def expectPublicId : Reader Unit := do
  let (cells, _) ← expectLiteral
  match cells.find? fun c => !isPublicIdCell c with
  | some c => throw ⟨.badPublicId, c.offset⟩
  | none => return

/-- The text of an entity. References by number are replaced, others stay. What is `done` is
kept in reverse. -/
def entityText : Nat → Text → List Cell → Except Fault Text
  | 0, done, _ | _, done, [] => .ok done.reverse
  | fuel + 1, done, c :: rest => do
    if c.kind = .cut then throw ⟨.invalidToken, c.offset⟩
    if c.char = '&' then
      match readReference rest with
      | .error (.invalid offset) => throw ⟨.invalidToken, offset⟩
      | .error _ => throw ⟨.invalidToken, c.offset⟩
      | .ok (.character none, _) => throw ⟨.badCharacterNumber, c.offset⟩
      | .ok (.character (some x), rest) => entityText fuel (x :: done) rest
      | .ok (.entity name, rest) => entityText fuel (';' :: name.reverse ++ '&' :: done) rest
    else if c.char = '%' then
      match readPercent rest with
      | .ok (.parameterReference, _) => throw ⟨.illegalParameterReference, c.offset⟩
      | .ok _ => throw ⟨.invalidToken, offsetOf c.offset rest⟩
      | .error (.invalid offset) => throw ⟨.invalidToken, offset⟩
      | .error _ => throw ⟨.invalidToken, c.offset⟩
    else if c.kind = .carriageReturn then entityText fuel ('\n' :: done) (skipLineFeed c rest)
    else entityText fuel (c.char :: done) rest

def entityDefinition (d : Doctype) (mayBeUnparsed : Bool) : Reader (Option Entity) := do
  let p ← take
  match p.lexeme with
  | .literal cells =>
    let value ← if d.reading then entityText cells.length [] cells else pure []
    expectClose
    return some (.internal (entityCells value) (textWidth value))
  | .name keyword none =>
    if keyword = "PUBLIC".toList then expectPublicId
    else if keyword ≠ "SYSTEM".toList then refuse p
    let _ ← expectLiteral
    let q ← take
    match q.lexeme with
    | .close => return some .external
    | .name keyword none =>
      if mayBeUnparsed && keyword = "NDATA".toList then
        let _ ← expectName
        expectClose
        return some .unparsed
      else refuse q
    | _ => refuse q
  | _ => refuse p

def entityDeclaration (d : Doctype) : Reader Doctype := do
  let p ← take
  match p.lexeme with
  | .percent =>
    let _ ← expectName
    let _ ← entityDefinition d false
    return d
  | .name n none =>
    match ← entityDefinition d true with
    | some e => return d.declareEntity n e
    | none => return d
  | _ => refuse p

def notationDeclaration : Reader Unit := do
  let _ ← expectName
  let p ← take
  match p.lexeme with
  | .name keyword none =>
    if keyword = "SYSTEM".toList then
      let _ ← expectLiteral
      expectClose
    else if keyword = "PUBLIC".toList then
      expectPublicId
      let q ← take
      match q.lexeme with
      | .close => return
      | .literal _ => expectClose
      | _ => refuse q
    else refuse p
  | _ => refuse p

def mixedNames : Nat → Reader Unit
  | 0 => return
  | fuel + 1 => do
    let _ ← expectName
    let p ← take
    match p.lexeme with
    | .bar => mixedNames fuel
    | .closeParen (some '*') => expectClose
    | _ => refuse p

inductive Connector
  | sequence
  | choice
  deriving DecidableEq

/-- A group keeps to one connector. `groups` are the open groups with the connector each has
shown, the innermost first; `item` tells that an item must follow. -/
def contentGroups : Nat → Bool → List (Option Connector) → Reader Unit
  | 0, _, _ => return
  | fuel + 1, true, groups => do
    let p ← take
    match p.lexeme with
    | .openParen => contentGroups fuel true (none :: groups)
    | .name _ _ => contentGroups fuel false groups
    | _ => refuse p
  | fuel + 1, false, groups => do
    let p ← take
    let connect (mine other : Connector) : Reader Unit :=
      if groups.head? = some (some other) then refuse p
      else contentGroups fuel true (some mine :: groups.tail)
    match p.lexeme with
    | .closeParen _ =>
      if groups.tail.isEmpty then expectClose else contentGroups fuel false groups.tail
    | .comma => connect .sequence .choice
    | .bar => connect .choice .sequence
    | _ => refuse p

def elementDeclaration : Reader Unit := do
  let _ ← expectName
  let p ← take
  match p.lexeme with
  | .name keyword none =>
    if keyword = "EMPTY".toList || keyword = "ANY".toList then expectClose else refuse p
  | .openParen =>
    let fuel ← turns
    let q ← take
    match q.lexeme with
    | .reserved n =>
      if n ≠ "PCDATA".toList then refuse q
      let r ← take
      match r.lexeme with
      | .closeParen none | .closeParen (some '*') => expectClose
      | .bar => mixedNames fuel
      | _ => refuse r
    | .openParen => contentGroups fuel true [none, none]
    | .name _ _ => contentGroups fuel false [none]
    | _ => refuse q
  | _ => refuse p

def enumeration (isItem : Lexeme → Bool) : Nat → Reader Unit
  | 0 => return
  | fuel + 1 => do
    let p ← take
    if !isItem p.lexeme then refuse p
    let q ← take
    match q.lexeme with
    | .bar => enumeration isItem fuel
    | .closeParen none => return
    | _ => refuse q

def Lexeme.isName : Lexeme → Bool
  | .name _ none => true
  | _ => false

def Lexeme.isNameToken : Lexeme → Bool
  | .name _ none | .nameToken _ => true
  | _ => false

def tokenTypes : List Text :=
  ["ID", "IDREF", "IDREFS", "ENTITY", "ENTITIES", "NMTOKEN", "NMTOKENS"].map String.toList

def attributeType : Reader Bool := do
  let fuel ← turns
  let p ← take
  match p.lexeme with
  | .openParen =>
    enumeration Lexeme.isNameToken fuel
    return true
  | .name keyword none =>
    if keyword = "CDATA".toList then return false
    else if tokenTypes.contains keyword then return true
    else if keyword = "NOTATION".toList then
      let q ← take
      match q.lexeme with
      | .openParen =>
        enumeration Lexeme.isName fuel
        return true
      | _ => refuse q
    else refuse p
  | _ => refuse p

def defaultValue (d : Doctype) (collapsed : Bool) (cells : List Cell) (offset : Nat) :
    Reader (Option Text) :=
  if d.reading then
    fun o => match attributeValue d [] .settled collapsed cells offset o.tally with
      | .ok value tally => .ok (some value, { o with tally })
      | .error f _ => .error ⟨f.reason, f.offset.getD offset⟩
  else return none

def attributeDefault (d : Doctype) (collapsed : Bool) : Reader (Option Text) := do
  let p ← take
  match p.lexeme with
  | .reserved n =>
    if n = "IMPLIED".toList || n = "REQUIRED".toList then return none
    else if n = "FIXED".toList then
      let (cells, offset) ← expectLiteral
      defaultValue d collapsed cells offset
    else refuse p
  | .literal cells => defaultValue d collapsed cells p.offset
  | _ => refuse p

def attributeDeclarations (element : Text) : Nat → Doctype → Reader Doctype
  | 0, d => return d
  | fuel + 1, d => do
    let p ← take
    match p.lexeme with
    | .close => return d
    | .name n none =>
      let collapsed ← attributeType
      let value ← attributeDefault d collapsed
      attributeDeclarations element fuel (d.declareAttribute ⟨element, n, collapsed, value⟩)
    | _ => refuse p

def internalSubset : Nat → Doctype → Reader Doctype
  | 0, d => return d
  | fuel + 1, d => do
    let p ← take
    match p.lexeme with
    | .closeBracket =>
      expectClose
      return d
    | .comment => internalSubset fuel d
    | .instruction i => if i.isDeclaration then refuse p else internalSubset fuel d
    | .parameterReference => internalSubset fuel d.withParameterReference
    | .opening keyword =>
      if keyword = "ENTITY".toList then internalSubset fuel (← entityDeclaration d)
      else if keyword = "ATTLIST".toList then
        let element ← expectName
        internalSubset fuel (← attributeDeclarations element (← turns) d)
      else if keyword = "ELEMENT".toList then
        elementDeclaration
        internalSubset fuel d
      else if keyword = "NOTATION".toList then
        notationDeclaration
        internalSubset fuel d
      else refuse p
    | _ => refuse p

def doctypeEnd (d : Doctype) (p : Placed) : Reader Doctype := do
  match p.lexeme with
  | .close => return d
  | .openBracket => internalSubset (← turns) d
  | _ => refuse p

def doctypeDeclaration (d : Doctype) : Reader Doctype := do
  let _ ← expectName
  let p ← take
  match p.lexeme with
  | .name keyword none =>
    if keyword = "PUBLIC".toList then expectPublicId
    else if keyword ≠ "SYSTEM".toList then refuse p
    let _ ← expectLiteral
    doctypeEnd d.withExternal (← take)
  | _ => doctypeEnd d p

def prologTo : Nat → Bool → Doctype → Reader Doctype
  | 0, _, _ => do throw ⟨.noElement, (← get).stop⟩
  | fuel + 1, typed, d => do
    let p ← take
    match p.lexeme with
    | .root => return d
    | .comment => prologTo fuel typed d
    | .instruction i => if i.isDeclaration then refuse p else prologTo fuel typed d
    | .opening keyword =>
      if !typed && keyword = "DOCTYPE".toList then prologTo fuel true (← doctypeDeclaration d)
      else refuse p
    | _ => refuse p

def readOutside {α : Type} (r : Reader α) (o : Outside) : Except Fault (α × Tally) :=
  (r o).map fun (a, o) => (a, o.tally)

def readProlog (ragged : Bool) (stop : Nat) (a : Account) (tally : Tally) (d : Doctype)
    (cells : List Cell) : Except Fault ((Doctype × List Cell) × Tally) :=
  let l := lexemes ragged stop cells
  let read := readOutside (prologTo (l.placed.length + 1) false d)
    (.start l (offsetOf stop cells) a tally)
  read.map fun (d, tally) => ((d, l.root), tally)

def isMisc : Lexeme → Bool
  | .comment => true
  | .instruction i => !i.isDeclaration
  | _ => false

def epilogTo : Nat → Reader Unit
  | 0 => return
  | fuel + 1 => do
    match ← next? with
    | none => return
    | some p => if isMisc p.lexeme then epilogTo fuel else throw ⟨.junkAfterRoot, p.offset⟩

/-- Reads what follows the root. An odd byte after a final carriage return is left unread. -/
def readEpilog (ragged : Bool) (stop : Nat) (a : Account) (tally : Tally) (cells : List Cell) :
    Except Fault Unit :=
  let ragged := ragged && !(cells.getLast?.any fun c => c.kind == .carriageReturn)
  let l := lexemes ragged stop cells
  let read := readOutside (epilogTo (l.placed.length + 1))
    (.start l (offsetOf stop cells) a tally)
  read.map fun _ => ()

end DocMarkdown.Xml
