import DocMarkdown.Xml.Event
import DocMarkdown.Xml.Token
import DocMarkdown.Xml.Value

/-! Reading content into events. The names of the open elements are kept innermost first, so
that every end tag is checked against the first of them. The text of an entity is read the
same way, within the content that refers to it; its elements must open and close in it. -/

namespace DocMarkdown.Xml

/-- What is being read: the document itself, with what its early end means and the bytes of a
code unit, or an entity. -/
inductive Scope
  | document (early : Reason) (unit : Nat)
  | entity
  deriving DecidableEq

def Scope.account : Scope → Account
  | .document _ unit => .document unit
  | .entity => .entity

structure Source where
  scope : Scope
  stop : Nat
  converts : Bool
  doctype : Doctype
  opened : List Text

abbrev Delivery := EStateM Fault Trail

namespace Delivery

def spend (s : Source) (start : Nat) (rest : List Cell) : Delivery Unit := fun trail =>
  match trail.tally.spend s.scope.account start (offsetOf s.stop rest) with
  | .ok tally => .ok () { trail with tally }
  | .error reason => .error ⟨reason, start⟩ trail

def event (e : Event) : Delivery Unit := modify (Trail.deliver e)

def text (s : Source) (t : Text) : Delivery Unit := modify (Trail.holdText s.converts t)

def char (c : Char) : Delivery Unit := modify (Trail.hold [c])

def values {α : Type} (start : Nat) (r : ValueReader α) : Delivery α := fun trail =>
  match r trail.tally with
  | .ok a tally => .ok a { trail with tally }
  | .error f tally => .error ⟨f.reason, f.offset.getD start⟩ { trail with tally }

end Delivery

open Delivery

/-- Reads raw characters to their end mark. A bracket begins a new piece. The piece being
collected is kept in reverse; it begins at `start`. -/
def readRaw (s : Source) (start : Nat) (piece : Text) : List Cell → Delivery (List Cell)
  | [] => do
    collect s start piece []
    throw ⟨.unclosedRaw, s.stop⟩
  | c :: rest => do
    match c.kind with
    | .bad =>
      collect s start piece (c :: rest)
      throw ⟨.invalidToken, c.offset⟩
    | .cut =>
      collect s start piece (c :: rest)
      throw ⟨.partialCharacter, c.offset⟩
    | .lineFeed =>
      collect s start piece (c :: rest)
      spend s c.offset rest
      char '\n'
      readRaw s (offsetOf s.stop rest) [] rest
    | .carriageReturn =>
      collect s start piece (c :: rest)
      match rest with
      | [] => throw ⟨.unclosedRaw, c.offset⟩
      | d :: rest' =>
        if d.kind = .lineFeed then
          spend s c.offset rest'
          char '\n'
          readRaw s (offsetOf s.stop rest') [] rest'
        else
          spend s c.offset (d :: rest')
          char '\n'
          readRaw s d.offset [] (d :: rest')
    | _ =>
      if c.char = ']' then
        collect s start piece (c :: rest)
        match bracket rest with
        | .mark _ after =>
          spend s c.offset after
          event .closeRaw
          return after
        | .cutOff => throw ⟨.unclosedRaw, c.offset⟩
        | .text => readRaw s c.offset [']'] rest
      else readRaw s start (c.char :: piece) rest
where
  collect (s : Source) (start : Nat) (piece : Text) (rest : List Cell) : Delivery Unit := do
    if !piece.isEmpty then
      spend s start rest
      text s piece.reverse

abbrev Expansion := Text → EStateM Reason Trail Unit

inductive Turn
  | next (names : List Text)
  | raw (names : List Text)
  | done

def afterClose (s : Source) (names : List Text) : Turn :=
  if s.scope != .entity && names.isEmpty then .done else .next names

def contentEnd (s : Source) (names : List Text) (offset : Nat) : Delivery Unit :=
  match s.scope with
  | .document early _ => throw ⟨early, offset⟩
  | .entity => if names.isEmpty then return else throw ⟨.asynchronousEntity, offset⟩

def deliverToken (s : Source) (expand : Expansion) (names : List Text) (start : Nat) :
    Token → Delivery Turn
  | .text t => do
    text s t
    return .next names
  | .tail t offset => do
    text s t
    match s.scope with
    | .document _ _ => throw ⟨.noElement, offset.getD s.stop⟩
    | .entity =>
      contentEnd s names (offset.getD s.stop)
      return .done
  | .reference (.character none) => throw ⟨.badCharacterNumber, start⟩
  | .reference (.character (some x)) => do
    char x
    return .next names
  | .reference (.entity name) => do
    match predefined? name with
    | some x =>
      modify fun trail => { trail with tally := trail.tally.addPredefined }
      char x
    | none => EStateM.adaptExcept (Fault.mk · start) (expand name)
    return .next names
  | .openTag tag => do
    let account := if tag.isEmpty then .settled else s.scope.account
    let attributes ← values start (tagAttributes s.doctype s.opened account tag)
    event (.openElement tag.name attributes)
    if tag.isEmpty then
      event (.closeElement tag.name)
      return afterClose s names
    return .next (tag.name :: names)
  | .closeTag name offset =>
    match names with
    | [] => throw ⟨.asynchronousEntity, start⟩
    | innermost :: names => do
      if name ≠ innermost then throw ⟨.mismatchedTag, offset⟩
      event (.closeElement name)
      return afterClose s names
  | .skipped => return .next names
  | .declaration => throw ⟨.misplacedDeclaration, start⟩
  | .rawStart => do
    event .openRaw
    return .raw names

def Turn.goOn (s : Source) (rest : List Cell) : Turn → Delivery (Option (List Text) × List Cell)
  | .next names => return (some names, rest)
  | .raw names => return (some names, ← readRaw s (offsetOf s.stop rest) [] rest)
  | .done => return (none, rest)

def readTurn (s : Source) (expand : Expansion) (names : List Text) (c : Cell) (rest : List Cell) :
    Delivery (Option (List Text) × List Cell) :=
  match readToken s.stop c rest with
  | .error halt => throw (halt.fault c.offset)
  | .ok (token, rest) => do
    spend s c.offset rest
    let turn ← deliverToken s expand names c.offset token
    turn.goOn s rest

/-- Reads content until the root closes, or to the end of an entity's text. Every token takes
a cell, so that `fuel` turns are enough for that many cells. -/
def readContent (s : Source) (expand : Expansion) :
    Nat → List Text → List Cell → Delivery (List Cell)
  | 0, _, cells => throw ⟨.noElement, offsetOf s.stop cells⟩
  | _ + 1, names, [] => do
    contentEnd s names s.stop
    return []
  | fuel + 1, names, c :: rest => do
    match ← readTurn s expand names c rest with
    | (some names, rest) => readContent s expand fuel names rest
    | (none, rest) => return rest

/-- What a reference in content does. `opened` are the entities being read; each is opened
once, so that `depth` is used up only if an entity were within itself. -/
def expandInContent (d : Doctype) : Nat → List Text → Expansion
  | 0, _, _ => throw .recursiveEntity
  | depth + 1, opened, name =>
    match d.entity? name with
    | none => if d.checksEntities then throw .undefinedEntity else return
    | some e =>
      if opened.contains name then throw .recursiveEntity
      else match e with
        | .unparsed => throw .binaryEntity
        | .external => return
        | .internal cells stop => do
          let opened := name :: opened
          let s : Source := ⟨.entity, stop, false, d, opened⟩
          let content := readContent s (expandInContent d depth opened) (cells.length + 1) [] cells
          let _ ← EStateM.adaptExcept Fault.reason content

def readRoot (scope : Scope) (stop : Nat) (converts : Bool) (d : Doctype) (cells : List Cell) :
    Delivery (List Cell) :=
  readContent ⟨scope, stop, converts, d, []⟩ (expandInContent d d.depth []) (cells.length + 1) []
    cells

end DocMarkdown.Xml
