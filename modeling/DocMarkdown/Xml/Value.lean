import DocMarkdown.Xml.Doctype
import DocMarkdown.Xml.Tag
import DocMarkdown.Xml.Tally

/-! Attribute values. White space becomes spaces, references are replaced by what they stand
for, and the text of an entity is treated in the same way. -/

namespace DocMarkdown.Xml

structure ValueFault where
  reason : Reason
  offset : Option Nat := none

abbrev ValueReader := EStateM ValueFault Tally

def spendValue (a : Account) (start stop : Nat) : ValueReader Unit := fun tally =>
  match tally.spend a start stop with
  | .ok tally => .ok () tally
  | .error reason => .error ⟨reason, none⟩ tally

def isPlainCell (c : Cell) : Bool :=
  c.char != '<' && c.char != '&' && c.kind != .cut && !c.isBlank

/-- A carriage return at the very end is not counted. -/
def spendBlank (a : Account) (stop : Nat) (c : Cell) (rest : List Cell) : ValueReader Unit :=
  if c.kind = .carriageReturn && rest.isEmpty then return
  else spendValue a c.offset (offsetOf stop rest)

def skipLineFeed (c : Cell) (rest : List Cell) : List Cell :=
  match c.kind, rest with
  | .carriageReturn, d :: rest' => if d.kind = .lineFeed then rest' else rest
  | _, _ => rest

/-- Each turn takes a run of plain cells, a blank or a reference of a value that ends at `stop`.
What is `done` is kept in reverse; plain cells before a sign that cannot stand in a value are
not counted. -/
def normalizeValue (a : Account) (stop : Nat) (expand : Nat → Text → ValueReader Text) :
    Nat → Text → List Cell → ValueReader Text
  | 0, done, _ | _, done, [] => return done.reverse
  | fuel + 1, done, c :: rest => do
    if isPlainCell c then
      let run := rest.takeWhile isPlainCell
      let rest := rest.dropWhile isPlainCell
      if !(rest.head?.any fun d => d.char = '<') then spendValue a c.offset (offsetOf stop rest)
      normalizeValue a stop expand fuel ((c.char :: chars run).reverse ++ done) rest
    else if c.isBlank then
      let rest := skipLineFeed c rest
      spendBlank a stop c rest
      normalizeValue a stop expand fuel (' ' :: done) rest
    else if c.char = '&' then
      match readReference rest with
      | .error (.invalid offset) => throw ⟨.invalidToken, some offset⟩
      | .error _ => throw ⟨.invalidToken, some c.offset⟩
      | .ok (r, rest) =>
        spendValue a c.offset (offsetOf stop rest)
        match r with
        | .character none => throw ⟨.badCharacterNumber, some c.offset⟩
        | .character (some x) => normalizeValue a stop expand fuel (x :: done) rest
        | .entity name =>
          match predefined? name with
          | some x =>
            modify Tally.addPredefined
            normalizeValue a stop expand fuel (x :: done) rest
          | none =>
            let t ← expand c.offset name
            normalizeValue a stop expand fuel (t.reverse ++ done) rest
    else throw ⟨.invalidToken, some c.offset⟩

/-- What a reference stands for in a value. `opened` are the entities being expanded; each is
opened once, so that `depth` is used up only if an entity were within itself. -/
def expandInValue (d : Doctype) : Nat → List Text → Nat → Text → ValueReader Text
  | 0, _, _, _ => throw ⟨.recursiveEntity, none⟩
  | depth + 1, opened, offset, name =>
    match d.entity? name with
    | none => if d.checksEntities then throw ⟨.undefinedEntity, none⟩ else return []
    | some e =>
      if opened.contains name then throw ⟨.recursiveEntity, none⟩
      else match e with
        | .unparsed => throw ⟨.binaryEntity, some offset⟩
        | .external => throw ⟨.externalEntityInAttribute, some offset⟩
        | .internal cells stop =>
          let value :=
            normalizeValue .entity stop (expandInValue d depth (name :: opened)) cells.length []
              cells
          EStateM.adaptExcept (fun f => ⟨f.reason, none⟩) value

def collapseSpaces (t : Text) : Text := go false [] (t.dropWhile (· == ' '))
where
  go (gap : Bool) (done : Text) : Text → Text
    | [] => done.reverse
    | c :: rest =>
      if c = ' ' then go true done rest
      else if gap then go false (c :: ' ' :: done) rest
      else go false (c :: done) rest

def Doctype.depth (d : Doctype) : Nat := d.entities.length + 1

def attributeValue (d : Doctype) (opened : List Text) (a : Account) (collapsed : Bool)
    (cells : List Cell) (stop : Nat) : ValueReader Text := do
  let t ← normalizeValue a stop (expandInValue d d.depth opened) cells.length [] cells
  return if collapsed then collapseSpaces t else t

/-- A value that stands for itself however its attribute is declared: it holds no reference,
and single spaces between other characters as its only white space. -/
def isNormal (cells : List Cell) : Bool := cells.isEmpty || go true cells
where
  go (gap : Bool) : List Cell → Bool
    | [] => !gap
    | c :: rest =>
      if c.char = ' ' then !gap && go true rest
      else c.char != '&' && !c.isBlank && go false rest

/-- The attributes of a start tag in order, then the defaults. A second attribute of one name
is a fault before its value is looked at. -/
def tagAttributes (d : Doctype) (opened : List Text) (a : Account) (tag : Tag) :
    ValueReader Attributes := do
  let given ← go [] tag.attributes
  return given ++ d.defaults tag.name given
where
  go (done : Attributes) : List RawAttribute → ValueReader Attributes
    | [] => return done.reverse
    | r :: rest => do
      if (done.lookup r.name).isSome then throw ⟨.duplicateAttribute, some r.nameOffset⟩
      let value ←
        if isNormal r.value then pure (chars r.value)
        else attributeValue d opened a (d.collapses tag.name r.name) r.value r.stop
      go ((r.name, value) :: done) rest

end DocMarkdown.Xml
