import DocMarkdown.Toml.Number
import DocMarkdown.Toml.Table

/-! Reading a settings file: a line is empty, gives a value to a key, or is the header of a
table or of one more table of an array.

Values nest to any depth. That a reader which calls itself for each level runs out of stack on
very deep ones is left out. -/

namespace DocMarkdown.Toml
open Settings

def allowed {α : Type} : Option α → Except Fault α
  | some a => .ok a
  | none => .error .invalid

mutual

/-- A value. Every step into an array or a table and every item of one uses `fuel`. -/
def readValue : Nat → Text → Except Fault (Value × Text)
  | 0, _ => .error .invalid
  | fuel + 1, t =>
    match readString t with
    | some result => result.map fun (s, rest) => (.text s, rest)
    | none =>
      match t with
      | 't' :: 'r' :: 'u' :: 'e' :: rest => .ok (.boolean true, rest)
      | 'f' :: 'a' :: 'l' :: 's' :: 'e' :: rest => .ok (.boolean false, rest)
      | '[' :: rest => do
        let (items, rest) ← readItems fuel (← skipLines false rest)
        return (.array items, rest)
      | '\x7b' :: rest => do
        let (entries, rest) ←
          match skipBlanks rest with
          | '\x7d' :: rest => .ok ([], rest)
          | rest => readEntries fuel [] rest
        return (.table (entriesValue entries), rest)
      | t => readNumber t

def readItems : Nat → Text → Except Fault (List Value × Text)
  | 0, _ => .error .invalid
  | _, ']' :: rest => .ok ([], rest)
  | fuel + 1, t => do
    let (v, rest) ← readValue fuel t
    match ← skipLines false rest with
    | ']' :: rest => return ([v], rest)
    | ',' :: rest => do
      let (items, rest) ← readItems fuel (← skipLines false rest)
      return (v :: items, rest)
    | _ => .error .invalid

def readEntries : Nat → Nodes → Text → Except Fault (Nodes × Text)
  | 0, _, _ => .error .invalid
  | fuel + 1, nodes, t => do
    let (key, v, rest) ← readEntry fuel t
    let nodes ← allowed (nodes.insert 0 v key)
    match skipBlanks rest with
    | '\x7d' :: rest => return (nodes, rest)
    | ',' :: rest => readEntries fuel nodes (skipBlanks rest)
    | _ => .error .invalid

def readEntry : Nat → Text → Except Fault (List Text × Value × Text)
  | 0, _ => .error .invalid
  | fuel + 1, t => do
    let (key, rest) ← readKey t
    match rest with
    | '=' :: rest => do
      let (v, rest) ← readValue fuel (skipBlanks rest)
      return (key, v, rest)
    | _ => .error .invalid

end

/-- Where a reading stands: the path of the current section, how many headers there were, and
the tables so far. -/
structure State where
  path : List Text := []
  number : Nat := 0
  nodes : Nodes := []

def readHeader (t : Text) (s : State) : Except Fault (State × Text) := do
  let (isArray, t) := match t with
    | '[' :: t => (true, t)
    | t => (false, t)
  let (key, rest) ← readKey (skipBlanks t)
  let change := if isArray then Nodes.appendTable else Nodes.declareTable
  let nodes ← allowed (s.nodes.atPath change key)
  let closing := if isArray then [']', ']'] else [']']
  match closing.isPrefixOf? rest with
  | some rest => return (⟨key, s.number + 1, nodes⟩, rest)
  | none => .error .invalid

def readStatement (t : Text) (s : State) : Except Fault (State × Text) :=
  match t with
  | '[' :: rest => readHeader rest s
  | c :: _ =>
    if startsKey c then do
      let (key, v, rest) ← readEntry (4 * t.length + 4) t
      let nodes ← allowed (s.nodes.descend (Nodes.insert s.number v key) s.path)
      return ({ s with nodes }, rest)
    else .ok (s, t)
  | [] => .ok (s, t)

/-- Lines up to the end of the text, each of which takes a character of it at least. -/
def readLines : Nat → State → Text → Except Fault State
  | 0, s, _ => .ok s
  | fuel + 1, s, t => do
    let (s, rest) ← readStatement (skipBlanks t) s
    match ← skipComment (skipBlanks rest) with
    | [] => return s
    | '\n' :: rest => readLines fuel s rest
    | _ => .error .invalid

def joinLineEnds : Text → Text
  | '\r' :: '\n' :: t => '\n' :: joinLineEnds t
  | c :: t => c :: joinLineEnds t
  | [] => []

def read (t : Text) : Except Fault Value := do
  let t := joinLineEnds t
  let s ← readLines (t.length + 1) {} t
  return .table (entriesValue s.nodes)

end DocMarkdown.Toml
