import DocMarkdown.Settings.Value

/-! The tables of a settings file while it is being read. A table may be extended only as
far as the file has not closed it: one that a header has named cannot be named again, and
one that a dotted key has opened is extended by dotted keys of the same section alone.
Values, the arrays and tables among them included, are never extended. -/

namespace DocMarkdown.Toml
open Settings

/-- How a table came to be: on the way to another one, by its header, or by a dotted key of a
section. -/
inductive Origin
  | passed
  | header
  | dotted (number : Nat)
  deriving DecidableEq

/-- The tables of an array are kept with the last one first; it is the one that is extended. -/
inductive Node
  | value (v : Value)
  | table (origin : Origin) (entries : List (Text × Node))
  | tables (items : List (List (Text × Node)))

abbrev Nodes := List (Text × Node)

namespace Nodes

def alter (key : Text) (f : Option Node → Option Node) : Nodes → Option Nodes
  | [] => (f none).map fun n => [(key, n)]
  | (k, n) :: rest =>
    if k = key then (f (some n)).map fun n => (k, n) :: rest
    else (alter key f rest).map ((k, n) :: ·)

def step (f : Nodes → Option Nodes) : Option Node → Option Node
  | none => (f []).map (.table .passed)
  | some (.table origin entries) => (f entries).map (.table origin)
  | some (.tables (last :: before)) => (f last).map fun last => .tables (last :: before)
  | some (.tables []) => none
  | some (.value _) => none

def descend (f : Nodes → Option Nodes) : List Text → Nodes → Option Nodes
  | [], nodes => f nodes
  | key :: path, nodes => nodes.alter key (step (descend f path))

def declareTable : Option Node → Option Node
  | none => some (.table .header [])
  | some (.table .passed entries) => some (.table .header entries)
  | some _ => none

def appendTable : Option Node → Option Node
  | none => some (.tables [[]])
  | some (.tables items) => some (.tables ([] :: items))
  | some _ => none

def atPath (f : Option Node → Option Node) (path : List Text) (nodes : Nodes) : Option Nodes :=
  match path.getLast? with
  | some key => nodes.descend (alter key f) path.dropLast
  | none => none

def dottedStep (number : Nat) (f : Nodes → Option Nodes) : Option Node → Option Node
  | none => (f []).map (.table (.dotted number))
  | some (.table origin entries) =>
    if origin = .passed || origin = .dotted number then
      (f entries).map (.table (.dotted number))
    else none
  | some _ => none

def setNew (v : Value) : Option Node → Option Node
  | none => some (.value v)
  | some _ => none

def insert (number : Nat) (v : Value) : List Text → Nodes → Option Nodes
  | [], _ => none
  | [key], nodes => nodes.alter key (setNew v)
  | key :: path, nodes => nodes.alter key (dottedStep number (insert number v path))

end Nodes

mutual

def Node.toValue : Node → Value
  | .value v => v
  | .table _ entries => .table (entriesValue entries)
  | .tables items => .array (itemsValue items).reverse

def entriesValue : List (Text × Node) → Entries
  | [] => []
  | (key, node) :: rest => (key, node.toValue) :: entriesValue rest

def itemsValue : List (List (Text × Node)) → List Value
  | [] => []
  | entries :: rest => .table (entriesValue entries) :: itemsValue rest

end

end DocMarkdown.Toml
