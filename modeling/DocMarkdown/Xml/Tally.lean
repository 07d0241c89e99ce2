import DocMarkdown.Xml.Fault

/-! How far the entities of a document may outgrow it. Every token counts its bytes when it has
been read, either for the document or for the text of its entities. Once there are many of
them, all together may be at most a hundred times those of the document. -/

namespace DocMarkdown.Xml

def toSingle (n : Nat) : Nat :=
  let unit := 1 <<< (n.log2 - 23)
  let whole := n / unit
  let part := n % unit
  if unit < 2 * part || (unit == 2 * part && whole % 2 == 1) then (whole + 1) * unit
  else whole * unit

structure Tally where
  direct : Nat := 0
  indirect : Nat := 0

def tallyThreshold : Nat := 8 * 1024 * 1024

/-- What a text counts for: the document, whose code units take some bytes each, the entities,
or nothing, because it is part of what has been counted. -/
inductive Account
  | document (unit : Nat)
  | entity
  | settled
  deriving DecidableEq

namespace Tally

def total (t : Tally) : Nat := t.direct + t.indirect

/-- The quotient has 24 bits as well, so that it is above 100 from the half of a step on,
which is 2 ^ -18. -/
def exceeds (t : Tally) : Bool :=
  tallyThreshold ≤ t.total &&
    toSingle t.direct * (100 * (1 <<< 18) + 1) < toSingle t.total * (1 <<< 18)

def add (a : Account) (start stop : Nat) (t : Tally) : Tally :=
  match a with
  | .document unit => { t with direct := t.direct + (stop - start) * unit }
  | .entity => { t with indirect := t.indirect + (stop - start) }
  | .settled => t

def spend (a : Account) (start stop : Nat) (t : Tally) : Except Reason Tally :=
  let t := t.add a start stop
  if a ≠ .settled && t.exceeds then .error .amplified else .ok t

def addPredefined (t : Tally) : Tally := { t with indirect := t.indirect + 1 }

end Tally
end DocMarkdown.Xml
