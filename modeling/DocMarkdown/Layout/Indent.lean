import DocMarkdown.Text.Blank

/-! Indentation of nested lists. Right after a list marker the next margin is left out
once, so that the first block of an item stands on the marker's line. -/

namespace DocMarkdown.Layout

structure Indent where
  width : Int
  level : Int := 0
  skip : Bool := false
  deriving DecidableEq

namespace Indent

def increment (i : Indent) : Indent := { i with level := i.level + 1 }

def decrement (i : Indent) : Indent := { i with level := i.level - 1 }

def skipNext (i : Indent) : Indent := { i with skip := true }

def spaces (i : Indent) : Text := List.replicate (i.width * max i.level 0).toNat ' '

def margin (i : Indent) : Text × Indent :=
  if i.skip then ([], { i with skip := false }) else (i.spaces, i)

def lineStart (i : Indent) : Text × Indent :=
  if i.skip then ([], { i with skip := false }) else ('\n' :: i.spaces, i)

end Indent
end DocMarkdown.Layout
