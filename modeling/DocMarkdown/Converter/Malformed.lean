import DocMarkdown.Document

/-! A refused document, with the place where it was refused, and the messages about it. -/

namespace DocMarkdown

structure Malformed where
  reason : Text
  line : Option Int
  column : Option Int
  document : Text
  deriving DecidableEq

namespace Malformed

def quoteLength : Nat := 80

def number : Option Int → Text
  | some n => Text.ofInt n
  | none => "None".toList

def message (m : Malformed) : Text :=
  m.reason ++ " (line ".toList ++ number m.line ++ ", column ".toList ++ number m.column ++ [')']

def report (m : Malformed) : Text := m.message ++ " in: ".toList ++ m.document.take quoteLength

def ofReading (reason : Xml.Reason) (place : Xml.Place) (d : Document) : Malformed :=
  ⟨reason.message.toList, some place.line, some place.column, d.shown⟩

end Malformed
end DocMarkdown
