import DocMarkdown.Converter.Run
import DocMarkdown.Text.Integer

/-! What the documentation of a declaration says: the record that is built while a document
is converted, and the shorter way to its signature alone. -/

namespace DocMarkdown
open Layout

structure Parameter where
  name : Text := []
  discussion : Option Text := none
  deriving DecidableEq

structure Declaration where
  file : Option Text := none
  line : Option Int := none
  column : Option Int := none
  kind : Option Text := none
  name : Option Text := none
  usr : Option Text := none
  declaration : Option Text := none
  resultDiscussion : Option Text := none
  parameters : List Parameter := []
  deriving DecidableEq

/-- The record built so far, the parameter that is open, and whether the root has been seen. -/
structure Builder where
  record : Declaration := {}
  parameter : Option Parameter := none
  rooted : Bool := false
  deriving DecidableEq

namespace Builder

def root (name : Text) (attributes : Attributes) (b : Builder) : Builder :=
  if b.rooted then b
  else
    let number := fun key : String => (attributes.get? key.toList).bind Text.readInteger
    { b with
      rooted := true
      record := { b.record with
        kind := some name
        file := attributes.get? "file".toList
        line := number "line"
        column := number "column" } }

def setName (t : Text) (b : Builder) : Builder :=
  match b.parameter with
  | some p => { b with parameter := some { p with name := t } }
  | none => { b with record := { b.record with name := some t } }

def setDiscussion (t : Text) (b : Builder) : Builder :=
  { b with parameter := b.parameter.map fun p => { p with discussion := some t } }

def endParameter (b : Builder) : Builder :=
  match b.parameter with
  | some p =>
    { b with
      parameter := none
      record := { b.record with parameters := b.record.parameters ++ [p] } }
  | none => b

def captureMode (b : Builder) : Part → Option Mode
  | .name | .usr | .declaration => some .text
  | .resultDiscussion => some .markdown
  | .discussion => if b.parameter.isSome then some .markdown else none
  | .parameter => none

def store (part : Part) (t : Text) (b : Builder) : Builder :=
  match part with
  | .name => b.setName t.trim
  | .usr => { b with record := { b.record with usr := some t.trim } }
  | .declaration => { b with record := { b.record with declaration := some t.trim } }
  | .resultDiscussion => { b with record := { b.record with resultDiscussion := some t } }
  | .discussion => b.setDiscussion t
  | .parameter => b

def change (f : Builder → Builder) : Operation Builder Part Unit :=
  modify fun w => { w with client := f w.client }

def opening (name : Text) (attributes : Attributes) : Operation Builder Part (Option Part) := do
  change (root name attributes)
  match Part.ofTag? name with
  | none => return none
  | some .parameter =>
    change fun b => { b with parameter := some {} }
    return some .parameter
  | some part =>
    match (← get).client.captureMode part with
    | some mode =>
      Operation.beginCapture mode
      return some part
    | none => return none

def closing : Part → Operation Builder Part Unit
  | .parameter => change endParameter
  | part => do
    let text ← Operation.endCapture
    change (store part text)

def client : Client Builder Part := ⟨opening, closing⟩

end Builder

/-- Waits for the signature and stops the conversion when it has it. -/
structure Extractor where
  signature : Option Text := none
  deriving DecidableEq

namespace Extractor

def opening (name : Text) (_ : Attributes) : Operation Extractor Unit (Option Unit) :=
  if Part.ofTag? name = some .declaration then do
    Operation.beginCapture .text
    return some ()
  else return none

def closing (_ : Unit) : Operation Extractor Unit Unit := do
  let text ← Operation.endCapture
  set { (← get) with client := ({ signature := some text } : Extractor) }
  Operation.abort

def client : Client Extractor Unit := ⟨opening, closing⟩

end Extractor

namespace Declaration

def build (config : Config) (d : Document) : Except Stop Declaration × List Malformed :=
  match Operation.convert (some Builder.client) d ⟨{}, .new config⟩ with
  | .ok () w => (.ok w.client.record, w.converter.reports.reverse)
  | .error stop w => (.error stop, w.converter.reports.reverse)

def extract (config : Config) (d : Document) : Except Stop (Option Text) × List Malformed :=
  match Operation.convert (some Extractor.client) d ⟨{}, .new config⟩ with
  | .ok () w => (.ok w.client.signature, w.converter.reports.reverse)
  | .error stop w => (.error stop, w.converter.reports.reverse)

end Declaration
end DocMarkdown
