import DocMarkdown.Config
import DocMarkdown.Converter.Malformed
import DocMarkdown.Layout.Session

/-! The converter receives the events of a document and writes Markdown to the current
session. Every element that opens leaves what is to be done when it closes, so that the
nesting is recovered without a tree. Captures nest: the session of an outer capture is saved
while an inner one runs.

Elements without a layout of their own are offered to a client, whose handlers may work on
the converter. `κ` is what a client leaves for the end of an element, `σ` its own state. -/

namespace DocMarkdown
open Layout Markdown

inductive Pending (κ : Type)
  | nothing
  | layout (a : Action)
  | client (k : κ)

/-- Saved sessions, pending ends, raw pieces and reports are kept with the last one first.
`running` and `listening` tell whether a conversion goes on that can be aborted, and whether
its client is still offered elements. -/
structure Converter (κ : Type) where
  config : Config
  session : Session
  saved : List Session := []
  capturing : Bool := false
  pending : List (Pending κ) := []
  raw : Option (List Text) := none
  running : Bool := false
  listening : Bool := false
  reports : List Malformed := []

/-- Why an operation stops. `emptyPop` is the end of a list or of an element where none is open. -/
inductive Stop
  | aborted
  | emptyPop
  | malformed (m : Malformed)
  | unusableEncoding (name : Text) (why : Xml.Misfit)
  deriving DecidableEq

def Stop.message : Stop → Text
  | aborted => "aborted".toList
  | emptyPop => "nothing is open".toList
  | malformed m => m.message
  | unusableEncoding name why => why.message name

namespace Converter
variable {κ : Type}

def fresh (c : Converter κ) (mode : Mode) : Session := .new c.config.indentWidth mode

def new (config : Config) : Converter κ :=
  { config, session := .new config.indentWidth .markdown }

def reset (c : Converter κ) : Converter κ := { new c.config with reports := c.reports }

/-- An active capture is saved and goes on when this one ends; without one the current
session is given up. -/
def beginCapture (mode : Mode) (c : Converter κ) : Converter κ :=
  { c with
    saved := if c.capturing then c.session :: c.saved else c.saved
    session := c.fresh mode
    capturing := true }

def endCapture (c : Converter κ) : Text × Converter κ :=
  let text := c.session.captured
  match c.saved with
  | outer :: saved => (text, { c with session := outer.write text, saved })
  | [] => (text, { c with session := c.fresh .markdown, capturing := false })

def push (p : Pending κ) (c : Converter κ) : Converter κ := { c with pending := p :: c.pending }

def openLayout (e : Element) (attributes : Attributes) (c : Converter κ) : Converter κ :=
  let (session, action) := c.session.openElement e attributes
  { c with session }.push (match action with | some a => .layout a | none => .nothing)

def characters (t : Text) (c : Converter κ) : Converter κ :=
  match c.raw with
  | some pieces => { c with raw := some (t :: pieces) }
  | none => { c with session := c.session.literal t }

def openRaw (c : Converter κ) : Converter κ := { c with raw := some [] }

def closeRaw (c : Converter κ) : Converter κ :=
  let content := (c.raw.getD []).reverse.flatten
  { c with raw := none, session := c.session.rawBlock content }

def start (listening : Bool) (c : Converter κ) : Converter κ :=
  { c with pending := [], raw := none, running := true, listening }

def finish (c : Converter κ) : Converter κ := { c with running := false, listening := false }

/-- What earlier clients have left pending can never run once their conversion is over; only
how many elements stay open is kept. -/
def handOver {μ : Type} (c : Converter κ) : Converter μ :=
  { c with
    pending := c.pending.map fun
      | .layout a => .layout a
      | _ => .nothing }

end Converter
end DocMarkdown
