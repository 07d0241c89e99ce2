import DocMarkdown.Element
import DocMarkdown.Text.Utf8
import DocMarkdown.Xml.Tally

/-! What a document delivers while it is read: elements that open and close, runs of
characters, and sections of raw characters. A run is put together from pieces and held back
until something else is delivered or the run outgrows its bound. -/

namespace DocMarkdown.Xml

inductive Event
  | openElement (name : Text) (attributes : Attributes)
  | closeElement (name : Text)
  | characters (t : Text)
  | openRaw
  | closeRaw
  deriving DecidableEq

def heldLimit : Nat := 8192

def pieceLimit : Nat := 1024

/-- Events delivered and the pieces of the run held back, both with the last one first, and
the bytes that have been read. -/
structure Trail where
  events : List Event := []
  held : List Text := []
  width : Nat := 0
  tally : Tally := {}

namespace Trail

def flush (t : Trail) : Trail :=
  if t.held.isEmpty then t
  else { t with events := .characters t.held.reverse.flatten :: t.events, held := [], width := 0 }

def deliver (e : Event) (t : Trail) : Trail :=
  let t := t.flush
  { t with events := e :: t.events }

def hold (piece : Text) (t : Trail) : Trail :=
  let width := textWidth piece
  let t := if heldLimit < t.width + width then t.flush else t
  if heldLimit < width then { t with events := .characters piece :: t.events }
  else { t with held := piece :: t.held, width := t.width + width }

end Trail

def pieces (t : Text) : List Text := go pieceLimit [] t
where
  go (room : Nat) (piece : Text) : Text → List Text
    | [] => [piece.reverse]
    | c :: rest =>
      let width := Text.Utf8.width c
      if width ≤ room then go (room - width) (c :: piece) rest
      else piece.reverse :: go (pieceLimit - width) [c] rest

def Trail.holdText (converts : Bool) (t : Text) (trail : Trail) : Trail :=
  if converts then (pieces t).foldl (fun trail piece => trail.hold piece) trail else trail.hold t

/-- A sequence of events in which every end closes the element opened last; `names` are the
elements open before it, the innermost first. -/
inductive Event.Nested : List Text → List Event → Prop
  | nil (names : List Text) : Nested names []
  | opened {names : List Text} {name : Text} (attributes : Attributes) {rest : List Event}
      (h : Nested (name :: names) rest) : Nested names (.openElement name attributes :: rest)
  | closed {names : List Text} {name : Text} {rest : List Event} (h : Nested names rest) :
      Nested (name :: names) (.closeElement name :: rest)
  | text {names : List Text} (t : Text) {rest : List Event} (h : Nested names rest) :
      Nested names (.characters t :: rest)
  | raw {names : List Text} {rest : List Event} (h : Nested names rest) :
      Nested names (.openRaw :: rest)
  | endRaw {names : List Text} {rest : List Event} (h : Nested names rest) :
      Nested names (.closeRaw :: rest)

end DocMarkdown.Xml
