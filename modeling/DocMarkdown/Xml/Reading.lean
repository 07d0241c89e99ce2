import DocMarkdown.Xml.Content
import DocMarkdown.Xml.Header
import DocMarkdown.Xml.Prolog

/-! Reading a document: the events it delivers, in order, and how the reading ends. Events
before a fault have been delivered; a run of characters held back at the fault is lost.

A document is read in one piece, and elements and entities nest to any depth. Two bounds of a
running tokenizer are left out: it is fed a mebibyte at a time, so that a longer document may have
its runs of characters cut at these places too, and its stack is finite. -/

namespace DocMarkdown.Xml

inductive Ending
  | complete
  | malformed (reason : Reason) (place : Place)
  | unusableEncoding (name : Text) (why : Misfit)
  deriving DecidableEq

structure Reading where
  events : List Event
  ending : Ending

structure Body where
  bytes : List UInt8
  cells : List Cell
  encoding : Encoding
  standalone : Bool
  rest : List Cell

def Body.ragged (b : Body) : Bool := b.encoding.ragged b.bytes

def Body.account (b : Body) : Account := .document b.encoding.unit

def Body.stop (b : Body) : Nat := b.bytes.length / b.encoding.unit

def Body.fault (b : Body) (f : Fault) : Ending := .malformed f.reason (.find f.offset b.cells)

def Body.early (b : Body) : Reason := if b.ragged then .unclosedToken else .noElement

def Body.bytesRead (b : Body) : Nat := offsetOf b.stop b.rest * b.encoding.unit

def Body.declare (b : Body) (e : Encoding) : Body :=
  let cells := e.cells b.bytes
  let offset := b.bytesRead / e.unit
  { b with cells, encoding := e, rest := cells.dropWhile fun c => c.offset < offset }

/-- Reads the declaration that may begin a document. The encoding of a text is settled, so
that one it declares is not looked at. -/
def Body.open (isText : Bool) (bytes : List UInt8) (e : Encoding) (marked : Bool) :
    Except Ending Body :=
  let cells := e.cells bytes
  let body : Body := ⟨bytes, cells, e, false, if marked then cells.tail else cells⟩
  match body.rest with
  | c :: rest =>
    match readLexeme c rest with
    | .ok (.instruction i, rest) =>
      if i.isDeclaration then
        match Header.read i.body i.endOffset with
        | .error offset => .error (body.fault ⟨.badDeclaration, offset⟩)
        | .ok header =>
          let body := { body with rest, standalone := header.standalone }
          match isText, header.encoding with
          | false, some (name, offset) =>
            match chooseEncoding e name with
            | .use e => .ok (body.declare e)
            | .refused reason => .error (body.fault ⟨reason, offset⟩)
            | .unusable why => .error (.unusableEncoding name why)
          | _, _ => .ok body
      else .ok body
    | _ => .ok body
  | [] => .ok body

def Body.read (b : Body) : Reading :=
  let before : Tally := ⟨b.bytesRead, 0⟩
  match readProlog b.ragged b.stop b.account before { standalone := b.standalone } b.rest with
  | .error f => ⟨[], b.fault f⟩
  | .ok ((doctype, root), tally) =>
    let scope : Scope := .document b.early b.encoding.unit
    match readRoot scope b.stop b.encoding.converts doctype root { tally } with
    | .error f trail => ⟨trail.events.reverse, b.fault f⟩
    | .ok rest trail =>
      match readEpilog b.ragged b.stop b.account trail.tally rest with
      | .error f => ⟨trail.events.reverse, b.fault f⟩
      | .ok () => ⟨trail.events.reverse, .complete⟩

def readBytes (isText : Bool) (bytes : List UInt8) : Reading :=
  let opened : Except Ending Body := match Opening.read bytes with
    | .nothing => .error (.malformed .noElement ⟨1, 0⟩)
    | .cutShort => .error (.malformed .unclosedToken ⟨1, 0⟩)
    | .plain e => Body.open isText bytes e false
    | .marked e => Body.open isText bytes e true
  match opened with
  | .error ending => ⟨[], ending⟩
  | .ok body => body.read

end DocMarkdown.Xml
