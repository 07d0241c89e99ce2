import DocMarkdown.Converter.Basic

/-! Running documents through a converter. An operation may stop early and leaves its state
either way. A conversion delivers the events of its document one after the other; a handler
that stops ends the delivery, and an abort ends it quietly. -/

namespace DocMarkdown
open Layout

structure World (σ κ : Type) where
  client : σ
  converter : Converter κ

abbrev Operation (σ κ : Type) := EStateM Stop (World σ κ)

/-- Handlers for the elements that have no layout of their own. The first is called when such
an element opens and may leave something for its end, which the second receives. -/
structure Client (σ κ : Type) where
  opening : Text → Attributes → Operation σ κ (Option κ)
  closing : κ → Operation σ κ Unit

namespace Operation
variable {σ κ : Type}

def change (f : Converter κ → Converter κ) : Operation σ κ Unit :=
  modify fun w => { w with converter := f w.converter }

def beginCapture (mode : Mode) : Operation σ κ Unit := change (.beginCapture mode)

def endCapture : Operation σ κ Text :=
  modifyGet fun w =>
    let (text, converter) := w.converter.endCapture
    (text, { w with converter })

def reset : Operation σ κ Unit := change .reset

def abort : Operation σ κ Unit := do
  if (← get).converter.running then throw .aborted

def close (client : Option (Client σ κ)) : Pending κ → Operation σ κ Unit
  | .nothing => return
  | .layout a => do
    let permitted := (← get).converter.session.permits a
    change fun c => { c with session := c.session.close a }
    if !permitted then throw .emptyPop
  | .client k =>
    match client with
    | some client => client.closing k
    | none => return

def openOther (client : Option (Client σ κ)) (name : Text) (attributes : Attributes) :
    Operation σ κ Unit := do
  match client, (← get).converter.listening with
  | some client, true =>
    match ← client.opening name attributes with
    | some k => change (.push (.client k))
    | none => change (.push .nothing)
  | _, _ => change (.push .nothing)

def handle (client : Option (Client σ κ)) : Xml.Event → Operation σ κ Unit
  | .openElement name attributes =>
    match Element.ofTag? name with
    | some e => change (.openLayout e attributes)
    | none => openOther client name attributes
  | .closeElement _ => do
    match (← get).converter.pending with
    | [] => throw .emptyPop
    | p :: pending =>
      change fun c => { c with pending }
      close client p
  | .characters t => change (.characters t)
  | .openRaw => change .openRaw
  | .closeRaw => change .closeRaw

def feed (client : Option (Client σ κ)) : List Xml.Event → Operation σ κ Unit
  | [] => return
  | e :: rest => do
    handle client e
    feed client rest

def conclude (d : Document) : Xml.Ending → Operation σ κ Unit
  | .complete => return
  | .malformed reason place => do
    let m := Malformed.ofReading reason place d
    if (← get).converter.config.strict then throw (.malformed m)
    change fun c => { c with reports := m :: c.reports }
  | .unusableEncoding name why => throw (.unusableEncoding name why)

/-- Delivers a reading. However the delivery ends, no conversion goes on afterwards. -/
def deliver (client : Option (Client σ κ)) (d : Document) (r : Xml.Reading) :
    Operation σ κ Unit := fun w =>
  let settle := fun w : World σ κ => { w with converter := w.converter.finish }
  let begun := { w with converter := w.converter.start client.isSome }
  match (do feed client r.events; conclude d r.ending : Operation σ κ Unit) begun with
  | .ok () w => .ok () (settle w)
  | .error .aborted w => .ok () (settle w)
  | .error stop w => .error stop (settle w)

def convert (client : Option (Client σ κ)) (d : Document) : Operation σ κ Unit :=
  deliver client d d.read

def toMarkdown (client : Option (Client σ κ)) (d : Document) : Operation σ κ Text := do
  reset
  beginCapture .markdown
  convert client d
  endCapture

end Operation

abbrev Plain := Operation Unit Empty

namespace Converter

def markdown (config : Config) (d : Document) : Except Stop Text × List Malformed :=
  match (Operation.toMarkdown none d : Plain Text) ⟨(), .new config⟩ with
  | .ok t w => (.ok t, w.converter.reports.reverse)
  | .error stop w => (.error stop, w.converter.reports.reverse)

end Converter
end DocMarkdown
