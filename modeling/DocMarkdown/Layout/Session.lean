import DocMarkdown.Element
import DocMarkdown.Layout.Indent
import DocMarkdown.Markdown.Escape
import DocMarkdown.Markdown.Fragment

/-! A session is the output of one capture with its layout state: the pieces written so
far, the indentation, and what is open around the next piece. Opening an element writes
its beginning and leaves the action that writes its end. -/

namespace DocMarkdown.Layout
open Markdown

inductive Mode
  | text
  | markdown
  deriving DecidableEq

/-- What the open elements mean for their content. Lists are kept innermost first. -/
structure Context where
  para : Bool := false
  codeListing : Bool := false
  htmlHeading : Bool := false
  lists : List ListKind := []
  deriving DecidableEq

/-- The output is kept in pieces, the last one first. -/
structure Session where
  mode : Mode
  indent : Indent
  output : List Text := []
  context : Context := {}
  deriving DecidableEq

inductive Action
  | write (t : Text)
  | endPara
  | endCodeListing
  | endRawHtml (block : Bool)
  | endList
  deriving DecidableEq

def codeFence : Text := "```".toList

def marker : Option ListKind → Text
  | some .bullet => "- ".toList
  | _ => "1. ".toList

namespace Session

def new (width : Nat) (mode : Mode) : Session := { mode, indent := { width } }

def text (s : Session) : Text := s.output.reverse.flatten

def captured (s : Session) : Text :=
  match s.mode with
  | .text => s.text
  | .markdown => s.text.trim

def write (t : Text) (s : Session) : Session := { s with output := t :: s.output }

def writeMargin (rest : Text) (s : Session) : Session :=
  let (t, indent) := s.indent.margin
  { s with indent }.write (t ++ rest)

def writeLineStart (rest : Text) (s : Session) : Session :=
  let (t, indent) := s.indent.lineStart
  { s with indent }.write (t ++ rest)

def literal (t : Text) (s : Session) : Session :=
  match s.mode with
  | .text => s.write t
  | .markdown => s.write (escape t)

def trimLine (s : Session) : Session :=
  match s.output with
  | [] => s
  | last :: before =>
    if last.allBlank then { s with output := last.dropEnd (· == ' ') :: before } else s

def rawBlock (content : Text) (s : Session) : Session :=
  if s.context.codeListing then s.writeMargin (content ++ ['\n'])
  else match Fragment.read content with
    | .heading h =>
      let s := { s with context := { s.context with htmlHeading := true } }
      (if h.closing then s.trimLine else s).write h.markdown
    | fragment => s.write fragment.markdown

def openElement (e : Element) (attributes : Attributes) (s : Session) : Session × Option Action :=
  match e with
  | .para =>
    let s := s.writeLineStart []
    ({ s with context := { s.context with para := true } }, some .endPara)
  | .emphasis => enclose "*".toList
  | .strong => enclose "**".toList
  | .codeVoice => enclose "`".toList
  | .codeListing =>
    let language := (attributes.get? "language".toList).getD []
    let s := s.writeLineStart (codeFence ++ language ++ ['\n'])
    ({ s with context := { s.context with codeListing := true } }, some .endCodeListing)
  | .codeLineNumbered => (s, none)
  | .link =>
    let target := (attributes.get? "href".toList).getD []
    (s.write "[".toList, some (.write ("](".toList ++ target ++ [')'])))
  | .rawHtml =>
    let block := !s.context.para
    (if block then s.writeLineStart [] else s, some (.endRawHtml block))
  | .list kind =>
    let s := if s.context.lists.isEmpty then s.write ['\n'] else s
    ({ s with
        indent := s.indent.increment
        context := { s.context with lists := kind :: s.context.lists } }, some .endList)
  | .item =>
    let s := { s with indent := s.indent.decrement }.writeMargin []
    let s := { s with indent := s.indent.increment }.write (marker s.context.lists.head?)
    ({ s with indent := s.indent.skipNext }, none)
where
  enclose (delimiter : Text) : Session × Option Action :=
    (s.write delimiter, some (.write delimiter))

/-- Only the end of a list can fail, when the session has no list open. -/
def permits (s : Session) : Action → Bool
  | .endList => !s.context.lists.isEmpty
  | _ => true

def close (a : Action) (s : Session) : Session :=
  match a with
  | .write t => s.write t
  | .endPara =>
    let s := s.write ['\n']
    { s with context := { s.context with para := false } }
  | .endCodeListing =>
    let s := s.writeMargin (codeFence ++ ['\n'])
    { s with context := { s.context with codeListing := false } }
  | .endRawHtml block =>
    let s := if block && !s.context.htmlHeading then s.write ['\n'] else s
    { s with context := { s.context with htmlHeading := false } }
  | .endList =>
    { s with
      indent := s.indent.decrement
      context := { s.context with lists := s.context.lists.tail } }

end Session
end DocMarkdown.Layout
