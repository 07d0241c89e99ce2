import DocMarkdown.Xml.Tag

/-! The tokens of an element's content. -/

namespace DocMarkdown.Xml

/-- A `tail` is text at the very end that could have begun a mark; the text cannot be complete
after it, at the place given. Where none is given it is the end. -/
inductive Token
  | text (t : Text)
  | tail (t : Text) (offset : Option Nat)
  | reference (r : Reference)
  | openTag (t : Tag)
  | closeTag (name : Text) (offset : Nat)
  | skipped
  | declaration
  | rawStart

inductive Bracket
  | mark (offset : Nat) (rest : List Cell)
  | cutOff
  | text

def bracket : List Cell → Bracket
  | [] => .cutOff
  | [d] => if d.char = ']' then .cutOff else .text
  | d :: e :: rest => if d.char = ']' && e.char = '>' then .mark e.offset rest else .text

/-- The longest run of text, after what is `done` in reverse. It stops before markup, line
ends, and brackets at the very end. -/
def textRun (done : Text) : List Cell → Except Halt (Text × List Cell)
  | [] => .ok (done.reverse, [])
  | c :: rest =>
    match c.kind with
    | .bad | .cut | .carriageReturn | .lineFeed => .ok (done.reverse, c :: rest)
    | _ =>
      if c.char = '&' || c.char = '<' then .ok (done.reverse, c :: rest)
      else if c.char = ']' then
        match bracket rest with
        | .mark offset _ => .error (.invalid offset)
        | .cutOff => .ok (done.reverse, c :: rest)
        | .text => textRun (c.char :: done) rest
      else textRun (c.char :: done) rest

/-- The mark that begins raw characters takes six code units after its first bracket. -/
def readRawStart (stop : Nat) (cells : List Cell) : Except Halt (List Cell) :=
  (expectWord "CDATA[".toList cells).mapError fun halt =>
    if stop - offsetOf stop cells < 6 then .unfinished else halt

def readMarkup (stop : Nat) : List Cell → Except Halt (Token × List Cell)
  | [] => .error .unfinished
  | c :: rest =>
    if c.char = '!' then
      match rest with
      | [] => .error .unfinished
      | d :: rest' =>
        if d.char = '-' then (readComment rest').map (Token.skipped, ·)
        else if d.char = '[' then (readRawStart stop rest').map (Token.rawStart, ·)
        else .error (.invalid d.offset)
    else if c.char = '?' then
      (readInstruction rest).map fun (i, rest) =>
        (if i.isDeclaration then .declaration else .skipped, rest)
    else if c.char = '/' then
      (readEndTag rest).map fun (name, after) => (.closeTag name (offsetOf c.offset rest), after)
    else (readTag (c :: rest)).map fun (tag, rest) => (.openTag tag, rest)

def textToken (c : Cell) (rest : List Cell) : Except Halt (Token × List Cell) :=
  (textRun [c.char] rest).map fun (t, rest) => (.text t, rest)

def bracketToken (c : Cell) (rest : List Cell) : Except Halt (Token × List Cell) :=
  match bracket rest with
  | .mark offset _ => .error (.invalid offset)
  | .cutOff => .ok (.tail (c.char :: chars rest) none, [])
  | .text => textToken c rest

def lineEndToken (c : Cell) : List Cell → Except Halt (Token × List Cell)
  | [] => .ok (.tail ['\n'] (some c.offset), [])
  | d :: rest => .ok (.text ['\n'], if d.kind = .lineFeed then rest else d :: rest)

def readToken (stop : Nat) (c : Cell) (rest : List Cell) : Except Halt (Token × List Cell) :=
  match c.kind with
  | .bad => .error (.invalid c.offset)
  | .cut => .error .cutCharacter
  | .lineFeed => .ok (.text ['\n'], rest)
  | .carriageReturn => lineEndToken c rest
  | _ =>
    if c.char = '<' then readMarkup stop rest
    else if c.char = '&' then (readReference rest).map fun (r, rest) => (.reference r, rest)
    else if c.char = ']' then bracketToken c rest
    else textToken c rest

end DocMarkdown.Xml
