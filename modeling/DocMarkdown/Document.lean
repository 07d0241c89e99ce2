import DocMarkdown.Xml.Reading

/-! A document is given as text or as bytes. A text may hold lone surrogates, which no
encoding can carry; such a document is refused before anything of it is read. -/

namespace DocMarkdown

inductive TextUnit
  | scalar (c : Char)
  | surrogate (code : Nat)
  deriving DecidableEq

inductive Document
  | text (units : List TextUnit)
  | bytes (b : List UInt8)
  deriving DecidableEq

namespace Document

def ofText (t : Text) : Document := .text (t.map .scalar)

def ofString (s : String) : Document := ofText s.toList

def scalars? : List TextUnit → Option Text
  | [] => some []
  | .scalar c :: rest => (scalars? rest).map (c :: ·)
  | .surrogate _ :: _ => none

def TextUnit.shown : TextUnit → Text
  | .scalar c => [c]
  | .surrogate code =>
    ['\\', 'u'] ++ [code / 0x1000, code / 0x100, code / 0x10, code].map Text.Utf8.hexDigit

def shown : Document → Text
  | .text units => units.flatMap TextUnit.shown
  | .bytes b => Text.Utf8.decodeLossy b

def read : Document → Xml.Reading
  | .text units =>
    match scalars? units with
    | some t => Xml.readBytes true (Text.Utf8.encode t)
    | none => ⟨[], .malformed .notUnicode ⟨1, 0⟩⟩
  | .bytes b => Xml.readBytes false b

end Document
end DocMarkdown
