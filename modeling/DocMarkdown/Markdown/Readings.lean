import DocMarkdown.Markdown.Fragment

/-! All readings of an image tag, in order of preference: shorter values come before longer
ones, and an attribute that may be missing is looked for before it is left out. A value may
run over quotes, but holds no line feed. -/

namespace DocMarkdown.Markdown

def quotedValues : Text → List (Text × Text)
  | [] => []
  | c :: rest =>
    let longer := if c = '\n' then [] else (quotedValues rest).map fun (v, r) => (c :: v, r)
    if c = '"' then ([], rest) :: longer else longer

/-- All readings of an attribute that may be missing; those in which it is present come first. -/
def optionalValues (label : Text) (t : Text) : List (Option Text × Text) :=
  (match label.isPrefixOf? t with
    | some rest => (quotedValues rest).map fun (v, r) => (some v, r)
    | none => []) ++ [(none, t)]

def Image.readings (html : Text) : List Image :=
  match sourceMark.isPrefixOf? html with
  | none => []
  | some rest =>
    (quotedValues rest).flatMap fun (source, rest) =>
      (optionalValues " title=\"".toList rest).flatMap fun (title, rest) =>
        (optionalValues " alt=\"".toList rest).filterMap fun (alternative, rest) =>
          if rest = "/>".toList then some ⟨source, title, alternative⟩ else none

example : (Image.readings "<img src=\"a\" title=\"b\"/>".toList).map Image.source =
    ["a".toList, "a\" title=\"b".toList] := by decide
example : (Image.readings "<img src=\"a\" title=\"\" alt=\"\"/>".toList).head? =
    Image.read "<img src=\"a\" title=\"\" alt=\"\"/>".toList := by decide

end DocMarkdown.Markdown
