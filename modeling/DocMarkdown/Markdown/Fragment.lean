import DocMarkdown.Text.Blank

/-! The raw HTML that has a Markdown form: an image tag with its attributes in the order
source, title, alternative text, a horizontal rule, and a heading tag. Any other fragment
is kept as it is. -/

namespace DocMarkdown.Markdown

structure Image where
  source : Text
  title : Option Text
  alternative : Option Text
  deriving DecidableEq

def sourceMark : Text := "<img src=\"".toList

def titleMark : Text := "\" title=\"".toList

def alternativeMark : Text := "\" alt=\"".toList

def endMark : Text := "\"/>".toList

/-- What stands before the first place where `begins` holds, and the text from there on. What
has been passed is kept in reverse. -/
def breakBefore (begins : Text → Bool) (done : Text) : Text → Text × Text
  | [] => (done.reverse, [])
  | c :: t =>
    if begins (c :: t) then (done.reverse, c :: t) else breakBefore begins (c :: done) t

def withoutEnd? (ending t : Text) : Option Text :=
  (ending.reverse.isPrefixOf? t.reverse).map List.reverse

/-- The attributes between the marks at both ends. A value reaches to the first mark of an
attribute that may follow it; the last one runs over quotes and marks. -/
def Image.ofBody (body : Text) : Image :=
  let (source, rest) :=
    breakBefore (fun t => titleMark.isPrefixOf t || alternativeMark.isPrefixOf t) [] body
  match titleMark.isPrefixOf? rest with
  | some rest =>
    let (title, rest) := breakBefore alternativeMark.isPrefixOf [] rest
    ⟨source, some title, alternativeMark.isPrefixOf? rest⟩
  | none => ⟨source, none, alternativeMark.isPrefixOf? rest⟩

def Image.read (html : Text) : Option Image := do
  let rest ← sourceMark.isPrefixOf? html
  let body ← withoutEnd? endMark rest
  if body.contains '\n' then none else some (.ofBody body)

def Image.markdown (i : Image) : Text :=
  let title := match i.title with
    | some t => " \"".toList ++ t ++ ['"']
    | none => []
  "![".toList ++ i.alternative.getD [] ++ "](".toList ++ i.source ++ title ++ [')']

structure Heading where
  level : Nat
  closing : Bool
  deriving DecidableEq

def headingLevel (c : Char) : Option Nat :=
  if '1' ≤ c && c ≤ '6' then some (c.toNat - '0'.toNat) else none

def Heading.read : Text → Option Heading
  | ['<', 'h', c, '>'] => (headingLevel c).map (⟨·, false⟩)
  | ['<', '/', 'h', c, '>'] => (headingLevel c).map (⟨·, true⟩)
  | _ => none

def Heading.markdown (h : Heading) : Text :=
  if h.closing then [] else List.replicate h.level '#' ++ [' ']

def isRule (html : Text) : Bool := html == "<hr/>".toList

inductive Fragment
  | image (i : Image)
  | rule
  | heading (h : Heading)
  | other (html : Text)

def Fragment.read (html : Text) : Fragment :=
  match Image.read html with
  | some i => .image i
  | none =>
    if isRule html then .rule
    else match Heading.read html with
      | some h => .heading h
      | none => .other html

def Fragment.markdown : Fragment → Text
  | .image i => i.markdown
  | .rule => "---".toList
  | .heading h => h.markdown
  | .other html => html

example : (Image.read "<img src=\"a\" alt=\"b\"/>".toList).map Image.markdown =
    some "![b](a)".toList := by decide
example : (Image.read "<img src=\"a\" x=\"b\"/>".toList).map Image.source =
    some "a\" x=\"b".toList := by decide
example : Heading.read "</h6>".toList = some ⟨6, true⟩ := by decide

end DocMarkdown.Markdown
