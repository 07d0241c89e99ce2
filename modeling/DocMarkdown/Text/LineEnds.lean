import DocMarkdown.Text.Blank

/-! Line ends: a line feed, a carriage return, or both in this order. -/

namespace DocMarkdown.Text

def unifyLineEnds : Text → Text
  | '\r' :: '\n' :: t => '\n' :: unifyLineEnds t
  | '\r' :: t => '\n' :: unifyLineEnds t
  | c :: t => c :: unifyLineEnds t
  | [] => []

end DocMarkdown.Text
