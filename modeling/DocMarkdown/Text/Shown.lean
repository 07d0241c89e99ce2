import DocMarkdown.Text.Printable
import DocMarkdown.Text.Utf8

/-! Text in quotes as messages show it: in single quotes, or in double quotes when it holds
a single one and no double one. What has no printed form is shown by its number. -/

namespace DocMarkdown.Text

def hexDigits (width n : Nat) : Text :=
  (List.range width).map fun i => Utf8.hexDigit (n / Nat.pow 16 (width - 1 - i))

def shownChar (quote c : Char) : Text :=
  let n := c.toNat
  if c = quote || c = '\\' then ['\\', c]
  else if c = '\n' then ['\\', 'n']
  else if c = '\r' then ['\\', 'r']
  else if c = '\t' then ['\\', 't']
  else if isPrintable c then [c]
  else if n < 0x100 then ['\\', 'x'] ++ hexDigits 2 n
  else if n < 0x10000 then ['\\', 'u'] ++ hexDigits 4 n
  else ['\\', 'U'] ++ hexDigits 8 n

def quoteFor (t : Text) : Char := if t.contains '\'' && !t.contains '"' then '"' else '\''

def shown (t : Text) : Text := quoteFor t :: t.flatMap (shownChar (quoteFor t)) ++ [quoteFor t]

example : shown "it's".toList = "\"it's\"".toList := by decide
example : shown "a\x07\n\\".toList = "'a\\x07\\n\\\\'".toList := by decide

end DocMarkdown.Text
