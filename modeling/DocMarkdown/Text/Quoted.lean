import DocMarkdown.Text.Utf8

/-! Text in double quotes for JSON, in ASCII alone: a character beyond the basic plane is
written as two surrogates. -/

namespace DocMarkdown.Text

def hexQuad (n : Nat) : Text :=
  ['\\', 'u'] ++ [n / 0x1000, n / 0x100, n / 0x10, n].map Utf8.hexDigit

def quoteChar (c : Char) : Text :=
  let n := c.toNat
  if c = '"' || c = '\\' then ['\\', c]
  else if 0x20 ≤ n && n ≤ 0x7e then [c]
  else if n = 8 then ['\\', 'b']
  else if n = 9 then ['\\', 't']
  else if n = 10 then ['\\', 'n']
  else if n = 12 then ['\\', 'f']
  else if n = 13 then ['\\', 'r']
  else if n < 0x10000 then hexQuad n
  else hexQuad (0xd800 + (n - 0x10000) / 0x400) ++ hexQuad (0xdc00 + (n - 0x10000) % 0x400)

def quoted (t : Text) : Text := '"' :: t.flatMap quoteChar ++ ['"']

end DocMarkdown.Text
