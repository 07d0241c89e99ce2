import DocMarkdown.Text.Blank

/-! The small parts of a settings file: blanks, comments, keys and quoted strings. A reader
takes the text from where it stands and gives what it has read with the text that is left. -/

namespace DocMarkdown.Toml

inductive Fault
  | invalid
  | longNumber (digits : Nat)
  deriving DecidableEq

def isBlank (c : Char) : Bool := c == ' ' || c == '\t'

def isBlankOrEnd (c : Char) : Bool := isBlank c || c == '\n'

def isPlain (c : Char) : Bool := c == '\t' || (0x20 ≤ c.toNat && c.toNat != 0x7f)

def isPlainOrEnd (c : Char) : Bool := isPlain c || c == '\n'

def skipBlanks (t : Text) : Text := t.dropWhile isBlank

def skipComment : Text → Except Fault Text
  | '#' :: t =>
    if (t.takeWhile (· != '\n')).all isPlain then .ok (t.dropWhile (· != '\n'))
    else .error .invalid
  | t => .ok t

def skipLines (inComment : Bool) : Text → Except Fault Text
  | [] => .ok []
  | c :: t =>
    if inComment then
      if c = '\n' then skipLines false t
      else if isPlain c then skipLines true t
      else .error .invalid
    else if isBlankOrEnd c then skipLines false t
    else if c = '#' then skipLines true t
    else .ok (c :: t)

def isHexDigit (c : Char) : Bool := c.isDigit || ('a' ≤ c && c ≤ 'f') || ('A' ≤ c && c ≤ 'F')

def hexValue (c : Char) : Nat :=
  if c.isDigit then c.toNat - '0'.toNat
  else if 'a' ≤ c then c.toNat - 'a'.toNat + 10
  else c.toNat - 'A'.toNat + 10

def inBase (base : Nat) (digits : Text) : Nat := digits.foldl (fun n c => base * n + hexValue c) 0

def numbered (digits : Text) : Option Char :=
  let n := inBase 16 digits
  if digits.all isHexDigit && n.isValidChar then some (Char.ofNat n) else none

def escaped : Char → Option Char
  | 'b' => some '\x08'
  | 't' => some '\t'
  | 'n' => some '\n'
  | 'f' => some '\x0c'
  | 'r' => some '\r'
  | '"' => some '"'
  | '\\' => some '\\'
  | _ => none

/-- Where a string stands after a backslash that ends a line: on that line still, where only
blanks may follow, or on the following ones, where blanks are left out. -/
inductive Gap
  | none
  | line
  | lines
  deriving DecidableEq

def char (c : Option Char) (rest : Except Fault (Text × Text)) : Except Fault (Text × Text) :=
  match c with
  | some c => rest.map fun (t, rest) => (c :: t, rest)
  | none => .error .invalid

def readBasic (many : Bool) : Gap → Text → Except Fault (Text × Text)
  | _, [] => .error .invalid
  | .line, c :: rest =>
    if isBlank c then readBasic many .line rest
    else if c = '\n' then readBasic many .lines rest
    else .error .invalid
  | _, '"' :: rest =>
    if !many then .ok ([], rest)
    else match rest with
      | '"' :: '"' :: after => .ok ([], after)
      | _ => char (some '"') (readBasic many .none rest)
  | _, '\\' :: 'u' :: a :: b :: c :: d :: rest =>
    char (numbered [a, b, c, d]) (readBasic many .none rest)
  | _, '\\' :: 'U' :: a :: b :: c :: d :: e :: f :: g :: h :: rest =>
    char (numbered [a, b, c, d, e, f, g, h]) (readBasic many .none rest)
  | _, '\\' :: c :: rest =>
    if many && c = '\n' then readBasic many .lines rest
    else if many && isBlank c then readBasic many .line rest
    else char (escaped c) (readBasic many .none rest)
  | gap, c :: rest =>
    if gap = .lines && isBlankOrEnd c then readBasic many .lines rest
    else if isPlain c || (many && c = '\n') then char (some c) (readBasic many .none rest)
    else .error .invalid

def readLiteral (t : Text) : Except Fault (Text × Text) :=
  let body := t.takeWhile (· != '\'')
  match t.dropWhile (· != '\'') with
  | _ :: rest => if body.all isPlain then .ok (body, rest) else .error .invalid
  | [] => .error .invalid

def readLiteralLines : Text → Except Fault (Text × Text)
  | '\'' :: '\'' :: '\'' :: rest => .ok ([], rest)
  | c :: rest =>
    if isPlainOrEnd c then (readLiteralLines rest).map fun (t, rest) => (c :: t, rest)
    else .error .invalid
  | [] => .error .invalid

def dropLineEnd : Text → Text
  | '\n' :: t => t
  | t => t

/-- One or two quotes right after the three that end a string belong to it. -/
def extraQuotes (quote : Char) (t rest : Text) : Text × Text :=
  let extra := (rest.take 2).takeWhile (· == quote)
  (t ++ extra, rest.drop extra.length)

def readString : Text → Option (Except Fault (Text × Text))
  | '"' :: '"' :: '"' :: rest =>
    some ((readBasic true .none (dropLineEnd rest)).map fun (t, rest) => extraQuotes '"' t rest)
  | '"' :: rest => some (readBasic false .none rest)
  | '\'' :: '\'' :: '\'' :: rest =>
    some ((readLiteralLines (dropLineEnd rest)).map fun (t, rest) => extraQuotes '\'' t rest)
  | '\'' :: rest => some (readLiteral rest)
  | _ => none

def isKeyChar (c : Char) : Bool := c.isAlphanum || c == '-' || c == '_'

def startsKey (c : Char) : Bool := isKeyChar c || c == '"' || c == '\''

def readKeyPart : Text → Except Fault (Text × Text)
  | '"' :: rest => readBasic false .none rest
  | '\'' :: rest => readLiteral rest
  | t =>
    let part := t.takeWhile isKeyChar
    if part.isEmpty then .error .invalid else .ok (part, t.dropWhile isKeyChar)

/-- Parts joined by points, with blanks around them. Every part takes a character at least, so
that `fuel` is never used up if it is the length of the text. -/
def readKeyParts : Nat → Text → Except Fault (List Text × Text)
  | 0, _ => .error .invalid
  | fuel + 1, t => do
    let (part, rest) ← readKeyPart t
    match skipBlanks rest with
    | '.' :: rest => do
      let (parts, rest) ← readKeyParts fuel (skipBlanks rest)
      return (part :: parts, rest)
    | rest => return ([part], rest)

def readKey (t : Text) : Except Fault (List Text × Text) := readKeyParts t.length t

example : readKey "a . \"b c\".'d' = 1".toList =
    .ok (["a".toList, "b c".toList, "d".toList], "= 1".toList) := by rfl
example : readBasic true .none "a\\  \n  b\"\"\"".toList = .ok ("ab".toList, []) := by rfl

end DocMarkdown.Toml
