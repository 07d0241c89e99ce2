import DocMarkdown.Config
import DocMarkdown.Settings.Value

/-! Settings as they are given, before it is known whether they can be used. A table of a
file names them with dashes or underscores; overrides replace what a file says; checking
gives the configuration or tells the first setting that has no valid value. -/

namespace DocMarkdown

inductive Settings.Field
  | indentWidth
  | strict
  | maxFileSize
  deriving DecidableEq

namespace Settings.Field

def name : Field → String
  | indentWidth => "indent_width"
  | strict => "strict"
  | maxFileSize => "max_file_size"

def all : List Field := [indentWidth, strict, maxFileSize]

def ofName? (name : Text) : Option Field := all.find? (·.name.toList == name)

def ofKey? (key : Text) : Option Field := ofName? (key.map fun c => if c = '-' then '_' else c)

end Settings.Field

structure Settings where
  indentWidth : Settings.Value := .integer Config.defaultIndentWidth
  strict : Settings.Value := .boolean false
  maxFileSize : Settings.Value := .integer Config.defaultMaxFileSize

namespace Settings

inductive Fault
  | notInteger (field : Field)
  | notPositive (field : Field)
  | notBoolean (field : Field)
  | badTable (path : List Text) (file : Text)
  deriving DecidableEq

def Fault.message : Fault → Text
  | notInteger field => "`".toList ++ field.name.toList ++ "` must be an integer".toList
  | notPositive field => "`".toList ++ field.name.toList ++ "` must be a positive integer".toList
  | notBoolean field => "`".toList ++ field.name.toList ++ "` must be a boolean".toList
  | badTable path file =>
    "Invalid `[".toList ++ ['.'].intercalate path ++ "]` settings in ".toList ++ file

def get (s : Settings) : Field → Value
  | .indentWidth => s.indentWidth
  | .strict => s.strict
  | .maxFileSize => s.maxFileSize

def set (s : Settings) (v : Value) : Field → Settings
  | .indentWidth => { s with indentWidth := v }
  | .strict => { s with strict := v }
  | .maxFileSize => { s with maxFileSize := v }

/-- Sets each entry in turn, so that the last one for a field holds. A key without a field
refuses them all. -/
def assign (fieldOf : Text → Option Field) (s : Settings) : Entries → Option Settings
  | [] => some s
  | (key, v) :: rest => (fieldOf key).bind fun field => (s.set v field).assign fieldOf rest

def ofTable (path : List Text) (file : Text) : Value → Except Fault Settings
  | .null => .ok {}
  | .table entries =>
    match assign Field.ofKey? {} entries with
    | some s => .ok s
    | none => .error (.badTable path file)
  | _ => .error (.badTable path file)

def changes (overrides : Entries) : Entries := overrides.filter fun (_, v) => !v.isNull

/-- The settings that are overridden go by this name themselves. -/
def ownName : Text := "config".toList

def override (s : Settings) (overrides : Entries) : Option Settings :=
  if overrides.any (·.1 == ownName) then none
  else s.assign Field.ofName? (changes overrides)

def integer (s : Settings) (field : Field) : Except Fault Int :=
  match s.get field with
  | .integer n => .ok n
  | _ => .error (.notInteger field)

def positive (n : Int) (field : Field) : Except Fault { n : Nat // 0 < n } :=
  if h : 0 < n then .ok ⟨n.toNat, by omega⟩ else .error (.notPositive field)

def check (s : Settings) : Except Fault Config := do
  let indentWidth ← s.integer .indentWidth
  let maxFileSize ← s.integer .maxFileSize
  let indentWidth ← positive indentWidth .indentWidth
  let maxFileSize ← positive maxFileSize .maxFileSize
  match s.strict with
  | .boolean strict =>
    .ok ⟨indentWidth.1, strict, maxFileSize.1, indentWidth.2, maxFileSize.2⟩
  | _ => .error (.notBoolean .strict)

end Settings
end DocMarkdown
