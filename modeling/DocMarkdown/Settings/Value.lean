import DocMarkdown.Settings.Moment

/-! The values that a settings file can give, of any type. A file has no null; an override
that is null leaves the setting as it is. -/

namespace DocMarkdown.Settings

inductive Value
  | null
  | boolean (b : Bool)
  | integer (n : Int)
  | float (x : Float)
  | text (t : Text)
  | date (d : Date)
  | datetime (d : Date) (t : Time) (offset : Option Int)
  | time (t : Time)
  | array (items : List Value)
  | table (entries : List (Text × Value))
  deriving Inhabited

abbrev Entries := List (Text × Value)

namespace Value

def isNull : Value → Bool
  | null => true
  | _ => false

def at? (v : Value) : List Text → Option Value
  | [] => some v
  | key :: path =>
    match v with
    | table entries => (entries.lookup key).bind (·.at? path)
    | _ => none

end Value
end DocMarkdown.Settings
