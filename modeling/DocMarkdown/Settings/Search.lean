import DocMarkdown.Files.Read
import DocMarkdown.Settings.Basic
import DocMarkdown.Toml.Read

/-! Finding the settings that hold for a directory. Each directory from there up to the root
has two places for a file; the first file that holds one of its tables decides. Files that
are missing or no settings files, and those without the table, are passed over. -/

namespace DocMarkdown.Settings
open Files

structure Place where
  path : Path
  tables : List (List Text)
  found : Entry

/-- Why no settings can be given. A file that is not UTF-8, a number with too many digits and a
path that cannot be asked for are not passed over. -/
inductive SearchFault
  | settings (f : Fault)
  | undecodable (f : Text.Utf8.Flaw)
  | longNumber (digits : Nat)
  | inaccessible (path : Path) (r : Refusal)
  deriving DecidableEq

def SearchFault.message : SearchFault → Text
  | settings f => f.message
  | undecodable f => f.message
  | longNumber digits =>
    "Exceeds the limit (4300 digits) for integer string conversion: value has ".toList ++
      Text.ofNat digits ++ " digits; use sys.set_int_max_str_digits() to increase the limit".toList
  | inaccessible path r => r.message path

def tableName : Text := "xml-to-markdown".toList

def toolTable : List Text := ["tool".toList, tableName]

def projectName : Text := "pyproject.toml".toList

def dotfileName : Text := '.' :: tableName ++ ".toml".toList

def placesIn (look : Lookup) (directory : Path) : List Place :=
  let place := fun name tables =>
    let path := directory.append name
    ⟨path, tables, look path⟩
  [place projectName [toolTable], place dotfileName [[tableName], toolTable]]

def ancestors (directory : Path) : List Path :=
  (List.range (directory.parts.length + 1)).map fun n =>
    { directory with parts := directory.parts.take (directory.parts.length - n) }

def placesFrom (look : Lookup) (directory : Path) : List Place :=
  (ancestors directory).flatMap (placesIn look)

def firstTable (v : Value) : List (List Text) → Option (List Text × Value)
  | [] => none
  | path :: paths =>
    match v.at? path with
    | some table => some (path, table)
    | none => firstTable v paths

/-- The bytes to read settings from. A file that is not there or that cannot be opened has none,
but the question whether it is there must have an answer. -/
def sought (e : Entry) : Except Refusal (Option (List UInt8)) :=
  match e.size with
  | .error r => if r.isAbsence then .ok none else .error r
  | .ok _ =>
    match e.content with
    | .ok bytes => .ok (some bytes)
    | .error .nullCharacter => .error .nullCharacter
    | .error _ => .ok none

def Place.content (p : Place) : Except SearchFault (Option Value) :=
  match sought p.found with
  | .error r => .error (.inaccessible p.path r)
  | .ok none => .ok none
  | .ok (some bytes) =>
    match Text.Utf8.decode? bytes with
    | .error flaw => .error (.undecodable flaw)
    | .ok t =>
      match Toml.read t with
      | .ok v => .ok (some v)
      | .error .invalid => .ok none
      | .error (.longNumber digits) => .error (.longNumber digits)

def Place.settings (p : Place) : Except SearchFault (Option Settings) := do
  match ← p.content with
  | none => return none
  | some v =>
    match firstTable v p.tables with
    | none => return none
    | some (path, table) =>
      match ofTable path p.path.shown table with
      | .ok s => return some s
      | .error f => throw (.settings f)

def search : List Place → Except SearchFault Settings
  | [] => .ok {}
  | p :: rest => do
    match ← p.settings with
    | some s => return s
    | none => search rest

inductive BuildFault
  | search (f : SearchFault)
  | unknownOption
  | invalid (f : Fault)
  deriving DecidableEq

/-- The place where a search begins goes by this name, so that no override can have it. -/
def startName : Text := "search_path".toList

def build (places : List Place) (overrides : Entries) : Except BuildFault Config := do
  if overrides.any (·.1 == startName) then throw .unknownOption
  let s ← (search places).mapError .search
  match s.override overrides with
  | none => throw .unknownOption
  | some s => s.check.mapError .invalid

end DocMarkdown.Settings
