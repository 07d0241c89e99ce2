import DocMarkdown.CommandLine.Run

/-! The command on a real system, for a library that is given. It looks at the files that the
arguments and the settings name, reads standard input, and writes what is seen of the run. -/

namespace DocMarkdown.CommandLine
open Files

def refusalOf : IO.Error → Refusal
  | .permissionDenied .. => .denied
  | .inappropriateType .. => .notDirectory
  | .invalidArgument .. => .nameTooLong
  | _ => .notFound

def attempt {α : Type} (action : IO α) : IO (Except Refusal α) := do
  try return .ok (← action)
  catch e => return .error (refusalOf e)

def findEntry (name : Text) : IO Entry := do
  if name.contains '\x00' then return .refused .nullCharacter
  let path := System.mkFilePath [String.ofList name]
  let size ← attempt do return (← path.metadata).byteSize.toNat
  if ← path.isDir then return ⟨size, .error .isDirectory⟩
  return ⟨size, ← attempt do return (← IO.FS.readBinFile path).toList⟩

def mayRead (e : Entry) : Except Refusal Bool :=
  e.size.map fun _ =>
    match e.content with
    | .error .denied => false
    | _ => true

def findAll (names : List Text) : IO (Text → Entry) := do
  let found ← names.mapM fun name => return (name, ← findEntry name)
  return fun name => (found.lookup name).getD (.refused .notFound)

partial def readAll (input : IO.FS.Stream) (content : ByteArray) : IO ByteArray := do
  let more ← input.read 65536
  if more.isEmpty then return content else readAll input (content ++ more)

def observe (arguments : List Text) (input : Text) : IO Surroundings := do
  let here := Path.read (← IO.currentDir).toString.toList
  let limit ← IO.getEnv (String.ofList limitVariable)
  let places := Settings.placesFrom (fun _ => .refused .notFound) here
  let inSettings ← findAll (places.map (·.path.shown))
  let named ← findAll (arguments ++ arguments.map fun name => (Path.read name).shown)
  return {
    places := Settings.placesFrom (fun p => inSettings p.shown) here
    limit := limit.map (·.toList)
    input
    look := fun p => named p.shown
    mayRead := fun name => mayRead (named name) }

def readsInput (fw : Framework) (s : Surroundings) (arguments : List Text) : Bool :=
  match fw.read parameters s.mayRead arguments with
  | .call c => c.files.isEmpty
  | _ => false

def Crash.message : Crash → Text
  | arguments message => message
  | settings f => f.message
  | file f => f.message
  | conversion s => s.message
  | unknownOption => "unknown setting".toList

def execute (fw : Framework) (arguments : List String) : IO UInt32 := do
  let arguments := arguments.map (·.toList)
  let s ← observe arguments []
  let input ← if readsInput fw s arguments then readAll (← IO.getStdin) .empty else pure .empty
  match Text.Utf8.decode? input.toList with
  | .error flaw =>
    IO.eprintln (String.ofList flaw.message)
    return 1
  | .ok t =>
    let seen := run fw { s with input := t.unifyLineEnds } arguments
    IO.print (String.ofList seen.output)
    IO.eprint (String.ofList seen.errors)
    match seen.exit with
    | .ok code => return code.toUInt32
    | .error crash =>
      IO.eprintln (String.ofList crash.message)
      return 1

end DocMarkdown.CommandLine
