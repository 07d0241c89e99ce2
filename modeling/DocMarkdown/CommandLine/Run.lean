import DocMarkdown.CommandLine.Framework
import DocMarkdown.Files.Limit
import DocMarkdown.Settings.Search

/-! A run of the command. The settings and the size limit are settled first. Then each document is
read, converted and given out in turn; one that cannot be read is reported, and only a conversion
that fails ends the run early. -/

namespace DocMarkdown.CommandLine
open Files

/-- What a run finds around it: the places of settings, the value of the limit's variable,
standard input, what paths lead to, and whether a name can be read. -/
structure Surroundings where
  places : List Settings.Place
  limit : Option Text
  input : Text
  look : Lookup
  mayRead : Text → Except Refusal Bool

inductive Crash
  | arguments (message : Text)
  | settings (f : Settings.SearchFault)
  | file (f : ReadFault)
  | conversion (s : Stop)
  | unknownOption
  deriving DecidableEq

inductive Ending
  | done
  | complained (c : Complaint)
  | crashed (c : Crash)
  deriving DecidableEq

structure Outcome where
  messages : List Text
  ending : Ending
  deriving DecidableEq

def errorMessage (t : Text) : Text := "ERROR: ".toList ++ t

def endingOf : Stop → Ending
  | .malformed m => .complained (.failure m.message)
  | s => .crashed (.conversion s)

def convertDocument (config : Config) (f : Format) (t : Text) : Outcome :=
  let (result, reports) := render config f (.ofText t)
  let reported := reports.map fun m => errorMessage m.report
  match result with
  | .ok text => ⟨reported ++ [text], .done⟩
  | .error s => ⟨reported, endingOf s⟩

/-- The contribution of a file, which may be a report that it cannot be read. A path that cannot
even be asked for is not reported. -/
def convertFile (config : Config) (f : Format) (limit : Int) (p : Path) (e : Entry) : Outcome :=
  match readText e p (some limit) with
  | .ok t => convertDocument config f t
  | .error (.undecodable flaw) =>
    ⟨[errorMessage ("Invalid UTF-8 sequence in ".toList ++ p.shown ++ ": ".toList ++ flaw.message)],
      .done⟩
  | .error (.failed p .nullCharacter) => ⟨[], .crashed (.file (.failed p .nullCharacter))⟩
  | .error fault => ⟨[errorMessage fault.message], .done⟩

/-- Contributions in order, up to the first that ends the run. -/
def sequence {α : Type} (contribution : α → Outcome) : List α → Outcome
  | [] => ⟨[], .done⟩
  | a :: rest =>
    match contribution a with
    | ⟨ts, .done⟩ =>
      let later := sequence contribution rest
      ⟨ts ++ later.messages, later.ending⟩
    | stopped => stopped

def overrides (strict : Option Bool) (indentWidth : Option Int) : Settings.Entries :=
  [(Settings.Field.strict.name.toList, strict.elim .null .boolean),
    (Settings.Field.indentWidth.name.toList, indentWidth.elim .null .integer)]

def convertAll (s : Surroundings) (f : Format) (config : Config) (files : List Text) : Outcome :=
  match chooseLimit s.limit config.maxFileSize with
  | .error fault => ⟨[], .complained (.failure fault.message)⟩
  | .ok limit =>
    if files.isEmpty then convertDocument config f s.input
    else
      sequence (fun file =>
        convertFile config f limit (Path.read file) (s.look (Path.read file))) files

def refused : Settings.BuildFault → Ending
  | .search (.settings f) | .invalid f => .complained (.badParameter f.message)
  | .search f => .crashed (.settings f)
  | .unknownOption => .crashed .unknownOption

def perform (s : Surroundings) (c : Call) : Outcome :=
  match Settings.build s.places (overrides c.strict c.indentWidth) with
  | .error fault => ⟨[], refused fault⟩
  | .ok config => convertAll s c.format config c.files

/-- What is seen of a run: standard output, standard error, and the exit code unless an error that
nothing handles ends the run. -/
structure Seen where
  output : Text
  errors : Text
  exit : Except Crash Nat

def Framework.finish (fw : Framework) (o : Outcome) : Seen :=
  let output := o.messages.flatMap fw.echo
  match o.ending with
  | .done => ⟨output, (fw.close none).1, .ok (fw.close none).2⟩
  | .complained c => ⟨output, (fw.close (some c)).1, .ok (fw.close (some c)).2⟩
  | .crashed c => ⟨output, [], .error c⟩

def run (fw : Framework) (s : Surroundings) (arguments : List Text) : Seen :=
  match fw.read parameters s.mayRead arguments with
  | .call c => fw.finish (perform s c)
  | .ended output errors code => ⟨output, errors, .ok code⟩
  | .crashed message => ⟨[], [], .error (.arguments message)⟩

end DocMarkdown.CommandLine
