import DocMarkdown.Files.Tree
import DocMarkdown.Proofs.Client.EarlyStop
import DocMarkdown.Proofs.CommandLine.Calls
import DocMarkdown.Proofs.Outcome

/-! What the files of a command contribute to its output. Each is read and converted as if it were
the only one, and the contributions follow each other in the order of the arguments. Only a
malformed document ends a strict run, before anything of it or of a later file is printed. -/

namespace DocMarkdown
open Files

def Files.textOf (limit : Int) (p : Path) (e : Entry) : Except ReadFault Text :=
  match e.size, e.content with
  | .error .nullCharacter, _ => .error (.failed p .nullCharacter)
  | .error r, _ => .error (.inaccessible p r)
  | .ok n, content =>
    if limit < n then .error (.tooLarge p limit)
    else match content with
      | .error r => .error (if explained r then .inaccessible p r else .failed p r)
      | .ok bytes =>
        match Text.Utf8.decode? bytes with
        | .ok t => .ok t.unifyLineEnds
        | .error flaw => .error (.undecodable flaw)

def Files.ReadFault.told (p : Path) : ReadFault → Text
  | .undecodable flaw =>
    "Invalid UTF-8 sequence in ".toList ++ p.shown ++ ": ".toList ++ flaw.message
  | fault => fault.message

namespace CommandLine

/-- The messages that one file contributes, or what its conversion stops for. -/
def contribution (config : Config) (f : Format) (limit : Int) (p : Path) (e : Entry) :
    Except Stop (List Text) :=
  match textOf limit p e with
  | .error fault => .ok [errorMessage (fault.told p)]
  | .ok t =>
    let (result, reports) := render config f (.ofText t)
    result.map fun text => (reports.map fun m => errorMessage m.report) ++ [text]

inductive Gives (strict : Bool) : Except Stop (List Text) → Outcome → Prop
  | messages (ts : List Text) : Gives strict (.ok ts) ⟨ts, .done⟩
  | refused (m : Malformed) : strict = true →
      Gives strict (.error (.malformed m)) ⟨[], .complained (.failure m.message)⟩

section Runs
variable {s : Surroundings} {c : Call} {config : Config} {limit : Int}

end Runs

end CommandLine
end DocMarkdown
