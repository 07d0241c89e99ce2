import DocMarkdown.CommandLine.Run

/-! Runs in which the library calls the command, and what is seen of them. -/

namespace DocMarkdown.CommandLine
open Files

variable {fw : Framework} {s : Surroundings} {arguments : List Text} {o : Outcome}

def Converts (fw : Framework) (s : Surroundings) (arguments : List Text) : Prop :=
  ∃ c, fw.read parameters s.mayRead arguments = .call c

theorem run_of_call {c : Call} (h : fw.read parameters s.mayRead arguments = .call c) :
    run fw s arguments = fw.finish (perform s c) := by
  rw [run, h]

theorem finish_exit_error_iff {crash : Crash} :
    (fw.finish o).exit = .error crash ↔ o.ending = .crashed crash := by
  unfold Framework.finish
  cases o.ending <;> simp

/-- A library with one option. Every other argument names a file, which must be readable if it is
there. -/
def plain : Framework where
  read _ mayRead arguments :=
    let files := arguments.filter (· ≠ "--strict".toList)
    let usage := "Usage: xml-to-markdown [OPTIONS] [FILES]...\n".toList ++
      "Try 'xml-to-markdown --help' for help.\n\n".toList
    if files.any fun file => file.contains '\x00' then .crashed "embedded null byte".toList
    else match files.find? fun file => (mayRead file).toOption = some false with
      | some file =>
        .ended [] (usage ++ "Error: Invalid value for '[FILES]...': Path ".toList ++
          Text.shown file ++ " is not readable.\n".toList) 2
      | none =>
        .call ⟨files, .markdown, if files = arguments then none else some true, none⟩
  echo t := t ++ ['\n']
  close
    | none => ([], 0)
    | some (.failure message) => ("Error: ".toList ++ message ++ ['\n'], 1)
    | some (.badParameter message) => ("Error: Invalid value: ".toList ++ message ++ ['\n'], 2)

end DocMarkdown.CommandLine
