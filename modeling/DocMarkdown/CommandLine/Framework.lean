import DocMarkdown.Files.Refusal
import DocMarkdown.Render

/-! What the command leaves to the library that runs it. The library reads the arguments by the
parameters that are declared and calls the command with their values; it writes the messages that
the command gives out; and it turns what the command raises into a complaint and an exit code. -/

namespace DocMarkdown.CommandLine
open Files

inductive Parameter
  | version (package : String)
  | choice (name : String) (values : List String) (default help : String)
  | switch (on off help : String)
  | integer (name help : String)
  | paths (name : String)

def parameters : List Parameter := [
  .version "xml-to-markdown",
  .choice "--output" (Format.all.map Format.name) Format.markdown.name
    "What to print for each document",
  .switch "--strict" "--no-strict" "Fail on malformed XML",
  .integer "--indent-width" "Spaces per list nesting level",
  .paths "files"]

structure Call where
  files : List Text
  format : Format
  strict : Option Bool
  indentWidth : Option Int

inductive Complaint
  | badParameter (message : Text)
  | failure (message : Text)
  deriving DecidableEq

/-- What comes of arguments. The library may end a run by itself, when it is asked for help or finds
that an argument cannot be used, and an error that it does not know may leave it. -/
inductive Reading
  | call (c : Call)
  | ended (output errors : Text) (code : Nat)
  | crashed (message : Text)

/-- To read arguments the library may ask whether what a name leads to can be read. At the end it
gives what is written to standard error, and the exit code. -/
structure Framework where
  read : List Parameter → (Text → Except Refusal Bool) → List Text → Reading
  echo : Text → Text
  close : Option Complaint → Text × Nat

end DocMarkdown.CommandLine
