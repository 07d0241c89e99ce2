import DocMarkdown.Text.Integer

/-! The limit on the size of a file that the environment may set in place of the configured
one. -/

namespace DocMarkdown.Files

def limitVariable : Text := "XML_TO_MARKDOWN_MAX_FILE_SIZE".toList

inductive LimitFault
  | notNumber (value : Text)
  | notPositive (n : Int)
  deriving DecidableEq

def LimitFault.message : LimitFault → Text
  | notNumber value =>
    "Invalid value for ".toList ++ limitVariable ++ ": ".toList ++ value ++
      " (expected positive integer)".toList
  | notPositive n =>
    limitVariable ++ " must be a positive integer, got ".toList ++ Text.ofInt n ++ ['.']

def chooseLimit (given : Option Text) (configured : Int) : Except LimitFault Int :=
  match given with
  | none => .ok configured
  | some value =>
    match Text.readInteger value with
    | none => .error (.notNumber value)
    | some n => if 0 < n then .ok n else .error (.notPositive n)

end DocMarkdown.Files
