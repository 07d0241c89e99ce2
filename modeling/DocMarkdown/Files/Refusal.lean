import DocMarkdown.Files.Path
import DocMarkdown.Text.Integer
import DocMarkdown.Text.Shown

/-! Why the system refuses a path. A path with a null character is not even asked for. -/

namespace DocMarkdown.Files

inductive Refusal
  | notFound
  | denied
  | notDirectory
  | isDirectory
  | nameTooLong
  | nullCharacter
  deriving DecidableEq

namespace Refusal

def numbered (number : Nat) (reason : String) (p : Path) : Text :=
  "[Errno ".toList ++ Text.ofNat number ++ "] ".toList ++ reason.toList ++ ": ".toList ++
    Text.shown p.shown

def message : Refusal → Path → Text
  | notFound => numbered 2 "No such file or directory"
  | denied => numbered 13 "Permission denied"
  | notDirectory => numbered 20 "Not a directory"
  | isDirectory => numbered 21 "Is a directory"
  | nameTooLong => numbered 36 "File name too long"
  | nullCharacter => fun _ => "embedded null byte".toList

def isAbsence : Refusal → Bool
  | notFound | notDirectory => true
  | _ => false

end Refusal
end DocMarkdown.Files
