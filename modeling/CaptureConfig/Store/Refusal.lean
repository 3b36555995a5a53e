/-
**What a file system refuses.**

Main definitions:

* `Refusal` — why the file system does not do what it is asked for;
* `Refusal.message` — its wording.
-/

set_option relaxedAutoImplicit false
set_option autoImplicit false

namespace CaptureConfig

/-- Why the file system does not do what it is asked for. -/
inductive Refusal where
  | notFound
  | permissionDenied
  | alreadyExists
  | notDirectory
  | isDirectory
  | nameTooLong
  /-- An octet of a path is zero. -/
  | invalidPath
  /-- The contents are no text. -/
  | notUtf8
  /-- Anything else, in the words of the system. -/
  | other (wording : String)
  deriving DecidableEq, Repr

/-- The wording of a refusal. -/
def Refusal.message : Refusal → String
  | .notFound => "No such file or directory (os error 2)"
  | .permissionDenied => "Permission denied (os error 13)"
  | .alreadyExists => "File exists (os error 17)"
  | .notDirectory => "Not a directory (os error 20)"
  | .isDirectory => "Is a directory (os error 21)"
  | .nameTooLong => "File name too long (os error 36)"
  | .invalidPath => "file name contained an unexpected NUL byte"
  | .notUtf8 => "stream did not contain valid UTF-8"
  | .other wording => wording

end CaptureConfig
