/-!
# File faults

Why a file operation fails. The wording carries the system's error number where
the system has one.
-/

namespace CredentialIntake

inductive FileFault where
  /-- The path holds a zero byte and cannot be handed to the system at all. -/
  | nulByte
  | notFound
  /-- The permission bits of a file forbid what is to be done with it. -/
  | permissionDenied
  | notDirectory
  | isDirectory
  | nameTooLong
  /-- A file that should hold a text is not UTF-8. -/
  | notText
  /-- A fault met elsewhere, in the words it was reported with. -/
  | stated (text : String)
  deriving DecidableEq, Repr

def FileFault.message : FileFault → String
  | .nulByte => "file name contained an unexpected NUL byte"
  | .notFound => "No such file or directory (os error 2)"
  | .permissionDenied => "Permission denied (os error 13)"
  | .notDirectory => "Not a directory (os error 20)"
  | .isDirectory => "Is a directory (os error 21)"
  | .nameTooLong => "File name too long (os error 36)"
  | .notText => "stream did not contain valid UTF-8"
  | .stated text => text

end CredentialIntake
