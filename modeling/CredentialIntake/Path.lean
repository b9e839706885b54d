import CredentialIntake.Text.Split

/-!
# Paths

A path is kept as the text it was formed from, because reports and diagnostics
show it unchanged. Two paths are the same path when they agree component by
component: doubled and trailing slashes and inner `.` components mean nothing,
while a leading `.` and every `..` are components of their own.
-/

namespace CredentialIntake

structure Path where
  text : String
  deriving DecidableEq, Inhabited

namespace Path

def isAbsolute (path : Path) : Bool := path.text.toList.head? == some '/'

def endsWithSlash (path : Path) : Bool := path.text.toList.getLast? == some '/'

/-- The path of `name` inside `folder`. No slash is added to an empty folder or
after one that already ends with a slash, and an absolute `name` stands alone. -/
def join (folder : Path) (name : String) : Path :=
  if (Path.mk name).isAbsolute then ⟨name⟩
  else if folder.text.isEmpty || folder.endsWithSlash then ⟨folder.text ++ name⟩
  else ⟨folder.text ++ "/" ++ name⟩

/-- The path whose last name has `suffix` appended. -/
def withSuffix (path : Path) (suffix : String) : Path := ⟨path.text ++ suffix⟩

/-- The names between slashes, the empty ones left out. -/
def names (path : Path) : List String := (Text.split '/' path.text).filter (· ≠ "")

/-- What two paths are compared by: `/` for an absolute path, then the names; a
`.` counts only at the front of a relative path. -/
def components (path : Path) : List String :=
  if path.isAbsolute then "/" :: path.names.filter (· ≠ ".")
  else match path.names with
    | "." :: rest => "." :: rest.filter (· ≠ ".")
    | names => names.filter (· ≠ ".")

/-- Paths agree when their components do. -/
instance : BEq Path := ⟨fun left right => left.components == right.components⟩

end Path

end CredentialIntake
