import CredentialIntake.Credential.Kind
import CredentialIntake.FileTree.Basic
import CredentialIntake.Store.FileNames

/-!
# Credentials for submission

The credentials gathered for one user and security class: for every kind at most
one file and at most one identity. A file is taken up only if it is there, and
one from the credential directory only under a single safe name.
-/

namespace CredentialIntake

structure Submission where
  username : String
  securityClass : String
  /-- The id the submission is tracked by. -/
  id : Option String := none
  credentialDir : Path := ⟨""⟩
  /-- The credential file of each kind. -/
  security : CredentialKind → Option Path := fun _ => none
  /-- The identity of each kind. -/
  identity : CredentialKind → Option String := fun _ => none

namespace Submission

/-- The function with one value changed. -/
def set {α : Type} (values : CredentialKind → Option α) (kind : CredentialKind) (value : α) :
    CredentialKind → Option α :=
  fun other => if other = kind then some value else values other

/-- Takes up the file `lead ++ filename` of the credential directory; tells
whether it did. -/
def addSecurity (submission : Submission) (tree : FileTree) (kind : CredentialKind)
    (filename lead : String) : Bool × Submission :=
  let name := lead ++ filename
  let path := submission.credentialDir.join name
  if Store.isSafeName name && tree.isFile path then
    (true, { submission with security := set submission.security kind path })
  else (false, submission)

/-- Takes up a file of the factory's own; tells whether it did. -/
def addFactory (submission : Submission) (tree : FileTree) (kind : CredentialKind) (path : Path) :
    Bool × Submission :=
  if tree.isFile path then
    (true, { submission with security := set submission.security kind path })
  else (false, submission)

/-- Takes up an identity, which is always possible. -/
def addIdentity (submission : Submission) (kind : CredentialKind) (value : String) :
    Bool × Submission :=
  (true, { submission with identity := set submission.identity kind value })

/-- The files taken up, in the order of their kinds. -/
def securityList (submission : Submission) : List (CredentialKind × Path) :=
  CredentialKind.all.filterMap fun kind => (submission.security kind).map (kind, ·)

end Submission

end CredentialIntake
