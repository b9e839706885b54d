import CredentialIntake.Error
import CredentialIntake.FileTree.Program

/-!
# Replacing file contents

Gives a file new content through a staging file beside it: the new content is
written under the name with `.new` appended, what the file held is copied to the
name with `.old` appended, and the staging file is renamed over the target.
Equal content is left alone, and a file that is not there is created in place.
Files are readable and writable for their owner only.
-/

namespace CredentialIntake.Store

/-- What was done to the target. -/
inductive WriteOutcome where
  | created
  /-- The same bytes were there already. -/
  | unchanged
  /-- New bytes took the place of others, with or without a copy of those. -/
  | replaced (backupKept : Bool)
  deriving DecidableEq, Repr

/-- Readable and writable for the owner only. -/
def privateMode : Nat := 0o600

/-- Where the replaced bytes are kept. -/
def backupPath (path : Path) : Path := path.withSuffix ".old"

/-- Where the new bytes are staged. -/
def stagingPath (path : Path) : Path := path.withSuffix ".new"

open FileProgram in
/-- Creates the target with its content. -/
def createTarget (pieces : Pieces) (path : Path) (content : Bytes) :
    FileProgram (Except IntakeError WriteOutcome) := do
  match ← write pieces path privateMode content with
  | .ok () => return .ok .created
  | .error fault => return .error (.io path fault)

open FileProgram in
/-- Replaces what the target holds. Stale siblings are removed first if they can
be, and a copy that cannot be made does not stop the replacement. -/
def replaceTarget (pieces : Pieces) (path : Path) (content : Bytes) :
    FileProgram (Except IntakeError WriteOutcome) := do
  let _ ← attempt (.remove (backupPath path))
  let _ ← attempt (.remove (stagingPath path))
  match ← write pieces (stagingPath path) privateMode content with
  | .error fault => return .error (.io (stagingPath path) fault)
  | .ok () =>
    let backup ← copy pieces path (backupPath path)
    match ← attempt (.rename (stagingPath path) path) with
    | .ok () => return .ok (.replaced backup.isOk)
    | .error fault =>
      let _ ← attempt (.remove (stagingPath path))
      return .error (.io path fault)

open FileProgram in
/-- Makes the file at a path hold the content, as a sequence of file steps. -/
def atomicWriteProgram (pieces : Pieces) (path : Path) (content : Bytes) :
    FileProgram (Except IntakeError WriteOutcome) := do
  match ← readFile path with
  | .error .notFound => createTarget pieces path content
  | .error fault => return .error (.io path fault)
  | .ok file =>
    if file.content = content then return .ok .unchanged
    else replaceTarget pieces path content

/-- Makes the file at a path hold the content. -/
def atomicWrite (path : Path) (content : Bytes) (tree : FileTree) :
    Except IntakeError WriteOutcome × FileTree :=
  (atomicWriteProgram FileProgram.Pieces.whole path content).run tree

end CredentialIntake.Store
