import CredentialIntake.Event
import CredentialIntake.Store.AtomicWrite
import CredentialIntake.Store.Compressed
import CredentialIntake.Store.FileNames
import CredentialIntake.Store.LockTable

/-!
# The credential store

Keeps the credentials of users in their directories, two files for each. The
store counts what its writes did, reports replaced files of which no copy could
be kept, and lets the writers of one path take turns.
-/

namespace CredentialIntake

/-- How often a write ended in each way.  The counts have no upper bound here;
counts of 64 bits are the same numbers up to a store's first `2 ^ 64` writes, more
than any store lives to see. -/
structure StoreCounters where
  created : Nat := 0
  replaced : Nat := 0
  unchanged : Nat := 0
  /-- Replacements without a copy of what was replaced. -/
  backupFailures : Nat := 0
  deriving DecidableEq, Repr

/-- A file to be written. -/
structure FileWrite where
  path : Path
  content : Bytes
  deriving DecidableEq

structure Store where
  /-- The directory for the credentials of a user. -/
  directoryOf : String → Path
  tree : FileTree := .empty
  counters : StoreCounters := {}
  locks : Store.LockTable := .empty
  /-- Everything reported so far, the oldest first. -/
  log : List Event := []

namespace Store

def report (store : Store) (events : List Event) : Store :=
  { store with log := store.log ++ events }

/-- Books how a write to a path ended. -/
def book (store : Store) (path : Path) : WriteOutcome → Store
  | .created =>
    { store with counters := { store.counters with created := store.counters.created + 1 } }
  | .unchanged =>
    { store with counters := { store.counters with unchanged := store.counters.unchanged + 1 } }
  | .replaced true =>
    { store with counters := { store.counters with replaced := store.counters.replaced + 1 } }
  | .replaced false =>
    let failures := store.counters.backupFailures + 1
    { store with
      counters := { store.counters with
        replaced := store.counters.replaced + 1
        backupFailures := failures }
      log := store.log ++ [.backupNotKept path failures] }

/-- Replaces the content of a file and books what happened; a write that fails is
not booked. -/
def writeUnlocked (store : Store) (write : FileWrite) :
    Except IntakeError WriteOutcome × Store :=
  let (outcome, tree) := atomicWrite write.path write.content store.tree
  match outcome with
  | .ok outcome => (.ok outcome, { store with tree }.book write.path outcome)
  | .error error => (.error error, { store with tree })

/-- Replaces the content of a file while holding the lock of its path. -/
def writeFile (store : Store) (write : FileWrite) : Except IntakeError WriteOutcome × Store :=
  let key := write.path.components
  let (lock, locks) := store.locks.checkOut key
  let (outcome, store) := { store with locks := locks.acquire lock }.writeUnlocked write
  (outcome, { store with locks := ((store.locks.release lock).checkIn key lock).giveUp lock })

/-- Writes files one after the other, up to the first write that fails. -/
def writeAll (store : Store) : List FileWrite → Except IntakeError Unit × Store
  | [] => (.ok (), store)
  | write :: rest =>
    match store.writeFile write with
    | (.ok _, store) => store.writeAll rest
    | (.error error, store) => (.error error, store)

/-- The files of a credential of a user. -/
def filesOf (directoryOf : String → Path) (username client id : String) : CredentialFiles :=
  credentialFiles (directoryOf username) client id

/-- What the files of a credential have to hold, the raw one first. -/
def writesFor (files : CredentialFiles) (material : Bytes) : List FileWrite :=
  [⟨files.raw, material⟩, ⟨files.compressed, compressedLine material⟩]

/-- Keeps the material of a credential. A client name that is no single name is
refused before anything is written. -/
def persist (store : Store) (username id : String) (material : Bytes) (client : String) :
    Except IntakeError CredentialFiles × Store :=
  if isSafeName client then
    let files := filesOf store.directoryOf username client id
    match store.writeAll (writesFor files material) with
    | (.ok (), store) => (.ok files, store)
    | (.error error, store) => (.error error, store)
  else (.error (.malformedRequest (.unsafeClientName client)), store)

end Store

end CredentialIntake
