import CredentialIntake.Store.Basic

/-!
# Writers side by side

Several writers share one store, and each has files to write. What a writer does
in one go is a single step: asking the table for the lock of its path, taking
hold of the lock, writing, letting go of it, having the entry of the path struck
out, and giving up its own share. Between two steps of one writer any other may
take steps, in any order.
-/

namespace CredentialIntake.Store

/-- How far a writer has come with the file it is writing. -/
inductive WriterPhase where
  | idle
  /-- It has a share of the lock and waits for it to be free. -/
  | waiting (write : FileWrite) (lock : Nat)
  /-- It holds the lock and has not written yet. -/
  | writing (write : FileWrite) (lock : Nat)
  /-- It holds the lock and has written. -/
  | written (write : FileWrite) (lock : Nat)
  /-- It has let go of the lock. -/
  | releasing (write : FileWrite) (lock : Nat)
  /-- The table is done with it; its share is still there. -/
  | leaving (write : FileWrite) (lock : Nat)
  deriving DecidableEq

structure Writer where
  phase : WriterPhase := .idle
  /-- The files still to be written. -/
  pending : List FileWrite := []
  /-- How the writes so far ended, the first one first. -/
  outcomes : List (Except IntakeError WriteOutcome) := []

/-- A store with its writers. -/
structure Writers where
  store : Store
  writers : List Writer

namespace Writers

/-- The next step of a writer, with the store it leaves. None when the writer has
nothing to do or waits for a lock that is held. -/
def advance? (store : Store) (writer : Writer) : Option (Store × Writer) :=
  match writer.phase with
  | .idle =>
    match writer.pending with
    | [] => none
    | write :: rest =>
      let (lock, locks) := store.locks.checkOut write.path.components
      some ({ store with locks }, { writer with phase := .waiting write lock, pending := rest })
  | .waiting write lock =>
    if store.locks.isHeld lock then none
    else some ({ store with locks := store.locks.acquire lock },
      { writer with phase := .writing write lock })
  | .writing write lock =>
    let (outcome, store) := store.writeUnlocked write
    some (store,
      { writer with phase := .written write lock, outcomes := writer.outcomes ++ [outcome] })
  | .written write lock =>
    some ({ store with locks := store.locks.release lock },
      { writer with phase := .releasing write lock })
  | .releasing write lock =>
    some ({ store with locks := store.locks.checkIn write.path.components lock },
      { writer with phase := .leaving write lock })
  | .leaving _ lock =>
    some ({ store with locks := store.locks.giveUp lock }, { writer with phase := .idle })

/-- Lets the writer with a number take its next step. -/
def step? (state : Writers) (number : Nat) : Option Writers := do
  let writer ← state.writers[number]?
  let (store, writer) ← advance? state.store writer
  return { store, writers := state.writers.set number writer }

/-- Runs the writers in the order of a schedule; a turn that cannot be taken
passes. -/
def run (state : Writers) (schedule : List Nat) : Writers :=
  schedule.foldl (fun state number => (state.step? number).getD state) state

/-- The states that can be reached by steps in any order. -/
inductive Reachable (start : Writers) : Writers → Prop where
  | refl : Reachable start start
  | step {state next : Writers} {number : Nat} :
      Reachable start state → state.step? number = some next → Reachable start next

end Writers

namespace WriterPhase

/-- The write during which a writer holds the lock of its path. -/
def holding? : WriterPhase → Option FileWrite
  | writing write _ => some write
  | written write _ => some write
  | _ => none

/-- The lock a writer has a share of. -/
def share? : WriterPhase → Option Nat
  | idle => none
  | waiting _ lock => some lock
  | writing _ lock => some lock
  | written _ lock => some lock
  | releasing _ lock => some lock
  | leaving _ lock => some lock

end WriterPhase

end CredentialIntake.Store
