import Std.Data.ExtTreeMap

/-!
# Path locks

Writers to one path take turns. The table gives out one lock per path, made when
the first writer asks for it, and every lock counts its shares: one for the
table while it lists the lock, one for each writer that was given it. A writer
hands its lock back in two steps. First, with the table closed to others, the
entry is struck out if nobody but the table and this writer has a share; the
writer's own share is given up only after that.
-/

namespace CredentialIntake.Store

/-- What paths are told apart by. -/
abbrev PathKey := List String

structure PathLock where
  /-- How many hold on to the lock, the table included. -/
  shares : Nat
  held : Bool
  deriving DecidableEq, Repr

structure LockTable where
  /-- The number of the lock listed for a path. -/
  listed : Std.ExtTreeMap PathKey Nat
  /-- All locks somebody has a share in, by their numbers. -/
  locks : Std.ExtTreeMap Nat PathLock
  /-- The number of the next lock made. -/
  next : Nat

namespace LockTable

def empty : LockTable := ⟨∅, ∅, 0⟩

/-- Changes a lock. -/
def change (table : LockTable) (number : Nat) (update : PathLock → PathLock) : LockTable :=
  match table.locks[number]? with
  | some lock => { table with locks := table.locks.insert number (update lock) }
  | none => table

/-- Gives a writer a share of the lock of a path, making the lock if the table
lists none. -/
def checkOut (table : LockTable) (key : PathKey) : Nat × LockTable :=
  match table.listed[key]? with
  | some number =>
    (number, table.change number fun lock => { lock with shares := lock.shares + 1 })
  | none =>
    (table.next,
      { listed := table.listed.insert key table.next
        locks := table.locks.insert table.next { shares := 2, held := false }
        next := table.next + 1 })

def isHeld (table : LockTable) (number : Nat) : Bool :=
  match table.locks[number]? with
  | some lock => lock.held
  | none => false

/-- Takes hold of a lock that nobody holds. -/
def acquire (table : LockTable) (number : Nat) : LockTable :=
  table.change number fun lock => { lock with held := true }

def release (table : LockTable) (number : Nat) : LockTable :=
  table.change number fun lock => { lock with held := false }

/-- Gives up one share; a lock without shares is gone. -/
def giveUp (table : LockTable) (number : Nat) : LockTable :=
  match table.locks[number]? with
  | none => table
  | some lock =>
    if lock.shares ≤ 1 then { table with locks := table.locks.erase number }
    else table.change number fun lock => { lock with shares := lock.shares - 1 }

/-- Strikes the entry of a path out, and with it the table's share in the lock
listed there. -/
def strike (table : LockTable) (key : PathKey) : LockTable :=
  match table.listed[key]? with
  | none => table
  | some number => giveUp { table with listed := table.listed.erase key } number

/-- Strikes the entry of a path out when nobody but the table and the writer that
hands its lock back has a share. -/
def checkIn (table : LockTable) (key : PathKey) (number : Nat) : LockTable :=
  match table.locks[number]? with
  | none => table
  | some lock => if lock.shares = 2 then table.strike key else table

end LockTable

end CredentialIntake.Store
