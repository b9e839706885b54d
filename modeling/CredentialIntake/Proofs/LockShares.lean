import CredentialIntake.Store.LockTable

/-!
# Shares of locks

The lock table is described by the locks it lists, by how many shares each lock
has, and by which locks are held.  Every operation on a lock that somebody has a
share in is said here in these terms, so that nothing after it looks into the
table.
-/

namespace CredentialIntake.Store.LockTable

/-- How many shares a lock has; a lock that is gone has none. -/
def sharesIn (table : LockTable) (number : Nat) : Nat :=
  match table.locks[number]? with
  | some lock => lock.shares
  | none => 0

/-- The table with a lock put under its number. -/
def put (table : LockTable) (number : Nat) (lock : PathLock) : LockTable :=
  { table with locks := table.locks.insert number lock }

/-- The table without a lock. -/
def drop (table : LockTable) (number : Nat) : LockTable :=
  { table with locks := table.locks.erase number }

/-- The table without the entry of a path. -/
def unlist (table : LockTable) (key : PathKey) : LockTable :=
  { table with listed := table.listed.erase key }

/-- The table with an entry for a new lock. -/
def list (table : LockTable) (key : PathKey) : LockTable :=
  { table with listed := table.listed.insert key table.next, next := table.next + 1 }

section Views

variable (table : LockTable) (number other : Nat) (lock : PathLock) (key sought : PathKey)

@[simp]
theorem listed_put : (table.put number lock).listed = table.listed := rfl

@[simp]
theorem next_put : (table.put number lock).next = table.next := rfl

@[simp]
theorem sharesIn_put : (table.put number lock).sharesIn other =
    if number = other then lock.shares else table.sharesIn other := by
  rw [sharesIn, put, Std.ExtTreeMap.getElem?_insert]
  by_cases heq : number = other
  · simp [heq]
  · simp [heq, sharesIn]

@[simp]
theorem isHeld_put : (table.put number lock).isHeld other =
    if number = other then lock.held else table.isHeld other := by
  rw [isHeld, put, Std.ExtTreeMap.getElem?_insert]
  by_cases heq : number = other
  · simp [heq]
  · simp [heq, isHeld]

@[simp]
theorem sharesIn_drop : (table.drop number).sharesIn other =
    if number = other then 0 else table.sharesIn other := by
  rw [sharesIn, drop, Std.ExtTreeMap.getElem?_erase]
  by_cases heq : number = other
  · simp [heq]
  · simp [heq, sharesIn]

@[simp]
theorem isHeld_drop : (table.drop number).isHeld other =
    if number = other then false else table.isHeld other := by
  rw [isHeld, drop, Std.ExtTreeMap.getElem?_erase]
  by_cases heq : number = other
  · simp [heq]
  · simp [heq, isHeld]

@[simp]
theorem listed_unlist : (table.unlist key).listed[sought]? =
    if key = sought then none else table.listed[sought]? := by
  rw [unlist, Std.ExtTreeMap.getElem?_erase]
  simp

@[simp]
theorem sharesIn_unlist : (table.unlist key).sharesIn other = table.sharesIn other := rfl

@[simp]
theorem isHeld_unlist : (table.unlist key).isHeld other = table.isHeld other := rfl

@[simp]
theorem listed_list : (table.list key).listed[sought]? =
    if key = sought then some table.next else table.listed[sought]? := by
  rw [list, Std.ExtTreeMap.getElem?_insert]
  simp

@[simp]
theorem next_list : (table.list key).next = table.next + 1 := rfl

@[simp]
theorem sharesIn_list : (table.list key).sharesIn other = table.sharesIn other := rfl

@[simp]
theorem isHeld_list : (table.list key).isHeld other = table.isHeld other := rfl

end Views

section Operations

variable {table : LockTable} {number : Nat} {key other : PathKey}

/-- A new entry for one path leaves those of the others. -/
theorem listed_list_of_listed (hunlisted : table.listed[key]? = none)
    (hlisted : table.listed[other]? = some number) :
    (table.list key).listed[other]? = some number := by
  have hne : key ≠ other := by
    rintro rfl
    rw [hunlisted] at hlisted
    cases hlisted
  rw [listed_list, if_neg hne, hlisted]

private theorem listed_change (update : PathLock → PathLock) :
    (table.change number update).listed = table.listed := by
  rw [change]
  split <;> rfl

@[simp]
theorem listed_acquire : (table.acquire number).listed = table.listed := listed_change _

@[simp]
theorem listed_release : (table.release number).listed = table.listed := listed_change _

@[simp]
theorem listed_giveUp : (table.giveUp number).listed = table.listed := by
  rw [giveUp]
  split
  · rfl
  · split
    · rfl
    · exact listed_change _

private theorem exists_lock_of_sharesIn_pos (hshared : 0 < table.sharesIn number) :
    ∃ lock, table.locks[number]? = some lock ∧
      lock = ⟨table.sharesIn number, table.isHeld number⟩ := by
  rw [sharesIn] at hshared
  cases hlock : table.locks[number]? with
  | none =>
      rw [hlock] at hshared
      cases hshared
  | some lock => exact ⟨lock, rfl, by rw [sharesIn, isHeld, hlock]⟩

private theorem change_eq_put (hshared : 0 < table.sharesIn number)
    (update : PathLock → PathLock) :
    table.change number update =
      table.put number (update ⟨table.sharesIn number, table.isHeld number⟩) := by
  obtain ⟨lock, hlock, rfl⟩ := exists_lock_of_sharesIn_pos hshared
  simp only [change, hlock, put]

theorem acquire_eq_put (hshared : 0 < table.sharesIn number) :
    table.acquire number = table.put number ⟨table.sharesIn number, true⟩ :=
  change_eq_put hshared _

theorem release_eq_put (hshared : 0 < table.sharesIn number) :
    table.release number = table.put number ⟨table.sharesIn number, false⟩ :=
  change_eq_put hshared _

/-- A lock that is listed gets one more share. -/
theorem checkOut_of_listed (hlisted : table.listed[key]? = some number)
    (hshared : 0 < table.sharesIn number) :
    table.checkOut key =
      (number, table.put number ⟨table.sharesIn number + 1, table.isHeld number⟩) := by
  simp only [checkOut, hlisted, change_eq_put hshared]

/-- Where none is listed, a new lock is, with a share for the table and one for
the writer. -/
theorem checkOut_of_unlisted (hunlisted : table.listed[key]? = none) :
    table.checkOut key = (table.next, (table.list key).put table.next ⟨2, false⟩) := by
  simp only [checkOut, hunlisted, put, list]

theorem giveUp_of_last (hshared : table.sharesIn number = 1) :
    table.giveUp number = table.drop number := by
  obtain ⟨lock, hlock, rfl⟩ := exists_lock_of_sharesIn_pos (hshared ▸ Nat.one_pos)
  simp only [giveUp, hlock, hshared, Nat.le_refl, if_true, drop]

theorem giveUp_of_shared (hshared : 1 < table.sharesIn number) :
    table.giveUp number =
      table.put number ⟨table.sharesIn number - 1, table.isHeld number⟩ := by
  obtain ⟨lock, hlock, rfl⟩ := exists_lock_of_sharesIn_pos (Nat.zero_lt_of_lt hshared)
  simp only [giveUp, hlock, Nat.not_le.2 hshared, if_false,
    change_eq_put (Nat.zero_lt_of_lt hshared)]

/-- The entry stays as long as a third has a share. -/
theorem checkIn_of_shared (hshared : 0 < table.sharesIn number)
    (hthird : table.sharesIn number ≠ 2) : table.checkIn key number = table := by
  obtain ⟨lock, hlock, rfl⟩ := exists_lock_of_sharesIn_pos hshared
  simp only [checkIn, hlock, hthird, if_false]

/-- With two shares only, the entry is struck out and the writer's share stays. -/
theorem checkIn_of_unshared (hlisted : table.listed[key]? = some number)
    (hshared : table.sharesIn number = 2) :
    table.checkIn key number =
      (table.unlist key).put number ⟨1, table.isHeld number⟩ := by
  have hpos : 0 < table.sharesIn number := hshared ▸ Nat.two_pos
  obtain ⟨lock, hlock, rfl⟩ := exists_lock_of_sharesIn_pos hpos
  have hgiven : (table.unlist key).giveUp number =
      (table.unlist key).put number ⟨1, table.isHeld number⟩ := by
    rw [giveUp_of_shared (by rw [sharesIn_unlist, hshared]; decide), sharesIn_unlist, hshared]
    rfl
  simp only [checkIn, hlock, hshared, if_true, strike, hlisted]
  exact hgiven

end Operations

end CredentialIntake.Store.LockTable
