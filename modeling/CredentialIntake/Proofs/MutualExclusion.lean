import CredentialIntake.Proofs.LockBalance

/-!
# Writers of one path take turns

Any number of writers share a store.  In every state they can come to, the lock
table is balanced.  So no two writers hold the lock of one path at a time, and an
entry is struck out only when no other writer has a share of its lock.
-/

namespace CredentialIntake.Store

open LockTable

/-! ## What a step does -/

private theorem locks_writeUnlocked (store : Store) (write : FileWrite) :
    (store.writeUnlocked write).2.locks = store.locks := by
  simp only [writeUnlocked]
  cases (atomicWrite write.path write.content store.tree).1 with
  | error error => rfl
  | ok outcome =>
      cases outcome with
      | created => rfl
      | unchanged => rfl
      | replaced kept => cases kept <;> rfl

private theorem turn_of_advance? {store after : Store} {writer moved : Writer}
    (hadvance : Writers.advance? store writer = some (after, moved)) :
    Turn store.locks writer.phase after.locks moved.phase := by
  obtain ⟨phase, pending, outcomes⟩ := writer
  cases phase with
  | idle =>
      cases pending with
      | nil => cases hadvance
      | cons write rest =>
          cases hadvance
          exact .asks
  | waiting write lock =>
      rw [Writers.advance?] at hadvance
      cases hheld : store.locks.isHeld lock with
      | true => simp [hheld] at hadvance
      | false =>
          simp only [hheld, Bool.false_eq_true, if_false] at hadvance
          cases hadvance
          exact .takesHold hheld
  | writing write lock =>
      simp only [Writers.advance?, Option.some.injEq, Prod.mk.injEq] at hadvance
      obtain ⟨rfl, rfl⟩ := hadvance
      rw [locks_writeUnlocked]
      exact .writes
  | written write lock =>
      cases hadvance
      exact .letsGo
  | releasing write lock =>
      cases hadvance
      exact .handsBack
  | leaving write lock =>
      cases hadvance
      exact .leaves

namespace Writers

variable {state next : Writers} {number : Nat}

/-- A step is a turn of the writer with the number, and the others stay as they
are. -/
theorem turn_of_step? (hstep : state.step? number = some next) :
    ∃ writer moved, state.writers[number]? = some writer ∧
      state.writers.Perm (writer :: state.writers.eraseIdx number) ∧
      next.writers.Perm (moved :: state.writers.eraseIdx number) ∧
      Turn state.store.locks writer.phase next.store.locks moved.phase := by
  obtain ⟨writer, hwriter, hrest⟩ := Option.bind_eq_some_iff.1 hstep
  obtain ⟨⟨after, moved⟩, hadvance, hnext⟩ := Option.bind_eq_some_iff.1 hrest
  cases hnext
  obtain ⟨hlt, rfl⟩ := List.getElem?_eq_some_iff.1 hwriter
  exact ⟨_, moved, hwriter, (List.getElem_cons_eraseIdx_perm hlt).symm,
    List.set_perm_cons_eraseIdx hlt moved, turn_of_advance? hadvance⟩

end Writers

/-! ## Every state -/

namespace Writers

variable {start state next : Writers}

/-- How far the writers have come. -/
def phases (state : Writers) : List WriterPhase := state.writers.map (·.phase)

theorem phases_perm {writer : Writer} {others : List Writer}
    (hperm : state.writers.Perm (writer :: others)) :
    state.phases.Perm (writer.phase :: others.map (·.phase)) :=
  hperm.map _

private theorem balanced_of_idle (hempty : start.store.locks = .empty)
    (hidle : ∀ writer ∈ start.writers, writer.phase = .idle) :
    Balanced start.store.locks start.phases := by
  have hphases : ∀ phase ∈ start.phases, phase = .idle := by
    rintro phase hmem
    obtain ⟨writer, hwriter, rfl⟩ := List.mem_map.1 hmem
    exact hidle writer hwriter
  have hsharers : ∀ number, sharers start.phases number = 0 := fun number =>
    sharers_eq_zero_iff.2 fun phase hmem => by
      rw [hphases phase hmem]
      exact Option.some_ne_none number ∘ Eq.symm
  rw [hempty]
  exact
    { once := by simp [LockTable.empty]
      relied := fun phase hmem => by
        rw [hphases phase hmem]
        rintro key number ⟨⟩
      listed := by simp [LockTable.empty]
      unlisted := fun number _ => by simp [hsharers number, LockTable.empty, sharesIn]
      held := fun number => by
        have hle := holders_le_sharers start.phases number
        rw [hsharers number, Nat.le_zero] at hle
        simp [hle, LockTable.empty, isHeld]
      fresh := by simp [LockTable.empty, sharesIn] }

/-- A step keeps the balance. -/
theorem balanced_of_step? {number : Nat} (hbalanced : Balanced state.store.locks state.phases)
    (hstep : state.step? number = some next) : Balanced next.store.locks next.phases := by
  obtain ⟨writer, moved, -, hbefore, hafter, hturn⟩ := turn_of_step? hstep
  exact ((hbalanced.perm (phases_perm hbefore)).turn hturn).perm (phases_perm hafter).symm

/-- Whatever the order of the steps, shares and holders are accounted for. -/
theorem balanced_of_reachable (hempty : start.store.locks = .empty)
    (hidle : ∀ writer ∈ start.writers, writer.phase = .idle) (hreach : Reachable start state) :
    Balanced state.store.locks state.phases := by
  induction hreach with
  | refl => exact balanced_of_idle hempty hidle
  | step _ hstep hbalanced => exact balanced_of_step? hbalanced hstep

/-- No two writers hold the lock of one path. -/
def IsExclusive (state : Writers) : Prop :=
  ∀ (left right : Nat) (one other : Writer) (write clash : FileWrite), left ≠ right →
    state.writers[left]? = some one → state.writers[right]? = some other →
    one.phase.holding? = some write → other.phase.holding? = some clash →
    write.path.components ≠ clash.path.components

/-- A step strikes an entry out only if no writer but the one that takes the step
has a share of the lock listed there. -/
def StrikesAlone (state : Writers) : Prop :=
  ∀ (number other : Nat) (next : Writers) (writer : Writer) (key : PathKey) (lock : Nat),
    state.step? number = some next → state.store.locks.listed[key]? = some lock →
    next.store.locks.listed[key]? ≠ some lock → other ≠ number →
    state.writers[other]? = some writer → writer.phase.share? ≠ some lock

private theorem isExclusive_of_balanced (hbalanced : Balanced state.store.locks state.phases) :
    state.IsExclusive := by
  intro left right one other write clash hne hone hother hwrite hclash hpath
  obtain ⟨lock, hheld, hentry⟩ := WriterPhase.exists_of_holding? hwrite
  obtain ⟨number, hholds, hrelied⟩ := WriterPhase.exists_of_holding? hclash
  obtain ⟨hlt, rfl⟩ := List.getElem?_eq_some_iff.1 hone
  have hrest : other ∈ state.writers.eraseIdx left :=
    List.mem_eraseIdx_iff_getElem?.2 ⟨right, hne.symm, hother⟩
  -- both rely on the one entry of their path, so it is the same lock
  have hlisted := hbalanced.relied _ (List.mem_map_of_mem (List.getElem_mem hlt)) _ lock hentry
  have hagain := hbalanced.relied _ (List.mem_map_of_mem (List.mem_of_getElem? hother)) _ number
    hrelied
  rw [← hpath, hlisted] at hagain
  cases hagain
  have hcount := (hbalanced.perm (phases_perm
    (List.getElem_cons_eraseIdx_perm hlt).symm)).holders_le_one lock
  have hpos := holders_pos (List.mem_map_of_mem (f := (·.phase)) hrest) hholds
  rw [holders_cons, if_pos hheld] at hcount
  omega

private theorem strikesAlone_of_balanced (hbalanced : Balanced state.store.locks state.phases) :
    state.StrikesAlone := by
  intro number other next writer key lock hstep hlisted hstruck hne hwriter
  obtain ⟨taker, moved, -, hperm, -, hturn⟩ := turn_of_step? hstep
  have hnone := (hbalanced.perm (phases_perm hperm)).sharers_eq_zero_of_struck hturn hlisted hstruck
  have hrest : writer ∈ state.writers.eraseIdx number :=
    List.mem_eraseIdx_iff_getElem?.2 ⟨other, hne, hwriter⟩
  exact sharers_eq_zero_iff.1 hnone writer.phase (List.mem_map_of_mem hrest)

/-- A schedule leads through reachable states. -/
theorem reachable_run (state : Writers) (schedule : List Nat) (hreach : Reachable start state) :
    Reachable start (state.run schedule) := by
  induction schedule generalizing state with
  | nil => exact hreach
  | cons number rest ih =>
      apply ih
      change Reachable start ((state.step? number).getD state)
      cases hstep : state.step? number with
      | none => exact hreach
      | some next => exact hreach.step hstep

/-- However many writers share a store that nobody uses yet, and in whatever order
their steps come, the writers of one path take turns, and the entry of a path
stays listed as long as another writer has a share of its lock. -/
theorem writers_take_turns (hempty : start.store.locks = .empty)
    (hidle : ∀ writer ∈ start.writers, writer.phase = .idle) (hreach : Reachable start state) :
    state.IsExclusive ∧ state.StrikesAlone := by
  have hbalanced := balanced_of_reachable hempty hidle hreach
  exact ⟨isExclusive_of_balanced hbalanced, strikesAlone_of_balanced hbalanced⟩

/-- Two writers of one path, each with a spelling of its own. -/
def rivals : Writers where
  store := { directoryOf := fun _ => ⟨"users"⟩ }
  writers := [{ pending := [⟨⟨"users/t"⟩, [1]⟩] }, { pending := [⟨⟨"users//./t"⟩, [2]⟩] }]

/-- The first rival gets hold of the lock, the second has a share of it and has to
wait. -/
theorem rivals_take_turns :
    rivals.store.locks = .empty ∧ (∀ writer ∈ rivals.writers, writer.phase = .idle) ∧
      Reachable rivals (rivals.run [0, 1, 0, 1]) ∧
      (rivals.run [0, 1, 0, 1]).phases =
        [.writing ⟨⟨"users/t"⟩, [1]⟩ 0, .waiting ⟨⟨"users//./t"⟩, [2]⟩ 0] ∧
      (rivals.run [0, 1, 0, 1]).IsExclusive ∧ (rivals.run [0, 1, 0, 1]).StrikesAlone := by
  have hidle : ∀ writer ∈ rivals.writers, writer.phase = .idle := by decide +kernel
  have hreach : Reachable rivals (rivals.run [0, 1, 0, 1]) := reachable_run rivals _ .refl
  exact ⟨rfl, hidle, hreach, by decide +kernel, writers_take_turns rfl hidle hreach⟩

end Writers

end CredentialIntake.Store
