import CredentialIntake.Proofs.Deposits
import CredentialIntake.Proofs.MutualExclusion

/-!
# Entries that stay behind

A writer that hands its lock back strikes the entry out unless another writer has a
share, but a writer that has handed back keeps its own share for one step more.  When
the last hand-back of a path comes just then, nobody strikes the entry out, and it
stays when all writers are done.  This is the only way an entry can stay.
-/

namespace CredentialIntake.Store

open LockTable

/-! ## What a turn leaves listed -/

namespace WriterPhase

variable {phase : WriterPhase} {lock : Nat}

/-- A writer with a share relies on an entry, or is about to give its share up. -/
theorem relies_or_leaves_of_share? (hshare : phase.share? = some lock) :
    (∃ key, phase.reliance? = some (key, lock)) ∨ ∃ write, phase = .leaving write lock := by
  cases phase <;> simp_all [share?, reliance?]

end WriterPhase

namespace Balanced

variable {table after : LockTable} {phase moved : WriterPhase} {others : List WriterPhase}
  {write : FileWrite} {lock : Nat} {key : PathKey}

/-- As long as nobody hands back the lock of a path, its entry stays as it is, unless a
writer asks for it. -/
theorem listed_of_turn (hbalanced : Balanced table (phase :: others))
    (hturn : Turn table phase after moved)
    (hback : ∀ write lock, phase = .releasing write lock → write.path.components ≠ key) :
    after.listed[key]? = table.listed[key]? ∨ ∃ lock, moved.reliance? = some (key, lock) := by
  cases hturn with
  | @asks write =>
      rcases hbalanced.listed_checkOut write.path.components key with hsame | ⟨rfl, -⟩
      · exact Or.inl hsame
      · exact Or.inr ⟨_, rfl⟩
  | takesHold => exact Or.inl (by rw [listed_acquire])
  | writes => exact Or.inl rfl
  | letsGo => exact Or.inl (by rw [listed_release])
  | handsBack =>
      left
      rw [hbalanced.listed_checkIn key, if_neg fun hboth => hback _ _ rfl hboth.1]
  | leaves => exact Or.inl (by rw [listed_giveUp])

/-- What relies on an entry goes on relying on it until the lock is handed back. -/
theorem reliance_of_turn (hturn : Turn table phase after moved)
    (hback : ∀ write lock, phase = .releasing write lock → write.path.components ≠ key)
    (hrelies : phase.reliance? = some (key, lock)) : moved.reliance? = some (key, lock) := by
  cases hturn with
  | asks => cases hrelies
  | takesHold => exact hrelies
  | writes => exact hrelies
  | letsGo => exact hrelies
  | handsBack =>
      cases hrelies
      exact absurd rfl (hback _ _ rfl)
  | leaves => cases hrelies

/-- Handing back leaves the entry of the path if another writer has a share. -/
theorem listed_of_handsBack_iff (hbalanced : Balanced table (.releasing write lock :: others))
    (hturn : Turn table (.releasing write lock) after moved) :
    after.listed[write.path.components]? ≠ none ↔
      ∃ other ∈ others, other.share? = some lock := by
  cases hturn
  have hlisted := hbalanced.relied _ List.mem_cons_self write.path.components lock rfl
  have hshared : (∃ other ∈ others, other.share? = some lock) ↔ sharers others lock ≠ 0 := by
    rw [Ne, sharers_eq_zero_iff]
    simp
  rw [hbalanced.listed_checkIn, hshared, hlisted]
  by_cases hnone : sharers others lock = 0
  · simp [hnone]
  · simp [hnone]

end Balanced

namespace Writers

variable {start state next : Writers} {number lock : Nat} {key : PathKey}

/-! ## Handing back -/

/-- The next turn of a writer hands the lock of a path back. -/
def HandsBack (state : Writers) (number : Nat) (key : PathKey) (lock : Nat) : Prop :=
  ∃ writer write, state.writers[number]? = some writer ∧
    writer.phase = .releasing write lock ∧ write.path.components = key

/-- Another writer has handed the lock back and not given its share up yet. -/
def IsLeftBeside (state : Writers) (number lock : Nat) : Prop :=
  ∃ other writer write, other ≠ number ∧ state.writers[other]? = some writer ∧
    writer.phase = .leaving write lock

/-- No turn of a schedule hands the lock of a path back. -/
def NoneHandsBack (key : PathKey) : Writers → List Nat → Prop
  | _, [] => True
  | state, number :: rest =>
    (∀ lock, ¬ state.HandsBack number key lock) ∧ NoneHandsBack key (state.run [number]) rest

/-- No writer is in the middle of a write. -/
def AtRest (state : Writers) : Prop := ∀ writer ∈ state.writers, writer.phase = .idle

/-- A writer relies on the entry of a path. -/
def Relies (state : Writers) (key : PathKey) : Prop :=
  ∃ phase ∈ state.phases, ∃ lock, phase.reliance? = some (key, lock)

theorem not_relies_of_atRest (hrest : state.AtRest) : ¬ state.Relies key := by
  rintro ⟨phase, hphase, lock, hentry⟩
  obtain ⟨writer, hwriter, rfl⟩ := List.mem_map.1 hphase
  rw [hrest writer hwriter] at hentry
  cases hentry

/-! ## One step -/

theorem run_single_of_step? (hstep : state.step? number = some next) :
    state.run [number] = next := by
  change (state.step? number).getD state = next
  rw [hstep, Option.getD_some]

theorem run_single_of_none (hstep : state.step? number = none) :
    state.run [number] = state := by
  change (state.step? number).getD state = state
  rw [hstep, Option.getD_none]

theorem balanced_run_single (hbalanced : Balanced state.store.locks state.phases) (number : Nat) :
    Balanced (state.run [number]).store.locks (state.run [number]).phases := by
  cases hstep : state.step? number with
  | none => rwa [run_single_of_none hstep]
  | some next =>
      rw [run_single_of_step? hstep]
      exact balanced_of_step? hbalanced hstep

/-- The writer that takes a turn hands nothing back if nobody does. -/
private theorem phase_ne_releasing (hnone : ∀ lock, ¬ state.HandsBack number key lock)
    {writer : Writer} (hwriter : state.writers[number]? = some writer) :
    ∀ write lock, writer.phase = .releasing write lock → write.path.components ≠ key := by
  intro write lock hphase hkey
  exact hnone lock ⟨writer, write, hwriter, hphase, hkey⟩

private theorem listed_run_single (hbalanced : Balanced state.store.locks state.phases)
    (hnone : ∀ lock, ¬ state.HandsBack number key lock) :
    (state.run [number]).store.locks.listed[key]? = state.store.locks.listed[key]? ∨
      (state.run [number]).Relies key := by
  cases hstep : state.step? number with
  | none =>
      rw [run_single_of_none hstep]
      exact Or.inl rfl
  | some next =>
      rw [run_single_of_step? hstep]
      obtain ⟨writer, moved, hwriter, hbefore, hafter, hturn⟩ := turn_of_step? hstep
      rcases (hbalanced.perm (phases_perm hbefore)).listed_of_turn hturn
        (phase_ne_releasing hnone hwriter) with hsame | hrelies
      · exact Or.inl hsame
      · exact Or.inr ⟨moved.phase, (phases_perm hafter).mem_iff.2 List.mem_cons_self, hrelies⟩

private theorem relies_run_single (hnone : ∀ lock, ¬ state.HandsBack number key lock)
    (hrelies : state.Relies key) : (state.run [number]).Relies key := by
  cases hstep : state.step? number with
  | none => rwa [run_single_of_none hstep]
  | some next =>
      rw [run_single_of_step? hstep]
      obtain ⟨phase, hphase, lock, hentry⟩ := hrelies
      obtain ⟨writer, moved, hwriter, hbefore, hafter, hturn⟩ := turn_of_step? hstep
      rcases List.mem_cons.1 ((phases_perm hbefore).mem_iff.1 hphase) with rfl | hothers
      · exact ⟨moved.phase, (phases_perm hafter).mem_iff.2 List.mem_cons_self, lock,
          Balanced.reliance_of_turn hturn (phase_ne_releasing hnone hwriter) hentry⟩
      · exact ⟨phase, (phases_perm hafter).mem_iff.2 (List.mem_cons_of_mem _ hothers), lock, hentry⟩

/-! ## A stretch in which nobody hands back -/

private theorem relies_run {schedule : List Nat} (hnone : NoneHandsBack key state schedule)
    (hrelies : state.Relies key) : (state.run schedule).Relies key := by
  induction schedule generalizing state with
  | nil => exact hrelies
  | cons number rest ih => exact ih hnone.2 (relies_run_single hnone.1 hrelies)

/-- Whoever asks for an entry hands it back before it rests.  So if nobody hands back
and all rest in the end, nobody has asked. -/
private theorem listed_run {schedule : List Nat}
    (hbalanced : Balanced state.store.locks state.phases)
    (hnone : NoneHandsBack key state schedule) (hrest : (state.run schedule).AtRest) :
    (state.run schedule).store.locks.listed[key]? = state.store.locks.listed[key]? := by
  induction schedule generalizing state with
  | nil => rfl
  | cons number rest ih =>
      have hlater := ih (balanced_run_single hbalanced number) hnone.2 hrest
      rcases listed_run_single hbalanced hnone.1 with hsame | hrelies
      · exact hlater.trans hsame
      · exact absurd (relies_run hnone.2 hrelies) (not_relies_of_atRest hrest)

/-- On a schedule that hands a path back there is a last turn that does. -/
private theorem noneHandsBack_or_exists_last (state : Writers) (schedule : List Nat) :
    NoneHandsBack key state schedule ∨ ∃ earlier number later lock,
      schedule = earlier ++ number :: later ∧ (state.run earlier).HandsBack number key lock ∧
        NoneHandsBack key ((state.run earlier).run [number]) later := by
  induction schedule generalizing state with
  | nil => exact Or.inl trivial
  | cons number rest ih =>
      rcases ih (state.run [number]) with hnone | ⟨earlier, last, later, lock, rfl, hback, hnone⟩
      · by_cases hback : ∃ lock, state.HandsBack number key lock
        · obtain ⟨lock, hback⟩ := hback
          exact Or.inr ⟨[], number, rest, lock, rfl, hback, hnone⟩
        · exact Or.inl ⟨fun lock hlock => hback ⟨lock, hlock⟩, hnone⟩
      · exact Or.inr ⟨number :: earlier, last, later, lock, rfl, hback, hnone⟩

/-! ## The last hand-back -/

private theorem step?_of_handsBack (hback : state.HandsBack number key lock) :
    ∃ next, state.step? number = some next := by
  obtain ⟨writer, write, hwriter, hphase, -⟩ := hback
  rw [step?, hwriter, Option.bind_eq_bind, Option.bind_some, advance?, hphase]
  exact ⟨_, rfl⟩

/-- What a hand-back leaves: the entry stays if another writer has a share, and the
others are where they were. -/
private theorem handsBack_leaves (hbalanced : Balanced state.store.locks state.phases)
    (hback : state.HandsBack number key lock) :
    ((state.run [number]).store.locks.listed[key]? ≠ none ↔
      ∃ other writer, other ≠ number ∧ state.writers[other]? = some writer ∧
        writer.phase.share? = some lock) ∧
    ∀ (other : Nat) (writer : Writer), other ≠ number → state.writers[other]? = some writer →
      writer.phase ∈ (state.run [number]).phases := by
  obtain ⟨next, hstep⟩ := step?_of_handsBack hback
  obtain ⟨writer, write, hwriter, hphase, rfl⟩ := hback
  obtain ⟨taker, moved, htaker, hbefore, hafter, hturn⟩ := turn_of_step? hstep
  obtain rfl : writer = taker := Option.some.inj (hwriter.symm.trans htaker)
  have hperm := phases_perm hbefore
  rw [hphase] at hperm hturn
  rw [run_single_of_step? hstep]
  constructor
  · rw [(hbalanced.perm hperm).listed_of_handsBack_iff hturn]
    constructor
    · rintro ⟨phase, hphase, hshare⟩
      obtain ⟨found, hfound, rfl⟩ := List.mem_map.1 hphase
      obtain ⟨other, hne, hother⟩ := List.mem_eraseIdx_iff_getElem?.1 hfound
      exact ⟨other, found, hne, hother, hshare⟩
    · rintro ⟨other, found, hne, hfound, hshare⟩
      have hrest : found ∈ state.writers.eraseIdx number :=
        List.mem_eraseIdx_iff_getElem?.2 ⟨other, hne, hfound⟩
      exact ⟨found.phase, List.mem_map_of_mem hrest, hshare⟩
  · intro other found hne hfound
    have hrest : found ∈ state.writers.eraseIdx number :=
      List.mem_eraseIdx_iff_getElem?.2 ⟨other, hne, hfound⟩
    exact (phases_perm hafter).mem_iff.2 (List.mem_cons_of_mem _ (List.mem_map_of_mem hrest))

/-- When all rest after it, the last hand-back of a path has left the entry exactly if
another writer was leaving. -/
private theorem listed_iff_of_last {later : List Nat}
    (hbalanced : Balanced state.store.locks state.phases)
    (hback : state.HandsBack number key lock)
    (hnone : NoneHandsBack key (state.run [number]) later)
    (hrest : ((state.run [number]).run later).AtRest) :
    ((state.run [number]).run later).store.locks.listed[key]? ≠ none ↔
      state.IsLeftBeside number lock := by
  obtain ⟨hlisted, hothers⟩ := handsBack_leaves hbalanced hback
  rw [listed_run (balanced_run_single hbalanced number) hnone hrest, hlisted]
  constructor
  · rintro ⟨other, writer, hne, hwriter, hshare⟩
    refine ⟨other, writer, ?_⟩
    rcases WriterPhase.relies_or_leaves_of_share? hshare with ⟨found, hentry⟩ | ⟨write, hleaving⟩
    · -- a writer that relied on the entry would have to hand it back later
      obtain ⟨taker, write, htaker, hphase, rfl⟩ := hback
      have hfirst := hbalanced.relied taker.phase
        (List.mem_map_of_mem (List.mem_of_getElem? htaker)) write.path.components lock
        (by rw [hphase]; rfl)
      have hsecond := hbalanced.relied writer.phase
        (List.mem_map_of_mem (List.mem_of_getElem? hwriter)) found lock hentry
      obtain rfl := hbalanced.once _ _ lock hfirst hsecond
      have hrelies := relies_run hnone ⟨writer.phase, hothers other writer hne hwriter, lock, hentry⟩
      exact absurd hrelies (not_relies_of_atRest hrest)
    · exact ⟨write, hne, hwriter, hleaving⟩
  · rintro ⟨other, writer, write, hne, hwriter, hleaving⟩
    exact ⟨other, writer, hne, hwriter, by rw [hleaving]; rfl⟩

/-! ## What is listed when all rest -/

/-- At the last hand-back of a path on a schedule, another writer was leaving. -/
def LeftBehind (start : Writers) (schedule : List Nat) (key : PathKey) : Prop :=
  ∃ earlier number later lock, schedule = earlier ++ number :: later ∧
    (start.run earlier).HandsBack number key lock ∧
    NoneHandsBack key ((start.run earlier).run [number]) later ∧
    (start.run earlier).IsLeftBeside number lock

theorem run_append (state : Writers) (first second : List Nat) :
    state.run (first ++ second) = (state.run first).run second :=
  List.foldl_append

private theorem listed_iff_leftBehind {schedule : List Nat} (hempty : start.store.locks = .empty)
    (hidle : ∀ writer ∈ start.writers, writer.phase = .idle)
    (hrest : (start.run schedule).AtRest) :
    (start.run schedule).store.locks.listed[key]? ≠ none ↔ LeftBehind start schedule key := by
  have hbalanced : ∀ earlier, Balanced (start.run earlier).store.locks (start.run earlier).phases :=
    fun earlier => balanced_of_reachable hempty hidle (reachable_run start earlier .refl)
  have hlast : ∀ {earlier number later lock}, schedule = earlier ++ number :: later →
      (start.run earlier).HandsBack number key lock →
      NoneHandsBack key ((start.run earlier).run [number]) later →
      ((start.run schedule).store.locks.listed[key]? ≠ none ↔
        (start.run earlier).IsLeftBeside number lock) := by
    rintro earlier number later lock rfl hback hnone
    rw [run_append] at hrest ⊢
    exact listed_iff_of_last (hbalanced earlier) hback hnone hrest
  constructor
  · intro hlisted
    rcases noneHandsBack_or_exists_last start schedule with
      hnone | ⟨earlier, number, later, lock, hschedule, hback, hnone⟩
    · have hstart : Balanced start.store.locks start.phases := hbalanced []
      rw [listed_run hstart hnone hrest, hempty] at hlisted
      exact absurd (by simp [LockTable.empty]) hlisted
    · exact ⟨earlier, number, later, lock, hschedule, hback, hnone,
        (hlast hschedule hback hnone).1 hlisted⟩
  · rintro ⟨earlier, number, later, lock, hschedule, hback, hnone, hleft⟩
    exact (hlast hschedule hback hnone).2 hleft

/-- **Which entries stay.**  However many writers share a store that nobody uses yet, and
on whatever schedule they run until all rest: a path is listed then exactly if its last
hand-back came while another writer of the lock was leaving, and the table is empty
exactly if no path is left behind so. -/
theorem listed_eq_empty_iff {schedule : List Nat} (hempty : start.store.locks = .empty)
    (hidle : ∀ writer ∈ start.writers, writer.phase = .idle)
    (hrest : (start.run schedule).AtRest) :
    (∀ key, (start.run schedule).store.locks.listed[key]? ≠ none ↔
      LeftBehind start schedule key) ∧
    ((start.run schedule).store.locks.listed = ∅ ↔ ∀ key, ¬ LeftBehind start schedule key) := by
  have hkeys : ∀ key, (start.run schedule).store.locks.listed[key]? ≠ none ↔
      LeftBehind start schedule key := fun key => listed_iff_leftBehind hempty hidle hrest
  refine ⟨hkeys, ?_⟩
  constructor
  · intro hnone key hleft
    exact (hkeys key).2 hleft (by simp [hnone])
  · intro hnone
    apply Std.ExtTreeMap.ext_getElem?
    intro key
    rw [Std.ExtTreeMap.getElem?_empty]
    exact not_not.1 fun hlisted => hnone key ((hkeys key).1 hlisted)

/-! ## Two writers of one file -/

/-- Two writers of one file in a directory that is there. -/
def twins : Writers where
  store := trial
  writers := [{ pending := [⟨⟨"users/t"⟩, [1]⟩] }, { pending := [⟨⟨"users/t"⟩, [2]⟩] }]

/-- Both ask for the lock, one writes after the other, and the second hands its lock
back before the first gives up its share. -/
def overlap : List Nat := [0, 1, 0, 0, 0, 1, 1, 1, 0, 1, 0, 1]

private theorem idle_twins : ∀ writer ∈ twins.writers, writer.phase = .idle := by
  decide +kernel

private theorem atRest_overlap : (twins.run overlap).AtRest := by
  unfold AtRest
  decide +kernel

private theorem listed_overlap :
    (twins.run overlap).store.locks.listed[["users", "t"]]? ≠ none := by
  decide +kernel

/-- The path of the two writers is left behind. -/
theorem listed_eq_empty_iff_overlap :
    twins.store.locks = .empty ∧ (∀ writer ∈ twins.writers, writer.phase = .idle) ∧
      (twins.run overlap).AtRest ∧ LeftBehind twins overlap ["users", "t"] := by
  have hiff := listed_eq_empty_iff rfl idle_twins atRest_overlap
  exact ⟨rfl, idle_twins, atRest_overlap, (hiff.1 ["users", "t"]).1 listed_overlap⟩

/-- When all rest, nothing is listed. -/
def LeavesNothing : Prop :=
  ∀ start state : Writers, start.store.locks = .empty →
    (∀ writer ∈ start.writers, writer.phase = .idle) → Reachable start state →
    state.AtRest → state.store.locks.listed = ∅

/-- Two writers of one file can leave its entry. -/
theorem not_leavesNothing : ¬ LeavesNothing := by
  intro hnothing
  have hempty := hnothing twins (twins.run overlap) rfl idle_twins
    (reachable_run twins overlap .refl) atRest_overlap
  apply listed_overlap
  rw [hempty, Std.ExtTreeMap.getElem?_empty]

end Writers

end CredentialIntake.Store
