import CredentialIntake.Proofs.Holdings

/-!
# Warnings of writes

A write is reported in one case only, when it replaces a file of which no copy
could be kept.  A run of writes is followed write by write, up to the first that
fails, and its warnings are those of the writes it attempted.
-/

namespace CredentialIntake.Store

/-- A write with the way it ended and what was counted after it. -/
structure Attempt where
  write : FileWrite
  result : Except IntakeError WriteOutcome
  counters : StoreCounters

/-- The warning an attempt calls for: a file was replaced without a copy. -/
def Attempt.warning? (attempt : Attempt) : Option Event :=
  match attempt.result with
  | .ok (.replaced false) =>
    some (.backupNotKept attempt.write.path attempt.counters.backupFailures)
  | _ => none

def attempt (store : Store) (write : FileWrite) : Attempt :=
  ⟨write, (store.writeFile write).1, (store.writeFile write).2.counters⟩

/-- The writes of a run, up to the first that fails. -/
def attempts (store : Store) : List FileWrite → List Attempt
  | [] => []
  | write :: rest =>
    store.attempt write ::
      match store.writeFile write with
      | (.ok _, after) => after.attempts rest
      | (.error _, _) => []

theorem level_of_warning? {attempt : Attempt} {event : Event}
    (hwarning : attempt.warning? = some event) : event.level = .warn := by
  rw [Attempt.warning?] at hwarning
  split at hwarning
  · cases hwarning
    rfl
  · cases hwarning

theorem warning?_eq_none {store : Store} {write : FileWrite}
    (hplain : (store.writeFile write).1 ≠ .ok (.replaced false)) :
    (store.attempt write).warning? = none := by
  rw [Attempt.warning?]
  split
  next hreplaced => exact absurd hreplaced hplain
  · rfl

theorem log_writeFile_eq (store : Store) (write : FileWrite) :
    (store.writeFile write).2.log = store.log ++ (store.attempt write).warning?.toList := by
  rw [Attempt.warning?, attempt, counters_writeFile, fst_writeFile]
  simp only [writeFile, writeUnlocked]
  cases (atomicWrite write.path write.content store.tree).1 with
  | error error => exact (List.append_nil _).symm
  | ok outcome =>
    cases outcome with
    | created => exact (List.append_nil _).symm
    | unchanged => exact (List.append_nil _).symm
    | replaced kept =>
      cases kept with
      | true => exact (List.append_nil _).symm
      | false => rfl

theorem attempts_cons_ok {store : Store} {write : FileWrite} {outcome : WriteOutcome}
    (hdone : (store.writeFile write).1 = .ok outcome) (rest : List FileWrite) :
    store.attempts (write :: rest) =
      store.attempt write :: (store.writeFile write).2.attempts rest := by
  rw [attempts]
  cases hwrite : store.writeFile write with
  | mk result after =>
    rw [hwrite] at hdone
    cases hdone
    rfl

theorem attempts_cons_error {store : Store} {write : FileWrite} {error : IntakeError}
    (hfailed : (store.writeFile write).1 = .error error) (rest : List FileWrite) :
    store.attempts (write :: rest) = [store.attempt write] := by
  rw [attempts]
  cases hwrite : store.writeFile write with
  | mk result after =>
    rw [hwrite] at hfailed
    cases hfailed
    rfl

/-- A run adds the warnings of its attempts to the log, and nothing else. -/
theorem log_writeAll (store : Store) (writes : List FileWrite) :
    (store.writeAll writes).2.log =
      store.log ++ (store.attempts writes).filterMap (·.warning?) := by
  induction writes generalizing store with
  | nil => exact (List.append_nil _).symm
  | cons write rest ih =>
    have hfirst : ∀ later : List Attempt, (store.attempt write :: later).filterMap (·.warning?) =
        (store.attempt write).warning?.toList ++ later.filterMap (·.warning?) := by
      intro later
      rw [List.filterMap_cons]
      cases (store.attempt write).warning? <;> rfl
    cases hwrite : (store.writeFile write).1 with
    | error error =>
      rw [writeAll_cons_error hwrite, attempts_cons_error hwrite, log_writeFile_eq, hfirst,
        List.filterMap_nil, List.append_nil]
    | ok outcome =>
      rw [writeAll_cons_ok hwrite, attempts_cons_ok hwrite, ih, log_writeFile_eq, hfirst,
        List.append_assoc]

/-- How a run goes depends on files and counters, and not on what was reported before. -/
theorem attempts_congr {left right : Store} (hsame : left.holdings = right.holdings)
    (writes : List FileWrite) : left.attempts writes = right.attempts writes := by
  induction writes generalizing left right with
  | nil => rfl
  | cons write rest ih =>
    obtain ⟨hresult, hafter⟩ := writeFile_congr hsame write
    have hcounters : (left.writeFile write).2.counters = (right.writeFile write).2.counters :=
      congrArg Holdings.counters hafter
    have hattempt : left.attempt write = right.attempt write := by
      rw [attempt, attempt, hresult, hcounters]
    cases hwrite : (right.writeFile write).1 with
    | error error =>
      rw [attempts_cons_error (hresult.trans hwrite), attempts_cons_error hwrite, hattempt]
    | ok outcome =>
      rw [attempts_cons_ok (hresult.trans hwrite), attempts_cons_ok hwrite, hattempt, ih hafter]

end CredentialIntake.Store
