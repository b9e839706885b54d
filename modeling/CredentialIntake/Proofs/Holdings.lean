import CredentialIntake.Proofs.WriteRuns

/-!
# What a store holds

The files of a store and its counters, without its locks and its log.  How a
write ends and what it makes of them depends on nothing else, and the counters
tell how many writes have succeeded.
-/

namespace CredentialIntake

namespace StoreCounters

/-- The counters once a write has ended; one that fails is not counted. -/
def count (counters : StoreCounters) : Except IntakeError Store.WriteOutcome → StoreCounters
  | .error _ => counters
  | .ok .created => { counters with created := counters.created + 1 }
  | .ok .unchanged => { counters with unchanged := counters.unchanged + 1 }
  | .ok (.replaced true) => { counters with replaced := counters.replaced + 1 }
  | .ok (.replaced false) =>
    { counters with
      replaced := counters.replaced + 1
      backupFailures := counters.backupFailures + 1 }

/-- How many writes were counted. -/
def total (counters : StoreCounters) : Nat :=
  counters.created + counters.replaced + counters.unchanged

theorem total_count_ok (counters : StoreCounters) (outcome : Store.WriteOutcome) :
    (counters.count (.ok outcome)).total = counters.total + 1 := by
  cases outcome with
  | created => simp only [count, total]; omega
  | unchanged => simp only [count, total]; omega
  | replaced kept => cases kept <;> (simp only [count, total]; omega)

/-- The counters do not tell in which order two writes have ended. -/
theorem count_comm (counters : StoreCounters)
    (left right : Except IntakeError Store.WriteOutcome) :
    (counters.count left).count right = (counters.count right).count left := by
  rcases left with error | _ | _ | (_ | _) <;> rcases right with other | _ | _ | (_ | _) <;> rfl

end StoreCounters

namespace Store

/-- The files of a store and its counters. -/
structure Holdings where
  tree : FileTree
  counters : StoreCounters

def holdings (store : Store) : Holdings := ⟨store.tree, store.counters⟩

/-- What a write makes of files and counters. -/
def Holdings.perform (holdings : Holdings) (write : FileWrite) : Holdings where
  tree := (atomicWrite write.path write.content holdings.tree).2
  counters := holdings.counters.count (atomicWrite write.path write.content holdings.tree).1

private theorem holdings_book (store : Store) (path : Path) (outcome : WriteOutcome) :
    (store.book path outcome).holdings = ⟨store.tree, store.counters.count (.ok outcome)⟩ := by
  cases outcome with
  | created => rfl
  | unchanged => rfl
  | replaced kept => cases kept <;> rfl

theorem writeFile_eq (store : Store) (write : FileWrite) :
    (store.writeFile write).1 = (atomicWrite write.path write.content store.tree).1 ∧
      (store.writeFile write).2.holdings = store.holdings.perform write := by
  simp only [writeFile, writeUnlocked, Holdings.perform, holdings]
  cases hresult : (atomicWrite write.path write.content store.tree).1 with
  | error error => exact ⟨rfl, rfl⟩
  | ok outcome => exact ⟨rfl, holdings_book _ write.path outcome⟩

theorem fst_writeFile (store : Store) (write : FileWrite) :
    (store.writeFile write).1 = (atomicWrite write.path write.content store.tree).1 :=
  (store.writeFile_eq write).1

theorem holdings_writeFile (store : Store) (write : FileWrite) :
    (store.writeFile write).2.holdings = store.holdings.perform write :=
  (store.writeFile_eq write).2

theorem counters_writeFile (store : Store) (write : FileWrite) :
    (store.writeFile write).2.counters = store.counters.count (store.writeFile write).1 := by
  rw [fst_writeFile]
  exact congrArg Holdings.counters (store.holdings_writeFile write)

private theorem perform_of_holds {holdings : Holdings} {write : FileWrite}
    (hholds : holdings.tree.Holds write.path write.content) :
    holdings.perform write =
      ⟨holdings.tree, holdings.counters.count (.ok .unchanged)⟩ := by
  rw [Holdings.perform, atomicWrite_of_holds hholds]

/-- Writing what is there already is only counted. -/
theorem writeAll_of_holds (store : Store) {writes : List FileWrite}
    (hholds : ∀ write ∈ writes, store.tree.Holds write.path write.content) :
    (store.writeAll writes).1 = .ok () ∧
      (store.writeAll writes).2.holdings = ⟨store.tree,
        { store.counters with unchanged := store.counters.unchanged + writes.length }⟩ := by
  induction writes generalizing store with
  | nil => exact ⟨rfl, rfl⟩
  | cons write rest ih =>
      have hwrite : store.tree.Holds write.path write.content := hholds write List.mem_cons_self
      have hfirst : (store.writeFile write).1 = .ok .unchanged := by
        rw [fst_writeFile, atomicWrite_of_holds hwrite]
      have hafter : (store.writeFile write).2.holdings =
          ⟨store.tree, store.counters.count (.ok .unchanged)⟩ := by
        rw [holdings_writeFile]
        exact perform_of_holds hwrite
      have htree : (store.writeFile write).2.tree = store.tree := congrArg Holdings.tree hafter
      have hcounters : (store.writeFile write).2.counters =
          store.counters.count (.ok .unchanged) := congrArg Holdings.counters hafter
      obtain ⟨hdone, hrest⟩ := ih (store.writeFile write).2 fun other hother => by
        rw [htree]
        exact hholds other (List.mem_cons_of_mem write hother)
      rw [writeAll_cons_ok hfirst]
      refine ⟨hdone, ?_⟩
      rw [hrest, htree, hcounters, StoreCounters.count, List.length_cons, Nat.add_assoc,
        Nat.add_comm 1]

theorem writeFile_congr {left right : Store} (hsame : left.holdings = right.holdings)
    (write : FileWrite) :
    (left.writeFile write).1 = (right.writeFile write).1 ∧
      (left.writeFile write).2.holdings = (right.writeFile write).2.holdings := by
  have htree : left.tree = right.tree := congrArg Holdings.tree hsame
  constructor
  · rw [fst_writeFile, fst_writeFile, htree]
  · rw [holdings_writeFile, holdings_writeFile, hsame]

/-- Runs of writes in stores that hold the same end alike. -/
theorem writeAll_congr {left right : Store} (hsame : left.holdings = right.holdings)
    (writes : List FileWrite) :
    (left.writeAll writes).1 = (right.writeAll writes).1 ∧
      (left.writeAll writes).2.holdings = (right.writeAll writes).2.holdings := by
  induction writes generalizing left right with
  | nil => exact ⟨rfl, hsame⟩
  | cons write rest ih =>
      obtain ⟨hresult, hafter⟩ := writeFile_congr hsame write
      cases hfirst : (right.writeFile write).1 with
      | error error =>
          rw [writeAll_cons_error (hresult.trans hfirst), writeAll_cons_error hfirst]
          exact ⟨rfl, hafter⟩
      | ok outcome =>
          rw [writeAll_cons_ok (hresult.trans hfirst), writeAll_cons_ok hfirst]
          exact ih hafter

/-- No write of a run is taken back from the counters. -/
theorem total_le_total_writeAll (store : Store) (writes : List FileWrite) :
    store.counters.total ≤ (store.writeAll writes).2.counters.total := by
  induction writes generalizing store with
  | nil => exact Nat.le_refl _
  | cons write rest ih =>
      have hcounters := store.counters_writeFile write
      cases hfirst : (store.writeFile write).1 with
      | error error =>
          rw [hfirst] at hcounters
          rw [writeAll_cons_error hfirst, hcounters]
          exact Nat.le_refl _
      | ok outcome =>
          have hrest := ih (store.writeFile write).2
          rw [hcounters, hfirst, StoreCounters.total_count_ok] at hrest
          rw [writeAll_cons_ok hfirst]
          exact Nat.le_of_succ_le hrest

end Store

end CredentialIntake
