import CredentialIntake.Proofs.WriteEffect
import CredentialIntake.Store.Basic

/-!
# Runs of writes

A run of writes leaves alone everything outside of the footprints of its paths,
fails with file faults only, and where it succeeds every path holds what the
last write that leads to its location brought, provided that no write leads to
a backup or a staging file of another.
-/

namespace CredentialIntake.Store

open FileTree

/-! ## One write of the store -/

private theorem tree_book (store : Store) (path : Path) (outcome : WriteOutcome) :
    (store.book path outcome).tree = store.tree := by
  cases outcome with
  | created => rfl
  | unchanged => rfl
  | replaced kept => cases kept <;> rfl

private theorem directoryOf_book (store : Store) (path : Path) (outcome : WriteOutcome) :
    (store.book path outcome).directoryOf = store.directoryOf := by
  cases outcome with
  | created => rfl
  | unchanged => rfl
  | replaced kept => cases kept <;> rfl

/-- A write of the store has the effect of the replacement on its tree. -/
theorem writeFile_effect (store : Store) (write : FileWrite) :
    WriteEffect store.tree write.path write.content (store.writeFile write).1
      (store.writeFile write).2.tree := by
  have heffect := atomicWrite_effect store.tree write.path write.content
  simp only [writeFile, writeUnlocked]
  cases hresult : (atomicWrite write.path write.content store.tree).1 with
  | ok outcome =>
      rw [hresult] at heffect
      simpa only [hresult, tree_book] using heffect
  | error error =>
      rw [hresult] at heffect
      simpa only [hresult] using heffect

@[simp]
theorem directoryOf_writeFile (store : Store) (write : FileWrite) :
    (store.writeFile write).2.directoryOf = store.directoryOf := by
  simp only [writeFile, writeUnlocked]
  cases hresult : (atomicWrite write.path write.content store.tree).1 with
  | ok outcome => simp only [directoryOf_book]
  | error error => rfl

/-! ## Runs -/

theorem writeAll_cons_ok {store : Store} {write : FileWrite} {outcome : WriteOutcome}
    (hfirst : (store.writeFile write).1 = .ok outcome) (rest : List FileWrite) :
    store.writeAll (write :: rest) = (store.writeFile write).2.writeAll rest := by
  rw [writeAll, ← Prod.mk.eta (p := store.writeFile write), hfirst]

theorem writeAll_cons_error {store : Store} {write : FileWrite} {error : IntakeError}
    (hfirst : (store.writeFile write).1 = .error error) (rest : List FileWrite) :
    store.writeAll (write :: rest) = (.error error, (store.writeFile write).2) := by
  rw [writeAll, ← Prod.mk.eta (p := store.writeFile write), hfirst]

theorem writeAll_append (store : Store) (left right : List FileWrite) :
    store.writeAll (left ++ right) =
      match store.writeAll left with
      | (.ok (), middle) => middle.writeAll right
      | (.error error, middle) => (.error error, middle) := by
  induction left generalizing store with
  | nil => rfl
  | cons write rest ih =>
      rw [List.cons_append]
      cases hfirst : (store.writeFile write).1 with
      | ok outcome => rw [writeAll_cons_ok hfirst, writeAll_cons_ok hfirst, ih]
      | error error => rw [writeAll_cons_error hfirst, writeAll_cons_error hfirst]

@[simp]
theorem directoryOf_writeAll (store : Store) (writes : List FileWrite) :
    (store.writeAll writes).2.directoryOf = store.directoryOf := by
  induction writes generalizing store with
  | nil => rfl
  | cons write rest ih =>
      cases hfirst : (store.writeFile write).1 with
      | ok outcome => rw [writeAll_cons_ok hfirst, ih, directoryOf_writeFile]
      | error error => rw [writeAll_cons_error hfirst, directoryOf_writeFile]

/-- A run fails with file faults only. -/
theorem writeAll_error_eq_io {store : Store} {writes : List FileWrite} {error : IntakeError}
    (hfailed : (store.writeAll writes).1 = .error error) :
    ∃ path fault, error = .io path fault := by
  induction writes generalizing store with
  | nil => cases hfailed
  | cons write rest ih =>
      cases hfirst : (store.writeFile write).1 with
      | ok outcome =>
          rw [writeAll_cons_ok hfirst] at hfailed
          exact ih hfailed
      | error other =>
          rw [writeAll_cons_error hfirst] at hfailed
          cases hfailed
          have heffect := store.writeFile_effect write
          rw [hfirst] at heffect
          exact heffect.eq_io

/-- The locations a run of writes is concerned with. -/
def runFootprint (tree : FileTree) (writes : List FileWrite) : Set Location :=
  {place | ∃ write ∈ writes, place ∈ footprint tree write.path}

theorem runFootprint_congr {before after : FileTree} (hsame : SameFolders before after)
    (writes : List FileWrite) : runFootprint after writes = runFootprint before writes := by
  simp only [runFootprint, footprint_congr hsame]

theorem writeAll_agreesOutside (store : Store) (writes : List FileWrite) :
    AgreesOutside (runFootprint store.tree writes) store.tree
      (store.writeAll writes).2.tree := by
  induction writes generalizing store with
  | nil => exact AgreesOutside.refl _ _
  | cons write rest ih =>
      have heffect := (store.writeFile_effect write).agreesOutside
      have hwrite : footprint store.tree write.path ⊆ runFootprint store.tree (write :: rest) :=
        fun place hplace => ⟨write, List.mem_cons_self, hplace⟩
      cases hfirst : (store.writeFile write).1 with
      | error error =>
          rw [writeAll_cons_error hfirst]
          exact heffect.mono hwrite
      | ok outcome =>
          rw [writeAll_cons_ok hfirst]
          have hrest := ih (store.writeFile write).2
          rw [runFootprint_congr heffect.folders] at hrest
          refine (heffect.mono hwrite).trans (hrest.mono ?_)
          rintro place ⟨other, hother, hplace⟩
          exact ⟨other, List.mem_cons_of_mem write hother, hplace⟩

/-! ## The last write counts -/

/-- No write leads to a backup or a staging file of a write. -/
def SiblingFree (tree : FileTree) (writes : List FileWrite) : Prop :=
  ∀ write ∈ writes, ∀ other ∈ writes, ∀ place, tree.target? other.path = some place →
    tree.target? (backupPath write.path) ≠ some place ∧
      tree.target? (stagingPath write.path) ≠ some place

/-- The last of the writes that lead where the path leads. -/
def lastAimedAt? (tree : FileTree) (path : Path) (writes : List FileWrite) : Option FileWrite :=
  writes.reverse.find? fun write => tree.target? write.path = tree.target? path

theorem writeAll_append_eq_ok_iff {store : Store} {left right : List FileWrite} :
    (store.writeAll (left ++ right)).1 = .ok () ↔
      (store.writeAll left).1 = .ok () ∧ ((store.writeAll left).2.writeAll right).1 = .ok () := by
  rw [writeAll_append, ← Prod.mk.eta (p := store.writeAll left)]
  cases (store.writeAll left).1 with
  | ok done => simp
  | error error => simp

theorem writeAll_append_of_ok {store : Store} {left : List FileWrite}
    (hleft : (store.writeAll left).1 = .ok ()) (right : List FileWrite) :
    store.writeAll (left ++ right) = (store.writeAll left).2.writeAll right := by
  rw [writeAll_append, ← Prod.mk.eta (p := store.writeAll left), hleft]

theorem writeAll_cons_eq_ok {store : Store} {write : FileWrite} {rest : List FileWrite}
    (hdone : (store.writeAll (write :: rest)).1 = .ok ()) :
    ∃ outcome, (store.writeFile write).1 = .ok outcome ∧
      ((store.writeFile write).2.writeAll rest).1 = .ok () := by
  cases hfirst : (store.writeFile write).1 with
  | ok outcome =>
      rw [writeAll_cons_ok hfirst] at hdone
      exact ⟨outcome, rfl, hdone⟩
  | error error =>
      rw [writeAll_cons_error hfirst] at hdone
      cases hdone

theorem writeAll_split_eq_ok {store : Store} {before after : List FileWrite} {write : FileWrite}
    (hdone : (store.writeAll (before ++ write :: after)).1 = .ok ()) :
    ∃ middle : Store, SameFolders store.tree middle.tree ∧
      middle.tree.Holds write.path write.content ∧
        store.writeAll (before ++ write :: after) = middle.writeAll after := by
  obtain ⟨hbefore, hrest⟩ := writeAll_append_eq_ok_iff.1 hdone
  obtain ⟨outcome, hwrite, -⟩ := writeAll_cons_eq_ok hrest
  have heffect := (store.writeAll before).2.writeFile_effect write
  rw [hwrite] at heffect
  refine ⟨((store.writeAll before).2.writeFile write).2, ?_, heffect.holds, ?_⟩
  · exact (store.writeAll_agreesOutside before).folders.trans heffect.agreesOutside.folders
  · rw [writeAll_append_of_ok hbefore, writeAll_cons_ok hwrite]

/-- Only paths that lead to a location are written. -/
theorem leadsTo_of_writeAll {store : Store} {writes : List FileWrite}
    (hdone : (store.writeAll writes).1 = .ok ()) {write : FileWrite} (hmem : write ∈ writes) :
    ∃ place, LeadsTo store.tree write.path place := by
  obtain ⟨before, after, rfl⟩ := List.append_of_mem hmem
  obtain ⟨middle, hsame, hholds, -⟩ := writeAll_split_eq_ok hdone
  obtain ⟨place, hleads⟩ := hholds.leadsTo
  exact ⟨place, hleads.congr hsame.symm⟩

/-- What a write brought stays where no later write leads. -/
theorem writeAll_holds_of_no_later {store : Store} {before after : List FileWrite}
    {write : FileWrite} (hdone : (store.writeAll (before ++ write :: after)).1 = .ok ())
    (hfree : SiblingFree store.tree (before ++ write :: after))
    (hlater : ∀ later ∈ after, store.tree.target? later.path ≠ store.tree.target? write.path) :
    (store.writeAll (before ++ write :: after)).2.tree.Holds write.path write.content := by
  obtain ⟨middle, hsame, hholds, hrun⟩ := writeAll_split_eq_ok hdone
  rw [hrun]
  apply (middle.writeAll_agreesOutside after).holds hholds
  intro place hplace
  rw [hsame.target?_eq] at hplace
  rw [runFootprint_congr hsame]
  rintro ⟨later, hmem, sibling, hsibling, htarget⟩
  have hsiblings := hfree later (by simp [hmem]) write (by simp) place hplace
  simp only [List.mem_cons, List.not_mem_nil, or_false] at hsibling
  rcases hsibling with rfl | rfl | rfl
  · exact hlater later hmem (htarget.trans hplace.symm)
  · exact hsiblings.1 htarget
  · exact hsiblings.2 htarget

/-- Where no two writes lead to one location, all of them stay. -/
theorem writeAll_holds_of_pairwise {store : Store} {writes : List FileWrite}
    (hdone : (store.writeAll writes).1 = .ok ()) (hfree : SiblingFree store.tree writes)
    (hdistinct : writes.Pairwise fun left right =>
      store.tree.target? left.path ≠ store.tree.target? right.path)
    {write : FileWrite} (hmem : write ∈ writes) :
    (store.writeAll writes).2.tree.Holds write.path write.content := by
  obtain ⟨before, after, rfl⟩ := List.append_of_mem hmem
  apply writeAll_holds_of_no_later hdone hfree
  intro later hlater
  obtain ⟨hfirst, -⟩ := List.pairwise_cons.1 (List.pairwise_append.1 hdistinct).2.1
  exact (hfirst later hlater).symm

/-- After a run that succeeds, every path written holds what the last write that
leads to its location brought. -/
theorem writeAll_holds_lastAimedAt {store : Store} {writes : List FileWrite}
    (hdone : (store.writeAll writes).1 = .ok ()) (hfree : SiblingFree store.tree writes)
    {write : FileWrite} (hmem : write ∈ writes) :
    ∃ last, lastAimedAt? store.tree write.path writes = some last ∧
      (store.writeAll writes).2.tree.Holds write.path last.content := by
  obtain ⟨last, hlast⟩ : ∃ last, lastAimedAt? store.tree write.path writes = some last := by
    rw [← Option.isSome_iff_exists, lastAimedAt?, List.find?_isSome]
    exact ⟨write, List.mem_reverse.2 hmem, by simp⟩
  refine ⟨last, hlast, ?_⟩
  obtain ⟨hsame, later, earlier, hsplit, hlater⟩ := List.find?_eq_some_iff_append.1 hlast
  -- the search runs from the end, so what it passed over was written later
  have hwrites : writes = earlier.reverse ++ last :: later.reverse := by
    rw [← List.reverse_reverse writes, hsplit]
    simp
  have hholds : (store.writeAll writes).2.tree.Holds last.path last.content := by
    rw [hwrites] at hdone hfree ⊢
    apply writeAll_holds_of_no_later hdone hfree
    intro other hother heq
    have hdiffers := hlater other (List.mem_reverse.1 hother)
    rw [heq, of_decide_eq_true hsame] at hdiffers
    simp at hdiffers
  obtain ⟨place, hleads⟩ := leadsTo_of_writeAll hdone hmem
  have hfinal := (store.writeAll_agreesOutside writes).folders
  refine hholds.congr ?_ (hleads.congr hfinal)
  rw [hfinal.target?_eq, of_decide_eq_true hsame, hleads.target]

end CredentialIntake.Store
