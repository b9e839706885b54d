import CredentialIntake.Proofs.Interruptions
import CredentialIntake.Proofs.WriteEffect

/-!
# What a write passes through

A write that replaces a file has the target as it was until one step, the
renaming, puts the whole new content there; up to then it changes nothing but
the backup and the staging file.  A write that creates a file works on the
target itself, which holds a longer and longer part of the content.
-/

namespace CredentialIntake

open FileTree FileProgram

namespace FileProgram

/-! ## Handing a content over in pieces -/

section Pieces

variable {tree between : FileTree} {path : Path} {place : Location} (pieces : Pieces)

/-- While pieces are appended, the file holds those appended so far. -/
theorem exists_part_of_passes_appendAll (hleads : LeadsTo tree path place)
    (hnode : tree.node? place ≠ some .directory) {file : File} {pieces : List Bytes}
    (hpasses : (appendAll path pieces).Passes (tree.insert place (.file file)) between) :
    ∃ part, part <+: pieces.flatten ∧
      between = tree.insert place (.file { file with content := file.content ++ part }) := by
  induction pieces generalizing file with
  | nil =>
      obtain rfl := passes_pure_iff.1 hpasses
      exact ⟨[], List.nil_prefix, by rw [List.append_nil]⟩
  | cons piece rest ih =>
      have happly := apply_append_insert hleads hnode file piece
      rw [appendAll, passes_bind_iff, passes_attempt_ok_iff happly, run_attempt_ok happly]
        at hpasses
      rcases hpasses with (rfl | rfl) | hlater
      · exact ⟨[], List.nil_prefix, by rw [List.append_nil]⟩
      · exact ⟨piece, List.prefix_append _ _, rfl⟩
      · obtain ⟨part, hpart, rfl⟩ := ih hlater
        refine ⟨piece ++ part, ?_, by rw [List.append_assoc]⟩
        rw [List.flatten_cons]
        exact (List.prefix_append_right_inj piece).2 hpart

/-- Where nothing is yet, writing passes through new files with parts of the
content. -/
theorem exists_part_of_passes_write {mode : Nat} {content : Bytes}
    (hleads : LeadsTo tree path place) (hfree : tree.node? place = none)
    (hpasses : (write pieces path mode content).Passes tree between) :
    between = tree ∨
      ∃ part, part <+: content ∧ between = tree.insert place (.file ⟨mode, part⟩) := by
  have hnode : tree.node? place ≠ some .directory := by simp [hfree]
  have hcreate := apply_create_of_free hleads hfree mode
  rw [write, passes_bind_iff, passes_attempt_ok_iff hcreate, run_attempt_ok hcreate] at hpasses
  rcases hpasses with (rfl | rfl) | hlater
  · exact Or.inl rfl
  · exact Or.inr ⟨[], List.nil_prefix, rfl⟩
  right
  simp only [passes_bind_iff, run_appendAll hleads hnode, pieces.flatten_cut] at hlater
  rcases hlater with happend | hsync
  · obtain ⟨part, hpart, rfl⟩ := exists_part_of_passes_appendAll hleads hnode happend
    rw [pieces.flatten_cut] at hpart
    exact ⟨part, hpart, rfl⟩
  · rw [passes_attempt_ok_iff (apply_sync_insert hleads hnode _), or_self] at hsync
    exact ⟨content, List.prefix_rfl, hsync⟩

/-- The first thing that is found there is an empty file. -/
theorem passes_write_empty (mode : Nat) (content : Bytes) (hleads : LeadsTo tree path place)
    (hfree : tree.node? place = none) :
    (write pieces path mode content).Passes tree (tree.insert place (.file ⟨mode, []⟩)) := by
  have hcreate := apply_create_of_free hleads hfree mode
  rw [write, passes_bind_iff, passes_attempt_ok_iff hcreate]
  exact Or.inl (Or.inr rfl)

end Pieces

end FileProgram

namespace Store

variable {tree between : FileTree} {path : Path} {content : Bytes} (pieces : Pieces)

/-! ## Up to the renaming and from there on -/

/-- The backup and the staging file of a target. -/
def siblingPaths (path : Path) : Set Path := {backupPath path, stagingPath path}

/-- No target stands where one of its siblings would. -/
theorem not_mem_placesAt_siblingPaths {place : Location} (hleads : LeadsTo tree path place) :
    place ∉ tree.placesAt (siblingPaths path) := by
  obtain ⟨folder, name, rfl, -⟩ := exists_siblings hleads
  rintro ⟨sibling, rfl | rfl, htarget⟩
  · exact ne_append_suffix folder name (show ".old" ≠ "" by decide)
      (eq_of_target?_sibling hleads (by decide) htarget)
  · exact ne_append_suffix folder name (show ".new" ≠ "" by decide)
      (eq_of_target?_sibling hleads (by decide) htarget)

/-- A replacement up to the renaming; what it returns says whether there is a
backup. -/
def stageBeside (path : Path) (content : Bytes) : FileProgram (Except FileFault Bool) := do
  let _ ← attempt (.remove (backupPath path))
  let _ ← attempt (.remove (stagingPath path))
  match ← write pieces (stagingPath path) privateMode content with
  | .error fault => return .error fault
  | .ok () =>
    let backup ← copy pieces path (backupPath path)
    return .ok backup.isOk

/-- A replacement from the renaming on. -/
def moveOver (path : Path) (kept : Bool) : FileProgram (Except IntakeError WriteOutcome) := do
  match ← attempt (.rename (stagingPath path) path) with
  | .ok () => return .ok (.replaced kept)
  | .error fault =>
    let _ ← attempt (.remove (stagingPath path))
    return .error (.io path fault)

theorem replaceTarget_eq (path : Path) (content : Bytes) :
    replaceTarget pieces path content =
      stageBeside pieces path content >>= fun staged =>
        match staged with
        | .error fault => pure (.error (.io (stagingPath path) fault))
        | .ok kept => moveOver path kept := by
  simp only [replaceTarget, stageBeside, bind_assoc]
  congr 1
  funext _
  congr 1
  funext _
  congr 1
  funext staged
  cases staged with
  | error fault => rfl
  | ok done =>
      simp only [bind_assoc, pure_bind]
      rfl

theorem changesOnly_stageBeside (path : Path) (content : Bytes) :
    (stageBeside pieces path content).ChangesOnly (siblingPaths path) := by
  have hremove : ∀ {other : Path}, other ∈ siblingPaths path →
      (attempt (.remove other)).ChangesOnly (siblingPaths path) :=
    fun hother => changesOnly_attempt (by simpa [FileChange.paths] using hother)
  have hbackup : backupPath path ∈ siblingPaths path := Or.inl rfl
  have hstaging : stagingPath path ∈ siblingPaths path := Or.inr rfl
  apply changesOnly_bind (hremove hbackup)
  intro _
  apply changesOnly_bind (hremove hstaging)
  intro _
  apply changesOnly_bind (within_write pieces hstaging _ content).changesOnly
  rintro (fault | done)
  · exact changesOnly_pure _
  · apply changesOnly_bind (changesOnly_copy pieces path hbackup)
    intro backup
    exact changesOnly_pure _

/-- The renaming is the one step of a replacement that concerns the target. -/
private theorem passes_moveOver {kept : Bool} (hpasses : (moveOver path kept).Passes tree between) :
    AgreesOutside (tree.placesAt (siblingPaths path)) tree between ∨
      (moveOver path kept).run tree = (.ok (.replaced kept), between) := by
  cases happly : (FileChange.rename (stagingPath path) path).apply tree with
  | ok changed =>
      rw [moveOver, passes_bind_iff, passes_attempt_ok_iff happly, run_attempt_ok happly] at hpasses
      rw [moveOver, run_bind, run_attempt_ok happly]
      rcases hpasses with (rfl | rfl) | hdone
      · exact Or.inl (AgreesOutside.refl _ _)
      · exact Or.inr rfl
      · obtain rfl := passes_pure_iff.1 hdone
        exact Or.inr rfl
  | error fault =>
      left
      rw [moveOver, passes_bind_iff, run_attempt_error happly] at hpasses
      rcases hpasses with hrename | hremove
      · obtain rfl := passes_pure_iff.1 ((passes_change_error_iff happly).1 hrename)
        exact AgreesOutside.refl _ _
      · apply agreesOutside_of_passes _ hremove
        apply changesOnly_bind (changesOnly_attempt _)
        · intro _
          exact changesOnly_pure _
        · intro other hother
          exact Or.inr (by simpa [FileChange.paths] using hother)

private theorem passes_replaceTarget
    (hpasses : (replaceTarget pieces path content).Passes tree between) :
    AgreesOutside (tree.placesAt (siblingPaths path)) tree between ∨
      ∃ kept, (replaceTarget pieces path content).run tree = (.ok (.replaced kept), between) := by
  have hchanges := changesOnly_stageBeside pieces path content
  have hstaged := agreesOutside_of_passes hchanges (passes_run _ tree)
  rw [replaceTarget_eq, passes_bind_iff] at hpasses
  rw [replaceTarget_eq, run_bind]
  rcases hpasses with hbeside | hlater
  · exact Or.inl (agreesOutside_of_passes hchanges hbeside)
  -- past the staging, it depends on how that ended whether there is a renaming
  generalize (stageBeside pieces path content).run tree = staged at hstaged hlater ⊢
  obtain ⟨result, middle⟩ := staged
  cases result with
  | error fault =>
      obtain rfl := passes_pure_iff.1 hlater
      exact Or.inl hstaged
  | ok kept =>
      rcases passes_moveOver hlater with hafter | hrun
      · rw [placesAt_congr hstaged.folders] at hafter
        exact Or.inl (hstaged.trans hafter)
      · exact Or.inr ⟨kept, hrun⟩

/-! ## The stages -/

/-- The trees a write passes through. -/
inductive WriteStage (tree : FileTree) (path : Path) (content : Bytes) : FileTree → Prop where
  | untouched : WriteStage tree path content tree
  /-- A new file holds a part of the content. -/
  | creating {place : Location} {part : Bytes} :
      LeadsTo tree path place → tree.node? place = none → part <+: content →
      WriteStage tree path content (tree.insert place (.file ⟨privateMode, part⟩))
  /-- Other bytes are still there, and work is done beside them. -/
  | replacing {file : File} {between : FileTree} :
      tree.read path = .ok file → file.content ≠ content →
      AgreesOutside (tree.placesAt (siblingPaths path)) tree between →
      WriteStage tree path content between
  | replaced {kept : Bool} {after : FileTree} :
      WriteEffect tree path content (.ok (.replaced kept)) after →
      WriteStage tree path content after

private theorem writeStage_of_createTarget (hread : tree.read path = .error .notFound)
    (hpasses : (createTarget pieces path content).Passes tree between) :
    WriteStage tree path content between := by
  -- after the writing nothing but its result is left to return
  have hdone : (createTarget pieces path content).Passes tree between →
      (write pieces path privateMode content).Passes tree between := by
    intro hpasses
    rw [createTarget, passes_bind_iff] at hpasses
    rcases hpasses with hwrite | hresult
    · exact hwrite
    · split at hresult <;>
      · obtain rfl := passes_pure_iff.1 hresult
        exact passes_run _ _
  cases hcreate : tree.create path privateMode with
  | ok changed =>
      obtain ⟨place, hleads⟩ := leadsTo_of_create_eq_ok hcreate
      have hfree := node?_eq_none_of_read hread hleads
      rcases exists_part_of_passes_write pieces hleads hfree (hdone hpasses) with
        rfl | ⟨part, hpart, rfl⟩
      · exact .untouched
      · exact .creating hleads hfree hpart
  | error fault =>
      have happly : (FileChange.create path privateMode).apply tree = .error fault := hcreate
      have hwrite := hdone hpasses
      rw [write, passes_bind_iff, run_attempt_error happly] at hwrite
      rcases hwrite with hopen | hresult
      · obtain rfl := passes_pure_iff.1 ((passes_change_error_iff happly).1 hopen)
        exact .untouched
      · obtain rfl := passes_pure_iff.1 hresult
        exact .untouched

/-- Stopped anywhere, a write has come to one of the stages. -/
theorem writeStage_of_passes
    (hpasses : (atomicWriteProgram pieces path content).Passes tree between) :
    WriteStage tree path content between := by
  have heffect : WriteEffect tree path content _ _ := atomicWriteProgram_effect pieces
  rw [atomicWriteProgram, run_bind, run_readFile] at heffect
  rw [atomicWriteProgram, passes_bind_iff, passes_readFile_iff, run_readFile] at hpasses
  rcases hpasses with rfl | hlater
  · exact .untouched
  cases hread : tree.read path with
  | ok file =>
      rw [hread] at hlater heffect
      simp only at hlater heffect
      split at hlater
      · obtain rfl := passes_pure_iff.1 hlater
        exact .untouched
      next hcontent =>
        rw [if_neg hcontent] at heffect
        rcases passes_replaceTarget pieces hlater with hbeside | ⟨kept, hrun⟩
        · exact .replacing hread hcontent hbeside
        · rw [hrun] at heffect
          exact .replaced heffect
  | error fault =>
      rw [hread] at hlater
      by_cases hfault : fault = .notFound
      · subst hfault
        exact writeStage_of_createTarget pieces hread hlater
      · have huntouched : between = tree → WriteStage tree path content between := by
          rintro rfl
          exact .untouched
        cases fault <;>
          first
          | exact absurd rfl hfault
          | exact huntouched (passes_pure_iff.1 hlater)

/-- So it has after any number of its steps. -/
theorem writeStage_treeAfter (steps : Nat) (tree : FileTree) (path : Path) (content : Bytes) :
    WriteStage tree path content
      ((atomicWriteProgram pieces path content).treeAfter steps tree) :=
  writeStage_of_passes pieces ⟨steps, rfl⟩

end Store

end CredentialIntake
