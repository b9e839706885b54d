import CredentialIntake.Proofs.WriteStages

/-!
# Files found half written

Who looks at the target of a write while it is going on, or after it was
stopped, sees the bytes of before or all of the new ones as long as a file is
replaced.  A file that is created is filled where it stands: it is found empty
first, and then with the part of the content that has been written so far.
-/

namespace CredentialIntake.Store

open FileTree FileProgram

variable {tree between : FileTree} {path : Path} {content : Bytes}

/-- The path shows what it has shown before, or a file with all of the content. -/
def IsWhole (tree : FileTree) (path : Path) (content : Bytes) (between : FileTree) : Prop :=
  between.stat path = tree.stat path ∨ between.Holds path content

/-- However far the write has come, its target is whole. -/
def StaysWhole (pieces : Pieces) (tree : FileTree) (path : Path) (content : Bytes) : Prop :=
  ∀ steps, IsWhole tree path content
    ((atomicWriteProgram pieces path content).treeAfter steps tree)

/-- The path shows a file with a beginning of the content. -/
def IsPartial (path : Path) (content : Bytes) (between : FileTree) : Prop :=
  ∃ part, part <+: content ∧ between.stat path = .ok (.file ⟨privateMode, part⟩)

private theorem stat_insert {place : Location} (hleads : LeadsTo tree path place)
    (hfree : tree.node? place = none) (file : File) :
    (tree.insert place (.file file)).stat path = .ok (.file file) :=
  FileProgram.stat_insert hleads (by simp [hfree]) file

/-- The only stages at which a target is not whole are those of its creation. -/
theorem WriteStage.isWhole_or_isPartial (hstage : WriteStage tree path content between) :
    IsWhole tree path content between ∨ IsVacant tree path ∧ IsPartial path content between := by
  cases hstage with
  | untouched => exact Or.inl (Or.inl rfl)
  | creating hleads hfree hpart =>
      exact Or.inr ⟨⟨_, hleads, hfree⟩, _, hpart, stat_insert hleads hfree _⟩
  | replacing hread hcontent hagrees =>
      obtain ⟨⟨place, hlocate⟩, -⟩ := read_eq_ok_iff.1 hread
      obtain ⟨hleads, -⟩ := locate_eq_ok_iff_leadsTo.1 hlocate
      refine Or.inl (Or.inl ?_)
      rw [stat_of_leadsTo (hleads.congr hagrees.folders), stat_of_leadsTo hleads,
        hagrees.node?_eq (not_mem_placesAt_siblingPaths hleads)]
  | replaced heffect => exact Or.inl (Or.inr heffect.holds)

/-- A file that is being created is found empty. -/
theorem passes_atomicWriteProgram_empty {place : Location} (pieces : Pieces) (content : Bytes)
    (hleads : LeadsTo tree path place) (hfree : tree.node? place = none) :
    (atomicWriteProgram pieces path content).Passes tree
      (tree.insert place (.file ⟨privateMode, []⟩)) := by
  have hread : tree.read path = .error .notFound := by rw [read_of_leadsTo hleads, hfree]
  rw [atomicWriteProgram, passes_bind_iff, run_readFile, hread]
  right
  rw [createTarget, passes_bind_iff]
  exact Or.inl (passes_write_empty pieces privateMode content hleads hfree)

/-- The target of a write stays whole exactly if no file has to be created, or an
empty one; and where it is not whole it holds a part of what it is to hold. -/
theorem staysWhole_iff_of_vacant (pieces : Pieces) (tree : FileTree) (path : Path)
    (content : Bytes) :
    (StaysWhole pieces tree path content ↔ (IsVacant tree path → content = [])) ∧
      ∀ steps,
        IsWhole tree path content
            ((atomicWriteProgram pieces path content).treeAfter steps tree) ∨
          IsPartial path content
            ((atomicWriteProgram pieces path content).treeAfter steps tree) := by
  have hstage := fun steps => writeStage_treeAfter pieces steps tree path content
  refine ⟨⟨?_, ?_⟩, fun steps => (hstage steps).isWhole_or_isPartial.imp_right And.right⟩
  · -- a target that is created is empty at first, and that has to be its whole content
    rintro hstays ⟨place, hleads, hfree⟩
    obtain ⟨steps, hempty⟩ := passes_atomicWriteProgram_empty pieces content hleads hfree
    have hfound := stat_insert hleads hfree ⟨privateMode, []⟩
    rcases hempty ▸ hstays steps with hbefore | ⟨file, hread, rfl⟩
    · rw [hfound, stat_of_leadsTo hleads, hfree] at hbefore
      cases hbefore
    · rw [FileTree.read, hfound] at hread
      cases hread
      rfl
  · intro hvacant steps
    rcases (hstage steps).isWhole_or_isPartial with hwhole | ⟨hfree, part, hpart, hfound⟩
    · exact hwhole
    · obtain rfl := hvacant hfree
      obtain rfl := List.prefix_nil.1 hpart
      right
      exact ⟨⟨privateMode, []⟩, by rw [FileTree.read, hfound]; rfl, rfl⟩

/-! ## A file that is found empty -/

/-- No target of a write is ever found empty or in part. -/
def IsNeverTorn : Prop :=
  ∀ (pieces : Pieces) (tree : FileTree) (path : Path) (content : Bytes),
    (tree.stat path = .error .notFound ∨ ∃ file, tree.stat path = .ok (.file file)) →
      StaysWhole pieces tree path content

/-- Nothing is at `t`, and no file can be staged for it. -/
private def vacantTree : FileTree := FileTree.empty.insert ["t.new"] .directory

/-- After two steps, the look at the target and its opening, `t` is an empty file. -/
theorem not_isNeverTorn : ¬ IsNeverTorn := by
  intro hnever
  have hvacant : vacantTree.stat ⟨"t"⟩ = .error .notFound := by decide +kernel
  have hempty : ((atomicWriteProgram Pieces.whole ⟨"t"⟩ (Bytes.ofText "x")).treeAfter 2
      vacantTree).stat ⟨"t"⟩ = .ok (.file ⟨privateMode, []⟩) := by decide +kernel
  rcases hnever Pieces.whole vacantTree ⟨"t"⟩ (Bytes.ofText "x") (Or.inl hvacant) 2 with
    hbefore | ⟨file, hread, hcontent⟩
  · rw [hempty, hvacant] at hbefore
    cases hbefore
  · rw [FileTree.read, hempty] at hread
    cases hread
    exact absurd hcontent (by decide +kernel)

end CredentialIntake.Store
