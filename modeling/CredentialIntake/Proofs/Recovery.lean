import CredentialIntake.Proofs.WriteStages

/-!
# Writes taken up again

A write that was stopped may leave a part of a new file, a part of a staging
file, or a part of a backup.  Made again, it comes to the same end from all of
them: the content is at the target, no staging file is left, and the backup is
the file that was there before the first attempt.
-/

namespace CredentialIntake.Store

open FileTree FileProgram

variable {tree between after : FileTree} {path : Path} {content : Bytes}

/-- What a write that was taken up again has to leave of the tree before the
first attempt. -/
structure IsRecovered (tree : FileTree) (path : Path) (content : Bytes)
    (result : Except IntakeError WriteOutcome) (after : FileTree) : Prop where
  succeeds : ∃ outcome, result = .ok outcome
  held : after.Holds path content
  /-- A staging file is left only if it was there before and nothing had to be
  staged. -/
  unstaged : after.isFile (stagingPath path) = true →
    tree.isFile (stagingPath path) = true ∧
      (tree.stat path = .error .notFound ∨ tree.Holds path content)
  backed : ∀ bytes, tree.Holds path bytes → bytes ≠ content →
    after.Holds (backupPath path) bytes
  /-- Where there was nothing to do, nothing has been done. -/
  untouched : tree.Holds path content → after = tree

/-- A replacement that keeps its backup, and whatever succeeds after it without
changing anything. -/
private theorem isRecovered_of_replaced {result : Except IntakeError WriteOutcome}
    (heffect : WriteEffect tree path content (.ok (.replaced true)) after)
    (hsucceeds : ∃ outcome, result = .ok outcome) :
    IsRecovered tree path content result after := by
  obtain ⟨hstaging, file, hread, hcontent, hkept⟩ := heffect.siblings_of_replaced
  refine ⟨hsucceeds, heffect.holds, ?_, ?_, ?_⟩
  · intro hleft
    rw [isFile, hstaging.stat_eq] at hleft
    cases hleft
  · rintro bytes ⟨other, hother, rfl⟩ -
    rw [hread] at hother
    cases hother
    exact ⟨file, hkept rfl, rfl⟩
  · intro hholds
    exact absurd (hholds.unique ⟨file, hread, rfl⟩).symm hcontent

/-! ## One write that nothing stops -/

/-- The path leads to a place that is free or has a readable file, and no
directory is in the way of the siblings. -/
private structure IsClear (tree : FileTree) (path : Path) (folder : Location) (name : String) :
    Prop where
  target : LeadsTo tree path (folder ++ [name])
  named : IsEntryName (name ++ ".new")
  found : tree.node? (folder ++ [name]) = none ∨ ∃ file, tree.read path = .ok file
  backup : tree.node? (folder ++ [name ++ ".old"]) ≠ some .directory
  staging : tree.node? (folder ++ [name ++ ".new"]) ≠ some .directory

namespace IsClear

variable {folder : Location} {name : String}

/-- Work on files does not get in the way. -/
private theorem congr (hclear : IsClear tree path folder name) (hsame : SameFolders tree between)
    (hfound : between.node? (folder ++ [name]) = none ∨ ∃ file, between.read path = .ok file) :
    IsClear between path folder name where
  target := hclear.target.congr hsame
  named := hclear.named
  found := hfound
  backup := (hsame _).not.2 hclear.backup
  staging := (hsame _).not.2 hclear.staging

private theorem entry_eq {other : Location} {last : String}
    (hclear : IsClear tree path folder name) (hleads : LeadsTo tree path (other ++ [last])) :
    other = folder ∧ last = name :=
  List.append_singleton_inj.1 (hleads.unique hclear.target)

private theorem create_eq_ok (hclear : IsClear tree path folder name)
    (hread : tree.read path = .error .notFound) (mode : Nat) :
    ∃ changed, tree.create path mode = .ok changed := by
  have hfree := node?_eq_none_of_read hread hclear.target
  rw [create_of_leadsTo hclear.target, hfree]
  exact ⟨_, rfl⟩

private theorem stat_staging_insert (hclear : IsClear tree path folder name)
    (hfree : tree.node? (folder ++ [name]) = none) (file : File) :
    (tree.insert (folder ++ [name]) (.file file)).stat (stagingPath path) =
      tree.stat (stagingPath path) := by
  have hnode : tree.node? (folder ++ [name]) ≠ some .directory := by simp [hfree]
  have hstaging := leadsTo_sibling hclear.target (by decide) hclear.named
  have hsame := (agreesOutside_insert hnode file).folders
  have hne := ne_append_suffix folder name (show ".new" ≠ "" by decide)
  rw [stagingPath, stat_of_leadsTo (hstaging.congr hsame), stat_of_leadsTo hstaging,
    node?_insert hnode, if_neg hne]

/-- The three ends of such a write; a replacement keeps its backup. -/
private theorem outcome_cases {result : Except IntakeError WriteOutcome}
    (hclear : IsClear tree path folder name)
    (heffect : WriteEffect tree path content result after) :
    (result = .ok .created ∧ tree.stat path = .error .notFound ∧
        after.stat (stagingPath path) = tree.stat (stagingPath path)) ∨
      (result = .ok .unchanged ∧ tree.Holds path content ∧ after = tree) ∨
      result = .ok (.replaced true) := by
  have htarget := hclear.target
  cases heffect with
  | unreadable hread hfault =>
      rcases hclear.found with hfree | ⟨file, hfile⟩
      · rw [read_of_leadsTo htarget, hfree] at hread
        cases hread
        exact absurd rfl hfault
      · rw [hfile] at hread
        cases hread
  | uncreatable hread hcreate =>
      obtain ⟨changed, hcreated⟩ := hclear.create_eq_ok hread privateMode
      rw [hcreated] at hcreate
      cases hcreate
  | created hleads hfree =>
      left
      obtain rfl := htarget.unique hleads
      exact ⟨rfl, by rw [stat_of_leadsTo hleads, hfree], hclear.stat_staging_insert hfree _⟩
  | unchanged hread hcontent => exact Or.inr (Or.inl ⟨rfl, ⟨_, hread, hcontent⟩, rfl⟩)
  | unstaged hleads hread hcontent hblocked =>
      obtain ⟨rfl, rfl⟩ := hclear.entry_eq hleads
      exact absurd (hblocked hclear.named) hclear.staging
  | replaced hleads hread hcontent hentry hroom hkept =>
      obtain ⟨rfl, rfl⟩ := hclear.entry_eq hleads
      obtain rfl := hkept.2 hclear.backup
      exact Or.inr (Or.inr rfl)

/-- Made without interruption, a write needs no recovery. -/
private theorem isRecovered (pieces : Pieces) (hclear : IsClear tree path folder name)
    (content : Bytes) :
    IsRecovered tree path content ((atomicWriteProgram pieces path content).run tree).1
      ((atomicWriteProgram pieces path content).run tree).2 := by
  have heffect : WriteEffect tree path content _ _ := atomicWriteProgram_effect pieces
  have huntouched : tree.Holds path content →
      ((atomicWriteProgram pieces path content).run tree).2 = tree := by
    intro hholds
    rw [run_atomicWriteProgram_of_holds pieces hholds]
  generalize (atomicWriteProgram pieces path content).run tree = ended at heffect huntouched ⊢
  obtain ⟨result, after⟩ := ended
  rcases hclear.outcome_cases heffect with
    ⟨rfl, habsent, hstaging⟩ | ⟨rfl, hholds, rfl⟩ | rfl
  · refine ⟨⟨_, rfl⟩, heffect.holds, ?_, ?_, huntouched⟩
    · intro hleft
      rw [isFile, hstaging] at hleft
      exact ⟨hleft, Or.inl habsent⟩
    · rintro bytes ⟨file, hread, -⟩
      rw [FileTree.read, habsent] at hread
      cases hread
  · refine ⟨⟨_, rfl⟩, hholds, fun hleft => ⟨hleft, Or.inr hholds⟩, ?_, huntouched⟩
    intro bytes hbytes hne
    exact absurd (hbytes.unique hholds) hne
  · exact isRecovered_of_replaced heffect ⟨_, rfl⟩

/-! ## One that was stopped before -/

/-- A write that was stopped has put nothing in its own way. -/
private theorem stage (hclear : IsClear tree path folder name)
    (hstage : WriteStage tree path content between) : IsClear between path folder name := by
  cases hstage with
  | untouched => exact hclear
  | @creating place part hleads hfree hpart =>
      have hnode : tree.node? place ≠ some .directory := by simp [hfree]
      apply hclear.congr (agreesOutside_insert hnode _).folders
      obtain ⟨file, hread, -⟩ := holds_insert hleads hnode (isReadable_private part)
      exact Or.inr ⟨file, hread⟩
  | replacing hread hcontent hagrees =>
      apply hclear.congr hagrees.folders
      right
      refine ⟨_, hagrees.read_eq_ok hread ?_⟩
      intro place htarget
      exact not_mem_placesAt_siblingPaths ⟨htarget, hclear.target.no_slash⟩
  | replaced heffect =>
      apply hclear.congr heffect.agreesOutside.folders
      obtain ⟨file, hread, -⟩ := heffect.holds
      exact Or.inr ⟨file, hread⟩

/-- What recovers the tree a write was stopped in recovers the one it began
with. -/
private theorem isRecovered_of_stage {result : Except IntakeError WriteOutcome}
    (hclear : IsClear tree path folder name) (hstage : WriteStage tree path content between)
    (hrecovered : IsRecovered between path content result after) :
    IsRecovered tree path content result after := by
  obtain ⟨hsucceeds, hheld, hunstaged, hbacked, huntouched⟩ := hrecovered
  cases hstage with
  | untouched => exact ⟨hsucceeds, hheld, hunstaged, hbacked, huntouched⟩
  | creating hleads hfree hpart =>
      -- nothing was there before, so there is nothing to back up
      obtain rfl := hclear.target.unique hleads
      have habsent : tree.stat path = .error .notFound := by rw [stat_of_leadsTo hleads, hfree]
      have hnotHeld : ∀ bytes, ¬ tree.Holds path bytes := by
        rintro bytes ⟨file, hread, -⟩
        rw [FileTree.read, habsent] at hread
        cases hread
      refine ⟨hsucceeds, hheld, ?_, fun bytes hbytes => absurd hbytes (hnotHeld bytes),
        fun hholds => absurd hholds (hnotHeld content)⟩
      intro hleft
      obtain ⟨hbefore, -⟩ := hunstaged hleft
      rw [isFile, hclear.stat_staging_insert hfree] at hbefore
      exact ⟨hbefore, Or.inl habsent⟩
  | @replacing file _ hread hcontent hagrees =>
      -- the target is as it was, and the second attempt backs it up
      have hsame : between.read path = .ok file := by
        apply hagrees.read_eq_ok hread
        intro place htarget
        exact not_mem_placesAt_siblingPaths ⟨htarget, hclear.target.no_slash⟩
      refine ⟨hsucceeds, hheld, ?_, ?_, ?_⟩
      · intro hleft
        obtain ⟨-, habsent | hholds⟩ := hunstaged hleft
        · rw [FileTree.read, habsent] at hsame
          cases hsame
        · exact absurd (hholds.unique ⟨file, hsame, rfl⟩).symm hcontent
      · rintro bytes ⟨other, hother, rfl⟩
        rw [hread] at hother
        cases hother
        exact hbacked _ ⟨file, hsame, rfl⟩
      · intro hholds
        exact absurd (hholds.unique ⟨file, hread, rfl⟩).symm hcontent
  | replaced heffect =>
      -- all was done, and the second attempt finds the new content
      obtain rfl := huntouched heffect.holds
      rcases hclear.outcome_cases heffect with ⟨hcreated, -⟩ | ⟨hunchanged, -⟩ | hreplaced
      · cases hcreated
      · cases hunchanged
      cases hreplaced
      exact isRecovered_of_replaced heffect hsucceeds

end IsClear

/-! ## Recovery -/

/-- A target and its siblings can have their names, the target is absent or a
file, and neither sibling is a directory. -/
structure HasRoom (tree : FileTree) (path : Path) : Prop where
  named : ∃ folder name,
    tree.resolve path = .ok (.entry folder name) ∧ name.utf8ByteSize + 4 ≤ nameLimit
  found : tree.stat path = .error .notFound ∨ ∃ file, tree.stat path = .ok (.file file)
  backup : tree.stat (backupPath path) ≠ .ok .directory
  staging : tree.stat (stagingPath path) ≠ .ok .directory

private theorem HasRoom.exists_isClear (hroom : HasRoom tree path)
    (hreadable : ∀ file, tree.stat path = .ok (.file file) → file.isReadable = true)
    (hslash : path.endsWithSlash = false) : ∃ folder name, IsClear tree path folder name := by
  obtain ⟨folder, name, hresolve, hsize⟩ := hroom.named
  have hleads : LeadsTo tree path (folder ++ [name]) :=
    ⟨target?_eq_some_iff.2 ⟨folder, name, hresolve, rfl⟩, hslash⟩
  have hname := isEntryName_of_target hleads
  have hnamed : IsEntryName (name ++ ".new") := by
    rw [isEntryName_append_iff hname (by decide) (by decide), String.utf8ByteSize_append]
    exact hsize
  have hbackup := leadsTo_sibling hleads (by decide)
    ((isEntryName_backup_iff_staging hname).2 hnamed)
  have hstaging := leadsTo_sibling hleads (by decide) hnamed
  refine ⟨folder, name, hleads, hnamed, ?_, ?_, ?_⟩
  · rcases hroom.found with habsent | ⟨file, hfile⟩
    · left
      apply node?_eq_none_of_read _ hleads
      rw [FileTree.read, habsent]
    · right
      refine ⟨file, ?_⟩
      rw [FileTree.read, hfile]
      exact if_pos (hreadable file hfile)
  · intro hdirectory
    apply hroom.backup
    rw [backupPath, stat_of_leadsTo hbackup, hdirectory]
  · intro hdirectory
    apply hroom.staging
    rw [stagingPath, stat_of_leadsTo hstaging, hdirectory]

/-- Makes a write after an attempt that was stopped after some steps. -/
def writeAgain (pieces again : Pieces) (path : Path) (content : Bytes) (steps : Nat)
    (tree : FileTree) : Except IntakeError WriteOutcome × FileTree :=
  (atomicWriteProgram again path content).run
    ((atomicWriteProgram pieces path content).treeAfter steps tree)

/-- Wherever a write was stopped, to make it again recovers. -/
theorem isRecovered_writeAgain (pieces again : Pieces) (content : Bytes) (steps : Nat)
    (hroom : HasRoom tree path)
    (hreadable : ∀ file, tree.stat path = .ok (.file file) → file.isReadable = true)
    (hslash : path.endsWithSlash = false) :
    IsRecovered tree path content (writeAgain pieces again path content steps tree).1
      (writeAgain pieces again path content steps tree).2 := by
  obtain ⟨folder, name, hclear⟩ := hroom.exists_isClear hreadable hslash
  have hstage := writeStage_treeAfter pieces steps tree path content
  exact hclear.isRecovered_of_stage hstage ((hclear.stage hstage).isRecovered again content)

/-- A file with its siblings of an earlier crash. -/
private def crashedTree : FileTree :=
  ((FileTree.empty.insert ["t"] (.file ⟨0o640, Bytes.ofText "before"⟩)).insert ["t.old"]
    (.file ⟨0o400, Bytes.ofText "ancient"⟩)).insert ["t.new"] (.file ⟨0o000, Bytes.ofText "torn"⟩)

private theorem hasRoom_crashedTree : HasRoom crashedTree ⟨"t"⟩ where
  named := ⟨[], "t", by decide +kernel, by decide +kernel⟩
  found := Or.inr ⟨⟨0o640, Bytes.ofText "before"⟩, by decide +kernel⟩
  backup := by decide +kernel
  staging := by decide +kernel

/-- Stopped in the middle of the backup copy, a replacement is made again. -/
theorem isRecovered_writeAgain_crashed :
    HasRoom crashedTree ⟨"t"⟩ ∧
      (∀ file, crashedTree.stat ⟨"t"⟩ = .ok (.file file) → file.isReadable = true) ∧
      Path.endsWithSlash ⟨"t"⟩ = false ∧
      ((atomicWriteProgram Pieces.whole ⟨"t"⟩ (Bytes.ofText "after")).treeAfter 8
        crashedTree).stat ⟨"t.old"⟩ = .ok (.file ⟨0o640, []⟩) ∧
      IsRecovered crashedTree ⟨"t"⟩ (Bytes.ofText "after")
        (writeAgain Pieces.whole Pieces.whole ⟨"t"⟩ (Bytes.ofText "after") 8 crashedTree).1
        (writeAgain Pieces.whole Pieces.whole ⟨"t"⟩ (Bytes.ofText "after") 8 crashedTree).2 := by
  have hreadable : ∀ file, crashedTree.stat ⟨"t"⟩ = .ok (.file file) → file.isReadable = true := by
    intro file hfile
    have hfound : crashedTree.stat ⟨"t"⟩ = .ok (.file ⟨0o640, Bytes.ofText "before"⟩) := by
      decide +kernel
    rw [hfound] at hfile
    cases hfile
    decide
  exact ⟨hasRoom_crashedTree, hreadable, by decide, by decide +kernel,
    isRecovered_writeAgain _ _ _ 8 hasRoom_crashedTree hreadable (by decide)⟩

/-! ## Where recovery fails -/

/-- A file that its owner may not read. -/
private def unreadableTree : FileTree :=
  FileTree.empty.insert ["t"] (.file ⟨0o200, Bytes.ofText "before"⟩)

private theorem hasRoom_unreadableTree : HasRoom unreadableTree ⟨"t"⟩ where
  named := ⟨[], "t", by decide +kernel, by decide +kernel⟩
  found := Or.inr ⟨⟨0o200, Bytes.ofText "before"⟩, by decide +kernel⟩
  backup := by decide +kernel
  staging := by decide +kernel

private theorem hasRoom_empty_slashed : HasRoom FileTree.empty ⟨"t/"⟩ where
  named := ⟨[], "t", by decide +kernel, by decide +kernel⟩
  found := Or.inl (by decide +kernel)
  backup := by decide +kernel
  staging := by decide +kernel

/-- Neither a file that cannot be read nor a path that asks for a directory can
be written, at the first attempt or again. -/
theorem not_isRecovered_unreadable_and_slashed :
    (HasRoom unreadableTree ⟨"t"⟩ ∧
        ¬ IsRecovered unreadableTree ⟨"t"⟩ (Bytes.ofText "after")
          (writeAgain Pieces.whole Pieces.whole ⟨"t"⟩ (Bytes.ofText "after") 0 unreadableTree).1
          (writeAgain Pieces.whole Pieces.whole ⟨"t"⟩ (Bytes.ofText "after") 0
            unreadableTree).2) ∧
      HasRoom FileTree.empty ⟨"t/"⟩ ∧
        ¬ IsRecovered FileTree.empty ⟨"t/"⟩ (Bytes.ofText "after")
          (writeAgain Pieces.whole Pieces.whole ⟨"t/"⟩ (Bytes.ofText "after") 0
            FileTree.empty).1
          (writeAgain Pieces.whole Pieces.whole ⟨"t/"⟩ (Bytes.ofText "after") 0
            FileTree.empty).2 := by
  have hunreadable : (writeAgain Pieces.whole Pieces.whole ⟨"t"⟩ (Bytes.ofText "after") 0
      unreadableTree).1 = .error (.io ⟨"t"⟩ .permissionDenied) := by decide +kernel
  have hslashed : (writeAgain Pieces.whole Pieces.whole ⟨"t/"⟩ (Bytes.ofText "after") 0
      FileTree.empty).1 = .error (.io ⟨"t/"⟩ .isDirectory) := by decide +kernel
  refine ⟨⟨hasRoom_unreadableTree, ?_⟩, hasRoom_empty_slashed, ?_⟩
  · intro hrecovered
    obtain ⟨outcome, hok⟩ := hrecovered.succeeds
    rw [hunreadable] at hok
    cases hok
  · intro hrecovered
    obtain ⟨outcome, hok⟩ := hrecovered.succeeds
    rw [hslashed] at hok
    cases hok

end CredentialIntake.Store
