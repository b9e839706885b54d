import CredentialIntake.Proofs.WriteHistory

/-!
# How a write ends

A write ends in exactly one of four ways, and which one it is says all about the
tree that is left.  A file is made, or found as it should be, or replaced; if none
of this can be done the write fails, and then the target is what it was and at
most stale siblings of it are gone.
-/

namespace CredentialIntake.Store

open FileTree FileProgram

inductive WriteEnding where
  | created
  | unchanged
  | replaced (kept : Bool)
  | failed
  deriving DecidableEq

variable {tree after : FileTree} {path : Path} {content : Bytes}
  {result : Except IntakeError WriteOutcome}

/-! ## The four endings -/

/-- Nothing was at the path, and a private file with the content is there now. -/
structure IsCreated (tree : FileTree) (path : Path) (content : Bytes)
    (result : Except IntakeError WriteOutcome) (after : FileTree) : Prop where
  result_eq : result = .ok .created
  before : tree.stat path = .error .notFound
  target : after.stat path = .ok (.file ⟨privateMode, content⟩)
  elsewhere : AgreesOutside (tree.placesAt {path}) tree after

/-- The file at the path had the content, with whatever mode, and no location is
touched. -/
structure IsUnchanged (tree : FileTree) (path : Path) (content : Bytes)
    (result : Except IntakeError WriteOutcome) (after : FileTree) : Prop where
  result_eq : result = .ok .unchanged
  before : ∃ mode, tree.stat path = .ok (.file ⟨mode, content⟩)
  untouched : after = tree

/-- The backup is the file that was replaced, or else the directory that stood, and
stands, in its place. -/
def IsBackup (tree : FileTree) (path : Path) (file : File) (after : FileTree) : Bool → Prop
  | true => after.stat (backupPath path) = .ok (.file file)
  | false => tree.stat (backupPath path) = .ok .directory ∧
      after.stat (backupPath path) = .ok .directory

/-- The target and both siblings are entries of one directory. -/
def StandTogether (tree : FileTree) (path : Path) : Prop :=
  ∃ folder name, tree.target? path = some (folder ++ [name]) ∧
    tree.target? (backupPath path) = some (folder ++ [name ++ ".old"]) ∧
    tree.target? (stagingPath path) = some (folder ++ [name ++ ".new"])

/-- Other bytes were at the path, a private file with the content is there now, and
no staging file is left. -/
structure IsReplaced (tree : FileTree) (path : Path) (content : Bytes) (kept : Bool)
    (result : Except IntakeError WriteOutcome) (after : FileTree) : Prop where
  result_eq : result = .ok (.replaced kept)
  before : ∃ file, tree.stat path = .ok (.file file) ∧ file.content ≠ content ∧
    IsBackup tree path file after kept
  target : after.stat path = .ok (.file ⟨privateMode, content⟩)
  staging : after.stat (stagingPath path) = .error .notFound
  together : StandTogether tree path
  elsewhere : AgreesOutside (tree.placesAt {path, backupPath path, stagingPath path}) tree after

/-- Why the path cannot be made to hold the content. -/
inductive Hindered (tree : FileTree) (path : Path) (content : Bytes) : Prop where
  /-- What is there cannot be read, or the path leads nowhere. -/
  | unreadable {fault : FileFault} :
      tree.read path = .error fault → fault ≠ .notFound → Hindered tree path content
  /-- Nothing is there, nor can anything be. -/
  | unplaceable :
      tree.read path = .error .notFound → ¬ tree.IsVacant path → Hindered tree path content
  /-- There are other bytes, and the new ones can be staged nowhere. -/
  | unstageable {file : File} :
      tree.read path = .ok file → file.content ≠ content →
      tree.target? (stagingPath path) = none ∨ tree.stat (stagingPath path) = .ok .directory →
      Hindered tree path content

/-- The write was hindered.  The entry at the path is what it was, and of all other
files only siblings of it can be missing. -/
structure IsFailed (tree : FileTree) (path : Path) (content : Bytes)
    (result : Except IntakeError WriteOutcome) (after : FileTree) : Prop where
  result_eq : ∃ culprit fault, result = .error (.io culprit fault) ∧
    (culprit = path ∨ culprit = stagingPath path)
  hindered : Hindered tree path content
  target : after.stat path = tree.stat path
  elsewhere : ∀ place, after.nodes[place]? = tree.nodes[place]? ∨
    place ∈ tree.placesAt (siblingPaths path) ∧
      (∃ file, tree.nodes[place]? = some (.file file)) ∧ after.nodes[place]? = none

/-- What is left when a write ends so. -/
def WriteEnding.Describes (tree : FileTree) (path : Path) (content : Bytes)
    (result : Except IntakeError WriteOutcome) (after : FileTree) : WriteEnding → Prop
  | created => IsCreated tree path content result after
  | unchanged => IsUnchanged tree path content result after
  | replaced kept => IsReplaced tree path content kept result after
  | failed => IsFailed tree path content result after

/-! ## Every write has one of them -/

/-- A target and its siblings, as far as these have names. -/
private theorem standTogether {folder : Location} {name : String}
    (hleads : LeadsTo tree path (folder ++ [name])) (hentry : IsEntryName (name ++ ".new")) :
    StandTogether tree path := by
  have hbackup := (isEntryName_backup_iff_staging (isEntryName_of_target hleads)).2 hentry
  exact ⟨folder, name, hleads.target, (leadsTo_sibling hleads (by decide) hbackup).target,
    (leadsTo_sibling hleads (by decide) hentry).target⟩

private theorem isFailed_of_untouched {fault : FileFault} (hhindered : Hindered tree path content) :
    IsFailed tree path content (.error (.io path fault)) tree where
  result_eq := ⟨path, fault, rfl, Or.inl rfl⟩
  hindered := hhindered
  target := rfl
  elsewhere := fun _ => Or.inl rfl

private theorem not_isVacant_of_create_eq_error {mode : Nat} {fault : FileFault}
    (hcreate : tree.create path mode = .error fault) : ¬ tree.IsVacant path := by
  rintro ⟨place, hleads, hfree⟩
  rw [create_of_leadsTo hleads, hfree] at hcreate
  cases hcreate

/-- A staging file that cannot be made has no name, or that of a directory. -/
private theorem unstageable_of_blocked {folder : Location} {name : String}
    (hleads : LeadsTo tree path (folder ++ [name]))
    (hblocked : IsEntryName (name ++ ".new") →
      tree.node? (folder ++ [name ++ ".new"]) = some .directory) :
    tree.target? (stagingPath path) = none ∨ tree.stat (stagingPath path) = .ok .directory := by
  by_cases hentry : IsEntryName (name ++ ".new")
  · right
    rw [stagingPath, stat_of_leadsTo (leadsTo_sibling hleads (by decide) hentry), hblocked hentry]
  · exact Or.inl (target?_sibling_eq_none hleads (by decide) hentry)

private theorem isFailed_of_unstaged {folder : Location} {name : String} {file : File}
    {fault : FileFault} (hleads : LeadsTo tree path (folder ++ [name]))
    (hread : tree.read path = .ok file) (hcontent : file.content ≠ content)
    (hblocked : IsEntryName (name ++ ".new") →
      tree.node? (folder ++ [name ++ ".new"]) = some .directory) :
    IsFailed tree path content (.error (.io (stagingPath path) fault))
      (tree.discard (backupPath path)) where
  result_eq := ⟨stagingPath path, fault, rfl, Or.inr rfl⟩
  hindered := .unstageable hread hcontent (unstageable_of_blocked hleads hblocked)
  target := by
    have heffect : WriteEffect tree path content (.error (.io (stagingPath path) fault))
        (tree.discard (backupPath path)) := .unstaged hleads hread hcontent hblocked
    exact heffect.stat_eq_of_error
  elsewhere := fun place => (nodes_discard tree (backupPath path) place).imp_right
    (And.imp_left fun htarget => ⟨backupPath path, Or.inl rfl, htarget⟩)

private theorem isCreated_of_free {place : Location} (hleads : LeadsTo tree path place)
    (hfree : tree.node? place = none) :
    IsCreated tree path content (.ok .created)
      (tree.insert place (.file ⟨privateMode, content⟩)) where
  result_eq := rfl
  before := IsVacant.stat_eq ⟨place, hleads, hfree⟩
  target := stat_insert hleads (by simp [hfree]) _
  elsewhere := (agreesOutside_insert (by simp [hfree]) _).mono
    (Set.singleton_subset_iff.2 ⟨path, rfl, hleads.target⟩)

/-- A backup that is not kept stands where a directory does. -/
private theorem isBackup_of_replaced {folder : Location} {name : String} {file : File}
    {kept : Bool} (hleads : LeadsTo tree path (folder ++ [name]))
    (hread : tree.read path = .ok file) (hentry : IsEntryName (name ++ ".new"))
    (hkept : kept = true ↔ tree.node? (folder ++ [name ++ ".old"]) ≠ some .directory)
    (heffect : WriteEffect tree path content (.ok (.replaced kept)) after) :
    IsBackup tree path file after kept := by
  have hfolders := heffect.agreesOutside.folders
  have hbackup : LeadsTo tree (backupPath path) (folder ++ [name ++ ".old"]) :=
    leadsTo_sibling hleads (by decide)
      ((isEntryName_backup_iff_staging (isEntryName_of_target hleads)).2 hentry)
  cases kept with
  | true =>
      obtain ⟨-, found, hfound, -, hcopied⟩ := heffect.siblings_of_replaced
      rw [hread] at hfound
      cases hfound
      exact stat_of_read (hcopied rfl)
  | false =>
      have hdirectory : tree.node? (folder ++ [name ++ ".old"]) = some .directory := by
        simpa using hkept
      constructor
      · rw [stat_of_leadsTo hbackup, hdirectory]
      · rw [stat_of_leadsTo (hbackup.congr hfolders), (hfolders _).2 hdirectory]

private theorem isReplaced_of_replaced {folder : Location} {name : String} {file : File}
    {kept : Bool} (hleads : LeadsTo tree path (folder ++ [name]))
    (hread : tree.read path = .ok file) (hcontent : file.content ≠ content)
    (hentry : IsEntryName (name ++ ".new"))
    (hroom : tree.node? (folder ++ [name ++ ".new"]) ≠ some .directory)
    (hkept : kept = true ↔ tree.node? (folder ++ [name ++ ".old"]) ≠ some .directory) :
    IsReplaced tree path content kept (.ok (.replaced kept))
      (replacedTree tree (folder ++ [name]) (folder ++ [name ++ ".old"])
        (folder ++ [name ++ ".new"]) (if kept then some file else none) content) := by
  have heffect := WriteEffect.replaced hleads hread hcontent hentry hroom hkept
  have hnode := hleads.node?_eq_of_read hread
  have hanchor : (folder ++ [name]).isAnchor = false :=
    not_isAnchor_of_node?_ne (by rw [hnode]; simp)
  exact
    { result_eq := rfl
      before := ⟨file, stat_of_read hread, hcontent,
        isBackup_of_replaced hleads hread hentry hkept heffect⟩
      target := by
        rw [stat_of_leadsTo (hleads.congr heffect.agreesOutside.folders),
          node?_of_not_isAnchor hanchor, replacedTree, nodes_insert, if_pos rfl]
      staging := heffect.siblings_of_replaced.1.stat_eq
      together := standTogether hleads hentry
      elsewhere := heffect.agreesOutside.mono fun place ⟨sibling, hsibling, htarget⟩ =>
        ⟨sibling, by simpa using hsibling, htarget⟩ }

theorem WriteEffect.exists_ending (heffect : WriteEffect tree path content result after) :
    ∃ ending : WriteEnding, ending.Describes tree path content result after := by
  cases heffect with
  | unreadable hread hfault =>
      exact ⟨.failed, isFailed_of_untouched (.unreadable hread hfault)⟩
  | uncreatable hread hcreate =>
      exact ⟨.failed,
        isFailed_of_untouched (.unplaceable hread (not_isVacant_of_create_eq_error hcreate))⟩
  | created hleads hfree => exact ⟨.created, isCreated_of_free hleads hfree⟩
  | @unchanged file hread hcontent =>
      subst hcontent
      exact ⟨.unchanged, rfl, ⟨file.mode, stat_of_read hread⟩, rfl⟩
  | unstaged hleads hread hcontent hblocked =>
      exact ⟨.failed, isFailed_of_unstaged hleads hread hcontent hblocked⟩
  | @replaced _ _ _ kept hleads hread hcontent hentry hroom hkept =>
      exact ⟨.replaced kept, isReplaced_of_replaced hleads hread hcontent hentry hroom hkept⟩

/-- The ending that a result belongs to. -/
def endingOf : Except IntakeError WriteOutcome → WriteEnding
  | .ok .created => .created
  | .ok .unchanged => .unchanged
  | .ok (.replaced kept) => .replaced kept
  | .error _ => .failed

/-- The result tells the endings apart. -/
theorem WriteEnding.Describes.eq_endingOf {ending : WriteEnding}
    (hdescribes : ending.Describes tree path content result after) :
    ending = endingOf result := by
  cases ending with
  | created => rw [IsCreated.result_eq hdescribes, endingOf]
  | unchanged => rw [IsUnchanged.result_eq hdescribes, endingOf]
  | replaced kept => rw [IsReplaced.result_eq hdescribes, endingOf]
  | failed =>
      obtain ⟨culprit, fault, hresult, -⟩ := IsFailed.result_eq hdescribes
      rw [hresult, endingOf]

/-- Whatever the tree, the path and the content, a write ends in exactly one of the
four ways, and leaves the tree that belongs to it. -/
theorem atomicWrite_ends_in_one_way (tree : FileTree) (path : Path) (content : Bytes) :
    ∃! ending : WriteEnding, ending.Describes tree path content (atomicWrite path content tree).1
      (atomicWrite path content tree).2 := by
  obtain ⟨ending, hdescribes⟩ := (atomicWrite_effect tree path content).exists_ending
  refine ⟨ending, hdescribes, ?_⟩
  intro other hother
  rw [hother.eq_endingOf, hdescribes.eq_endingOf]

end CredentialIntake.Store
