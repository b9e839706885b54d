import CredentialIntake.Proofs.FileSteps
import CredentialIntake.Store.AtomicWrite

/-!
# What replacing a file's content can do

One inductive description of everything that a single replacement can end in,
with the exact tree it leaves.  The target, the backup beside it and the staging
file beside it are the only locations concerned, and a success always leaves the
new content at the target.
-/

namespace CredentialIntake.Store

open CredentialIntake.Path
open FileTree FileProgram

/-! ## The siblings of a target -/

theorem isEntryName_append_iff {name suffix : String} (hname : IsEntryName name)
    (hnul : '\x00' ∉ suffix.toList) (hlength : 2 < suffix.length) :
    IsEntryName (name ++ suffix) ↔ (name ++ suffix).utf8ByteSize ≤ nameLimit := by
  have hlong : 2 < (name ++ suffix).length := by
    rw [String.length_append]
    omega
  constructor
  · exact IsEntryName.size_le
  · intro hsize
    refine ⟨?_, ?_, ?_, hsize⟩
    · rw [String.toList_append, List.mem_append, not_or]
      exact ⟨hname.nul_not_mem, hnul⟩
    · intro hhere
      rw [hhere] at hlong
      exact absurd hlong (by decide)
    · intro habove
      rw [habove] at hlong
      exact absurd hlong (by decide)

/-- The backup has a possible name exactly if the staging file has one. -/
theorem isEntryName_backup_iff_staging {name : String} (hname : IsEntryName name) :
    IsEntryName (name ++ ".old") ↔ IsEntryName (name ++ ".new") := by
  have hsize : (name ++ ".old").utf8ByteSize = (name ++ ".new").utf8ByteSize := by
    rw [String.utf8ByteSize_append, String.utf8ByteSize_append]
    rfl
  rw [isEntryName_append_iff hname (by decide) (by decide),
    isEntryName_append_iff hname (by decide) (by decide), hsize]

/-- A target stands in a folder under a plain name, and its siblings are the
entries of that folder whose names carry the suffix, if they can be names. -/
theorem exists_siblings {tree : FileTree} {path : Path} {place : Location}
    (hleads : LeadsTo tree path place) :
    ∃ folder name, place = folder ++ [name] ∧ IsEntryName name ∧
      ∀ suffix : String, '/' ∉ suffix.toList →
        (IsEntryName (name ++ suffix) →
            LeadsTo tree (path.withSuffix suffix) (folder ++ [name ++ suffix])) ∧
          (¬ IsEntryName (name ++ suffix) → tree.target? (path.withSuffix suffix) = none) := by
  have hne : path.text ≠ "" := by
    obtain ⟨folder, name, hresolve, -⟩ := target?_eq_some_iff.1 hleads.target
    intro hempty
    rw [resolve, hempty] at hresolve
    simp at hresolve
  obtain ⟨folderPath, name, hplain, rfl⟩ := exists_eq_join hne hleads.no_slash
  obtain ⟨folder, hfolder, hentry, rfl⟩ :=
    (target?_join_eq_some_iff hplain).1 hleads.target
  refine ⟨folder, name, rfl, hentry, ?_⟩
  intro suffix hsuffix
  have hlonger := hplain.append hsuffix
  rw [withSuffix_join hplain hsuffix]
  constructor
  · intro hsibling
    exact ⟨(target?_join_eq_some_iff hlonger).2 ⟨folder, hfolder, hsibling, rfl⟩,
      endsWithSlash_join hlonger⟩
  · intro hsibling
    rw [Option.eq_none_iff_forall_ne_some]
    intro place htarget
    obtain ⟨-, -, hname, -⟩ := (target?_join_eq_some_iff hlonger).1 htarget
    exact hsibling hname

section Siblings

variable {tree : FileTree} {path : Path} {folder : Location} {name suffix : String}

theorem isEntryName_of_target (hleads : LeadsTo tree path (folder ++ [name])) :
    IsEntryName name := by
  obtain ⟨_, _, heq, hname, -⟩ := exists_siblings hleads
  rwa [(List.append_singleton_inj.1 heq).2]

theorem leadsTo_sibling (hleads : LeadsTo tree path (folder ++ [name]))
    (hsuffix : '/' ∉ suffix.toList) (hentry : IsEntryName (name ++ suffix)) :
    LeadsTo tree (path.withSuffix suffix) (folder ++ [name ++ suffix]) := by
  obtain ⟨_, _, heq, -, hsiblings⟩ := exists_siblings hleads
  obtain ⟨rfl, rfl⟩ := List.append_singleton_inj.1 heq
  exact (hsiblings suffix hsuffix).1 hentry

theorem target?_sibling_eq_none (hleads : LeadsTo tree path (folder ++ [name]))
    (hsuffix : '/' ∉ suffix.toList) (hunnamed : ¬ IsEntryName (name ++ suffix)) :
    tree.target? (path.withSuffix suffix) = none := by
  obtain ⟨_, _, heq, -, hsiblings⟩ := exists_siblings hleads
  obtain ⟨-, rfl⟩ := List.append_singleton_inj.1 heq
  exact (hsiblings suffix hsuffix).2 hunnamed

/-- A sibling leads, if anywhere, to the name of the target with the suffix. -/
theorem eq_of_target?_sibling {place : Location} (hleads : LeadsTo tree path (folder ++ [name]))
    (hsuffix : '/' ∉ suffix.toList)
    (htarget : tree.target? (path.withSuffix suffix) = some place) :
    place = folder ++ [name ++ suffix] := by
  by_cases hentry : IsEntryName (name ++ suffix)
  · rw [(leadsTo_sibling hleads hsuffix hentry).target] at htarget
    exact (Option.some.inj htarget).symm
  · rw [target?_sibling_eq_none hleads hsuffix hentry] at htarget
    cases htarget

/-- Where the staging file can have no name there is no backup to discard. -/
theorem discard_backup_of_unnamed (hleads : LeadsTo tree path (folder ++ [name]))
    (hunnamed : ¬ IsEntryName (name ++ ".new")) : tree.discard (backupPath path) = tree := by
  apply discard_of_target?_eq_none
  apply target?_sibling_eq_none hleads (by decide)
  rwa [isEntryName_backup_iff_staging (isEntryName_of_target hleads)]

theorem append_suffix_ne (folder : Location) (name : String) {left right : String}
    (hne : left ≠ right) :
    folder ++ [name ++ left] ≠ folder ++ [name ++ right] := by
  intro heq
  have hnames : name ++ left = name ++ right := by simpa using heq
  exact hne (String.append_right_inj name |>.1 hnames)

theorem ne_append_suffix (folder : Location) (name : String) {suffix : String}
    (hsuffix : suffix ≠ "") : folder ++ [name] ≠ folder ++ [name ++ suffix] := by
  have hne := append_suffix_ne folder name hsuffix.symm
  rwa [String.append_empty] at hne

/-- A name and those of its backup and its staging file. -/
def siblingNames (name : String) : Set String :=
  {sibling | ∃ suffix ∈ ["", ".old", ".new"], sibling = name ++ suffix}

/-- Names that are not those of siblings of each other have no sibling in common. -/
theorem eq_of_siblingNames_meet {other sibling : String}
    (hname : name ≠ other ++ ".old" ∧ name ≠ other ++ ".new")
    (hother : other ≠ name ++ ".old" ∧ other ≠ name ++ ".new")
    (hleft : sibling ∈ siblingNames name) (hright : sibling ∈ siblingNames other) :
    name = other := by
  have hlast : ∀ left right : String, left ++ ".old" ≠ right ++ ".new" := by
    intro left right heq
    have hchars := congrArg (fun text => text.toList.getLast?) heq
    simp at hchars
  obtain ⟨suffix, hsuffix, rfl⟩ := hleft
  obtain ⟨ending, hending, heq⟩ := hright
  simp only [List.mem_cons, List.not_mem_nil, or_false] at hsuffix hending
  rcases hsuffix with rfl | rfl | rfl <;> rcases hending with rfl | rfl | rfl
  · simpa using heq
  · exact absurd (by simpa using heq) hname.1
  · exact absurd (by simpa using heq) hname.2
  · exact absurd (by simpa using heq.symm) hother.1
  · exact String.append_left_inj _ |>.1 heq
  · exact absurd heq (hlast name other)
  · exact absurd (by simpa using heq.symm) hother.2
  · exact absurd heq.symm (hlast other name)
  · exact String.append_left_inj _ |>.1 heq

end Siblings

/-! ## The effects -/

/-- The tree without the staging file, and with the replaced file at the backup
if it is kept. -/
def backedTree (tree : FileTree) (old new : Location) : Option File → FileTree
  | some file => (tree.erase new).insert old (.file file)
  | none => tree.erase new

def replacedTree (tree : FileTree) (place old new : Location) (kept : Option File)
    (content : Bytes) : FileTree :=
  (backedTree tree old new kept).insert place (.file ⟨privateMode, content⟩)

/-- What a replacement can end in, with the tree it leaves. -/
inductive WriteEffect (tree : FileTree) (path : Path) (content : Bytes) :
    Except IntakeError WriteOutcome → FileTree → Prop where
  /-- The target is there but cannot be read, or the path leads nowhere. -/
  | unreadable {fault : FileFault} :
      tree.read path = .error fault → fault ≠ .notFound →
      WriteEffect tree path content (.error (.io path fault)) tree
  | uncreatable {fault : FileFault} :
      tree.read path = .error .notFound → tree.create path privateMode = .error fault →
      WriteEffect tree path content (.error (.io path fault)) tree
  | created {place : Location} :
      LeadsTo tree path place → tree.node? place = none →
      WriteEffect tree path content (.ok .created)
        (tree.insert place (.file ⟨privateMode, content⟩))
  | unchanged {file : File} :
      tree.read path = .ok file → file.content = content →
      WriteEffect tree path content (.ok .unchanged) tree
  /-- The staging file cannot be made: its name is too long, or that of a
  directory.  The backup of an earlier replacement is gone by then. -/
  | unstaged {folder : Location} {name : String} {file : File} {fault : FileFault} :
      LeadsTo tree path (folder ++ [name]) → tree.read path = .ok file →
      file.content ≠ content →
      (IsEntryName (name ++ ".new") →
        tree.node? (folder ++ [name ++ ".new"]) = some .directory) →
      WriteEffect tree path content (.error (.io (stagingPath path) fault))
        (tree.discard (backupPath path))
  /-- The backup is kept unless there is a directory of its name. -/
  | replaced {folder : Location} {name : String} {file : File} {kept : Bool} :
      LeadsTo tree path (folder ++ [name]) → tree.read path = .ok file →
      file.content ≠ content → IsEntryName (name ++ ".new") →
      tree.node? (folder ++ [name ++ ".new"]) ≠ some .directory →
      (kept = true ↔ tree.node? (folder ++ [name ++ ".old"]) ≠ some .directory) →
      WriteEffect tree path content (.ok (.replaced kept))
        (replacedTree tree (folder ++ [name]) (folder ++ [name ++ ".old"])
          (folder ++ [name ++ ".new"]) (if kept then some file else none) content)

/-! ## Every replacement ends in one of them -/

section Runs

variable {tree : FileTree} {path : Path} {content : Bytes} (pieces : Pieces)

theorem node?_eq_none_of_read {place : Location}
    (hread : tree.read path = .error .notFound) (hleads : LeadsTo tree path place) :
    tree.node? place = none := by
  rw [read_of_leadsTo hleads] at hread
  split at hread
  next hnode => exact hnode
  · cases hread
  · split at hread <;> cases hread

private theorem createTarget_effect (hread : tree.read path = .error .notFound) :
    WriteEffect tree path content ((createTarget pieces path content).run tree).1
      ((createTarget pieces path content).run tree).2 := by
  cases hcreate : tree.create path privateMode with
  | error fault =>
      rw [createTarget, run_bind, run_write_of_create_eq_error pieces content hcreate]
      exact .uncreatable hread hcreate
  | ok changed =>
      obtain ⟨place, hleads⟩ := leadsTo_of_create_eq_ok hcreate
      have hfree := node?_eq_none_of_read hread hleads
      rw [createTarget, run_bind, run_write_of_free pieces privateMode content hleads hfree]
      exact .created hleads hfree

/-- If the staging file cannot be opened, nothing but the old siblings is gone. -/
private theorem run_replaceTarget_unstaged {fault : FileFault}
    (hcreate : ((tree.discard (backupPath path)).discard (stagingPath path)).create
      (stagingPath path) privateMode = .error fault) :
    (replaceTarget pieces path content).run tree =
      (.error (.io (stagingPath path) fault),
        (tree.discard (backupPath path)).discard (stagingPath path)) := by
  rw [replaceTarget, run_bind, run_attempt_remove, run_bind, run_attempt_remove, run_bind,
    run_write_of_create_eq_error pieces content hcreate]
  rfl

/-- Where the target and its siblings are, the target holding a readable file. -/
private structure Sited (tree : FileTree) (path : Path) (file : File)
    (place old new : Location) : Prop where
  target : LeadsTo tree path place
  backup : LeadsTo tree (backupPath path) old
  staging : LeadsTo tree (stagingPath path) new
  old_ne_new : old ≠ new
  place_ne_old : place ≠ old
  place_ne_new : place ≠ new
  read : tree.read path = .ok file

namespace Sited

variable {file : File} {place old new : Location}

theorem node?_place (hsited : Sited tree path file place old new) :
    tree.node? place = some (.file file) :=
  hsited.target.node?_eq_of_read hsited.read

/-- Clearing the siblings away leaves the target alone. -/
theorem agreesOutside_cleared (hsited : Sited tree path file place old new) :
    AgreesOutside {old, new} tree
      ((tree.discard (backupPath path)).discard (stagingPath path)) := by
  have hbackup := agreesOutside_discard hsited.backup
  have hstaging := agreesOutside_discard (hsited.staging.congr hbackup.folders)
  exact (hbackup.mono (by simp)).trans (hstaging.mono (by simp))

/-- A directory in the place of the backup stays where it is. -/
theorem agreesOutside_cleared_of_directory (hsited : Sited tree path file place old new)
    (hdirectory : tree.node? old = some .directory) :
    AgreesOutside {new} tree
      ((tree.discard (backupPath path)).discard (stagingPath path)) := by
  rw [discard_of_leadsTo hsited.backup, if_pos hdirectory]
  exact agreesOutside_discard hsited.staging

theorem node?_cleared_new (hsited : Sited tree path file place old new) :
    ((tree.discard (backupPath path)).discard (stagingPath path)).node? new =
      if tree.node? new = some .directory then some .directory else none := by
  have hbackup := agreesOutside_discard hsited.backup
  rw [node?_discard (hsited.staging.congr hbackup.folders),
    hbackup.node?_eq (Ne.symm hsited.old_ne_new)]

theorem node?_cleared_old (hsited : Sited tree path file place old new) :
    ((tree.discard (backupPath path)).discard (stagingPath path)).node? old =
      if tree.node? old = some .directory then some .directory else none := by
  have hbackup := agreesOutside_discard hsited.backup
  have hstaging := agreesOutside_discard (hsited.staging.congr hbackup.folders)
  rw [hstaging.node?_eq hsited.old_ne_new, node?_discard hsited.backup]

/-- Moving the staged file over the target, from any tree that agrees with the
first one outside of the siblings and holds the staged file. -/
theorem rename_eq_ok (hsited : Sited tree path file place old new) {staged : FileTree}
    {fresh : File} (hagrees : AgreesOutside {old, new} tree staged)
    (hfresh : staged.node? new = some (.file fresh)) :
    (FileChange.rename (stagingPath path) path).apply staged =
      .ok ((staged.erase new).insert place (.file fresh)) := by
  have hlocate : staged.locate (stagingPath path) = .ok (new, fresh) :=
    locate_eq_ok_iff_leadsTo.2 ⟨hsited.staging.congr hagrees.folders, hfresh⟩
  have hplace : staged.node? place ≠ some .directory := by
    rw [hagrees.node?_eq (by simp [hsited.place_ne_old, hsited.place_ne_new]),
      hsited.node?_place]
    simp
  exact rename_of_leadsTo hlocate (hsited.target.congr hagrees.folders) hplace

end Sited

private theorem erase_staged {tree cleared : FileTree} {new : Location} {fresh : File}
    (hagrees : AgreesOutside {new} tree cleared) :
    (cleared.insert new (.file fresh)).erase new = tree.erase new := by
  ext other : 1
  simp only [nodes_erase, nodes_insert]
  by_cases heq : new = other
  · simp [heq]
  · simp [heq, hagrees.elsewhere other (Ne.symm heq)]

private theorem erase_staged_backed {tree cleared : FileTree} {old new : Location}
    {fresh file : File} (hagrees : AgreesOutside {old, new} tree cleared) (hne : old ≠ new) :
    ((cleared.insert new (.file fresh)).insert old (.file file)).erase new =
      (tree.erase new).insert old (.file file) := by
  ext other : 1
  simp only [nodes_erase, nodes_insert]
  by_cases hnew : new = other
  · subst hnew
    simp [hne]
  by_cases hold : old = other
  · simp [hnew, hold]
  · have hother : other ∉ ({old, new} : Set Location) := by
      simp [Ne.symm hold, Ne.symm hnew]
    simp [hnew, hold, hagrees.elsewhere other hother]

/-! ### With room for the staging file -/

/-- The tree once the new content is staged. -/
private def stagedTree (tree : FileTree) (path : Path) (new : Location) (content : Bytes) :
    FileTree :=
  ((tree.discard (backupPath path)).discard (stagingPath path)).insert new
    (.file ⟨privateMode, content⟩)

namespace Sited

variable {file : File} {place old new : Location}

theorem run_write_staging (hsited : Sited tree path file place old new)
    (hroom : tree.node? new ≠ some .directory) :
    (write pieces (stagingPath path) privateMode content).run
        ((tree.discard (backupPath path)).discard (stagingPath path)) =
      (.ok (), stagedTree tree path new content) := by
  have hfree := hsited.node?_cleared_new
  rw [if_neg hroom] at hfree
  exact run_write_of_free pieces privateMode content
    (hsited.staging.congr hsited.agreesOutside_cleared.folders) hfree

theorem node?_cleared_new_ne (hsited : Sited tree path file place old new)
    (hroom : tree.node? new ≠ some .directory) :
    ((tree.discard (backupPath path)).discard (stagingPath path)).node? new ≠
      some .directory := by
  rw [hsited.node?_cleared_new, if_neg hroom]
  simp

theorem agreesOutside_staged (hsited : Sited tree path file place old new)
    (hroom : tree.node? new ≠ some .directory) (content : Bytes) :
    AgreesOutside {old, new} tree (stagedTree tree path new content) :=
  hsited.agreesOutside_cleared.trans
    ((agreesOutside_insert (hsited.node?_cleared_new_ne hroom) _).mono (by simp))

theorem read_staged (hsited : Sited tree path file place old new)
    (hroom : tree.node? new ≠ some .directory) :
    (stagedTree tree path new content).read path = .ok file := by
  apply (hsited.agreesOutside_staged hroom content).read_eq_ok hsited.read
  intro location hlocation
  rw [hsited.target.target] at hlocation
  cases hlocation
  simp [hsited.place_ne_old, hsited.place_ne_new]

theorem node?_staged_new (hsited : Sited tree path file place old new)
    (hroom : tree.node? new ≠ some .directory) :
    (stagedTree tree path new content).node? new = some (.file ⟨privateMode, content⟩) := by
  rw [stagedTree, node?_insert (hsited.node?_cleared_new_ne hroom), if_pos rfl]

theorem node?_staged_old (hsited : Sited tree path file place old new)
    (hroom : tree.node? new ≠ some .directory) (content : Bytes) :
    (stagedTree tree path new content).node? old =
      if tree.node? old = some .directory then some .directory else none := by
  rw [stagedTree, node?_insert (hsited.node?_cleared_new_ne hroom),
    if_neg (Ne.symm hsited.old_ne_new), hsited.node?_cleared_old]

/-- A directory in the place of the backup: nothing is kept. -/
theorem run_replaceTarget_unbacked (hsited : Sited tree path file place old new)
    (hroom : tree.node? new ≠ some .directory) (hdirectory : tree.node? old = some .directory) :
    (replaceTarget pieces path content).run tree =
      (.ok (.replaced false), replacedTree tree place old new none content) := by
  have hstaged := hsited.agreesOutside_staged hroom content
  have hcreate : (stagedTree tree path new content).create (backupPath path) file.mode =
      .error .isDirectory := by
    rw [create_of_leadsTo (hsited.backup.congr hstaged.folders), hsited.node?_staged_old hroom content,
      if_pos hdirectory]
  have hrename := hsited.rename_eq_ok hstaged (hsited.node?_staged_new hroom)
  have herased : (stagedTree tree path new content).erase new = tree.erase new :=
    erase_staged (hsited.agreesOutside_cleared_of_directory hdirectory)
  rw [replaceTarget, run_bind, run_attempt_remove, run_bind, run_attempt_remove, run_bind,
    hsited.run_write_staging pieces hroom]
  simp only [run_bind, run_copy_of_create_eq_error pieces (hsited.read_staged hroom) hcreate,
    run_attempt_ok hrename, run_pure, herased]
  rfl

theorem run_replaceTarget_backed (hsited : Sited tree path file place old new)
    (hroom : tree.node? new ≠ some .directory) (hfree : tree.node? old ≠ some .directory) :
    (replaceTarget pieces path content).run tree =
      (.ok (.replaced true), replacedTree tree place old new (some file) content) := by
  have hstaged := hsited.agreesOutside_staged hroom content
  have hold := hsited.node?_staged_old hroom content
  rw [if_neg hfree] at hold
  have holdFile : (stagedTree tree path new content).node? old ≠ some .directory := by
    simp [hold]
  have hcopy := run_copy_of_free pieces (hsited.read_staged hroom)
    (hsited.backup.congr hstaged.folders) hold
  have hbacked := hstaged.trans ((agreesOutside_insert holdFile file).mono (by simp))
  have hrename := hsited.rename_eq_ok hbacked (by
    rw [node?_insert holdFile, if_neg hsited.old_ne_new, hsited.node?_staged_new hroom])
  have herased : ((stagedTree tree path new content).insert old (.file file)).erase new =
      (tree.erase new).insert old (.file file) :=
    erase_staged_backed hsited.agreesOutside_cleared hsited.old_ne_new
  rw [replaceTarget, run_bind, run_attempt_remove, run_bind, run_attempt_remove, run_bind,
    hsited.run_write_staging pieces hroom]
  simp only [run_bind, hcopy, run_attempt_ok hrename, run_pure, herased]
  rfl

end Sited

/-- With room for the staging file the replacement goes through; whether a
backup is kept depends on what stands in its place. -/
private theorem run_replaceTarget_staged {file : File} {place old new : Location}
    (hsited : Sited tree path file place old new) (hroom : tree.node? new ≠ some .directory) :
    ∃ kept, (kept = true ↔ tree.node? old ≠ some .directory) ∧
      (replaceTarget pieces path content).run tree =
        (.ok (.replaced kept),
          replacedTree tree place old new (if kept then some file else none) content) := by
  by_cases hdirectory : tree.node? old = some .directory
  · exact ⟨false, by simp [hdirectory],
      hsited.run_replaceTarget_unbacked pieces hroom hdirectory⟩
  · exact ⟨true, by simp [hdirectory], hsited.run_replaceTarget_backed pieces hroom hdirectory⟩

/-! ### Without room -/

/-- A directory of the staging file's name stops the replacement. -/
private theorem run_replaceTarget_blocked {file : File} {place old new : Location}
    (hsited : Sited tree path file place old new)
    (hdirectory : tree.node? new = some .directory) :
    (replaceTarget pieces path content).run tree =
      (.error (.io (stagingPath path) .isDirectory), tree.discard (backupPath path)) := by
  have hbackup := agreesOutside_discard hsited.backup
  have hstaging := hsited.staging.congr hbackup.folders
  have hstill : (tree.discard (backupPath path)).node? new = some .directory := by
    rw [hbackup.node?_eq (Ne.symm hsited.old_ne_new), hdirectory]
  have hcleared : (tree.discard (backupPath path)).discard (stagingPath path) =
      tree.discard (backupPath path) := by
    rw [discard_of_leadsTo hstaging, if_pos hstill]
  have hcreate : ((tree.discard (backupPath path)).discard (stagingPath path)).create
      (stagingPath path) privateMode = .error .isDirectory := by
    rw [hcleared, create_of_leadsTo hstaging, hstill]
  rw [run_replaceTarget_unstaged pieces hcreate, hcleared]

/-- So does a staging path that leads nowhere, and then the backup path leads
nowhere as well. -/
private theorem run_replaceTarget_unnamed (hbackup : tree.target? (backupPath path) = none)
    (hstaging : tree.target? (stagingPath path) = none) :
    ∃ fault, (replaceTarget pieces path content).run tree =
      (.error (.io (stagingPath path) fault), tree.discard (backupPath path)) := by
  have hcleared : (tree.discard (backupPath path)).discard (stagingPath path) =
      tree.discard (backupPath path) := by
    rw [discard_of_target?_eq_none hbackup, discard_of_target?_eq_none hstaging]
  cases hcreate : tree.create (stagingPath path) privateMode with
  | ok changed =>
      obtain ⟨place, hplace⟩ := leadsTo_of_create_eq_ok hcreate
      rw [hplace.target] at hstaging
      cases hstaging
  | error fault =>
      refine ⟨fault, ?_⟩
      rw [run_replaceTarget_unstaged pieces (by
        rw [hcleared, discard_of_target?_eq_none hbackup, hcreate]), hcleared]

/-- A file whose staging file can have its name stands with both siblings. -/
private theorem sited_of_isEntryName {folder : Location} {name : String} {file : File}
    (hleads : LeadsTo tree path (folder ++ [name])) (hread : tree.read path = .ok file)
    (hentry : IsEntryName (name ++ ".new")) :
    Sited tree path file (folder ++ [name]) (folder ++ [name ++ ".old"])
      (folder ++ [name ++ ".new"]) := by
  have hbackup := (isEntryName_backup_iff_staging (isEntryName_of_target hleads)).2 hentry
  exact
    { target := hleads
      backup := leadsTo_sibling hleads (by decide) hbackup
      staging := leadsTo_sibling hleads (by decide) hentry
      old_ne_new := append_suffix_ne folder name (by decide)
      place_ne_old := ne_append_suffix folder name (by decide)
      place_ne_new := ne_append_suffix folder name (by decide)
      read := hread }

private theorem replaceTarget_effect {file : File} (hread : tree.read path = .ok file)
    (hcontent : file.content ≠ content) :
    WriteEffect tree path content ((replaceTarget pieces path content).run tree).1
      ((replaceTarget pieces path content).run tree).2 := by
  obtain ⟨⟨place, hlocate⟩, -⟩ := read_eq_ok_iff.1 hread
  obtain ⟨hleads, -⟩ := locate_eq_ok_iff_leadsTo.1 hlocate
  obtain ⟨folder, name, rfl, hname, -⟩ := exists_siblings hleads
  by_cases hentry : IsEntryName (name ++ ".new")
  · have hsited := sited_of_isEntryName hleads hread hentry
    by_cases hroom : tree.node? (folder ++ [name ++ ".new"]) = some .directory
    · rw [run_replaceTarget_blocked pieces hsited hroom]
      exact .unstaged hleads hread hcontent fun _ => hroom
    · obtain ⟨kept, hkept, hrun⟩ := run_replaceTarget_staged pieces hsited hroom
      rw [hrun]
      exact .replaced hleads hread hcontent hentry hroom hkept
  · have hbackupName : ¬ IsEntryName (name ++ ".old") :=
      fun hbackup => hentry ((isEntryName_backup_iff_staging hname).1 hbackup)
    obtain ⟨fault, hrun⟩ := run_replaceTarget_unnamed pieces
      (target?_sibling_eq_none hleads (by decide) hbackupName)
      (target?_sibling_eq_none hleads (by decide) hentry)
    rw [hrun]
    exact .unstaged hleads hread hcontent fun hname => absurd hname hentry

theorem atomicWriteProgram_effect :
    WriteEffect tree path content ((atomicWriteProgram pieces path content).run tree).1
      ((atomicWriteProgram pieces path content).run tree).2 := by
  rw [atomicWriteProgram, run_bind, run_readFile]
  cases hread : tree.read path with
  | ok file =>
      simp only
      split
      next hcontent => exact .unchanged hread hcontent
      next hcontent => exact replaceTarget_effect pieces hread hcontent
  | error fault =>
      by_cases hfault : fault = .notFound
      · subst hfault
        exact createTarget_effect pieces hread
      · have hrun : WriteEffect tree path content (.error (.io path fault)) tree :=
          .unreadable hread hfault
        cases fault <;> first | exact hrun | exact absurd rfl hfault

/-- Content that is there already is left alone. -/
theorem run_atomicWriteProgram_of_holds (hholds : tree.Holds path content) :
    (atomicWriteProgram pieces path content).run tree = (.ok .unchanged, tree) := by
  obtain ⟨file, hread, hcontent⟩ := hholds
  rw [atomicWriteProgram, run_bind, run_readFile, hread]
  simp only [if_pos hcontent, run_pure]

end Runs

/-- Every replacement ends in one of the effects. -/
theorem atomicWrite_effect (tree : FileTree) (path : Path) (content : Bytes) :
    WriteEffect tree path content (atomicWrite path content tree).1
      (atomicWrite path content tree).2 :=
  atomicWriteProgram_effect Pieces.whole

theorem atomicWrite_of_holds {tree : FileTree} {path : Path} {content : Bytes}
    (hholds : tree.Holds path content) : atomicWrite path content tree = (.ok .unchanged, tree) :=
  run_atomicWriteProgram_of_holds Pieces.whole hholds

/-- A directory of the staging file's name stops a replacement at once. -/
theorem atomicWrite_of_blocked {tree : FileTree} {path : Path} {content : Bytes}
    {folder : Location} {name : String} {file : File}
    (hleads : LeadsTo tree path (folder ++ [name])) (hread : tree.read path = .ok file)
    (hcontent : file.content ≠ content) (hentry : IsEntryName (name ++ ".new"))
    (hdirectory : tree.node? (folder ++ [name ++ ".new"]) = some .directory) :
    atomicWrite path content tree =
      (.error (.io (stagingPath path) .isDirectory), tree.discard (backupPath path)) := by
  rw [atomicWrite, atomicWriteProgram, run_bind, run_readFile, hread]
  simp only [if_neg hcontent]
  exact run_replaceTarget_blocked Pieces.whole (sited_of_isEntryName hleads hread hentry)
    hdirectory

/-! ## What all effects have in common -/

theorem isReadable_private (content : Bytes) :
    (File.mk privateMode content).isReadable = true := by
  change privateMode.testBit 8 = true
  decide

/-- The locations a write to a path is concerned with. -/
def footprint (tree : FileTree) (path : Path) : Set Location :=
  {place | ∃ sibling ∈ [path, backupPath path, stagingPath path],
    tree.target? sibling = some place}

theorem footprint_congr {before after : FileTree} (hsame : SameFolders before after)
    (path : Path) : footprint after path = footprint before path := by
  simp only [footprint, hsame.target?_eq]

/-- They have the name of the target or of one of its siblings. -/
theorem exists_siblingName_of_mem_footprint {tree : FileTree} {path : Path} {folder : Location}
    {name : String} (hleads : LeadsTo tree path (folder ++ [name])) {place : Location}
    (hplace : place ∈ footprint tree path) :
    ∃ sibling ∈ siblingNames name, place = folder ++ [sibling] := by
  obtain ⟨sibling, hsibling, htarget⟩ := hplace
  simp only [List.mem_cons, List.not_mem_nil, or_false] at hsibling
  rcases hsibling with rfl | rfl | rfl
  · obtain rfl := hleads.unique ⟨htarget, hleads.no_slash⟩
    exact ⟨name, ⟨"", by simp, by simp⟩, rfl⟩
  · exact ⟨_, ⟨".old", by simp, rfl⟩, eq_of_target?_sibling hleads (by decide) htarget⟩
  · exact ⟨_, ⟨".new", by simp, rfl⟩, eq_of_target?_sibling hleads (by decide) htarget⟩

namespace WriteEffect

variable {tree after : FileTree} {path : Path} {content : Bytes}

theorem eq_io {error : IntakeError}
    (heffect : WriteEffect tree path content (.error error) after) :
    ∃ sibling fault, error = .io sibling fault := by
  cases heffect with
  | unreadable => exact ⟨_, _, rfl⟩
  | uncreatable => exact ⟨_, _, rfl⟩
  | unstaged => exact ⟨_, _, rfl⟩

private theorem sibling_mem_footprint {folder : Location} {name suffix : String}
    (hleads : LeadsTo tree path (folder ++ [name])) (hentry : IsEntryName (name ++ suffix))
    (hsuffix : suffix = ".old" ∨ suffix = ".new") :
    folder ++ [name ++ suffix] ∈ footprint tree path := by
  rcases hsuffix with rfl | rfl
  · exact ⟨backupPath path, by simp, (leadsTo_sibling hleads (by decide) hentry).target⟩
  · exact ⟨stagingPath path, by simp, (leadsTo_sibling hleads (by decide) hentry).target⟩

private theorem agreesOutside_backedTree {old new : Location} {kept : Option File}
    (hne : old ≠ new) (hnew : tree.node? new ≠ some .directory)
    (hold : kept.isSome → tree.node? old ≠ some .directory) :
    AgreesOutside {old, new} tree (backedTree tree old new kept) := by
  have herased := agreesOutside_erase hnew
  cases kept with
  | none => exact herased.mono (by simp)
  | some file =>
      have hnode : (tree.erase new).node? old ≠ some .directory := by
        rw [herased.node?_eq hne]
        exact hold rfl
      exact (herased.mono (by simp)).trans ((agreesOutside_insert hnode file).mono (by simp))

private theorem node?_backedTree_new {old new : Location} {kept : Option File}
    (hne : old ≠ new) (hnew : tree.node? new ≠ some .directory)
    (hold : kept.isSome → tree.node? old ≠ some .directory) :
    (backedTree tree old new kept).node? new = none := by
  have herased : (tree.erase new).node? new = none := by rw [node?_erase hnew, if_pos rfl]
  cases kept with
  | none => exact herased
  | some file =>
      have hnode : (tree.erase new).node? old ≠ some .directory := by
        rw [(agreesOutside_erase hnew).node?_eq hne]
        exact hold rfl
      rw [backedTree, node?_insert hnode, if_neg hne, herased]

private theorem node?_backedTree_old {old new : Location} (file : File)
    (hne : old ≠ new) (hnew : tree.node? new ≠ some .directory)
    (hold : tree.node? old ≠ some .directory) :
    (backedTree tree old new (some file)).node? old = some (.file file) := by
  have hnode : (tree.erase new).node? old ≠ some .directory := by
    rwa [(agreesOutside_erase hnew).node?_eq hne]
  rw [backedTree, node?_insert hnode, if_pos rfl]

/-- Before the new content is put at the target, everything but the siblings is
as it was. -/
private theorem backed_of_replaced {folder : Location} {name : String} {file : File}
    {kept : Bool} (hleads : LeadsTo tree path (folder ++ [name]))
    (hread : tree.read path = .ok file)
    (hroom : tree.node? (folder ++ [name ++ ".new"]) ≠ some .directory)
    (hkept : kept = true ↔ tree.node? (folder ++ [name ++ ".old"]) ≠ some .directory) :
    AgreesOutside {folder ++ [name ++ ".old"], folder ++ [name ++ ".new"]} tree
        (backedTree tree (folder ++ [name ++ ".old"]) (folder ++ [name ++ ".new"])
          (if kept then some file else none)) ∧
      (backedTree tree (folder ++ [name ++ ".old"]) (folder ++ [name ++ ".new"])
          (if kept then some file else none)).node? (folder ++ [name]) ≠ some .directory := by
  have hbacked : AgreesOutside {folder ++ [name ++ ".old"], folder ++ [name ++ ".new"]} tree
      (backedTree tree (folder ++ [name ++ ".old"]) (folder ++ [name ++ ".new"])
        (if kept then some file else none)) :=
    agreesOutside_backedTree (append_suffix_ne folder name (by decide)) hroom
      (by cases kept <;> simp_all)
  have hold := ne_append_suffix folder name (show ".old" ≠ "" by decide)
  have hnew := ne_append_suffix folder name (show ".new" ≠ "" by decide)
  refine ⟨hbacked, ?_⟩
  rw [hbacked.node?_eq (by simp [hold, hnew]), hleads.node?_eq_of_read hread]
  simp

/-- A write leaves alone what is outside of its footprint. -/
theorem agreesOutside {result : Except IntakeError WriteOutcome}
    (heffect : WriteEffect tree path content result after) :
    AgreesOutside (footprint tree path) tree after := by
  have hpath : path ∈ [path, backupPath path, stagingPath path] := by simp
  cases heffect with
  | unreadable => exact AgreesOutside.refl _ _
  | uncreatable => exact AgreesOutside.refl _ _
  | unchanged => exact AgreesOutside.refl _ _
  | created hleads hfree =>
      apply (agreesOutside_insert (by simp [hfree]) _).mono
      exact Set.singleton_subset_iff.2 ⟨path, hpath, hleads.target⟩
  | @unstaged folder name _ _ hleads =>
      by_cases hentry : IsEntryName (name ++ ".old")
      · have hbackup := leadsTo_sibling hleads (by decide) hentry
        apply (agreesOutside_discard hbackup).mono
        exact Set.singleton_subset_iff.2 ⟨backupPath path, by simp, hbackup.target⟩
      · have hsame : tree.discard (backupPath path) = tree :=
          discard_of_target?_eq_none (target?_sibling_eq_none hleads (by decide) hentry)
        rw [hsame]
        exact AgreesOutside.refl _ _
  | @replaced folder name file kept hleads hread hcontent hentry hroom hkept =>
      obtain ⟨hbacked, hplace⟩ := backed_of_replaced hleads hread hroom hkept
      have hold := sibling_mem_footprint hleads
        ((isEntryName_backup_iff_staging (isEntryName_of_target hleads)).2 hentry) (Or.inl rfl)
      have hnew := sibling_mem_footprint hleads hentry (Or.inr rfl)
      apply AgreesOutside.trans (hbacked.mono ?_) ((agreesOutside_insert hplace _).mono ?_)
      · exact Set.insert_subset hold (Set.singleton_subset_iff.2 hnew)
      · exact Set.singleton_subset_iff.2 ⟨path, hpath, hleads.target⟩

/-- After a write that succeeds the path holds the content. -/
theorem holds {outcome : WriteOutcome}
    (heffect : WriteEffect tree path content (.ok outcome) after) :
    after.Holds path content := by
  cases heffect with
  | created hleads hfree => exact holds_insert hleads (by simp [hfree]) (isReadable_private content)
  | unchanged hread hcontent => exact ⟨_, hread, hcontent⟩
  | replaced hleads hread hcontent hentry hroom hkept =>
      obtain ⟨hbacked, hplace⟩ := backed_of_replaced hleads hread hroom hkept
      exact holds_insert (hleads.congr hbacked.folders) hplace (isReadable_private content)

/-- After a replacement there is no staging file, and the backup, if it is kept,
is the file that was replaced. -/
theorem siblings_of_replaced {kept : Bool}
    (heffect : WriteEffect tree path content (.ok (.replaced kept)) after) :
    after.IsVacant (stagingPath path) ∧
      ∃ file, tree.read path = .ok file ∧ file.content ≠ content ∧
        (kept = true → after.read (backupPath path) = .ok file) := by
  have hfolders := heffect.agreesOutside.folders
  cases heffect with
  | @replaced folder name file _ hleads hread hcontent hentry hroom hkept =>
      obtain ⟨hbacked, hplace⟩ := backed_of_replaced hleads hread hroom hkept
      have hbackup := (isEntryName_backup_iff_staging (isEntryName_of_target hleads)).2 hentry
      have hstagingLeads := (leadsTo_sibling hleads (by decide) hentry).congr hfolders
      have hbackupLeads := (leadsTo_sibling hleads (by decide) hbackup).congr hfolders
      have hne := append_suffix_ne folder name (show ".old" ≠ ".new" by decide)
      have hplaceNew := ne_append_suffix folder name (show ".new" ≠ "" by decide)
      have hplaceOld := ne_append_suffix folder name (show ".old" ≠ "" by decide)
      constructor
      · refine ⟨_, hstagingLeads, ?_⟩
        rw [replacedTree, node?_insert hplace, if_neg hplaceNew,
          node?_backedTree_new hne hroom (by cases kept <;> simp_all)]
      · refine ⟨file, hread, hcontent, ?_⟩
        rintro rfl
        obtain ⟨-, hreadable⟩ := read_eq_ok_iff.1 hread
        rw [backupPath, read_of_leadsTo hbackupLeads, replacedTree, node?_insert hplace,
          if_neg hplaceOld, if_pos rfl, node?_backedTree_old file hne hroom (hkept.1 rfl)]
        exact if_pos hreadable

end WriteEffect

end CredentialIntake.Store
