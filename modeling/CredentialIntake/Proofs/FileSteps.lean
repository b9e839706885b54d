import CredentialIntake.FileTree.Program
import CredentialIntake.Proofs.TreeFrames

/-!
# What single file operations do

Each operation is described by the location its path leads to and by what is
there.  From these descriptions follow the results of the two programs that
move whole contents, writing and copying, on a location that is free.
-/

namespace CredentialIntake

open CredentialIntake.Path

namespace FileTree

/-! ## Opening for writing -/

/-- A path that asks for no directory leads to a location. -/
structure LeadsTo (tree : FileTree) (path : Path) (place : Location) : Prop where
  target : tree.target? path = some place
  no_slash : path.endsWithSlash = false

theorem LeadsTo.congr {before after : FileTree} {path : Path} {place : Location}
    (hleads : LeadsTo before path place) (hsame : SameFolders before after) :
    LeadsTo after path place :=
  ⟨(hsame.target?_eq path).trans hleads.target, hleads.no_slash⟩

theorem LeadsTo.unique {tree : FileTree} {path : Path} {left right : Location}
    (hleft : LeadsTo tree path left) (hright : LeadsTo tree path right) : left = right :=
  Option.some.inj (hleft.target.symm.trans hright.target)

/-- What is at a location is found by every path that leads to it. -/
theorem stat_of_leadsTo {tree : FileTree} {path : Path} {place : Location}
    (hleads : LeadsTo tree path place) :
    tree.stat path =
      match tree.node? place with
      | none => .error .notFound
      | some node => .ok node := by
  obtain ⟨folder, name, hresolve, rfl⟩ := target?_eq_some_iff.1 hleads.target
  rw [stat, hresolve]
  cases hnode : tree.node? (folder ++ [name]) with
  | none => simp [hnode]
  | some node => cases node <;> simp [hnode, hleads.no_slash]

/-- What is read at a location depends on what is there only. -/
theorem read_of_leadsTo {tree : FileTree} {path : Path} {place : Location}
    (hleads : LeadsTo tree path place) :
    tree.read path =
      match tree.node? place with
      | none => .error .notFound
      | some .directory => .error .isDirectory
      | some (.file file) => if file.isReadable then .ok file else .error .permissionDenied := by
  rw [FileTree.read, stat_of_leadsTo hleads]
  cases tree.node? place with
  | none => rfl
  | some node => cases node <;> rfl

/-- A file that is read is there. -/
theorem stat_of_read {tree : FileTree} {path : Path} {file : File}
    (hread : tree.read path = .ok file) : tree.stat path = .ok (.file file) := by
  rw [FileTree.read] at hread
  split at hread
  · cases hread
  · cases hread
  next hstat =>
    split at hread
    · rw [hstat, Except.ok.inj hread]
    · cases hread

/-- The path leads to a location where nothing is. -/
def IsVacant (tree : FileTree) (path : Path) : Prop :=
  ∃ place, LeadsTo tree path place ∧ tree.node? place = none

theorem IsVacant.stat_eq {tree : FileTree} {path : Path} (hvacant : IsVacant tree path) :
    tree.stat path = .error .notFound := by
  obtain ⟨place, hleads, hfree⟩ := hvacant
  rw [stat_of_leadsTo hleads, hfree]

theorem locate_eq_ok_iff_leadsTo {tree : FileTree} {path : Path} {place : Location}
    {file : File} :
    tree.locate path = .ok (place, file) ↔
      LeadsTo tree path place ∧ tree.node? place = some (.file file) := by
  rw [locate_eq_ok_iff]
  constructor
  · rintro ⟨htarget, hnode, hslash⟩
    exact ⟨⟨htarget, hslash⟩, hnode⟩
  · rintro ⟨⟨htarget, hslash⟩, hnode⟩
    exact ⟨htarget, hnode, hslash⟩

theorem LeadsTo.node?_eq_of_read {tree : FileTree} {path : Path} {place : Location}
    {file : File} (hleads : LeadsTo tree path place) (hread : tree.read path = .ok file) :
    tree.node? place = some (.file file) := by
  obtain ⟨⟨other, hlocate⟩, -⟩ := read_eq_ok_iff.1 hread
  obtain ⟨hother, hnode⟩ := locate_eq_ok_iff_leadsTo.1 hlocate
  rw [hleads.unique hother, hnode]

theorem Holds.leadsTo {tree : FileTree} {path : Path} {content : Bytes}
    (hholds : tree.Holds path content) : ∃ place, LeadsTo tree path place := by
  obtain ⟨file, hread, -⟩ := hholds
  obtain ⟨⟨place, hlocate⟩, -⟩ := read_eq_ok_iff.1 hread
  exact ⟨place, (locate_eq_ok_iff_leadsTo.1 hlocate).1⟩

/-- Paths that lead to one location hold the same. -/
theorem Holds.congr {tree : FileTree} {path other : Path} {place : Location} {content : Bytes}
    (hholds : tree.Holds path content) (hplace : tree.target? path = some place)
    (hother : LeadsTo tree other place) : tree.Holds other content := by
  obtain ⟨file, hread, hcontent⟩ := hholds
  obtain ⟨⟨location, hlocate⟩, hreadable⟩ := read_eq_ok_iff.1 hread
  obtain ⟨hleads, hnode⟩ := locate_eq_ok_iff_leadsTo.1 hlocate
  have hsame : location = place := Option.some.inj (hleads.target.symm.trans hplace)
  rw [hsame] at hnode
  exact ⟨file, read_eq_ok_iff.2 ⟨⟨place, locate_eq_ok_iff_leadsTo.2 ⟨hother, hnode⟩⟩, hreadable⟩,
    hcontent⟩

theorem create_of_leadsTo {tree : FileTree} {path : Path} {place : Location}
    (hleads : LeadsTo tree path place) (mode : Nat) :
    tree.create path mode =
      match tree.node? place with
      | some .directory => .error .isDirectory
      | some (.file file) =>
          if file.isWritable then .ok (tree.insert place (.file { file with content := [] }))
          else .error .permissionDenied
      | none => .ok (tree.insert place (.file ⟨mode, []⟩)) := by
  obtain ⟨folder, name, hresolve, rfl⟩ := target?_eq_some_iff.1 hleads.target
  rw [create, hresolve]
  cases hnode : tree.node? (folder ++ [name]) with
  | none => simp [hleads.no_slash, hnode]
  | some node => cases node <;> simp [hleads.no_slash, hnode]

/-- Only a path that leads to a location can be opened for writing. -/
theorem leadsTo_of_create_eq_ok {tree changed : FileTree} {path : Path} {mode : Nat}
    (hcreate : tree.create path mode = .ok changed) : ∃ place, LeadsTo tree path place := by
  rw [create] at hcreate
  split at hcreate
  · cases hcreate
  · cases hcreate
  next folder name hresolve =>
    split at hcreate
    · cases hcreate
    next hslash =>
      exact ⟨folder ++ [name],
        target?_eq_some_iff.2 ⟨folder, name, hresolve, rfl⟩, by simpa using hslash⟩

/-! ## Removing what can be removed -/

/-- The tree without the file at a path, if there is one. -/
def discard (tree : FileTree) (path : Path) : FileTree :=
  match tree.remove path with
  | .ok changed => changed
  | .error _ => tree

/-- Nothing but a directory resists being discarded. -/
theorem discard_of_leadsTo {tree : FileTree} {path : Path} {place : Location}
    (hleads : LeadsTo tree path place) :
    tree.discard path =
      if tree.node? place = some .directory then tree else tree.erase place := by
  obtain ⟨folder, name, hresolve, rfl⟩ := target?_eq_some_iff.1 hleads.target
  simp only [discard, remove, locate, hresolve]
  cases hnode : tree.node? (folder ++ [name]) with
  | none =>
      have hnotFolder : tree.node? (folder ++ [name]) ≠ some .directory := by simp [hnode]
      have hanchor := not_isAnchor_of_node?_ne hnotFolder
      rw [node?_of_not_isAnchor hanchor] at hnode
      have herase : tree.erase (folder ++ [name]) = tree := by
        apply ext_nodes
        intro place
        rw [nodes_erase]
        by_cases heq : folder ++ [name] = place
        · rw [if_pos heq, ← heq, hnode]
        · rw [if_neg heq]
      simp [Except.map, herase]
  | some node =>
      cases node with
      | directory => simp [Except.map]
      | file file => simp [Except.map, hleads.no_slash]

/-- Only a file can be discarded, and nothing else goes with it. -/
theorem nodes_discard (tree : FileTree) (path : Path) (place : Location) :
    (tree.discard path).nodes[place]? = tree.nodes[place]? ∨
      tree.target? path = some place ∧ (∃ file, tree.nodes[place]? = some (.file file)) ∧
        (tree.discard path).nodes[place]? = none := by
  rw [discard, remove]
  cases hlocate : tree.locate path with
  | error fault => exact Or.inl rfl
  | ok found =>
      obtain ⟨hleads, hnode⟩ := locate_eq_ok_iff_leadsTo.1 hlocate
      simp only [Except.map, nodes_erase]
      by_cases heq : found.1 = place
      · rw [heq] at hleads hnode
        have hnotFolder : tree.node? place ≠ some .directory := by simp [hnode]
        rw [node?_of_not_isAnchor (not_isAnchor_of_node?_ne hnotFolder)] at hnode
        exact Or.inr ⟨hleads.target, ⟨found.2, hnode⟩, if_pos heq⟩
      · exact Or.inl (if_neg heq)

theorem discard_of_target?_eq_none {tree : FileTree} {path : Path}
    (htarget : tree.target? path = none) : tree.discard path = tree := by
  have hlocate : ∀ place file, tree.locate path ≠ .ok (place, file) := by
    intro place file hlocate
    rw [(locate_eq_ok_iff.1 hlocate).1] at htarget
    cases htarget
  rw [discard, remove]
  cases hcase : tree.locate path with
  | error fault => rfl
  | ok found => exact absurd hcase (hlocate found.1 found.2)

theorem agreesOutside_discard {tree : FileTree} {path : Path} {place : Location}
    (hleads : LeadsTo tree path place) : AgreesOutside {place} tree (tree.discard path) := by
  rw [discard_of_leadsTo hleads]
  split
  · exact AgreesOutside.refl _ _
  next hnode => exact agreesOutside_erase hnode

theorem node?_discard {tree : FileTree} {path : Path} {place : Location}
    (hleads : LeadsTo tree path place) :
    (tree.discard path).node? place =
      if tree.node? place = some .directory then some .directory else none := by
  rw [discard_of_leadsTo hleads]
  split
  next hnode => exact hnode
  next hnode => rw [node?_erase hnode, if_pos rfl]

theorem rename_of_leadsTo {tree : FileTree} {source target : Path} {place final : Location}
    {file : File} (hsource : tree.locate source = .ok (place, file))
    (htarget : LeadsTo tree target final) (hnode : tree.node? final ≠ some .directory) :
    tree.rename source target = .ok ((tree.erase place).insert final (.file file)) := by
  obtain ⟨folder, name, hresolve, rfl⟩ := target?_eq_some_iff.1 htarget.target
  simp only [rename, hsource, hresolve]
  cases hfound : tree.node? (folder ++ [name]) with
  | none => simp [htarget.no_slash]
  | some node =>
      cases node with
      | directory => exact absurd hfound hnode
      | file other => simp [htarget.no_slash]

end FileTree

namespace FileProgram

/-! ## Running single steps -/

@[simp]
theorem run_pure {α : Type} (result : α) (tree : FileTree) :
    (pure result : FileProgram α).run tree = (result, tree) := rfl

@[simp]
theorem run_readFile (path : Path) (tree : FileTree) :
    (readFile path).run tree = (tree.read path, tree) := rfl

theorem run_attempt_ok {step : FileChange} {tree changed : FileTree}
    (happly : step.apply tree = .ok changed) :
    (attempt step).run tree = (.ok (), changed) := by
  simp [attempt, run, happly]

theorem run_attempt_error {step : FileChange} {tree : FileTree} {fault : FileFault}
    (happly : step.apply tree = .error fault) :
    (attempt step).run tree = (.error fault, tree) := by
  simp [attempt, run, happly]

theorem run_attempt_remove (path : Path) (tree : FileTree) :
    ((attempt (.remove path)).run tree).2 = tree.discard path := by
  simp only [attempt, run, FileChange.apply, FileTree.discard]
  cases tree.remove path <;> rfl

/-! ## Writing and copying to a free location -/

section FreeLocation

open FileTree

variable {tree : FileTree} {path : Path} {place : Location}

private theorem insert_insert (tree : FileTree) (place : Location) (first second : Node) :
    (tree.insert place first).insert place second = tree.insert place second := by
  apply ext_nodes
  intro other
  simp only [nodes_insert]
  split <;> rfl

theorem locate_insert (hleads : LeadsTo tree path place)
    (hnode : tree.node? place ≠ some .directory) (file : File) :
    (tree.insert place (.file file)).locate path = .ok (place, file) := by
  rw [locate_eq_ok_iff_leadsTo]
  refine ⟨hleads.congr (agreesOutside_insert hnode file).folders, ?_⟩
  rw [node?_insert hnode, if_pos rfl]

theorem stat_insert (hleads : LeadsTo tree path place)
    (hnode : tree.node? place ≠ some .directory) (file : File) :
    (tree.insert place (.file file)).stat path = .ok (.file file) := by
  rw [stat_of_leadsTo (hleads.congr (agreesOutside_insert hnode file).folders),
    node?_insert hnode, if_pos rfl]

theorem holds_insert (hleads : LeadsTo tree path place)
    (hnode : tree.node? place ≠ some .directory) {file : File}
    (hreadable : file.isReadable = true) :
    (tree.insert place (.file file)).Holds path file.content :=
  ⟨file, read_eq_ok_iff.2 ⟨⟨place, locate_insert hleads hnode file⟩, hreadable⟩, rfl⟩

theorem apply_create_of_free (hleads : LeadsTo tree path place)
    (hfree : tree.node? place = none) (mode : Nat) :
    (FileChange.create path mode).apply tree = .ok (tree.insert place (.file ⟨mode, []⟩)) := by
  rw [FileChange.apply, create_of_leadsTo hleads, hfree]

theorem apply_append_insert (hleads : LeadsTo tree path place)
    (hnode : tree.node? place ≠ some .directory) (file : File) (piece : Bytes) :
    (FileChange.append path piece).apply (tree.insert place (.file file)) =
      .ok (tree.insert place (.file { file with content := file.content ++ piece })) := by
  rw [FileChange.apply, FileTree.modify, locate_insert hleads hnode]
  exact congrArg Except.ok (insert_insert ..)

theorem apply_sync_insert (hleads : LeadsTo tree path place)
    (hnode : tree.node? place ≠ some .directory) (file : File) :
    (FileChange.sync path).apply (tree.insert place (.file file)) =
      .ok (tree.insert place (.file file)) := by
  rw [FileChange.apply, locate_insert hleads hnode]
  rfl

/-- Pieces are appended behind what an opened file holds. -/
theorem run_appendAll (hleads : LeadsTo tree path place)
    (hnode : tree.node? place ≠ some .directory) (file : File) (pieces : List Bytes) :
    (appendAll path pieces).run (tree.insert place (.file file)) =
      (.ok (), tree.insert place
        (.file { file with content := file.content ++ pieces.flatten })) := by
  induction pieces generalizing file with
  | nil => simp [appendAll, run]
  | cons piece rest ih =>
      rw [appendAll, run_bind, run_attempt_ok (apply_append_insert hleads hnode file piece)]
      simp only [ih, List.flatten_cons, List.append_assoc]

/-- A free location comes to hold a new file with the content. -/
theorem run_write_of_free (pieces : Pieces) (mode : Nat) (content : Bytes)
    (hleads : LeadsTo tree path place) (hfree : tree.node? place = none) :
    (write pieces path mode content).run tree =
      (.ok (), tree.insert place (.file ⟨mode, content⟩)) := by
  have hnode : tree.node? place ≠ some .directory := by simp [hfree]
  rw [write, run_bind, run_attempt_ok (apply_create_of_free hleads hfree mode)]
  simp only [run_bind, run_appendAll hleads hnode, pieces.flatten_cut, List.nil_append,
    run_attempt_ok (apply_sync_insert hleads hnode _)]

theorem run_write_of_create_eq_error (pieces : Pieces) {mode : Nat} (content : Bytes)
    {fault : FileFault} (hcreate : tree.create path mode = .error fault) :
    (write pieces path mode content).run tree = (.error fault, tree) := by
  have happly : (FileChange.create path mode).apply tree = .error fault := hcreate
  rw [write, run_bind, run_attempt_error happly]
  rfl

/-- The copy of a readable file on a free location has its mode and content. -/
theorem run_copy_of_free (pieces : Pieces) {source : Path} {file : File}
    (hread : tree.read source = .ok file) (hleads : LeadsTo tree path place)
    (hfree : tree.node? place = none) :
    (copy pieces source path).run tree = (.ok (), tree.insert place (.file file)) := by
  have hnode : tree.node? place ≠ some .directory := by simp [hfree]
  have hcreate := apply_create_of_free hleads hfree file.mode
  have hmode : (FileChange.setMode path file.mode).apply (tree.insert place (.file file)) =
      .ok (tree.insert place (.file file)) := by
    rw [FileChange.apply, FileTree.modify, locate_insert hleads hnode]
    exact congrArg Except.ok (insert_insert ..)
  rw [copy, run_bind, run_readFile]
  simp only [hread, run_bind, run_attempt_ok hcreate, run_appendAll hleads hnode,
    pieces.flatten_cut, List.nil_append, run_attempt_ok hmode]

theorem run_copy_of_create_eq_error (pieces : Pieces) {source : Path} {file : File}
    {fault : FileFault} (hread : tree.read source = .ok file)
    (hcreate : tree.create path file.mode = .error fault) :
    (copy pieces source path).run tree = (.error fault, tree) := by
  have happly : (FileChange.create path file.mode).apply tree = .error fault := hcreate
  rw [copy, run_bind, run_readFile]
  simp only [hread, run_bind, run_attempt_error happly]
  rfl

end FreeLocation

end FileProgram

end CredentialIntake
