import CredentialIntake.FileTree.Basic
import CredentialIntake.Proofs.PathForms

/-!
# Where paths lead

Following a path only asks which locations are directories.  Two trees with the
same directories therefore resolve every path alike, whatever files they hold,
and a tree that differs from another in files only, at known locations, can be
compared with it path by path.
-/

namespace CredentialIntake.FileTree

open CredentialIntake.Path

/-! ## Following a path to its folder -/

/-- Goes down names from a directory, each of them that of a directory. -/
def enter (tree : FileTree) (place : Location) : List String → Except FileFault Location
  | [] => .ok place
  | name :: rest =>
    if name = "." then enter tree place rest
    else if name = ".." then enter tree (Location.parent place) rest
    else if nameLimit < name.utf8ByteSize then .error .nameTooLong
    else match tree.node? (place ++ [name]) with
      | none => .error .notFound
      | some (.file _) => .error .notDirectory
      | some .directory => enter tree (place ++ [name]) rest

/-- The location of the directory at a path; the empty path is the working
directory. -/
def folderAt (tree : FileTree) (path : Path) : Except FileFault Location :=
  if '\x00' ∈ path.text.toList then .error .nulByte
  else tree.enter (Location.ofStart path) path.names

/-- Where the last name of a path leads from the directory before it. -/
def lastStep (name : String) (folder : Location) : Except FileFault Place :=
  if name = "." then .ok (.folder folder)
  else if name = ".." then .ok (.folder (Location.parent folder))
  else if nameLimit < name.utf8ByteSize then .error .nameTooLong
  else .ok (.entry folder name)

theorem follow_append_singleton (tree : FileTree) (place : Location) (names : List String)
    (name : String) :
    tree.follow place (names ++ [name]) = (tree.enter place names).bind (lastStep name) := by
  induction names generalizing place with
  | nil => simp [follow, enter, lastStep, Except.bind]
  | cons first rest ih =>
      have hmore : (rest ++ [name]).isEmpty = false := by simp
      simp only [List.cons_append, follow, enter, hmore, Bool.false_eq_true, if_false, ih]
      split
      · rfl
      split
      · rfl
      split
      · rfl
      cases tree.node? (place ++ [first]) with
      | none => rfl
      | some node => cases node <;> rfl

theorem resolve_join {folder : Path} {name : String} (tree : FileTree)
    (hname : IsPlainName name) (hnul : '\x00' ∉ name.toList) :
    tree.resolve (folder.join name) = (tree.folderAt folder).bind (lastStep name) := by
  have hstart : Location.ofStart (folder.join name) = Location.ofStart folder := by
    rw [Location.ofStart, Location.ofStart, isAbsolute_join hname]
  by_cases hfolder : '\x00' ∈ folder.text.toList
  · rw [resolve, if_pos ((nul_mem_text_join hname).2 (Or.inl hfolder)), folderAt, if_pos hfolder]
    rfl
  · have hjoin : '\x00' ∉ (folder.join name).text.toList := by
      rw [nul_mem_text_join hname, not_or]
      exact ⟨hfolder, hnul⟩
    rw [resolve, if_neg hjoin, if_neg (by simpa using text_join_ne_empty hname), hstart,
      names_join hname, follow_append_singleton, folderAt, if_neg hfolder]

/-- The location a path names inside a directory, whether or not something is
there. -/
def target? (tree : FileTree) (path : Path) : Option Location :=
  match tree.resolve path with
  | .ok (.entry folder name) => some (folder ++ [name])
  | _ => none

theorem target?_eq_some_iff {tree : FileTree} {path : Path} {place : Location} :
    tree.target? path = some place ↔
      ∃ folder name, tree.resolve path = .ok (.entry folder name) ∧ place = folder ++ [name] := by
  rw [target?]
  constructor
  · intro htarget
    split at htarget
    · next folder name hresolve =>
        exact ⟨folder, name, hresolve, (Option.some.inj htarget).symm⟩
    · cases htarget
  · rintro ⟨folder, name, hresolve, rfl⟩
    rw [hresolve]

/-- A name that an entry of a directory can have, as far as names go. -/
structure IsEntryName (name : String) : Prop where
  nul_not_mem : '\x00' ∉ name.toList
  ne_here : name ≠ "."
  ne_above : name ≠ ".."
  size_le : name.utf8ByteSize ≤ nameLimit

theorem lastStep_eq_entry_iff {name other : String} {folder place : Location} :
    lastStep name folder = .ok (.entry place other) ↔
      place = folder ∧ other = name ∧ name ≠ "." ∧ name ≠ ".." ∧
        name.utf8ByteSize ≤ nameLimit := by
  rw [lastStep]
  split
  · simp_all
  split
  · simp_all
  split
  · simp_all
  · simp_all [eq_comm]

/-- A plain name in a folder leads to the entry of that name, if it can be one
and the folder is there. -/
theorem resolve_join_eq_entry_iff {tree : FileTree} {folder : Path} {name other : String}
    {place : Location} (hname : IsPlainName name) :
    tree.resolve (folder.join name) = .ok (.entry place other) ↔
      tree.folderAt folder = .ok place ∧ other = name ∧ IsEntryName name := by
  by_cases hnul : '\x00' ∈ name.toList
  · rw [resolve, if_pos ((nul_mem_text_join hname).2 (Or.inr hnul))]
    constructor
    · intro hresolve
      cases hresolve
    · rintro ⟨-, -, hentry⟩
      exact absurd hnul hentry.nul_not_mem
  rw [resolve_join tree hname hnul]
  cases hfolder : tree.folderAt folder with
  | error fault => simp [Except.bind]
  | ok location =>
      simp only [Except.bind, lastStep_eq_entry_iff, Except.ok.injEq]
      constructor
      · rintro ⟨rfl, rfl, hhere, habove, hsize⟩
        exact ⟨rfl, rfl, hnul, hhere, habove, hsize⟩
      · rintro ⟨rfl, rfl, hentry⟩
        exact ⟨rfl, rfl, hentry.ne_here, hentry.ne_above, hentry.size_le⟩

theorem target?_join_eq_some_iff {tree : FileTree} {folder : Path} {name : String}
    {place : Location} (hname : IsPlainName name) :
    tree.target? (folder.join name) = some place ↔
      ∃ location, tree.folderAt folder = .ok location ∧ IsEntryName name ∧
        place = location ++ [name] := by
  rw [target?_eq_some_iff]
  constructor
  · rintro ⟨location, other, hresolve, rfl⟩
    obtain ⟨hfolder, rfl, hentry⟩ := (resolve_join_eq_entry_iff hname).1 hresolve
    exact ⟨location, hfolder, hentry, rfl⟩
  · rintro ⟨location, hfolder, hentry, rfl⟩
    exact ⟨location, name, (resolve_join_eq_entry_iff hname).2 ⟨hfolder, rfl, hentry⟩, rfl⟩

end CredentialIntake.FileTree
