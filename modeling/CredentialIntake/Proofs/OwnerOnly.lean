import CredentialIntake.Proofs.Holdings
import CredentialIntake.Proofs.Planning

/-!
# Files that only their owner can use

A write makes private files and removes files, and where it keeps a copy, the copy
has the mode of a file in the same directory.  So a directory that holds private
files only goes on to do so, whatever is asked of the store and however it ends.
-/

namespace CredentialIntake.Store

open FileTree

/-! ## Where modes come from -/

/-- Every file there is afterwards is private, or has the mode of a file that was
in its directory before. -/
def InheritsModes (before after : FileTree) : Prop :=
  ∀ (folder : Location) (name : String) (file : File),
    after.node? (folder ++ [name]) = some (.file file) →
      file.mode = privateMode ∨
        ∃ other source, before.node? (folder ++ [other]) = some (.file source) ∧
          file.mode = source.mode

namespace InheritsModes

variable {tree before middle after : FileTree}

theorem refl (tree : FileTree) : InheritsModes tree tree :=
  fun _ name file hfile => Or.inr ⟨name, file, hfile, rfl⟩

theorem trans (hleft : InheritsModes before middle) (hright : InheritsModes middle after) :
    InheritsModes before after := by
  intro folder name file hfile
  rcases hright folder name file hfile with hprivate | ⟨other, source, hsource, hmode⟩
  · exact Or.inl hprivate
  · rw [hmode]
    exact hleft folder other source hsource

/-- A file put into a directory is the only one whose mode has to be looked at. -/
private theorem insert {folder : Location} {name : String} {file : File}
    (hmode : file.mode = privateMode ∨
      ∃ other source, tree.node? (folder ++ [other]) = some (.file source) ∧
        file.mode = source.mode) :
    InheritsModes tree (tree.insert (folder ++ [name]) (.file file)) := by
  intro base title found hfound
  by_cases heq : folder ++ [name] = base ++ [title]
  · obtain ⟨rfl, rfl⟩ := List.append_singleton_inj.1 heq
    rw [node?, nodes_insert, if_pos rfl] at hfound
    split at hfound
    · cases hfound
    · cases hfound
      exact hmode
  · rw [node?, nodes_insert, if_neg heq] at hfound
    exact Or.inr ⟨title, found, hfound, rfl⟩

theorem insert_private (tree : FileTree) (folder : Location) (name : String) (content : Bytes) :
    InheritsModes tree (tree.insert (folder ++ [name]) (.file ⟨privateMode, content⟩)) :=
  insert (Or.inl rfl)

theorem insert_copy {folder : Location} {other : String} {file : File}
    (hfile : tree.node? (folder ++ [other]) = some (.file file)) (name : String) :
    InheritsModes tree (tree.insert (folder ++ [name]) (.file file)) :=
  insert (Or.inr ⟨other, file, hfile, rfl⟩)

theorem erase (tree : FileTree) (place : Location) : InheritsModes tree (tree.erase place) := by
  intro folder name file hfile
  rw [node?, nodes_erase] at hfile
  refine Or.inr ⟨name, file, ?_, rfl⟩
  rw [node?]
  split at hfile
  · cases hfile
  next hanchor =>
    rw [if_neg hanchor]
    split at hfile
    · cases hfile
    · exact hfile

theorem discard (tree : FileTree) (path : Path) : InheritsModes tree (tree.discard path) := by
  rw [FileTree.discard, remove]
  cases tree.locate path with
  | error fault => exact refl tree
  | ok found => exact erase tree found.1

end InheritsModes

theorem WriteEffect.inheritsModes {tree after : FileTree} {path : Path} {content : Bytes}
    {result : Except IntakeError WriteOutcome}
    (heffect : WriteEffect tree path content result after) : InheritsModes tree after := by
  cases heffect with
  | unreadable => exact .refl tree
  | uncreatable => exact .refl tree
  | unchanged => exact .refl tree
  | unstaged => exact .discard tree _
  | created hleads =>
      obtain ⟨folder, name, rfl, -⟩ := exists_siblings hleads
      exact .insert_private tree folder name content
  | @replaced folder name file kept hleads hread hcontent hentry hroom =>
      have herased := InheritsModes.erase tree (folder ++ [name ++ ".new"])
      refine InheritsModes.trans ?_ (.insert_private _ folder name content)
      cases kept with
      | false => exact herased
      | true =>
          -- the backup is a copy of the target, which is still there
          have hfile : (tree.erase (folder ++ [name ++ ".new"])).node? (folder ++ [name]) =
              some (.file file) := by
            rw [node?_erase hroom, if_neg (ne_append_suffix folder name (by decide)).symm]
            exact hleads.node?_eq_of_read hread
          exact herased.trans (.insert_copy hfile _)

theorem inheritsModes_writeAll (store : Store) (writes : List FileWrite) :
    InheritsModes store.tree (store.writeAll writes).2.tree := by
  induction writes generalizing store with
  | nil => exact .refl store.tree
  | cons write rest ih =>
      have hwrite := (store.writeFile_effect write).inheritsModes
      cases hfirst : (store.writeFile write).1 with
      | error error =>
          rw [writeAll_cons_error hfirst]
          exact hwrite
      | ok outcome =>
          rw [writeAll_cons_ok hfirst]
          exact hwrite.trans (ih _)

/-! ## Private directories -/

/-- All files in the directories are private. -/
def IsPrivateIn (folders : Set Location) (tree : FileTree) : Prop :=
  ∀ folder ∈ folders, ∀ (name : String) (file : File),
    tree.node? (folder ++ [name]) = some (.file file) → file.mode = privateMode

theorem IsPrivateIn.of_inheritsModes {folders : Set Location} {before after : FileTree}
    (hprivate : IsPrivateIn folders before) (hmodes : InheritsModes before after) :
    IsPrivateIn folders after := by
  intro folder hfolder name file hfile
  rcases hmodes folder name file hfile with hmode | ⟨other, source, hsource, hmode⟩
  · exact hmode
  · rw [hmode]
    exact hprivate folder hfolder other source hsource

/-- The directories of all users. -/
def userFolders (store : Store) : Set Location :=
  {folder | ∃ username, store.tree.folderAt (store.directoryOf username) = .ok folder}

/-- The directories of all users and all that is below them. -/
def foldersWithin (store : Store) : Set Location :=
  {place | ∃ folder ∈ store.userFolders, folder <+: place}

/-- A store that is no worse than another: it has the same directories, and no file
is open to more than its owner that was not made so before. -/
structure KeepsClosed (before after : Store) : Prop where
  directoryOf : after.directoryOf = before.directoryOf
  folders : SameFolders before.tree after.tree
  modes : InheritsModes before.tree after.tree

namespace KeepsClosed

variable {before middle after : Store}

theorem refl (store : Store) : KeepsClosed store store := ⟨rfl, .refl _, .refl _⟩

theorem trans (hleft : KeepsClosed before middle) (hright : KeepsClosed middle after) :
    KeepsClosed before after where
  directoryOf := hright.directoryOf.trans hleft.directoryOf
  folders := hleft.folders.trans hright.folders
  modes := hleft.modes.trans hright.modes

theorem userFolders_eq (hkeeps : KeepsClosed before after) :
    after.userFolders = before.userFolders := by
  ext folder
  simp only [userFolders, hkeeps.directoryOf, Set.mem_ofPred_eq, hkeeps.folders.folderAt_eq_ok_iff]

theorem foldersWithin_eq (hkeeps : KeepsClosed before after) :
    after.foldersWithin = before.foldersWithin := by
  rw [foldersWithin, foldersWithin, hkeeps.userFolders_eq]

end KeepsClosed

end CredentialIntake.Store

namespace CredentialIntake.Intake

open Store

/-! ## Everything that can be asked for -/

/-- What a store can be used for. -/
inductive Operation where
  | process (factory : Factory) (ad : ClassAd)
  | persist (username id : String) (material : Bytes) (client : String)
  | writeFile (write : FileWrite)

/-- The store an operation leaves, whether it succeeds or not. -/
def Operation.perform (store : Store) : Operation → Store
  | process factory ad => (Intake.process factory store ad).2
  | persist username id material client => (store.persist username id material client).2
  | writeFile write => (store.writeFile write).2

/-- The store that operations leave, one after the other. -/
def performAll (store : Store) (operations : List Operation) : Store :=
  operations.foldl Operation.perform store

/-- An operation writes some files, up to the first write that fails, and never
moves the directory of a user. -/
theorem Operation.exists_writes (store : Store) (operation : Operation) :
    ∃ writes, (operation.perform store).tree = (store.writeAll writes).2.tree ∧
      (operation.perform store).directoryOf = store.directoryOf := by
  cases operation with
  | process factory ad =>
      rw [perform]
      cases hdecision : (Plan.ofRequest factory store.directoryOf ad).decision with
      | error error =>
          rw [process_of_refused hdecision]
          exact ⟨[], rfl, rfl⟩
      | ok decided =>
          -- what is reported before the writes does not matter to them
          have hbegun : (begin store (Plan.ofRequest factory store.directoryOf ad)).holdings =
              store.holdings := rfl
          have htree := congrArg Holdings.tree (writeAll_congr hbegun decided.2).2
          have hdirectory := directoryOf_writeAll
            (begin store (Plan.ofRequest factory store.directoryOf ad)) decided.2
          refine ⟨decided.2, ?_⟩
          cases hrun : (begin store (Plan.ofRequest factory store.directoryOf ad)).writeAll
              decided.2 with
          | mk result after =>
              rw [hrun] at htree hdirectory
              cases result with
              | ok done =>
                  rw [process_of_written hdecision hrun]
                  exact ⟨htree, hdirectory⟩
              | error error =>
                  rw [process_of_stopped hdecision hrun]
                  exact ⟨htree, hdirectory⟩
  | persist username id material client =>
      simp only [perform, Store.persist]
      split
      · refine ⟨writesFor (filesOf store.directoryOf username client id) material, ?_⟩
        have hdirectory := directoryOf_writeAll store
          (writesFor (filesOf store.directoryOf username client id) material)
        cases hrun : store.writeAll
            (writesFor (filesOf store.directoryOf username client id) material) with
        | mk result after =>
            rw [hrun] at hdirectory
            cases result <;> exact ⟨rfl, hdirectory⟩
      · exact ⟨[], rfl, rfl⟩
  | writeFile write =>
      refine ⟨[write], ?_, directoryOf_writeFile store write⟩
      cases hfirst : (store.writeFile write).1 with
      | error error => rw [writeAll_cons_error hfirst, perform]
      | ok outcome => rw [writeAll_cons_ok hfirst, perform, writeAll]

theorem Operation.keepsClosed (store : Store) (operation : Operation) :
    KeepsClosed store (operation.perform store) := by
  obtain ⟨writes, htree, hdirectory⟩ := operation.exists_writes store
  constructor
  · exact hdirectory
  · rw [htree]
    exact (writeAll_agreesOutside store writes).folders
  · rw [htree]
    exact inheritsModes_writeAll store writes

theorem keepsClosed_performAll (store : Store) (operations : List Operation) :
    KeepsClosed store (performAll store operations) := by
  induction operations generalizing store with
  | nil => exact .refl store
  | cons operation rest ih => exact (operation.keepsClosed store).trans (ih _)

/-- Where all files of the users are private, they are so after any operations,
backups and staging files included.  The same holds if the files in directories
below those of the users are counted in. -/
theorem private_performAll (store : Store) (operations : List Operation) :
    (IsPrivateIn store.userFolders store.tree →
        IsPrivateIn (performAll store operations).userFolders
          (performAll store operations).tree) ∧
      (IsPrivateIn store.foldersWithin store.tree →
        IsPrivateIn (performAll store operations).foldersWithin
          (performAll store operations).tree) := by
  have hkeeps := keepsClosed_performAll store operations
  constructor
  · intro hprivate
    rw [hkeeps.userFolders_eq]
    exact hprivate.of_inheritsModes hkeeps.modes
  · intro hprivate
    rw [hkeeps.foldersWithin_eq]
    exact hprivate.of_inheritsModes hkeeps.modes

/-- A store in which a replacement was cut short. -/
private def leftoverStore : Store :=
  { Store.trial with
    tree := (Store.trial.tree.insert (["users"] ++ ["t"]) (.file ⟨privateMode, [1]⟩)).insert
      (["users"] ++ ["t.new"]) (.file ⟨privateMode, []⟩) }

private theorem isPrivateIn_leftoverStore (folders : Set Location) :
    IsPrivateIn folders leftoverStore.tree := by
  have htrial : IsPrivateIn folders Store.trial.tree := by
    intro folder _ name file hfile
    have hnode : ∀ place : Location, Store.trial.tree.node? place ≠ some (.file file) := by
      intro place
      rw [FileTree.node?, Store.trial, FileTree.nodes_insert]
      split
      · simp
      · split
        · simp
        · simp [FileTree.empty]
    exact absurd hfile (hnode _)
  exact htrial.of_inheritsModes
    ((InheritsModes.insert_private _ ["users"] "t" [1]).trans
      (InheritsModes.insert_private _ ["users"] "t.new" []))

/-- Two replacements, a write that fails, a client name that is refused and a
request, on files of which one is left over. -/
theorem private_performAll_leftover :
    IsPrivateIn leftoverStore.userFolders leftoverStore.tree ∧
      IsPrivateIn leftoverStore.foldersWithin leftoverStore.tree ∧
      ∃ after, after = performAll leftoverStore
          [.writeFile ⟨⟨"users/t"⟩, [2]⟩, .writeFile ⟨⟨"users/t/"⟩, [3]⟩,
            .persist "user" "1" [4] "../client",
            .process Trial.factory (Trial.ad "client" [("1", "proxy", "class")]),
            .writeFile ⟨⟨"users/t"⟩, [5]⟩] ∧
        after.tree.node? ["users", "t.old"] = some (.file ⟨privateMode, [2]⟩) ∧
        IsPrivateIn after.userFolders after.tree ∧ IsPrivateIn after.foldersWithin after.tree := by
  refine ⟨isPrivateIn_leftoverStore _, isPrivateIn_leftoverStore _, _, rfl, ?_, ?_, ?_⟩
  · decide +kernel
  · exact (private_performAll _ _).1 (isPrivateIn_leftoverStore _)
  · exact (private_performAll _ _).2 (isPrivateIn_leftoverStore _)

end CredentialIntake.Intake
