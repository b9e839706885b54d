import CredentialIntake.Proofs.Interruptions
import CredentialIntake.Proofs.Warnings

/-!
# Writing files that are not there yet

Two trees can differ in nothing but what some of their files hold.  No path is
followed differently in them, and a file that is there in neither is made in both
or in neither of them, whatever is to be written.  So two runs of writes to such
files, with different contents, end alike.
-/

namespace CredentialIntake.FileTree

/-! ## Trees that differ in contents -/

/-- The trees have the same directories and the same files with the same modes, and
outside of the places the files hold the same. -/
def EqualButContents (places : Set Location) (left right : FileTree) : Prop :=
  ∀ place : Location, left.nodes[place]? = right.nodes[place]? ∨
    place ∈ places ∧ ∃ mode content other,
      left.nodes[place]? = some (.file ⟨mode, content⟩) ∧
        right.nodes[place]? = some (.file ⟨mode, other⟩)

namespace EqualButContents

variable {places : Set Location} {left right : FileTree}

theorem refl (places : Set Location) (tree : FileTree) : EqualButContents places tree tree :=
  fun _ => Or.inl rfl

/-- Files of one mode can be put at one of the places. -/
theorem insert (hequal : EqualButContents places left right) {place : Location}
    (hplace : place ∈ places) (mode : Nat) (content other : Bytes) :
    EqualButContents places (left.insert place (.file ⟨mode, content⟩))
      (right.insert place (.file ⟨mode, other⟩)) := by
  intro location
  rw [nodes_insert, nodes_insert]
  by_cases heq : place = location
  · subst heq
    rw [if_pos rfl, if_pos rfl]
    exact Or.inr ⟨hplace, mode, content, other, rfl, rfl⟩
  · rw [if_neg heq, if_neg heq]
    exact hequal location

/-- What is at a place is the same, or a file in both trees. -/
theorem node?_cases (hequal : EqualButContents places left right) (place : Location) :
    left.node? place = right.node? place ∨
      ∃ file other, left.node? place = some (.file file) ∧
        right.node? place = some (.file other) := by
  rw [node?, node?]
  split
  · exact Or.inl rfl
  · rcases hequal place with hsame | ⟨-, mode, content, other, hleft, hright⟩
    · exact Or.inl hsame
    · exact Or.inr ⟨_, _, hleft, hright⟩

theorem node?_eq_none (hequal : EqualButContents places left right) {place : Location}
    (hfree : left.node? place = none) : right.node? place = none := by
  rcases hequal.node?_cases place with hsame | ⟨file, other, hleft, -⟩
  · rw [← hsame, hfree]
  · rw [hleft] at hfree
    cases hfree

theorem sameFolders (hequal : EqualButContents places left right) : SameFolders left right := by
  intro place
  rcases hequal.node?_cases place with hsame | ⟨file, other, hleft, hright⟩
  · rw [hsame]
  · simp [hleft, hright]

private theorem follow_eq (hequal : EqualButContents places left right) (place : Location)
    (names : List String) : left.follow place names = right.follow place names := by
  induction names generalizing place with
  | nil => rfl
  | cons name rest ih =>
      rw [follow, follow, ih, ih]
      rcases hequal.node?_cases (place ++ [name]) with hsame | ⟨file, other, hleft, hright⟩
      · rw [hsame, ih]
      · rw [hleft, hright]

theorem resolve_eq (hequal : EqualButContents places left right) (path : Path) :
    left.resolve path = right.resolve path := by
  rw [resolve, resolve, hequal.follow_eq]

/-- What is there in neither tree is missing for the same reason. -/
theorem stat_eq_error (hequal : EqualButContents places left right) {path : Path}
    {fault : FileFault} (habsent : left.stat path = .error fault) :
    right.stat path = .error fault := by
  rw [stat] at habsent ⊢
  rw [← hequal.resolve_eq]
  cases hresolve : left.resolve path with
  | error cause =>
      rw [hresolve] at habsent
      exact habsent
  | ok found =>
      rw [hresolve] at habsent
      cases found with
      | folder place => cases habsent
      | entry folder name =>
          simp only at habsent ⊢
          rcases hequal.node?_cases (folder ++ [name]) with hsame | ⟨file, other, hleft, hright⟩
          · rwa [← hsame]
          · rw [hleft] at habsent
            rw [hright]
            simp only at habsent ⊢
            split at habsent
            next hslash => rwa [if_pos hslash]
            · cases habsent

theorem create_eq_error (hequal : EqualButContents places left right) {path : Path} {mode : Nat}
    {fault : FileFault} (habsent : left.stat path = .error .notFound)
    (hcreate : left.create path mode = .error fault) : right.create path mode = .error fault := by
  rw [create] at hcreate ⊢
  rw [stat] at habsent
  rw [← hequal.resolve_eq]
  cases hresolve : left.resolve path with
  | error cause =>
      rw [hresolve] at hcreate
      exact hcreate
  | ok found =>
      rw [hresolve] at hcreate habsent
      cases found with
      | folder place => exact hcreate
      | entry folder name =>
          simp only at hcreate habsent ⊢
          split at hcreate
          next hslash => rwa [if_pos hslash]
          next hslash =>
            cases hnode : left.node? (folder ++ [name]) with
            | none =>
                rw [hnode] at hcreate
                cases hcreate
            | some node =>
                -- a path without a slash at its end finds whatever is there
                rw [hnode] at habsent
                cases node <;> simp [hslash] at habsent

end EqualButContents

/-! ## Paths that nothing is at -/

/-- Nothing is at any of the paths, and no two of them lead to one place. -/
structure Fresh (tree : FileTree) (paths : List Path) : Prop where
  absent : ∀ path ∈ paths, tree.contains path = false
  apart : paths.Pairwise fun left right =>
    ∀ place, tree.target? left = some place → tree.target? right ≠ some place

variable {tree : FileTree} {path : Path} {paths : List Path}

theorem exists_stat_eq_error (habsent : tree.contains path = false) :
    ∃ fault, tree.stat path = .error fault := by
  rw [contains] at habsent
  cases hstat : tree.stat path with
  | error fault => exact ⟨fault, rfl⟩
  | ok node =>
      rw [hstat] at habsent
      cases habsent

/-- A file made elsewhere is not found at the path. -/
theorem contains_insert_eq_false {place : Location} (hfree : tree.node? place = none)
    (habsent : tree.contains path = false) (hapart : tree.target? path ≠ some place)
    (file : File) : (tree.insert place (.file file)).contains path = false := by
  have hnode : tree.node? place ≠ some .directory := by simp [hfree]
  have hsame := (agreesOutside_insert hnode file).folders
  obtain ⟨fault, hstat⟩ := exists_stat_eq_error habsent
  rw [contains, stat]
  cases hresolve : (tree.insert place (.file file)).resolve path with
  | error cause => rfl
  | ok found =>
      have hbefore := hsame.resolve_eq_ok_iff.1 hresolve
      rw [stat, hbefore] at hstat
      cases found with
      | folder location => cases hstat
      | entry folder name =>
          have hne : place ≠ folder ++ [name] := by
            rintro rfl
            exact hapart (target?_eq_some_iff.2 ⟨folder, name, hbefore, rfl⟩)
          simp only at hstat ⊢
          rw [node?_insert hnode, if_neg hne, hstat]
          rfl

theorem Fresh.tail_of_insert (hfresh : Fresh tree (path :: paths)) {place : Location}
    (hleads : LeadsTo tree path place) (hfree : tree.node? place = none) (file : File) :
    Fresh (tree.insert place (.file file)) paths := by
  have hnode : tree.node? place ≠ some .directory := by simp [hfree]
  have hsame := (agreesOutside_insert hnode file).folders
  obtain ⟨hfirst, hrest⟩ := List.pairwise_cons.1 hfresh.apart
  constructor
  · intro other hother
    have habsent := hfresh.absent other (List.mem_cons_of_mem path hother)
    exact contains_insert_eq_false hfree habsent (hfirst other hother place hleads.target) file
  · simp only [hsame.target?_eq]
    exact hrest

end CredentialIntake.FileTree

namespace CredentialIntake.Store

open FileTree

/-! ## Writing to them -/

section Absent

variable {tree : FileTree} {path : Path}

/-- Where nothing can be read, a write fails without a change or makes the file. -/
private theorem WriteEffect.cases_of_absent {after : FileTree} {content : Bytes}
    {result : Except IntakeError WriteOutcome} {fault : FileFault}
    (heffect : WriteEffect tree path content result after)
    (hread : tree.read path = .error fault) :
    (fault ≠ .notFound ∧ result = .error (.io path fault) ∧ after = tree) ∨
      (∃ cause, tree.create path privateMode = .error cause ∧ fault = .notFound ∧
        result = .error (.io path cause) ∧ after = tree) ∨
      ∃ place, LeadsTo tree path place ∧ tree.node? place = none ∧ fault = .notFound ∧
        result = .ok .created ∧ after = tree.insert place (.file ⟨privateMode, content⟩) := by
  have hnone : ∀ file, tree.read path ≠ .ok file := by
    intro file hfile
    rw [hread] at hfile
    cases hfile
  cases heffect with
  | unreadable hsame hfault =>
      obtain rfl := Except.error.inj (hread.symm.trans hsame)
      exact Or.inl ⟨hfault, rfl, rfl⟩
  | uncreatable hmissing hcreate =>
      obtain rfl := Except.error.inj (hread.symm.trans hmissing)
      exact Or.inr (Or.inl ⟨_, hcreate, rfl, rfl, rfl⟩)
  | created hleads hfree =>
      rw [read_of_leadsTo hleads, hfree] at hread
      cases hread
      exact Or.inr (Or.inr ⟨_, hleads, hfree, rfl, rfl, rfl⟩)
  | unchanged hfile => exact absurd hfile (hnone _)
  | unstaged _ hfile => exact absurd hfile (hnone _)
  | replaced _ hfile => exact absurd hfile (hnone _)

/-- A path that cannot even be looked at is not written to. -/
private theorem atomicWrite_of_unreadable {fault : FileFault} (content : Bytes)
    (hread : tree.read path = .error fault) (hfault : fault ≠ .notFound) :
    atomicWrite path content tree = (.error (.io path fault), tree) := by
  rcases (atomicWrite_effect tree path content).cases_of_absent hread with
    ⟨-, hresult, hafter⟩ | ⟨_, -, hmissing, -⟩ | ⟨_, -, -, hmissing, -⟩
  · exact Prod.ext hresult hafter
  · exact absurd hmissing hfault
  · exact absurd hmissing hfault

private theorem atomicWrite_of_uncreatable {fault : FileFault} (content : Bytes)
    (hread : tree.read path = .error .notFound)
    (hcreate : tree.create path privateMode = .error fault) :
    atomicWrite path content tree = (.error (.io path fault), tree) := by
  rcases (atomicWrite_effect tree path content).cases_of_absent hread with
    ⟨hfault, -⟩ | ⟨_, hsame, -, hresult, hafter⟩ | ⟨_, hleads, hfree, -⟩
  · exact absurd rfl hfault
  · obtain rfl := Except.error.inj (hcreate.symm.trans hsame)
    exact Prod.ext hresult hafter
  · rw [create_of_leadsTo hleads, hfree] at hcreate
    cases hcreate

private theorem atomicWrite_of_free {place : Location} (content : Bytes)
    (hleads : LeadsTo tree path place) (hfree : tree.node? place = none) :
    atomicWrite path content tree =
      (.ok .created, tree.insert place (.file ⟨privateMode, content⟩)) := by
  have hread : tree.read path = .error .notFound := by rw [read_of_leadsTo hleads, hfree]
  rcases (atomicWrite_effect tree path content).cases_of_absent hread with
    ⟨hfault, -⟩ | ⟨_, hcreate, -⟩ | ⟨_, hother, -, -, hresult, hafter⟩
  · exact absurd rfl hfault
  · rw [create_of_leadsTo hleads, hfree] at hcreate
    cases hcreate
  · obtain rfl := hother.unique hleads
    exact Prod.ext hresult hafter

end Absent

/-- Two writes to one path in two trees fail in the same way and change nothing, or
both make the file. -/
inductive WritesAlike (left right : FileTree) (path : Path) (content other : Bytes) :
    Except IntakeError WriteOutcome × FileTree → Except IntakeError WriteOutcome × FileTree →
      Prop where
  | refused (fault : FileFault) :
      WritesAlike left right path content other
        (.error (.io path fault), left) (.error (.io path fault), right)
  | created {place : Location} :
      LeadsTo left path place → left.node? place = none →
      WritesAlike left right path content other
        (.ok .created, left.insert place (.file ⟨privateMode, content⟩))
        (.ok .created, right.insert place (.file ⟨privateMode, other⟩))

/-- Whether a file can be made does not depend on what other files hold, nor on
what is to be written. -/
theorem writesAlike {places : Set Location} {left right : FileTree} {path : Path}
    (hequal : EqualButContents places left right) (habsent : left.contains path = false)
    (content other : Bytes) :
    WritesAlike left right path content other (atomicWrite path content left)
      (atomicWrite path other right) := by
  obtain ⟨fault, hstat⟩ := exists_stat_eq_error habsent
  have hstatRight := hequal.stat_eq_error hstat
  have hread : left.read path = .error fault := by rw [FileTree.read, hstat]
  have hreadRight : right.read path = .error fault := by rw [FileTree.read, hstatRight]
  by_cases hfault : fault = .notFound
  · subst hfault
    cases hcreate : left.create path privateMode with
    | error cause =>
        have hcreateRight := hequal.create_eq_error hstat hcreate
        rw [atomicWrite_of_uncreatable content hread hcreate,
          atomicWrite_of_uncreatable other hreadRight hcreateRight]
        exact .refused cause
    | ok opened =>
        obtain ⟨place, hleads⟩ := leadsTo_of_create_eq_ok hcreate
        have hfree := node?_eq_none_of_read hread hleads
        rw [atomicWrite_of_free content hleads hfree,
          atomicWrite_of_free other (hleads.congr hequal.sameFolders)
            (hequal.node?_eq_none hfree)]
        exact .created hleads hfree
  · rw [atomicWrite_of_unreadable content hread hfault,
      atomicWrite_of_unreadable other hreadRight hfault]
    exact .refused fault

/-! ## Runs of writes -/

/-- The stores have counted and reported the same, and their trees differ in contents
only. -/
structure EqualButContents (places : Set Location) (left right : Store) : Prop where
  tree : FileTree.EqualButContents places left.tree right.tree
  counters : left.counters = right.counters
  log : left.log = right.log

/-- Only a replacement without a copy is reported. -/
private theorem log_writeFile {store : Store} {write : FileWrite}
    (hplain : (store.writeFile write).1 ≠ .ok (.replaced false)) :
    (store.writeFile write).2.log = store.log := by
  rw [log_writeFile_eq, warning?_eq_none hplain]
  exact List.append_nil _

private theorem tree_writeFile (store : Store) (write : FileWrite) :
    (store.writeFile write).2.tree = (atomicWrite write.path write.content store.tree).2 :=
  congrArg Holdings.tree (store.holdings_writeFile write)

variable {places : Set Location} {left right : Store}

/-- Two writes to a path that nothing is at end alike. -/
private theorem EqualButContents.writeFile {path : Path}
    (hequal : EqualButContents places left right) (habsent : left.tree.contains path = false)
    (hplaces : ∀ place, left.tree.target? path = some place → place ∈ places)
    (content other : Bytes) :
    (left.writeFile ⟨path, content⟩).1 = (right.writeFile ⟨path, other⟩).1 ∧
      EqualButContents places (left.writeFile ⟨path, content⟩).2
        (right.writeFile ⟨path, other⟩).2 := by
  have halike := writesAlike hequal.tree habsent content other
  have hresult : (left.writeFile ⟨path, content⟩).1 = (right.writeFile ⟨path, other⟩).1 ∧
      (left.writeFile ⟨path, content⟩).1 ≠ .ok (.replaced false) ∧
      FileTree.EqualButContents places (left.writeFile ⟨path, content⟩).2.tree
        (right.writeFile ⟨path, other⟩).2.tree := by
    rw [fst_writeFile, fst_writeFile, tree_writeFile, tree_writeFile]
    generalize atomicWrite path content left.tree = leftEnding at halike ⊢
    generalize atomicWrite path other right.tree = rightEnding at halike ⊢
    cases halike with
    | refused fault => exact ⟨rfl, by simp, hequal.tree⟩
    | created hleads hfree =>
        exact ⟨rfl, by simp, hequal.tree.insert (hplaces _ hleads.target) privateMode _ _⟩
  obtain ⟨hsame, hplain, htree⟩ := hresult
  refine ⟨hsame, htree, ?_, ?_⟩
  · rw [counters_writeFile, counters_writeFile, hequal.counters, hsame]
  · rw [log_writeFile hplain, log_writeFile (hsame ▸ hplain), hequal.log]

/-- Making one of the files leaves the others to be made. -/
private theorem fresh_writeFile {write : FileWrite} {paths : List Path} {outcome : WriteOutcome}
    (hfresh : Fresh left.tree (write.path :: paths))
    (hdone : (left.writeFile write).1 = .ok outcome) :
    Fresh (left.writeFile write).2.tree paths := by
  obtain ⟨fault, hstat⟩ := exists_stat_eq_error (hfresh.absent _ List.mem_cons_self)
  have hread : left.tree.read write.path = .error fault := by rw [FileTree.read, hstat]
  have heffect := left.writeFile_effect write
  rw [hdone] at heffect
  rcases heffect.cases_of_absent hread with
    ⟨-, hresult, -⟩ | ⟨_, -, -, hresult, -⟩ | ⟨place, hleads, hfree, -, -, hafter⟩
  · cases hresult
  · cases hresult
  · rw [hafter]
    exact hfresh.tail_of_insert hleads hfree _

/-- Two runs of writes to files that are not there end alike, whatever is written. -/
theorem EqualButContents.writeAll {writes others : List FileWrite}
    (hequal : EqualButContents places left right)
    (hpaths : writes.map (·.path) = others.map (·.path))
    (hfresh : Fresh left.tree (writes.map (·.path)))
    (hplaces : ∀ write ∈ writes, ∀ place,
      left.tree.target? write.path = some place → place ∈ places) :
    (left.writeAll writes).1 = (right.writeAll others).1 ∧
      EqualButContents places (left.writeAll writes).2 (right.writeAll others).2 := by
  induction writes generalizing others left right with
  | nil =>
      obtain rfl : others = [] := List.map_eq_nil_iff.1 hpaths.symm
      exact ⟨rfl, hequal⟩
  | cons write rest ih =>
      obtain ⟨other, remaining, rfl, hpath, hremaining⟩ := List.map_eq_cons_iff.1 hpaths.symm
      obtain ⟨path, content⟩ := write
      obtain ⟨otherPath, bytes⟩ := other
      obtain rfl : otherPath = path := hpath
      obtain ⟨hsame, hafter⟩ := hequal.writeFile (hfresh.absent _ List.mem_cons_self)
        (hplaces _ List.mem_cons_self) content bytes
      cases hfirst : (left.writeFile ⟨otherPath, content⟩).1 with
      | error error =>
          rw [writeAll_cons_error hfirst, writeAll_cons_error (hsame ▸ hfirst)]
          exact ⟨rfl, hafter⟩
      | ok outcome =>
          rw [writeAll_cons_ok hfirst, writeAll_cons_ok (hsame ▸ hfirst)]
          apply ih hafter hremaining.symm (fresh_writeFile hfresh hfirst)
          intro later hlater place hplace
          have hfolders := (left.writeFile_effect ⟨otherPath, content⟩).agreesOutside.folders
          rw [hfolders.target?_eq] at hplace
          exact hplaces later (List.mem_cons_of_mem _ hlater) place hplace

end CredentialIntake.Store
