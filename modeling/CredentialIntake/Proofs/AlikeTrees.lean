import CredentialIntake.Proofs.FileSteps

/-!
# Trees that are alike in a folder

A program that works on a few names of one folder cannot tell two trees apart
that agree about the folder and these names: it ends with the same result, and
the trees it leaves agree again.
-/

namespace CredentialIntake

open CredentialIntake.Path

namespace FileTree

/-- The trees agree about where the folder is, and about what stands in it under
the names. -/
structure AlikeIn (folder : Path) (names : Set String) (left right : FileTree) : Prop where
  folders : left.folderAt folder = right.folderAt folder
  entries : ∀ location, right.folderAt folder = .ok location → ∀ name ∈ names,
    left.node? (location ++ [name]) = right.node? (location ++ [name])

/-- The paths of the names in the folder. -/
def pathsIn (folder : Path) (names : Set String) : Set Path :=
  {path | ∃ name ∈ names, IsPlainName name ∧ path = folder.join name}

end FileTree

/-- The paths a step works on. -/
def FileChange.paths : FileChange → List Path
  | .create path _ => [path]
  | .append path _ => [path]
  | .sync path => [path]
  | .setMode path _ => [path]
  | .remove path => [path]
  | .rename source target => [source, target]

namespace FileTree

/-- Two attempts at a step end alike, and if they succeed, in trees that are
alike again. -/
inductive StepsAlike (folder : Path) (names : Set String) :
    Except FileFault FileTree → Except FileFault FileTree → Prop where
  | ok {left right : FileTree} :
      AlikeIn folder names left right → StepsAlike folder names (.ok left) (.ok right)
  | error (fault : FileFault) : StepsAlike folder names (.error fault) (.error fault)

namespace AlikeIn

variable {folder : Path} {names : Set String} {left right : FileTree} {path : Path}

/-! ## Looking -/

theorem resolve_eq (halike : AlikeIn folder names left right) (hpath : path ∈ pathsIn folder names) :
    left.resolve path = right.resolve path := by
  obtain ⟨name, -, hplain, rfl⟩ := hpath
  by_cases hnul : '\x00' ∈ name.toList
  · have hjoin : '\x00' ∈ (folder.join name).text.toList :=
      (nul_mem_text_join hplain).2 (Or.inr hnul)
    rw [resolve, resolve, if_pos hjoin, if_pos hjoin]
  · rw [resolve_join left hplain hnul, resolve_join right hplain hnul, halike.folders]

/-- What a path of the folder leads to is an entry the trees agree about. -/
theorem node?_eq (halike : AlikeIn folder names left right) (hpath : path ∈ pathsIn folder names)
    {location : Location} {other : String}
    (hresolve : right.resolve path = .ok (.entry location other)) :
    right.folderAt folder = .ok location ∧
      left.node? (location ++ [other]) = right.node? (location ++ [other]) := by
  obtain ⟨name, hname, hplain, rfl⟩ := hpath
  obtain ⟨hfolder, rfl, -⟩ := (resolve_join_eq_entry_iff hplain).1 hresolve
  exact ⟨hfolder, halike.entries location hfolder other hname⟩

theorem locate_eq (halike : AlikeIn folder names left right)
    (hpath : path ∈ pathsIn folder names) : left.locate path = right.locate path := by
  rw [locate, locate, halike.resolve_eq hpath]
  cases hresolve : right.resolve path with
  | error fault => rfl
  | ok found =>
      cases found with
      | folder location => rfl
      | entry location name =>
          simp only
          rw [(halike.node?_eq hpath hresolve).2]

theorem read_eq (halike : AlikeIn folder names left right)
    (hpath : path ∈ pathsIn folder names) : left.read path = right.read path := by
  rw [FileTree.read, FileTree.read, stat, stat, halike.resolve_eq hpath]
  cases hresolve : right.resolve path with
  | error fault => rfl
  | ok found =>
      cases found with
      | folder location => rfl
      | entry location name =>
          simp only
          rw [(halike.node?_eq hpath hresolve).2]

/-! ## Changing -/

/-- Trees that keep their folders are alike again if they agree about the names. -/
private theorem of_sameFolders (halike : AlikeIn folder names left right) {location : Location}
    (hfolder : right.folderAt folder = .ok location) {nextLeft nextRight : FileTree}
    (hleft : SameFolders left nextLeft) (hright : SameFolders right nextRight)
    (hentries : ∀ name ∈ names,
      nextLeft.node? (location ++ [name]) = nextRight.node? (location ++ [name])) :
    AlikeIn folder names nextLeft nextRight := by
  have hfolderLeft := hleft.folderAt_eq_ok_iff.2 (halike.folders.trans hfolder)
  have hfolderRight := hright.folderAt_eq_ok_iff.2 hfolder
  refine ⟨hfolderLeft.trans hfolderRight.symm, ?_⟩
  intro other hother name hname
  obtain rfl := Except.ok.inj (hfolderRight.symm.trans hother)
  exact hentries name hname

theorem insert (halike : AlikeIn folder names left right) {location : Location} {name : String}
    (hfolder : right.folderAt folder = .ok location)
    (hleft : left.node? (location ++ [name]) ≠ some .directory)
    (hright : right.node? (location ++ [name]) ≠ some .directory) (file : File) :
    AlikeIn folder names (left.insert (location ++ [name]) (.file file))
      (right.insert (location ++ [name]) (.file file)) := by
  apply halike.of_sameFolders hfolder (agreesOutside_insert hleft file).folders
    (agreesOutside_insert hright file).folders
  intro entry hentry
  rw [node?_insert hleft, node?_insert hright, halike.entries location hfolder entry hentry]

theorem erase (halike : AlikeIn folder names left right) {location : Location} {name : String}
    (hfolder : right.folderAt folder = .ok location)
    (hleft : left.node? (location ++ [name]) ≠ some .directory)
    (hright : right.node? (location ++ [name]) ≠ some .directory) :
    AlikeIn folder names (left.erase (location ++ [name])) (right.erase (location ++ [name])) := by
  apply halike.of_sameFolders hfolder (agreesOutside_erase hleft).folders
    (agreesOutside_erase hright).folders
  intro entry hentry
  rw [node?_erase hleft, node?_erase hright, halike.entries location hfolder entry hentry]

theorem create (halike : AlikeIn folder names left right) (hpath : path ∈ pathsIn folder names)
    (mode : Nat) : StepsAlike folder names (left.create path mode) (right.create path mode) := by
  rw [FileTree.create, FileTree.create, halike.resolve_eq hpath]
  cases hresolve : right.resolve path with
  | error fault => exact .error fault
  | ok found =>
      cases found with
      | folder location => exact .error .isDirectory
      | entry location name =>
          obtain ⟨hfolder, hnode⟩ := halike.node?_eq hpath hresolve
          simp only [hnode]
          split
          · exact .error .isDirectory
          · cases hright : right.node? (location ++ [name]) with
            | none =>
                exact .ok (halike.insert hfolder (by simp [hnode, hright]) (by simp [hright]) _)
            | some node =>
                cases node with
                | directory => exact .error .isDirectory
                | file file =>
                    simp only
                    split
                    · exact .ok (halike.insert hfolder (by simp [hnode, hright])
                        (by simp [hright]) _)
                    · exact .error .permissionDenied

/-- What is found at a path of the folder is a file that both trees have. -/
private theorem of_locate (halike : AlikeIn folder names left right)
    (hpath : path ∈ pathsIn folder names) {place : Location} {file : File}
    (hlocate : right.locate path = .ok (place, file)) :
    ∃ location name, place = location ++ [name] ∧ right.folderAt folder = .ok location ∧
      left.node? place = some (.file file) ∧ right.node? place = some (.file file) := by
  obtain ⟨hleads, hnode⟩ := locate_eq_ok_iff_leadsTo.1 hlocate
  obtain ⟨location, name, hresolve, rfl⟩ := target?_eq_some_iff.1 hleads.target
  obtain ⟨hfolder, hsame⟩ := halike.node?_eq hpath hresolve
  exact ⟨location, name, rfl, hfolder, hsame.trans hnode, hnode⟩

theorem modify (halike : AlikeIn folder names left right) (hpath : path ∈ pathsIn folder names)
    (change : File → File) :
    StepsAlike folder names (left.modify path change) (right.modify path change) := by
  rw [FileTree.modify, FileTree.modify, halike.locate_eq hpath]
  cases hlocate : right.locate path with
  | error fault => exact .error fault
  | ok found =>
      obtain ⟨location, name, hplace, hfolder, hleft, hright⟩ := halike.of_locate hpath hlocate
      rw [hplace] at hleft hright
      simp only [Except.map, hplace]
      exact .ok (halike.insert hfolder (by simp [hleft]) (by simp [hright]) _)

theorem remove (halike : AlikeIn folder names left right)
    (hpath : path ∈ pathsIn folder names) :
    StepsAlike folder names (left.remove path) (right.remove path) := by
  rw [FileTree.remove, FileTree.remove, halike.locate_eq hpath]
  cases hlocate : right.locate path with
  | error fault => exact .error fault
  | ok found =>
      obtain ⟨location, name, hplace, hfolder, hleft, hright⟩ := halike.of_locate hpath hlocate
      rw [hplace] at hleft hright
      simp only [Except.map, hplace]
      exact .ok (halike.erase hfolder (by simp [hleft]) (by simp [hright]))

theorem rename {source target : Path} (halike : AlikeIn folder names left right)
    (hsource : source ∈ pathsIn folder names) (htarget : target ∈ pathsIn folder names) :
    StepsAlike folder names (left.rename source target) (right.rename source target) := by
  rw [FileTree.rename, FileTree.rename, halike.locate_eq hsource, halike.resolve_eq htarget]
  cases hlocate : right.locate source with
  | error fault => exact .error fault
  | ok found =>
      obtain ⟨location, name, hplace, hfolder, hleft, hright⟩ := halike.of_locate hsource hlocate
      cases hresolve : right.resolve target with
      | error fault => exact .error fault
      | ok place =>
          cases place with
          | folder final => exact .error .isDirectory
          | entry final last =>
              obtain ⟨hfinal, hnode⟩ := halike.node?_eq htarget hresolve
              obtain rfl := Except.ok.inj (hfolder.symm.trans hfinal)
              have hleft : left.node? (location ++ [name]) ≠ some .directory := by
                simp [← hplace, hleft]
              have hright : right.node? (location ++ [name]) ≠ some .directory := by
                simp [← hplace, hright]
              simp only [hnode, hplace]
              by_cases hdirectory : right.node? (location ++ [last]) = some .directory
              · simp only [hdirectory]
                exact .error .isDirectory
              have herased := halike.erase hfolder hleft hright
              have hkeeps := (agreesOutside_erase hright).folders
              have hmoved := herased.insert (hkeeps.folderAt_eq_ok_iff.2 hfolder)
                (fun hnew => hdirectory
                  (hnode ▸ ((agreesOutside_erase hleft).folders (location ++ [last])).1 hnew))
                (fun hnew => hdirectory ((hkeeps (location ++ [last])).1 hnew)) found.2
              split
              next hnew => exact absurd hnew hdirectory
              · split
                · exact .error .notDirectory
                · exact .ok hmoved

theorem apply (halike : AlikeIn folder names left right) {step : FileChange}
    (hstep : ∀ path ∈ step.paths, path ∈ pathsIn folder names) :
    StepsAlike folder names (step.apply left) (step.apply right) := by
  cases step with
  | create path mode => exact halike.create (hstep path (by simp [FileChange.paths])) mode
  | append path piece =>
      rw [FileChange.apply, FileChange.apply]
      exact halike.modify (hstep path (by simp [FileChange.paths])) _
  | setMode path mode =>
      rw [FileChange.apply, FileChange.apply]
      exact halike.modify (hstep path (by simp [FileChange.paths])) _
  | remove path => exact halike.remove (hstep path (by simp [FileChange.paths]))
  | rename source target =>
      exact halike.rename (hstep source (by simp [FileChange.paths]))
        (hstep target (by simp [FileChange.paths]))
  | sync path =>
      rw [FileChange.apply, FileChange.apply,
        halike.locate_eq (hstep path (by simp [FileChange.paths]))]
      cases right.locate path with
      | error fault => exact .error fault
      | ok found => exact .ok halike

end AlikeIn

end FileTree

/-! ## Programs on a few paths -/

namespace FileProgram

open FileTree

/-- The program reads and changes files at the paths only. -/
def Within (paths : Set Path) {α : Type} : FileProgram α → Prop
  | .done _ => True
  | .read path next => path ∈ paths ∧ ∀ found, Within paths (next found)
  | .change step next =>
    (∀ path ∈ step.paths, path ∈ paths) ∧ ∀ outcome, Within paths (next outcome)

section Within

variable {paths : Set Path} {α β : Type}

theorem within_pure (result : α) : (pure result : FileProgram α).Within paths := trivial

theorem within_bind {program : FileProgram α} {next : α → FileProgram β}
    (hprogram : program.Within paths) (hnext : ∀ result, (next result).Within paths) :
    (program >>= next).Within paths := by
  change (program.bind next).Within paths
  induction program with
  | done result => exact hnext result
  | read path continuation ih => exact ⟨hprogram.1, fun found => ih found (hprogram.2 found)⟩
  | change step continuation ih =>
      exact ⟨hprogram.1, fun outcome => ih outcome (hprogram.2 outcome)⟩

theorem within_readFile {path : Path} (hpath : path ∈ paths) : (readFile path).Within paths :=
  ⟨hpath, fun _ => trivial⟩

theorem within_attempt {step : FileChange} (hstep : ∀ path ∈ step.paths, path ∈ paths) :
    (attempt step).Within paths := ⟨hstep, fun _ => trivial⟩

theorem within_appendAll {path : Path} (hpath : path ∈ paths) (pieces : List Bytes) :
    (appendAll path pieces).Within paths := by
  induction pieces with
  | nil => trivial
  | cons piece rest ih =>
      apply within_bind (within_attempt (by simpa [FileChange.paths] using hpath))
      rintro (fault | done)
      · exact within_pure _
      · exact ih

theorem within_write (pieces : Pieces) {path : Path} (hpath : path ∈ paths) (mode : Nat)
    (content : Bytes) : (write pieces path mode content).Within paths := by
  apply within_bind (within_attempt (by simpa [FileChange.paths] using hpath))
  rintro (fault | done)
  · exact within_pure _
  · apply within_bind (within_appendAll hpath _)
    rintro (fault | done)
    · exact within_pure _
    · exact within_attempt (by simpa [FileChange.paths] using hpath)

theorem within_copy (pieces : Pieces) {source target : Path} (hsource : source ∈ paths)
    (htarget : target ∈ paths) : (copy pieces source target).Within paths := by
  apply within_bind (within_readFile hsource)
  rintro (fault | file)
  · exact within_pure _
  · apply within_bind (within_attempt (by simpa [FileChange.paths] using htarget))
    rintro (fault | done)
    · exact within_pure _
    · apply within_bind (within_appendAll htarget _)
      rintro (fault | done)
      · exact within_pure _
      · exact within_attempt (by simpa [FileChange.paths] using htarget)

end Within

/-- On trees that are alike a program ends alike. -/
theorem run_alike {α : Type} {program : FileProgram α} {folder : Path} {names : Set String}
    (hwithin : program.Within (pathsIn folder names)) {left right : FileTree}
    (halike : AlikeIn folder names left right) :
    (program.run left).1 = (program.run right).1 ∧
      AlikeIn folder names (program.run left).2 (program.run right).2 := by
  induction program generalizing left right with
  | done result => exact ⟨rfl, halike⟩
  | read path next ih =>
      rw [run, run, halike.read_eq hwithin.1]
      exact ih _ (hwithin.2 _) halike
  | change step next ih =>
      have hsteps := halike.apply hwithin.1
      rw [run, run]
      generalize step.apply left = first, step.apply right = second at hsteps ⊢
      cases hsteps with
      | ok hchanged => exact ih _ (hwithin.2 _) hchanged
      | error fault => exact ih _ (hwithin.2 _) halike

end FileProgram

end CredentialIntake
