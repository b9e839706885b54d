import CredentialIntake.Proofs.AlikeTrees

/-!
# Programs stopped on their way

Whoever looks at the files while a program runs, or after it was stopped, finds
one of the trees the program passes through.  A program made of two others
passes through the trees of the first and then through those of the second.  No
step changes anything but files at the paths it works on, and therefore neither
does a program at any point of its way.
-/

namespace CredentialIntake

namespace FileTree

/-- The locations that paths lead to. -/
def placesAt (tree : FileTree) (paths : Set Path) : Set Location :=
  {place | ∃ path ∈ paths, tree.target? path = some place}

theorem placesAt_congr {before after : FileTree} (hsame : SameFolders before after)
    (paths : Set Path) : after.placesAt paths = before.placesAt paths := by
  simp only [placesAt, hsame.target?_eq]

theorem placesAt_mono (tree : FileTree) {paths more : Set Path} (hpaths : paths ⊆ more) :
    tree.placesAt paths ⊆ tree.placesAt more := by
  rintro place ⟨path, hpath, htarget⟩
  exact ⟨path, hpaths hpath, htarget⟩

end FileTree

open FileTree

/-! ## One step -/

namespace FileChange

variable {tree changed : FileTree}

private theorem agreesOutside_of_create {path : Path} {mode : Nat}
    (hcreate : tree.create path mode = .ok changed) :
    AgreesOutside (tree.placesAt {path}) tree changed := by
  obtain ⟨place, hleads⟩ := leadsTo_of_create_eq_ok hcreate
  have hplace : {place} ⊆ tree.placesAt {path} :=
    Set.singleton_subset_iff.2 ⟨path, rfl, hleads.target⟩
  rw [create_of_leadsTo hleads] at hcreate
  split at hcreate
  · cases hcreate
  next file hnode =>
    split at hcreate
    · cases hcreate
      exact (agreesOutside_insert (by simp [hnode]) _).mono hplace
    · cases hcreate
  next hnode =>
    cases hcreate
    exact (agreesOutside_insert (by simp [hnode]) _).mono hplace

/-- The file at a path is the one file there that can be changed or removed. -/
private theorem exists_of_map_locate {path : Path} {change : Location × File → FileTree}
    (hchange : (tree.locate path).map change = .ok changed) :
    ∃ place file, place ∈ tree.placesAt {path} ∧ tree.locate path = .ok (place, file) ∧
      tree.node? place ≠ some .directory ∧ changed = change (place, file) := by
  cases hlocate : tree.locate path with
  | error fault =>
      rw [hlocate] at hchange
      cases hchange
  | ok found =>
      rw [hlocate] at hchange
      obtain ⟨hleads, hnode⟩ := locate_eq_ok_iff_leadsTo.1 hlocate
      exact ⟨found.1, found.2, ⟨path, rfl, hleads.target⟩, rfl, by simp [hnode],
        (Except.ok.inj hchange).symm⟩

private theorem agreesOutside_of_rename {source target : Path}
    (hrename : tree.rename source target = .ok changed) :
    AgreesOutside (tree.placesAt {source, target}) tree changed := by
  rw [FileTree.rename] at hrename
  split at hrename
  · cases hrename
  next place file hlocate =>
    obtain ⟨hleads, hnode⟩ := locate_eq_ok_iff_leadsTo.1 hlocate
    have herased := agreesOutside_erase (show tree.node? place ≠ some .directory by simp [hnode])
    split at hrename
    · cases hrename
    · cases hrename
    next folder name hresolve =>
      split at hrename
      · cases hrename
      next hfree =>
        split at hrename
        · cases hrename
        cases hrename
        have hfinal : (tree.erase place).node? (folder ++ [name]) ≠ some .directory :=
          fun hdirectory => hfree ((herased.folders _).1 hdirectory)
        refine (herased.mono ?_).trans ((agreesOutside_insert hfinal file).mono ?_)
        · exact Set.singleton_subset_iff.2 ⟨source, by simp, hleads.target⟩
        · exact Set.singleton_subset_iff.2
            ⟨target, by simp, target?_eq_some_iff.2 ⟨folder, name, hresolve, rfl⟩⟩

/-- A step changes nothing but files at the paths it works on. -/
theorem agreesOutside_of_apply {step : FileChange} (happly : step.apply tree = .ok changed) :
    AgreesOutside (tree.placesAt {path | path ∈ step.paths}) tree changed := by
  cases step with
  | create path mode => simpa [paths] using agreesOutside_of_create happly
  | append path piece =>
      obtain ⟨place, file, hplace, -, hnode, rfl⟩ := exists_of_map_locate happly
      exact (agreesOutside_insert hnode _).mono (by simpa [paths] using hplace)
  | setMode path mode =>
      obtain ⟨place, file, hplace, -, hnode, rfl⟩ := exists_of_map_locate happly
      exact (agreesOutside_insert hnode _).mono (by simpa [paths] using hplace)
  | remove path =>
      obtain ⟨place, file, hplace, -, hnode, rfl⟩ := exists_of_map_locate happly
      exact (agreesOutside_erase hnode).mono (by simpa [paths] using hplace)
  | sync path =>
      obtain ⟨place, file, -, -, -, rfl⟩ := exists_of_map_locate happly
      exact AgreesOutside.refl _ _
  | rename source target =>
      have hpaths : {path | path ∈ (rename source target).paths} = {source, target} := by
        ext path
        simp [paths]
      rw [hpaths]
      exact agreesOutside_of_rename happly

end FileChange

namespace FileProgram

/-! ## Programs one after the other -/

private theorem bind_done {α : Type} (program : FileProgram α) :
    program.bind .done = program := by
  induction program with
  | done result => rfl
  | read path next ih => exact congrArg (read path) (funext ih)
  | change step next ih => exact congrArg (change step) (funext ih)

private theorem bind_bind {α β γ : Type} (program : FileProgram α) (next : α → FileProgram β)
    (last : β → FileProgram γ) :
    (program.bind next).bind last = program.bind fun result => (next result).bind last := by
  induction program with
  | done result => rfl
  | read path continuation ih => exact congrArg (read path) (funext ih)
  | change step continuation ih => exact congrArg (change step) (funext ih)

instance : LawfulMonad FileProgram :=
  LawfulMonad.mk' FileProgram bind_done (fun _ _ => rfl) bind_bind

variable {α β : Type} {tree between : FileTree}

/-- The tree is one of those a program passes through: what it leaves after some
number of steps. -/
def Passes (program : FileProgram α) (tree between : FileTree) : Prop :=
  ∃ steps, program.treeAfter steps tree = between

theorem passes_start (program : FileProgram α) (tree : FileTree) : program.Passes tree tree :=
  ⟨0, rfl⟩

theorem passes_pure_iff {result : α} :
    (pure result : FileProgram α).Passes tree between ↔ between = tree := by
  constructor
  · rintro ⟨steps, rfl⟩
    cases steps <;> rfl
  · rintro rfl
    exact passes_start _ _

theorem passes_read_iff {path : Path} {next : Except FileFault File → FileProgram α} :
    (FileProgram.read path next).Passes tree between ↔
      (next (tree.read path)).Passes tree between := by
  constructor
  · rintro ⟨steps, rfl⟩
    cases steps with
    | zero => exact passes_start _ _
    | succ steps => exact ⟨steps, rfl⟩
  · rintro ⟨steps, rfl⟩
    exact ⟨steps + 1, rfl⟩

theorem passes_change_ok_iff {step : FileChange} {next : Except FileFault Unit → FileProgram α}
    {changed : FileTree} (happly : step.apply tree = .ok changed) :
    (FileProgram.change step next).Passes tree between ↔
      between = tree ∨ (next (.ok ())).Passes changed between := by
  constructor
  · rintro ⟨steps, rfl⟩
    cases steps with
    | zero => exact Or.inl rfl
    | succ steps => exact Or.inr ⟨steps, by simp only [treeAfter, happly]⟩
  · rintro (rfl | ⟨steps, rfl⟩)
    · exact passes_start _ _
    · exact ⟨steps + 1, by simp only [treeAfter, happly]⟩

theorem passes_change_error_iff {step : FileChange}
    {next : Except FileFault Unit → FileProgram α} {fault : FileFault}
    (happly : step.apply tree = .error fault) :
    (FileProgram.change step next).Passes tree between ↔
      (next (.error fault)).Passes tree between := by
  constructor
  · rintro ⟨steps, rfl⟩
    cases steps with
    | zero => exact passes_start _ _
    | succ steps => exact ⟨steps, by simp only [treeAfter, happly]⟩
  · rintro ⟨steps, rfl⟩
    exact ⟨steps + 1, by simp only [treeAfter, happly]⟩

theorem passes_readFile_iff {path : Path} :
    (readFile path).Passes tree between ↔ between = tree :=
  passes_read_iff.trans passes_pure_iff

theorem passes_attempt_ok_iff {step : FileChange} {changed : FileTree}
    (happly : step.apply tree = .ok changed) :
    (attempt step).Passes tree between ↔ between = tree ∨ between = changed :=
  (passes_change_ok_iff happly).trans (or_congr_right passes_pure_iff)

/-- One program after another passes through its own trees, and then the other
through those that begin where the first has ended. -/
theorem passes_bind_iff {program : FileProgram α} {next : α → FileProgram β} :
    (program >>= next).Passes tree between ↔
      program.Passes tree between ∨
        (next (program.run tree).1).Passes (program.run tree).2 between := by
  change (program.bind next).Passes tree between ↔ _
  induction program generalizing tree with
  | done result =>
      have hstart : (next result).Passes tree tree := passes_start _ _
      change (next result).Passes tree between ↔ (pure result : FileProgram α).Passes tree between ∨
        (next result).Passes tree between
      rw [passes_pure_iff, or_iff_right_of_imp]
      rintro rfl
      exact hstart
  | read path continuation ih =>
      rw [bind, passes_read_iff, passes_read_iff, ih]
      rfl
  | change step continuation ih =>
      cases happly : step.apply tree with
      | ok changed =>
          rw [bind, passes_change_ok_iff happly, passes_change_ok_iff happly, ih, or_assoc]
          simp only [run, happly]
      | error fault =>
          rw [bind, passes_change_error_iff happly, passes_change_error_iff happly, ih]
          simp only [run, happly]

/-- A program passes through the tree it ends in. -/
theorem passes_run (program : FileProgram α) (tree : FileTree) :
    program.Passes tree (program.run tree).2 := by
  have hafter : (program >>= pure).Passes tree (program.run tree).2 :=
    passes_bind_iff.2 (Or.inr (passes_start _ _))
  rwa [bind_pure] at hafter

/-! ## Programs that work on a few paths -/

/-- The program changes files at the paths only, whatever it reads. -/
def ChangesOnly (paths : Set Path) : FileProgram α → Prop
  | .done _ => True
  | .read _ next => ∀ found, ChangesOnly paths (next found)
  | .change step next =>
    (∀ path ∈ step.paths, path ∈ paths) ∧ ∀ outcome, ChangesOnly paths (next outcome)

section ChangesOnly

variable {paths : Set Path}

theorem Within.changesOnly {program : FileProgram α} (hwithin : program.Within paths) :
    program.ChangesOnly paths := by
  induction program with
  | done result => trivial
  | read path next ih => exact fun found => ih found (hwithin.2 found)
  | change step next ih => exact ⟨hwithin.1, fun outcome => ih outcome (hwithin.2 outcome)⟩

theorem changesOnly_pure (result : α) : (pure result : FileProgram α).ChangesOnly paths := trivial

theorem changesOnly_bind {program : FileProgram α} {next : α → FileProgram β}
    (hprogram : program.ChangesOnly paths) (hnext : ∀ result, (next result).ChangesOnly paths) :
    (program >>= next).ChangesOnly paths := by
  change (program.bind next).ChangesOnly paths
  induction program with
  | done result => exact hnext result
  | read path continuation ih => exact fun found => ih found (hprogram found)
  | change step continuation ih =>
      exact ⟨hprogram.1, fun outcome => ih outcome (hprogram.2 outcome)⟩

theorem changesOnly_attempt {step : FileChange} (hstep : ∀ path ∈ step.paths, path ∈ paths) :
    (attempt step).ChangesOnly paths := (within_attempt hstep).changesOnly

/-- A copy leaves its source alone. -/
theorem changesOnly_copy (pieces : Pieces) (source : Path) {target : Path}
    (htarget : target ∈ paths) : (copy pieces source target).ChangesOnly paths := by
  have hstep : ∀ {step : FileChange}, step.paths = [target] → (attempt step).ChangesOnly paths :=
    fun hpaths => changesOnly_attempt (by simpa [hpaths] using htarget)
  intro found
  cases found with
  | error fault => exact changesOnly_pure _
  | ok file =>
      apply changesOnly_bind (hstep rfl)
      rintro (fault | done)
      · exact changesOnly_pure _
      · apply changesOnly_bind (within_appendAll htarget _).changesOnly
        rintro (fault | done)
        · exact changesOnly_pure _
        · exact hstep rfl

end ChangesOnly

/-- On its way a program leaves alone what its paths do not lead to. -/
theorem agreesOutside_of_passes {program : FileProgram α} {paths : Set Path}
    (hchanges : program.ChangesOnly paths) (hpasses : program.Passes tree between) :
    AgreesOutside (tree.placesAt paths) tree between := by
  induction program generalizing tree with
  | done result =>
      obtain rfl := passes_pure_iff.1 hpasses
      exact AgreesOutside.refl _ _
  | read path next ih => exact ih _ (hchanges _) (passes_read_iff.1 hpasses)
  | change step next ih =>
      cases happly : step.apply tree with
      | error fault => exact ih _ (hchanges.2 _) ((passes_change_error_iff happly).1 hpasses)
      | ok changed =>
          rcases (passes_change_ok_iff happly).1 hpasses with rfl | hlater
          · exact AgreesOutside.refl _ _
          · have hstep := (FileChange.agreesOutside_of_apply happly).mono
              (placesAt_mono tree hchanges.1)
            have hrest := ih _ (hchanges.2 _) hlater
            -- no step changes a directory, so the paths lead where they led
            rw [placesAt_congr hstep.folders] at hrest
            exact hstep.trans hrest

end FileProgram

end CredentialIntake
