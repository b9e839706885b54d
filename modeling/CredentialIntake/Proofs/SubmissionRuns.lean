import CredentialIntake.Credential.Submission
import CredentialIntake.Proofs.CredentialNames
import CredentialIntake.Proofs.FileSteps

/-!
# Runs of submissions

A submission is built by calls, and between them its credential directory, its id
and the files themselves may change.  What it holds in the end is decided by the
calls alone: for each kind the last granted one counts, and a file was granted
only if it was found, one of the credential directory under a single name.
-/

namespace CredentialIntake

open CredentialIntake.FileTree CredentialIntake.Path CredentialIntake.Store

namespace FileTree

/-! ## Regular files -/

/-- The path leads to a regular file. -/
def HasFile (tree : FileTree) (path : Path) : Prop :=
  ∃ place file, LeadsTo tree path place ∧ tree.node? place = some (.file file)

theorem leadsTo_of_stat {tree : FileTree} {path : Path} {file : File}
    (hstat : tree.stat path = .ok (.file file)) :
    ∃ place, LeadsTo tree path place ∧ tree.node? place = some (.file file) := by
  rw [stat] at hstat
  split at hstat
  · cases hstat
  · cases hstat
  next folder name hresolve =>
    split at hstat
    · cases hstat
    · cases hstat
    next found hnode =>
      split at hstat
      · cases hstat
      next hslash =>
        cases hstat
        exact ⟨folder ++ [name],
          ⟨target?_eq_some_iff.2 ⟨folder, name, hresolve, rfl⟩, by simpa using hslash⟩, hnode⟩

theorem isFile_iff {tree : FileTree} {path : Path} :
    tree.isFile path = true ↔ HasFile tree path := by
  rw [isFile]
  constructor
  · intro hfile
    split at hfile
    next file hstat =>
      obtain ⟨place, hleads, hnode⟩ := leadsTo_of_stat hstat
      exact ⟨place, file, hleads, hnode⟩
    · cases hfile
  · rintro ⟨place, file, hleads, hnode⟩
    rw [stat_of_leadsTo hleads, hnode]

/-- The path adds this one name to the folder, and a regular file of the name is
in the directory that the folder leads to. -/
structure IsFileIn (tree : FileTree) (folder : Path) (name : String) (path : Path) : Prop where
  isSingleName : IsSingleName name
  eq_join : path = folder.join name
  components_eq : path.components = folder.components ++ [name]
  exists_file : ∃ place file, tree.folderAt folder = .ok place ∧
    LeadsTo tree path (place ++ [name]) ∧ tree.node? (place ++ [name]) = some (.file file)

theorem isFileIn_iff {tree : FileTree} {folder : Path} {name : String} {path : Path} :
    IsFileIn tree folder name path ↔
      IsSingleName name ∧ path = folder.join name ∧ HasFile tree path := by
  constructor
  · rintro ⟨hname, hpath, -, place, file, -, hleads, hnode⟩
    exact ⟨hname, hpath, place ++ [name], file, hleads, hnode⟩
  · rintro ⟨hname, rfl, place, file, hleads, hnode⟩
    obtain ⟨location, hfolder, -, rfl⟩ :=
      (target?_join_eq_some_iff hname.toIsPlainName).1 hleads.target
    exact ⟨hname, rfl, components_join hname.toIsPlainName hname.ne_here,
      location, file, hfolder, hleads, hnode⟩

end FileTree

namespace Submission

/-! ## Calls -/

inductive Call where
  | security (kind : CredentialKind) (filename lead : String)
  | factory (kind : CredentialKind) (path : Path)
  | identity (kind : CredentialKind) (value : String)

/-- A call with the submission and the files that it is made on. -/
structure Attempt where
  call : Call
  submission : Submission
  tree : FileTree

namespace Attempt

/-- Whether the call is granted, with the submission it leaves. -/
def outcome (attempt : Attempt) : Bool × Submission :=
  match attempt.call with
  | .security kind filename lead =>
    attempt.submission.addSecurity attempt.tree kind filename lead
  | .factory kind path => attempt.submission.addFactory attempt.tree kind path
  | .identity kind value => attempt.submission.addIdentity kind value

def granted (attempt : Attempt) : Bool := attempt.outcome.1

def after (attempt : Attempt) : Submission := attempt.outcome.2

/-- The file that is asked for, for this kind. -/
def file? (kind : CredentialKind) (attempt : Attempt) : Option Path :=
  match attempt.call with
  | .security other filename lead =>
    if kind = other then some (attempt.submission.credentialDir.join (lead ++ filename)) else none
  | .factory other path => if kind = other then some path else none
  | .identity .. => none

/-- The identity that is given, for this kind. -/
def identity? (kind : CredentialKind) (attempt : Attempt) : Option String :=
  match attempt.call with
  | .identity other value => if kind = other then some value else none
  | _ => none

/-- The file that is asked for is there, and one of the credential directory is
named by a single name. -/
inductive Finds (attempt : Attempt) (kind : CredentialKind) (path : Path) : Prop where
  | security {filename lead : String} : attempt.call = .security kind filename lead →
      IsFileIn attempt.tree attempt.submission.credentialDir (lead ++ filename) path →
      Finds attempt kind path
  | factory : attempt.call = .factory kind path → HasFile attempt.tree path →
      Finds attempt kind path

theorem after_of_refused {attempt : Attempt} (hrefused : attempt.granted = false) :
    attempt.after = attempt.submission := by
  obtain ⟨call, submission, tree⟩ := attempt
  rw [granted, outcome] at hrefused
  rw [after, outcome]
  cases call with
  | security kind filename lead =>
    simp only [addSecurity] at hrefused ⊢
    split
    next hfound => simp [hfound] at hrefused
    next => rfl
  | factory kind path =>
    simp only [addFactory] at hrefused ⊢
    split
    next hfound => simp [hfound] at hrefused
    next => rfl
  | identity kind value => cases hrefused

theorem granted_file?_iff (attempt : Attempt) (kind : CredentialKind) (path : Path) :
    attempt.granted = true ∧ attempt.file? kind = some path ↔ attempt.Finds kind path := by
  obtain ⟨call, submission, tree⟩ := attempt
  constructor
  · rintro ⟨hgranted, hfile⟩
    rw [granted, outcome] at hgranted
    rw [file?] at hfile
    cases call with
    | security other filename lead =>
      obtain ⟨rfl, hpath⟩ := Option.ite_none_right_eq_some.1 hfile
      simp only [addSecurity] at hgranted
      split at hgranted
      next hfound =>
        rw [Bool.and_eq_true, isSafeName_iff, isFile_iff] at hfound
        obtain rfl := Option.some.inj hpath
        exact .security rfl (isFileIn_iff.2 ⟨hfound.1, rfl, hfound.2⟩)
      next => cases hgranted
    | factory other given =>
      obtain ⟨rfl, hpath⟩ := Option.ite_none_right_eq_some.1 hfile
      simp only [addFactory] at hgranted
      split at hgranted
      next hfound =>
        obtain rfl := Option.some.inj hpath
        exact .factory rfl (isFile_iff.1 hfound)
      next => cases hgranted
    | identity other value => cases hfile
  · rintro (⟨rfl, hfound⟩ | ⟨rfl, hfound⟩)
    · obtain ⟨hname, rfl, hfile⟩ := isFileIn_iff.1 hfound
      rw [← isSafeName_iff] at hname
      rw [← isFile_iff] at hfile
      simp [granted, outcome, addSecurity, file?, hname, hfile]
    · rw [← isFile_iff] at hfound
      simp [granted, outcome, addFactory, file?, hfound]

theorem or_ite_eq_set {α : Type} (values : CredentialKind → Option α) (kind other : CredentialKind)
    (value : α) : (if kind = other then some value else none).or (values kind) =
      set values other value kind := by
  rw [set]
  split <;> rfl

theorem security_after (attempt : Attempt) (kind : CredentialKind) :
    attempt.after.security kind =
      (if attempt.granted then attempt.file? kind else none).or
        (attempt.submission.security kind) := by
  obtain ⟨call, submission, tree⟩ := attempt
  rw [after, granted, outcome, file?]
  cases call with
  | security other filename lead =>
    simp only [addSecurity]
    split
    next => exact (or_ite_eq_set submission.security kind other _).symm
    next => rfl
  | factory other path =>
    simp only [addFactory]
    split
    next => exact (or_ite_eq_set submission.security kind other path).symm
    next => rfl
  | identity other value => rfl

theorem identity_after (attempt : Attempt) (kind : CredentialKind) :
    attempt.after.identity kind =
      (attempt.identity? kind).or (attempt.submission.identity kind) := by
  obtain ⟨call, submission, tree⟩ := attempt
  rw [after, outcome, identity?]
  cases call with
  | security other filename lead =>
    simp only [addSecurity]
    split <;> rfl
  | factory other path =>
    simp only [addFactory]
    split <;> rfl
  | identity other value => exact (or_ite_eq_set submission.identity kind other value).symm

end Attempt

/-! ## Runs -/

/-- A submission and the files around it. -/
structure State where
  submission : Submission
  tree : FileTree

/-- A call, or something that happens between calls. -/
inductive Step where
  | call (call : Call)
  | setDirectory (folder : Path)
  | setId (id : Option String)
  /-- The files come to be these, whatever they were. -/
  | changeFiles (tree : FileTree)

namespace Step

def attempt? (state : State) : Step → Option Attempt
  | call request => some ⟨request, state.submission, state.tree⟩
  | _ => none

def perform (state : State) : Step → State
  | call request =>
    { state with submission := Attempt.after ⟨request, state.submission, state.tree⟩ }
  | setDirectory folder =>
    { state with submission := { state.submission with credentialDir := folder } }
  | setId id => { state with submission := { state.submission with id } }
  | changeFiles tree => { state with tree }

def isIdentity : Step → Bool
  | call (.identity ..) => true
  | _ => false

end Step

def run (state : State) (steps : List Step) : State := steps.foldl Step.perform state

/-- The calls of a run, each with what it was made on. -/
def attempts (state : State) : List Step → List Attempt
  | [] => []
  | step :: rest => (step.attempt? state).toList ++ attempts (step.perform state) rest

section Readings

variable {α : Type} (read : Submission → Option α) {taken : Attempt → Option α}
  (hafter : ∀ attempt, read attempt.after = (taken attempt).or (read attempt.submission))
  (hkept : ∀ (submission : Submission) (folder : Path) (id : Option String),
    read { submission with credentialDir := folder, id } = read submission)
include hafter hkept

theorem read_perform (state : State) (step : Step) :
    read (step.perform state).submission =
      ((step.attempt? state).bind taken).or (read state.submission) := by
  cases step with
  | call request => exact hafter _
  | setDirectory folder => exact hkept state.submission folder state.submission.id
  | setId id => exact hkept state.submission state.submission.credentialDir id
  | changeFiles tree => rfl

/-- A part of the submission that only calls change, each to what it takes up, holds
in the end what was taken up last. -/
theorem read_run (state : State) (steps : List Step) :
    read (run state steps).submission =
      ((attempts state steps).filterMap taken).getLast?.or (read state.submission) := by
  induction steps generalizing state with
  | nil => rfl
  | cons step rest ih =>
    have hfirst : ((step.attempt? state).toList.filterMap taken).getLast? =
        (step.attempt? state).bind taken := by
      cases step.attempt? state with
      | none => rfl
      | some attempt => cases htaken : taken attempt <;> simp [htaken]
    calc
      read (run state (step :: rest)).submission =
          read (run (step.perform state) rest).submission := rfl
      _ = ((attempts (step.perform state) rest).filterMap taken).getLast?.or
            (((step.attempt? state).bind taken).or (read state.submission)) := by
        rw [ih, read_perform read hafter hkept]
      _ = ((attempts state (step :: rest)).filterMap taken).getLast?.or
            (read state.submission) := by
        rw [attempts, List.filterMap_append, List.getLast?_append, hfirst, Option.or_assoc]

end Readings

theorem security_run (state : State) (steps : List Step) (kind : CredentialKind) :
    (run state steps).submission.security kind =
      (((attempts state steps).filter (·.granted)).filterMap (·.file? kind)).getLast?.or
        (state.submission.security kind) := by
  rw [List.filterMap_filter]
  exact read_run (·.security kind) (fun attempt => attempt.security_after kind)
    (fun _ _ _ => rfl) state steps

theorem identity_run (state : State) (steps : List Step) (kind : CredentialKind) :
    (run state steps).submission.identity kind =
      ((attempts state steps).filterMap (·.identity? kind)).getLast?.or
        (state.submission.identity kind) :=
  read_run (·.identity kind) (fun attempt => attempt.identity_after kind)
    (fun _ _ _ => rfl) state steps

/-! ## Files and identities apart -/

/-- Steps that a relation does not see can be left out of one of two related runs. -/
theorem alike_run_filter (alike : State → State → Prop) {keeps : Step → Bool}
    (hkept : ∀ {left right : State} {step : Step}, keeps step = true → alike left right →
      alike (step.perform left) (step.perform right))
    (hleft : ∀ {left right : State} {step : Step}, keeps step = false → alike left right →
      alike left (step.perform right))
    {left right : State} (halike : alike left right) (steps : List Step) :
    alike (run left (steps.filter keeps)) (run right steps) := by
  induction steps generalizing left right with
  | nil => exact halike
  | cons step rest ih =>
    cases hstep : keeps step with
    | true =>
      rw [List.filter_cons_of_pos hstep]
      exact ih (hkept hstep halike)
    | false =>
      rw [List.filter_cons_of_neg (by simp [hstep])]
      exact ih (hleft hstep halike)

/-- The states agree in all that calls for files depend on. -/
structure FilesAlike (left right : State) : Prop where
  security : left.submission.security = right.submission.security
  credentialDir : left.submission.credentialDir = right.submission.credentialDir
  tree : left.tree = right.tree

theorem FilesAlike.perform {left right : State} {step : Step} (halike : FilesAlike left right)
    (hstep : step.isIdentity = false) : FilesAlike (step.perform left) (step.perform right) := by
  obtain ⟨hsecurity, hfolder, htree⟩ := halike
  cases step with
  | call request =>
    cases request with
    | security kind filename lead =>
      simp only [Step.perform, Attempt.after, Attempt.outcome, addSecurity, hfolder, htree]
      split
      · exact ⟨congrArg (set · kind _) hsecurity, rfl, rfl⟩
      · exact ⟨hsecurity, hfolder, rfl⟩
    | factory kind path =>
      simp only [Step.perform, Attempt.after, Attempt.outcome, addFactory, htree]
      split
      · exact ⟨congrArg (set · kind _) hsecurity, hfolder, rfl⟩
      · exact ⟨hsecurity, hfolder, rfl⟩
    | identity kind value => cases hstep
  | setDirectory folder => exact ⟨hsecurity, rfl, htree⟩
  | setId id => exact ⟨hsecurity, hfolder, htree⟩
  | changeFiles tree => exact ⟨hsecurity, hfolder, rfl⟩

theorem filesAlike_perform {state : State} {step : Step} (hstep : step.isIdentity = true) :
    FilesAlike state (step.perform state) := by
  rw [Step.isIdentity.eq_def] at hstep
  split at hstep
  · exact ⟨rfl, rfl, rfl⟩
  · cases hstep

theorem FilesAlike.trans {first second third : State} (hfirst : FilesAlike first second)
    (hsecond : FilesAlike second third) : FilesAlike first third :=
  ⟨hfirst.security.trans hsecond.security, hfirst.credentialDir.trans hsecond.credentialDir,
    hfirst.tree.trans hsecond.tree⟩

theorem identity_perform {state : State} {step : Step} (hstep : step.isIdentity = false) :
    (step.perform state).submission.identity = state.submission.identity := by
  funext kind
  cases step with
  | call request =>
    refine (Attempt.identity_after _ kind).trans ?_
    cases request with
    | security other filename lead => rfl
    | factory other path => rfl
    | identity other value => cases hstep
  | setDirectory folder => rfl
  | setId id => rfl
  | changeFiles tree => rfl

theorem identity_perform_congr {left right : State} {step : Step}
    (hstep : step.isIdentity = true)
    (hidentity : left.submission.identity = right.submission.identity) :
    (step.perform left).submission.identity = (step.perform right).submission.identity := by
  rw [Step.isIdentity.eq_def] at hstep
  split at hstep
  next kind value => exact congrArg (set · kind value) hidentity
  · cases hstep

theorem security_run_without_identities (state : State) (steps : List Step) :
    (run state (steps.filter fun step => !step.isIdentity)).submission.security =
      (run state steps).submission.security := by
  refine (alike_run_filter FilesAlike ?_ ?_ ⟨rfl, rfl, rfl⟩ steps).security
  · intro left right step hkept halike
    exact halike.perform (by simpa using hkept)
  · intro left right step hleft halike
    exact halike.trans (filesAlike_perform (by simpa using hleft))

theorem identity_run_of_identities (state : State) (steps : List Step) :
    (run state (steps.filter (·.isIdentity))).submission.identity =
      (run state steps).submission.identity := by
  refine alike_run_filter
    (fun left right => left.submission.identity = right.submission.identity)
    identity_perform_congr ?_ rfl steps
  intro left right step hleft halike
  rw [identity_perform hleft, halike]

/-! ## The files in order -/

theorem mem_securityList_iff (submission : Submission) (kind : CredentialKind) (path : Path) :
    (kind, path) ∈ submission.securityList ↔ submission.security kind = some path := by
  rw [securityList, List.mem_filterMap]
  constructor
  · rintro ⟨other, -, hpath⟩
    obtain ⟨found, hfound, hpair⟩ := Option.map_eq_some_iff.1 hpath
    obtain ⟨rfl, rfl⟩ := Prod.mk.inj hpair
    exact hfound
  · intro hpath
    exact ⟨kind, CredentialKind.mem_all kind, by rw [hpath, Option.map_some]⟩

theorem pairwise_securityList (submission : Submission) :
    submission.securityList.Pairwise fun left right => left.1.ctorIdx < right.1.ctorIdx := by
  have hkinds : CredentialKind.all.Pairwise fun left right => left.ctorIdx < right.ctorIdx := by
    decide
  rw [securityList, List.pairwise_filterMap]
  apply hkinds.imp
  intro left right hlt entry hentry other hother
  obtain ⟨path, -, rfl⟩ := Option.map_eq_some_iff.1 hentry
  obtain ⟨found, -, rfl⟩ := Option.map_eq_some_iff.1 hother
  exact hlt

/-- Whatever calls are made of a new submission, in whatever order and whatever
happens to its settings and to the files in between, it holds for each kind the
file that was granted last and the identity that was given last.  A file is
granted exactly if it is found, and so every file it holds was found when it was
granted; a call that is refused leaves the submission as it was.  Files and
identities do without each other, and the files are listed in the order of their
kinds, each kind once. -/
theorem submission_stays_validated (username securityClass : String) (tree : FileTree)
    (steps : List Step) :
    let start : State := ⟨{ username, securityClass }, tree⟩
    let made := attempts start steps
    let final := (run start steps).submission
    (∀ kind,
      final.security kind = ((made.filter (·.granted)).filterMap (·.file? kind)).getLast? ∧
      final.identity kind = (made.filterMap (·.identity? kind)).getLast?) ∧
    (∀ attempt ∈ made,
      (∀ kind path, attempt.granted = true ∧ attempt.file? kind = some path ↔
        attempt.Finds kind path) ∧
      (attempt.granted = false → attempt.after = attempt.submission)) ∧
    (∀ kind path, final.security kind = some path → ∃ attempt ∈ made, attempt.Finds kind path) ∧
    (run start (steps.filter fun step => !step.isIdentity)).submission.security = final.security ∧
    (run start (steps.filter (·.isIdentity))).submission.identity = final.identity ∧
    (final.securityList.Pairwise fun left right => left.1.ctorIdx < right.1.ctorIdx) ∧
    ∀ kind path, (kind, path) ∈ final.securityList ↔ final.security kind = some path := by
  intro start made final
  have hsecurity : ∀ kind, final.security kind =
      ((made.filter (·.granted)).filterMap (·.file? kind)).getLast? := by
    intro kind
    rw [security_run, Option.or_none]
  have hidentity : ∀ kind, final.identity kind =
      (made.filterMap (·.identity? kind)).getLast? := by
    intro kind
    rw [identity_run, Option.or_none]
  refine ⟨fun kind => ⟨hsecurity kind, hidentity kind⟩, ?_, ?_,
    security_run_without_identities start steps, identity_run_of_identities start steps,
    pairwise_securityList final, mem_securityList_iff final⟩
  · intro attempt _
    exact ⟨attempt.granted_file?_iff, Attempt.after_of_refused⟩
  · intro kind path hpath
    rw [hsecurity] at hpath
    obtain ⟨attempt, hmem, hfile⟩ := List.mem_filterMap.1 (List.mem_of_getLast? hpath)
    obtain ⟨hmade, hgranted⟩ := List.mem_filter.1 hmem
    exact ⟨attempt, hmade, (attempt.granted_file?_iff kind path).1 ⟨hgranted, hfile⟩⟩

/-- Text before a name is part of the name, so it cannot lead out of the directory. -/
example (submission : Submission) (tree : FileTree) :
    (submission.addSecurity tree .gridProxy "outside" "../").1 = false := by
  have hname : isSafeName "../outside" = false := by decide
  simp [addSecurity, hname]

end Submission

end CredentialIntake
