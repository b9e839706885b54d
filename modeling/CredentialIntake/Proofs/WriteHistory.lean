import CredentialIntake.Proofs.Holdings
import CredentialIntake.Proofs.WriteStages

/-!
# Stores and their histories

A store can be called again and again, with calls that succeed and calls that
fail.  As long as the paths lead to different files, none of them a backup or a
staging file of another, the history of the calls tells what the counters say,
what every path holds and what its backup holds.
-/

namespace CredentialIntake.Store

open FileTree

/-! ## What single writes leave alone -/

namespace WriteEffect

variable {tree after : FileTree} {path : Path} {content : Bytes}
  {result : Except IntakeError WriteOutcome}

/-- A write to a path that leads to no location does nothing. -/
theorem eq_or_leadsTo (heffect : WriteEffect tree path content result after) :
    after = tree ∨ ∃ folder name, LeadsTo tree path (folder ++ [name]) := by
  cases heffect with
  | unreadable => exact Or.inl rfl
  | uncreatable => exact Or.inl rfl
  | created hleads hfree =>
      obtain ⟨folder, name, rfl, -⟩ := exists_siblings hleads
      exact Or.inr ⟨folder, name, hleads⟩
  | unchanged => exact Or.inl rfl
  | unstaged hleads => exact Or.inr ⟨_, _, hleads⟩
  | replaced hleads => exact Or.inr ⟨_, _, hleads⟩

/-- Where the staging file is absent, a write that does not replace anything
changes the target only. -/
theorem agreesOutside_of_vacant (heffect : WriteEffect tree path content result after)
    (hvacant : tree.IsVacant (stagingPath path))
    (hresult : ∀ kept, result ≠ .ok (.replaced kept)) :
    AgreesOutside (tree.placesAt {path}) tree after := by
  cases heffect with
  | unreadable => exact AgreesOutside.refl _ _
  | uncreatable => exact AgreesOutside.refl _ _
  | created hleads hfree =>
      apply (agreesOutside_insert (by simp [hfree]) _).mono
      exact Set.singleton_subset_iff.2 ⟨path, rfl, hleads.target⟩
  | unchanged => exact AgreesOutside.refl _ _
  | unstaged hleads hread hcontent hblocked =>
      -- only a directory in the place of the staging file stops it, and nothing is there
      obtain ⟨place, hstaging, hfree⟩ := hvacant
      obtain rfl := eq_of_target?_sibling hleads (by decide) hstaging.target
      have hentry := isEntryName_of_target hstaging
      rw [hblocked hentry] at hfree
      cases hfree
  | replaced => exact absurd rfl (hresult _)

/-- A write that fails leaves the target alone. -/
theorem stat_eq_of_error {error : IntakeError}
    (heffect : WriteEffect tree path content (.error error) after) :
    after.stat path = tree.stat path := by
  cases heffect with
  | unreadable => rfl
  | uncreatable => rfl
  | @unstaged folder name _ _ hleads hread hcontent hblocked =>
      by_cases hentry : IsEntryName (name ++ ".old")
      · have hagrees := agreesOutside_discard (leadsTo_sibling hleads (by decide) hentry)
        have hne := ne_append_suffix folder name (show ".old" ≠ "" by decide)
        rw [backupPath, stat_of_leadsTo (hleads.congr hagrees.folders), stat_of_leadsTo hleads,
          hagrees.node?_eq hne]
      · rw [backupPath,
          discard_of_target?_eq_none (target?_sibling_eq_none hleads (by decide) hentry)]

theorem holds_of_error {error : IntakeError} {bytes : Bytes}
    (heffect : WriteEffect tree path content (.error error) after)
    (hholds : tree.Holds path bytes) : after.Holds path bytes := by
  obtain ⟨file, hread, hcontent⟩ := hholds
  refine ⟨file, ?_, hcontent⟩
  rwa [FileTree.read, heffect.stat_eq_of_error]

end WriteEffect

/-! ## Paths that keep out of each other's way -/

/-- The paths lead to different files, and none of these is a backup or a staging
file of another. -/
structure Separate (tree : FileTree) (paths : Set Path) : Prop where
  distinct : ∀ left ∈ paths, ∀ right ∈ paths, ∀ place,
    LeadsTo tree left place → LeadsTo tree right place → left = right
  siblings : ∀ left ∈ paths, ∀ right ∈ paths, ∀ place, LeadsTo tree left place →
    tree.target? (backupPath right) ≠ some place ∧ tree.target? (stagingPath right) ≠ some place

namespace Separate

variable {tree after : FileTree} {paths : Set Path} {path other : Path}

theorem mono {more : Set Path} (hseparate : Separate tree more) (hsubset : paths ⊆ more) :
    Separate tree paths where
  distinct := fun left hleft right hright =>
    hseparate.distinct left (hsubset hleft) right (hsubset hright)
  siblings := fun left hleft right hright =>
    hseparate.siblings left (hsubset hleft) right (hsubset hright)

theorem congr (hseparate : Separate tree paths) (hsame : SameFolders tree after) :
    Separate after paths where
  distinct := fun left hleft right hright place hplace hother =>
    hseparate.distinct left hleft right hright place (hplace.congr hsame.symm)
      (hother.congr hsame.symm)
  siblings := fun left hleft right hright place hplace => by
    rw [hsame.target?_eq, hsame.target?_eq]
    exact hseparate.siblings left hleft right hright place (hplace.congr hsame.symm)

private theorem ne_append {folder : Location} {name title : String}
    (hseparate : Separate tree paths) (hpath : path ∈ paths) (hother : other ∈ paths)
    (hleads : LeadsTo tree path (folder ++ [name]))
    (hotherLeads : LeadsTo tree other (folder ++ [title])) :
    name ≠ title ++ ".old" ∧ name ≠ title ++ ".new" := by
  have hname := isEntryName_of_target hleads
  have hsiblings := hseparate.siblings path hpath other hother _ hleads
  constructor
  · rintro rfl
    exact hsiblings.1 (leadsTo_sibling hotherLeads (by decide) hname).target
  · rintro rfl
    exact hsiblings.2 (leadsTo_sibling hotherLeads (by decide) hname).target

/-- Writing to one of the paths leaves alone the file at another and its
siblings. -/
theorem agreesOutside_of_ne {content : Bytes} {result : Except IntakeError WriteOutcome}
    (hseparate : Separate tree paths) (hpath : path ∈ paths) (hother : other ∈ paths)
    (hne : other ≠ path) {place : Location} (hleads : LeadsTo tree path place)
    (heffect : WriteEffect tree other content result after) :
    AgreesOutside (footprint tree path)ᶜ tree after := by
  rcases heffect.eq_or_leadsTo with rfl | ⟨folder, title, hotherLeads⟩
  · exact AgreesOutside.refl _ _
  apply heffect.agreesOutside.mono
  -- a location that concerns both has a name that is one of both, as files or siblings
  intro common hcommon hmem
  obtain ⟨base, name, rfl, -⟩ := exists_siblings hleads
  obtain ⟨sibling, hsibling, rfl⟩ := exists_siblingName_of_mem_footprint hleads hmem
  obtain ⟨hit, hhit, heq⟩ := exists_siblingName_of_mem_footprint hotherLeads hcommon
  obtain ⟨rfl, rfl⟩ := List.append_singleton_inj.1 heq
  obtain rfl := eq_of_siblingNames_meet
    (hseparate.ne_append hpath hother hleads hotherLeads)
    (hseparate.ne_append hother hpath hotherLeads hleads) hsibling hhit
  exact hne (hseparate.distinct other hother path hpath _ hotherLeads hleads)

theorem holds_of_ne {content bytes : Bytes} {result : Except IntakeError WriteOutcome}
    (hseparate : Separate tree paths) (hpath : path ∈ paths) (hother : other ∈ paths)
    (hne : other ≠ path) (hholds : tree.Holds path bytes)
    (heffect : WriteEffect tree other content result after) : after.Holds path bytes := by
  obtain ⟨place, hleads⟩ := hholds.leadsTo
  apply (hseparate.agreesOutside_of_ne hpath hother hne hleads heffect).holds hholds
  intro location htarget houtside
  exact houtside ⟨path, by simp, htarget⟩

/-- Where there is no staging file, a write that replaces nothing at the path
leaves the siblings there alone. -/
theorem agreesOutside_siblings {content : Bytes} {result : Except IntakeError WriteOutcome}
    (hseparate : Separate tree paths) (hpath : path ∈ paths) (hother : other ∈ paths)
    {place : Location} (hleads : LeadsTo tree path place)
    (hvacant : tree.IsVacant (stagingPath path))
    (heffect : WriteEffect tree other content result after)
    (hresult : other = path → ∀ kept, result ≠ .ok (.replaced kept)) :
    AgreesOutside (tree.placesAt (siblingPaths path))ᶜ tree after := by
  by_cases heq : other = path
  · subst heq
    apply (heffect.agreesOutside_of_vacant hvacant (hresult rfl)).mono
    rintro target ⟨_, rfl, htarget⟩
    exact not_mem_placesAt_siblingPaths ⟨htarget, hleads.no_slash⟩
  · apply (hseparate.agreesOutside_of_ne hpath hother heq hleads heffect).mono
    apply Set.compl_subset_compl.2
    rintro target ⟨sibling, rfl | rfl, htarget⟩
    · exact ⟨_, by simp, htarget⟩
    · exact ⟨_, by simp, htarget⟩

end Separate

/-! ## Histories -/

/-- A call that was made of a store, with the files it found, how it ended, and
the files it left. -/
structure Call where
  write : FileWrite
  before : FileTree
  result : Except IntakeError WriteOutcome
  after : FileTree

namespace Call

/-- The call wrote to the path, or found its content there. -/
def succeedsAt (path : Path) (call : Call) : Bool := call.write.path = path && call.result.isOk

/-- The call replaced what was at the path. -/
def replacesAt (path : Path) (call : Call) : Bool :=
  call.write.path = path &&
    match call.result with
    | .ok (.replaced _) => true
    | _ => false

variable {path : Path} {call : Call}

theorem succeedsAt_iff :
    call.succeedsAt path = true ↔
      call.write.path = path ∧ ∃ outcome, call.result = .ok outcome := by
  rw [succeedsAt, Bool.and_eq_true, decide_eq_true_iff]
  cases call.result with
  | error error => simp [Except.isOk, Except.toBool]
  | ok outcome => simp [Except.isOk, Except.toBool]

theorem replacesAt_iff :
    call.replacesAt path = true ↔
      call.write.path = path ∧ ∃ kept, call.result = .ok (.replaced kept) := by
  rw [replacesAt, Bool.and_eq_true, decide_eq_true_iff]
  cases call.result with
  | error error => simp
  | ok outcome => cases outcome <;> simp

theorem exists_error_of_path_eq (hpath : call.write.path = path)
    (hfails : call.succeedsAt path = false) : ∃ error, call.result = .error error := by
  cases hresult : call.result with
  | error error => exact ⟨error, rfl⟩
  | ok outcome =>
      rw [succeedsAt_iff.2 ⟨hpath, outcome, hresult⟩] at hfails
      cases hfails

theorem succeedsAt_of_replacesAt (hreplaces : call.replacesAt path = true) :
    call.succeedsAt path = true := by
  obtain ⟨hpath, kept, hresult⟩ := replacesAt_iff.1 hreplaces
  exact succeedsAt_iff.2 ⟨hpath, _, hresult⟩

end Call

/-- A write as a call of a store. -/
def callOf (store : Store) (write : FileWrite) : Call where
  write
  before := store.tree
  result := (store.writeFile write).1
  after := (store.writeFile write).2.tree

theorem callOf_effect (store : Store) (write : FileWrite) :
    WriteEffect (store.callOf write).before (store.callOf write).write.path
      (store.callOf write).write.content (store.callOf write).result
      (store.callOf write).after :=
  store.writeFile_effect write

/-- A store with the calls that were made of it, the latest first. -/
structure History where
  calls : List Call
  store : Store

namespace History

/-- One more call, whatever it ends in. -/
def call (history : History) (write : FileWrite) : History where
  calls := history.store.callOf write :: history.calls
  store := (history.store.writeFile write).2

/-- How many of the calls ended in a certain way. -/
def tally (history : History) (outcome : WriteOutcome) : Nat :=
  history.calls.countP fun call => call.result = .ok outcome

end History

/-- The calls of some writes, one after the other. -/
def historyOf (store : Store) (writes : List FileWrite) : History :=
  writes.foldl History.call ⟨[], store⟩

/-- What a history says of counters and files. -/
structure Ledger (store : Store) (history : History) : Prop where
  /-- A call that failed is not counted. -/
  counters : history.store.counters =
    { created := store.counters.created + history.tally .created
      replaced := store.counters.replaced +
        (history.tally (.replaced true) + history.tally (.replaced false))
      unchanged := store.counters.unchanged + history.tally .unchanged
      backupFailures := store.counters.backupFailures + history.tally (.replaced false) }
  /-- A path holds what the last call that succeeded there brought. -/
  held : ∀ path call, history.calls.find? (·.succeedsAt path) = some call →
    history.store.tree.Holds path call.write.content
  /-- What fails leaves its target alone. -/
  failed : ∀ call ∈ history.calls, ∀ error, call.result = .error error →
    call.after.stat call.write.path = call.before.stat call.write.path
  /-- A backup that was kept is the file found by the last call that replaced it. -/
  backed : ∀ path call, history.calls.find? (·.replacesAt path) = some call →
    call.result = .ok (.replaced true) →
      ∃ file, call.before.read path = .ok file ∧
        history.store.tree.read (backupPath path) = .ok file
  /-- Where something was replaced, there is no staging file. -/
  unstaged : ∀ path, ∀ call ∈ history.calls, call.replacesAt path = true →
    history.store.tree.IsVacant (stagingPath path)

/-! ## One more call -/

private theorem tally_call (history : History) (write : FileWrite) (outcome : WriteOutcome) :
    (history.call write).tally outcome = history.tally outcome +
      if (history.store.callOf write).result = .ok outcome then 1 else 0 := by
  simp only [History.tally, History.call, List.countP_cons, decide_eq_true_eq]

namespace Ledger

variable {store : Store} {history : History} {paths : Set Path} {path : Path} {write : FileWrite}

private theorem counters_call (hledger : Ledger store history) (write : FileWrite) :
    (history.call write).store.counters =
      { created := store.counters.created + (history.call write).tally .created
        replaced := store.counters.replaced +
          ((history.call write).tally (.replaced true) +
            (history.call write).tally (.replaced false))
        unchanged := store.counters.unchanged + (history.call write).tally .unchanged
        backupFailures :=
          store.counters.backupFailures + (history.call write).tally (.replaced false) } := by
  have hcounters : (history.call write).store.counters =
      history.store.counters.count (history.store.callOf write).result :=
    history.store.counters_writeFile write
  rw [hcounters, hledger.counters]
  simp only [tally_call]
  rcases (history.store.callOf write).result with error | _ | _ | (_ | _) <;>
  · simp only [StoreCounters.count, StoreCounters.mk.injEq, Except.ok.injEq,
      WriteOutcome.replaced.injEq, reduceCtorEq, ↓reduceIte]
    omega

/-- A path where a call has succeeded leads to a location. -/
private theorem exists_leadsTo (hledger : Ledger store history) {call : Call}
    (hmem : call ∈ history.calls) (hsucceeds : call.succeedsAt path = true) :
    ∃ place, LeadsTo history.store.tree path place := by
  obtain ⟨last, hlast⟩ : ∃ last, history.calls.find? (·.succeedsAt path) = some last := by
    rw [← Option.isSome_iff_exists, List.find?_isSome]
    exact ⟨call, hmem, hsucceeds⟩
  exact (hledger.held path last hlast).leadsTo

private theorem held_call (hledger : Ledger store history)
    (hseparate : Separate history.store.tree paths)
    (hcalls : ∀ call ∈ history.calls, call.write.path ∈ paths) (hwrite : write.path ∈ paths)
    {call : Call} (hlast : (history.call write).calls.find? (·.succeedsAt path) = some call) :
    (history.call write).store.tree.Holds path call.write.content := by
  have heffect := history.store.callOf_effect write
  rw [History.call, List.find?_cons] at hlast
  split at hlast
  next hsucceeds =>
    obtain rfl := Option.some.inj hlast
    obtain ⟨rfl, outcome, hresult⟩ := Call.succeedsAt_iff.1 hsucceeds
    rw [hresult] at heffect
    exact heffect.holds
  next hfails =>
    have hheld := hledger.held path call hlast
    by_cases hpath : write.path = path
    · -- the call was one at this path and failed
      subst hpath
      obtain ⟨error, hresult⟩ := Call.exists_error_of_path_eq rfl hfails
      rw [hresult] at heffect
      exact heffect.holds_of_error hheld
    · obtain ⟨hsame, -⟩ := Call.succeedsAt_iff.1 (List.find?_some hlast)
      have hmem := hcalls call (List.mem_of_find?_eq_some hlast)
      rw [hsame] at hmem
      exact hseparate.holds_of_ne hmem hwrite hpath hheld heffect

/-- Once something was replaced at a path, what replaces nothing there leaves its
siblings alone. -/
private theorem agreesOutside_siblings_call (hledger : Ledger store history)
    (hseparate : Separate history.store.tree paths)
    (hcalls : ∀ call ∈ history.calls, call.write.path ∈ paths) (hwrite : write.path ∈ paths)
    {call : Call} (hmem : call ∈ history.calls) (hreplaces : call.replacesAt path = true)
    (hkeeps : (history.store.callOf write).replacesAt path = false) :
    AgreesOutside (history.store.tree.placesAt (siblingPaths path))ᶜ history.store.tree
      (history.call write).store.tree := by
  obtain ⟨place, hleads⟩ := hledger.exists_leadsTo hmem (Call.succeedsAt_of_replacesAt hreplaces)
  obtain ⟨hsame, -⟩ := Call.replacesAt_iff.1 hreplaces
  have hpath := hcalls call hmem
  rw [hsame] at hpath
  apply hseparate.agreesOutside_siblings hpath hwrite hleads
    (hledger.unstaged path call hmem hreplaces) (history.store.callOf_effect write)
  intro heq kept hresult
  have hagain : (history.store.callOf write).replacesAt path = true :=
    Call.replacesAt_iff.2 ⟨heq, kept, hresult⟩
  rw [hagain] at hkeeps
  cases hkeeps

private theorem backed_call (hledger : Ledger store history)
    (hseparate : Separate history.store.tree paths)
    (hcalls : ∀ call ∈ history.calls, call.write.path ∈ paths) (hwrite : write.path ∈ paths)
    {call : Call} (hlast : (history.call write).calls.find? (·.replacesAt path) = some call)
    (hkept : call.result = .ok (.replaced true)) :
    ∃ file, call.before.read path = .ok file ∧
      (history.call write).store.tree.read (backupPath path) = .ok file := by
  rw [History.call, List.find?_cons] at hlast
  split at hlast
  next hreplaces =>
    obtain rfl := Option.some.inj hlast
    obtain ⟨rfl, -⟩ := Call.replacesAt_iff.1 hreplaces
    have heffect := history.store.callOf_effect write
    rw [hkept] at heffect
    obtain ⟨-, file, hread, -, hbackup⟩ := heffect.siblings_of_replaced
    exact ⟨file, hread, hbackup rfl⟩
  next hkeeps =>
    obtain ⟨file, hread, hbackup⟩ := hledger.backed path call hlast hkept
    have hagrees := hledger.agreesOutside_siblings_call hseparate hcalls hwrite
      (List.mem_of_find?_eq_some hlast) (List.find?_some hlast) hkeeps
    refine ⟨file, hread, hagrees.read_eq_ok hbackup ?_⟩
    intro place htarget houtside
    exact houtside ⟨backupPath path, Or.inl rfl, htarget⟩

private theorem unstaged_call (hledger : Ledger store history)
    (hseparate : Separate history.store.tree paths)
    (hcalls : ∀ call ∈ history.calls, call.write.path ∈ paths) (hwrite : write.path ∈ paths)
    {call : Call} (hmem : call ∈ (history.call write).calls)
    (hreplaces : call.replacesAt path = true) :
    (history.call write).store.tree.IsVacant (stagingPath path) := by
  cases hlatest : (history.store.callOf write).replacesAt path with
  | true =>
      obtain ⟨rfl, kept, hresult⟩ := Call.replacesAt_iff.1 hlatest
      have heffect := history.store.callOf_effect write
      rw [hresult] at heffect
      exact heffect.siblings_of_replaced.1
  | false =>
      have hearlier : call ∈ history.calls := by
        rcases List.mem_cons.1 hmem with rfl | hearlier
        · rw [hlatest] at hreplaces
          cases hreplaces
        · exact hearlier
      have hagrees := hledger.agreesOutside_siblings_call hseparate hcalls hwrite hearlier
        hreplaces hlatest
      obtain ⟨place, hleads, hfree⟩ := hledger.unstaged path call hearlier hreplaces
      refine ⟨place, hleads.congr hagrees.folders, ?_⟩
      rw [hagrees.node?_eq, hfree]
      exact fun houtside => houtside ⟨stagingPath path, Or.inr rfl, hleads.target⟩

/-- One more call, and the ledger is still right. -/
theorem call (hledger : Ledger store history) (hseparate : Separate history.store.tree paths)
    (hcalls : ∀ call ∈ history.calls, call.write.path ∈ paths) (hwrite : write.path ∈ paths) :
    Ledger store (history.call write) where
  counters := hledger.counters_call write
  held := fun path call hlast => hledger.held_call hseparate hcalls hwrite hlast
  failed := by
    intro call hmem error hresult
    rcases List.mem_cons.1 hmem with rfl | hearlier
    · have heffect := history.store.callOf_effect write
      rw [hresult] at heffect
      exact heffect.stat_eq_of_error
    · exact hledger.failed call hearlier error hresult
  backed := fun path call hlast hkept =>
    hledger.backed_call hseparate hcalls hwrite hlast hkept
  unstaged := fun path call hmem hreplaces =>
    hledger.unstaged_call hseparate hcalls hwrite hmem hreplaces

end Ledger

/-! ## Whole histories -/

theorem historyOf_append_singleton (store : Store) (writes : List FileWrite) (write : FileWrite) :
    historyOf store (writes ++ [write]) = (historyOf store writes).call write :=
  List.foldl_append

/-- Every write has become a call. -/
theorem map_write_historyOf (store : Store) (writes : List FileWrite) :
    (historyOf store writes).calls.map (·.write) = writes.reverse := by
  induction writes using List.reverseRecOn with
  | nil => rfl
  | append_singleton earlier write ih =>
      rw [historyOf_append_singleton, List.reverse_append, ← ih]
      rfl

private theorem sameFolders_historyOf (store : Store) (writes : List FileWrite) :
    SameFolders store.tree (historyOf store writes).store.tree := by
  induction writes using List.reverseRecOn with
  | nil => exact SameFolders.refl _
  | append_singleton earlier write ih =>
      rw [historyOf_append_singleton]
      exact ih.trans (writeFile_effect _ write).agreesOutside.folders

theorem ledger_nil (store : Store) : Ledger store (historyOf store []) where
  counters := rfl
  held := by simp [historyOf]
  failed := by simp [historyOf]
  backed := by simp [historyOf]
  unstaged := by simp [historyOf]

/-- Whatever calls are made of a store, the ledger is right. -/
theorem ledger_historyOf (store : Store) (writes : List FileWrite)
    (hseparate : Separate store.tree {path | ∃ write ∈ writes, path = write.path}) :
    Ledger store (historyOf store writes) := by
  induction writes using List.reverseRecOn with
  | nil => exact ledger_nil store
  | append_singleton earlier write ih =>
      have hearlier : Separate store.tree {path | ∃ write ∈ earlier, path = write.path} := by
        apply hseparate.mono
        rintro path ⟨other, hother, rfl⟩
        exact ⟨other, by simp [hother], rfl⟩
      rw [historyOf_append_singleton]
      apply (ih hearlier).call (hseparate.congr (sameFolders_historyOf store earlier))
      · intro call hmem
        have hwritten : call.write ∈ earlier := by
          rw [← List.mem_reverse, ← map_write_historyOf store earlier]
          exact List.mem_map_of_mem hmem
        exact ⟨call.write, by simp [hwritten], rfl⟩
      · exact ⟨write, by simp, rfl⟩

/-- No backup of `w` can be kept. -/
private def busyStore : Store where
  directoryOf := fun _ => ⟨"users"⟩
  tree := (FileTree.empty.insert ["w"] (.file ⟨0o644, Bytes.ofText "x"⟩)).insert ["w.old"]
    .directory

private def busyWrites : List FileWrite :=
  [⟨⟨"t"⟩, Bytes.ofText "a"⟩, ⟨⟨"t"⟩, Bytes.ofText "b"⟩, ⟨⟨"w"⟩, Bytes.ofText "a"⟩,
    ⟨⟨"none/v"⟩, Bytes.ofText "a"⟩, ⟨⟨"t"⟩, Bytes.ofText "b"⟩]

private theorem separate_busy :
    Separate busyStore.tree {path | ∃ write ∈ busyWrites, path = write.path} where
  distinct := by
    rintro _ ⟨left, hleft, rfl⟩ _ ⟨right, hright, rfl⟩ place hplace hother
    have hall : ∀ left ∈ busyWrites, ∀ right ∈ busyWrites,
        busyStore.tree.target? left.path = busyStore.tree.target? right.path →
          left.path = right.path := by decide +kernel
    exact hall left hleft right hright (hplace.target.trans hother.target.symm)
  siblings := by
    rintro _ ⟨left, hleft, rfl⟩ _ ⟨right, hright, rfl⟩ place hplace
    have hall : ∀ left ∈ busyWrites, ∀ right ∈ busyWrites,
        busyStore.tree.target? left.path = none ∨
          busyStore.tree.target? (backupPath right.path) ≠ busyStore.tree.target? left.path ∧
            busyStore.tree.target? (stagingPath right.path) ≠
              busyStore.tree.target? left.path := by decide +kernel
    have hsiblings := hall left hleft right hright
    rw [hplace.target] at hsiblings
    exact hsiblings.resolve_left (by simp)

/-- A file is created, replaced and found unchanged, another is replaced without
a backup, and one call fails in between. -/
theorem ledger_historyOf_busy :
    Separate busyStore.tree {path | ∃ write ∈ busyWrites, path = write.path} ∧
      Ledger busyStore (historyOf busyStore busyWrites) ∧
      (historyOf busyStore busyWrites).store.counters = ⟨1, 2, 1, 1⟩ ∧
      (historyOf busyStore busyWrites).calls.map (·.result) =
        [.ok .unchanged, .error (.io ⟨"none/v"⟩ .notFound), .ok (.replaced false),
          .ok (.replaced true), .ok .created] := by
  have hledger := ledger_historyOf busyStore busyWrites separate_busy
  refine ⟨separate_busy, hledger, ?_, by decide +kernel⟩
  rw [hledger.counters]
  decide +kernel

end CredentialIntake.Store
