import CredentialIntake.Proofs.CredentialNames
import CredentialIntake.Proofs.WriteRuns

/-!
# Keeping credentials one after the other

A deposit is a credential handed to the store to be kept.  Keeping deposits one
after the other is one run of writes, two for each deposit, unless a client name
is no single name.  All these writes concern entries of the users' directories
whose names begin like those of credential files, and none of them leads to a
backup or a staging file of another.
-/

namespace CredentialIntake.Store

open CredentialIntake.Path
open FileTree

/-- A credential handed to the store: for whom, from which client, and what. -/
structure Deposit where
  username : String
  client : String
  id : String
  material : Bytes
  deriving DecidableEq

namespace Deposit

def files (directoryOf : String → Path) (deposit : Deposit) : CredentialFiles :=
  filesOf directoryOf deposit.username deposit.client deposit.id

def writes (directoryOf : String → Path) (deposit : Deposit) : List FileWrite :=
  writesFor (deposit.files directoryOf) deposit.material

end Deposit

/-- Keeps deposits one after the other, up to the first that fails. -/
def persistAll (store : Store) : List Deposit → Except IntakeError (List CredentialFiles) × Store
  | [] => (.ok [], store)
  | deposit :: rest =>
    match store.persist deposit.username deposit.id deposit.material deposit.client with
    | (.error error, store) => (.error error, store)
    | (.ok files, store) =>
      match store.persistAll rest with
      | (.ok others, store) => (.ok (files :: others), store)
      | (.error error, store) => (.error error, store)

/-! ## Deposits as writes -/

/-- The writes of all deposits, in their order. -/
def depositWrites (directoryOf : String → Path) (deposits : List Deposit) : List FileWrite :=
  deposits.flatMap (·.writes directoryOf)

theorem persist_of_safe {store : Store} {deposit : Deposit}
    (hsafe : isSafeName deposit.client = true) :
    store.persist deposit.username deposit.id deposit.material deposit.client =
      match store.writeAll (deposit.writes store.directoryOf) with
      | (.ok (), after) => (.ok (deposit.files store.directoryOf), after)
      | (.error error, after) => (.error error, after) := by
  cases hrun : store.writeAll (deposit.writes store.directoryOf) with
  | mk result after =>
      rw [Deposit.writes, Deposit.files] at hrun
      cases result <;> simp [persist, hsafe, hrun, Deposit.files]

theorem persist_of_refused {store : Store} {deposit : Deposit}
    (hrefused : isSafeName deposit.client = false) :
    store.persist deposit.username deposit.id deposit.material deposit.client =
      (.error (.malformedRequest (.unsafeClientName deposit.client)), store) := by
  rw [persist, if_neg (by simp [hrefused])]

/-- Keeping deposits is one run of writes, when every client name can be used. -/
theorem persistAll_of_safe (store : Store) {deposits : List Deposit}
    (hsafe : ∀ deposit ∈ deposits, isSafeName deposit.client = true) :
    store.persistAll deposits =
      match store.writeAll (depositWrites store.directoryOf deposits) with
      | (.ok (), after) => (.ok (deposits.map (·.files store.directoryOf)), after)
      | (.error error, after) => (.error error, after) := by
  induction deposits generalizing store with
  | nil => rfl
  | cons deposit rest ih =>
      have hrest := fun other hother => hsafe other (List.mem_cons_of_mem deposit hother)
      have hdirectory := store.directoryOf_writeAll (deposit.writes store.directoryOf)
      rw [persistAll, persist_of_safe (hsafe deposit List.mem_cons_self), depositWrites,
        List.flatMap_cons, writeAll_append]
      cases hfirst : store.writeAll (deposit.writes store.directoryOf) with
      | mk result middle =>
          cases result with
          | error error => rfl
          | ok done =>
              have hkept : middle.directoryOf = store.directoryOf := by
                rw [← hdirectory, hfirst]
              simp only [ih middle hrest, hkept, depositWrites]
              cases middle.writeAll (rest.flatMap (·.writes store.directoryOf)) with
              | mk outcome after => cases outcome <;> rfl

/-- A deposit under a name that cannot be used fails before anything is written. -/
theorem persistAll_of_refused (store : Store) {deposit : Deposit} (rest : List Deposit)
    (hrefused : isSafeName deposit.client = false) :
    store.persistAll (deposit :: rest) =
      (.error (.malformedRequest (.unsafeClientName deposit.client)), store) := by
  rw [persistAll, persist_of_refused hrefused]

theorem isSafeName_of_persistAll {store : Store} {deposits : List Deposit}
    (hdone : (store.persistAll deposits).1.isOk = true) :
    ∀ deposit ∈ deposits, isSafeName deposit.client = true := by
  induction deposits generalizing store with
  | nil => simp
  | cons deposit rest ih =>
      rw [persistAll] at hdone
      intro other hother
      cases hfirst : store.persist deposit.username deposit.id deposit.material
          deposit.client with
      | mk result middle =>
          cases result with
          | error error =>
              rw [hfirst] at hdone
              cases hdone
          | ok files =>
              rcases List.mem_cons.1 hother with rfl | hrest
              · cases hsafe : isSafeName other.client with
                | true => rfl
                | false =>
                    rw [persist_of_refused hsafe] at hfirst
                    cases hfirst
              · apply @ih middle _ other hrest
                cases hlater : middle.persistAll rest with
                | mk outcome after =>
                    cases outcome with
                    | ok others => rfl
                    | error error =>
                        simp only [hfirst, hlater] at hdone
                        cases hdone

/-- Deposits that are all kept are one run of writes that succeeds. -/
theorem writeAll_of_persistAll {store : Store} {deposits : List Deposit}
    (hdone : (store.persistAll deposits).1.isOk = true) :
    (store.writeAll (depositWrites store.directoryOf deposits)).1 = .ok () ∧
      (store.persistAll deposits).2 =
        (store.writeAll (depositWrites store.directoryOf deposits)).2 := by
  have hsafe := isSafeName_of_persistAll hdone
  rw [persistAll_of_safe store hsafe] at hdone ⊢
  cases hrun : store.writeAll (depositWrites store.directoryOf deposits) with
  | mk result after =>
      cases result with
      | ok done => exact ⟨rfl, rfl⟩
      | error error =>
          rw [hrun] at hdone
          cases hdone

/-! ## Where deposits go -/

/-- A path of a credential file: a credential's name in a folder. -/
def IsCredentialPath (folder path : Path) : Prop :=
  ∃ name, IsCredentialName name ∧ path = folder.join name

theorem isCredentialPath_of_mem_writes {directoryOf : String → Path} {deposit : Deposit}
    (hsafe : isSafeName deposit.client = true) {write : FileWrite}
    (hmem : write ∈ deposit.writes directoryOf) :
    IsCredentialPath (directoryOf deposit.username) write.path := by
  rw [Deposit.writes, Deposit.files, filesOf, credentialFiles_eq hsafe, writesFor] at hmem
  rcases List.mem_pair.1 hmem with rfl | rfl
  · exact ⟨_, ⟨deposit.client, deposit.id, hsafe, rfl⟩, rfl⟩
  · exact ⟨_, ⟨deposit.client, deposit.id ++ compressedMark, hsafe, rfl⟩, rfl⟩

theorem isCredentialPath_of_mem_depositWrites {directoryOf : String → Path}
    {deposits : List Deposit} (hsafe : ∀ deposit ∈ deposits, isSafeName deposit.client = true)
    {write : FileWrite} (hmem : write ∈ depositWrites directoryOf deposits) :
    ∃ deposit ∈ deposits, IsCredentialPath (directoryOf deposit.username) write.path := by
  obtain ⟨deposit, hdeposit, hwrite⟩ := List.mem_flatMap.1 hmem
  exact ⟨deposit, hdeposit, isCredentialPath_of_mem_writes (hsafe deposit hdeposit) hwrite⟩

section Places

variable {tree : FileTree} {folder path : Path} {place : Location}

private theorem withSuffix_empty (path : Path) : path.withSuffix "" = path := by
  rw [withSuffix, String.append_empty]

/-- A name with a suffix leads to the entry of that name in the folder. -/
theorem exists_location_of_target? {name suffix : String} (hname : IsCredentialName name)
    (hsuffix : '/' ∉ suffix.toList)
    (htarget : tree.target? ((folder.join name).withSuffix suffix) = some place) :
    ∃ location, tree.folderAt folder = .ok location ∧ place = location ++ [name ++ suffix] := by
  have hplain := hname.isPlainName
  rw [withSuffix_join hplain hsuffix,
    target?_join_eq_some_iff (hplain.append hsuffix)] at htarget
  obtain ⟨location, hfolder, -, hplace⟩ := htarget
  exact ⟨location, hfolder, hplace⟩

private theorem exists_of_target?_withSuffix {suffix : String}
    (hpath : IsCredentialPath folder path) (hsuffix : '/' ∉ suffix.toList)
    (htarget : tree.target? (path.withSuffix suffix) = some place) :
    ∃ location rest, tree.folderAt folder = .ok location ∧
      place = location ++ [nameLead ++ rest] ∧ '/' ∉ rest.toList := by
  obtain ⟨name, ⟨client, id, hsafe, rfl⟩, rfl⟩ := hpath
  obtain ⟨location, hfolder, rfl⟩ :=
    exists_location_of_target? ⟨client, id, hsafe, rfl⟩ hsuffix htarget
  have hlead : credentialName client id ++ suffix =
      nameLead ++ (client ++ "_" ++ escapeId id ++ suffix) := by
    simp only [credentialName, nameLead, String.append_assoc]
  have hslash := ((isPlainName_credentialName hsafe id).append hsuffix).slash_not_mem
  rw [hlead, String.toList_append, List.mem_append, not_or] at hslash
  exact ⟨location, _, hfolder, by rw [hlead], hslash.2⟩

/-- Writing to a credential path concerns entries of its folder only, all of
them named like credential files. -/
theorem exists_of_mem_footprint (hpath : IsCredentialPath folder path)
    (hplace : place ∈ footprint tree path) :
    ∃ location rest, tree.folderAt folder = .ok location ∧
      place = location ++ [nameLead ++ rest] ∧ '/' ∉ rest.toList := by
  obtain ⟨sibling, hsibling, htarget⟩ := hplace
  simp only [List.mem_cons, List.not_mem_nil, or_false] at hsibling
  rcases hsibling with rfl | rfl | rfl
  · rw [← withSuffix_empty sibling] at htarget
    exact exists_of_target?_withSuffix hpath (by decide) htarget
  · exact exists_of_target?_withSuffix hpath (by decide) htarget
  · exact exists_of_target?_withSuffix hpath (by decide) htarget

/-- Two credential paths that lead to one place have one folder and one name. -/
theorem eq_of_target?_eq {other : Path} {name otherName : String}
    (hname : IsCredentialName name) (hother : IsCredentialName otherName)
    (htarget : tree.target? (folder.join name) = some place)
    (hsame : tree.target? (other.join otherName) = some place) :
    name = otherName ∧
      ∃ location, tree.folderAt folder = .ok location ∧ tree.folderAt other = .ok location := by
  obtain ⟨location, hfolder, -, rfl⟩ := (target?_join_eq_some_iff hname.isPlainName).1 htarget
  obtain ⟨otherLocation, hotherFolder, -, heq⟩ :=
    (target?_join_eq_some_iff hother.isPlainName).1 hsame
  obtain ⟨rfl, hnames⟩ := List.append_singleton_inj.1 heq
  exact ⟨hnames, location, hfolder, hotherFolder⟩

/-- No credential path leads to a backup or a staging file of another. -/
theorem target?_sibling_ne {other otherFolder : Path}
    (hpath : IsCredentialPath folder path) (hother : IsCredentialPath otherFolder other)
    (htarget : tree.target? other = some place) :
    tree.target? (backupPath path) ≠ some place ∧ tree.target? (stagingPath path) ≠ some place := by
  obtain ⟨name, hname, rfl⟩ := hpath
  obtain ⟨otherName, hotherName, rfl⟩ := hother
  obtain ⟨location, -, -, rfl⟩ :=
    (target?_join_eq_some_iff hotherName.isPlainName).1 htarget
  constructor
  · intro hbackup
    obtain ⟨_, -, heq⟩ := exists_location_of_target? hname (by decide) hbackup
    exact (hotherName.ne_append name).1 (List.append_singleton_inj.1 heq).2
  · intro hstaging
    obtain ⟨_, -, heq⟩ := exists_location_of_target? hname (by decide) hstaging
    exact (hotherName.ne_append name).2 (List.append_singleton_inj.1 heq).2

theorem siblingFree_of_isCredentialPath {writes : List FileWrite}
    (hpaths : ∀ write ∈ writes, ∃ folder, IsCredentialPath folder write.path) :
    SiblingFree tree writes := by
  intro write hwrite other hother place htarget
  obtain ⟨folder, hpath⟩ := hpaths write hwrite
  obtain ⟨otherFolder, hotherPath⟩ := hpaths other hother
  exact target?_sibling_ne hpath hotherPath htarget

end Places

/-- A store with one empty directory for all users. -/
def trial : Store where
  directoryOf := fun _ => ⟨"users"⟩
  tree := FileTree.empty.insert ["users"] .directory

end CredentialIntake.Store
