import CredentialIntake.Proofs.Deposits

/-!
# How long a deposit is kept

The two files of a deposit keep its data until another deposit of the same user
files something under one of their names.  That need not be a deposit with the
same client and id: a client name may carry a part of an id, and an id may end
like a compressed form.
-/

namespace CredentialIntake.Store

open CredentialIntake.Path
open FileTree

/-! ## Filings -/

/-- Something put under a name in the directory of a user. -/
structure Filing where
  username : String
  name : String
  content : Bytes

def Filing.write (directoryOf : String → Path) (filing : Filing) : FileWrite :=
  ⟨(directoryOf filing.username).join filing.name, filing.content⟩

namespace Deposit

def raw (deposit : Deposit) : Filing :=
  ⟨deposit.username, credentialName deposit.client deposit.id, deposit.material⟩

def compressed (deposit : Deposit) : Filing :=
  ⟨deposit.username, credentialName deposit.client (deposit.id ++ compressedMark),
    compressedLine deposit.material⟩

/-- What a deposit files, in this order. -/
def filings (deposit : Deposit) : List Filing := [deposit.raw, deposit.compressed]

end Deposit

/-- What was filed last under a name of a user. -/
def lastFiled? (username name : String) : List Filing → Option Bytes
  | [] => none
  | filing :: rest =>
    (lastFiled? username name rest).or
      (if filing.username = username ∧ filing.name = name then some filing.content else none)

theorem writes_eq_map_filings {deposit : Deposit} (hsafe : isSafeName deposit.client = true)
    (directoryOf : String → Path) :
    deposit.writes directoryOf = deposit.filings.map (·.write directoryOf) := by
  rw [Deposit.writes, Deposit.files, filesOf, credentialFiles_eq hsafe]
  rfl

theorem depositWrites_eq_map_filings {deposits : List Deposit}
    (hsafe : ∀ deposit ∈ deposits, isSafeName deposit.client = true)
    (directoryOf : String → Path) :
    depositWrites directoryOf deposits =
      (deposits.flatMap Deposit.filings).map (·.write directoryOf) := by
  rw [depositWrites, List.map_flatMap]
  apply List.flatMap_congr
  intro deposit hmem
  exact writes_eq_map_filings (hsafe deposit hmem) directoryOf

theorem isCredentialName_of_mem_filings {deposit : Deposit}
    (hsafe : isSafeName deposit.client = true) {filing : Filing}
    (hmem : filing ∈ deposit.filings) : IsCredentialName filing.name := by
  rw [Deposit.filings, List.mem_cons, List.mem_singleton] at hmem
  rcases hmem with rfl | rfl
  · exact ⟨deposit.client, deposit.id, hsafe, rfl⟩
  · exact ⟨deposit.client, deposit.id ++ compressedMark, hsafe, rfl⟩

/-! ## One filing after the other -/

/-- Two users that are not one have directories that are not one. -/
def Apart (tree : FileTree) (directoryOf : String → Path) (left right : String) : Prop :=
  ∀ place, tree.folderAt (directoryOf left) = .ok place →
    tree.folderAt (directoryOf right) = .ok place → left = right

theorem Apart.congr {before after : FileTree} {directoryOf : String → Path}
    {left right : String} (hapart : Apart before directoryOf left right)
    (hsame : SameFolders before after) : Apart after directoryOf left right := by
  intro place hleft hright
  exact hapart place (hsame.folderAt_eq_ok_iff.1 hleft) (hsame.folderAt_eq_ok_iff.1 hright)

variable {store : Store} {directoryOf : String → Path} {username name : String} {content : Bytes}

/-- A filing changes the file of its own name, and that of no other credential. -/
theorem writeFile_holds_filed {filing : Filing} {outcome : WriteOutcome}
    (hapart : Apart store.tree directoryOf filing.username username)
    (hfiling : IsCredentialName filing.name) (hname : IsCredentialName name)
    (hdone : (store.writeFile (filing.write directoryOf)).1 = .ok outcome)
    (hholds : store.tree.Holds ((directoryOf username).join name) content) :
    (store.writeFile (filing.write directoryOf)).2.tree.Holds ((directoryOf username).join name)
      ((if filing.username = username ∧ filing.name = name then some filing.content
        else none).getD content) := by
  have heffect := store.writeFile_effect (filing.write directoryOf)
  rw [hdone] at heffect
  by_cases hsame : filing.username = username ∧ filing.name = name
  · rw [if_pos hsame]
    obtain ⟨rfl, rfl⟩ := hsame
    exact heffect.holds
  rw [if_neg hsame]
  apply heffect.agreesOutside.holds hholds
  rintro place htarget ⟨sibling, hsibling, hplace⟩
  have hpath : IsCredentialPath (directoryOf filing.username) (filing.write directoryOf).path :=
    ⟨filing.name, hfiling, rfl⟩
  have hsiblings := target?_sibling_ne hpath ⟨name, hname, rfl⟩ htarget
  simp only [List.mem_cons, List.not_mem_nil, or_false] at hsibling
  rcases hsibling with rfl | rfl | rfl
  · -- one place means one name, and one directory, hence one user
    obtain ⟨hnames, location, hfolder, hother⟩ := eq_of_target?_eq hfiling hname hplace htarget
    exact hsame ⟨hapart location hfolder hother, hnames⟩
  · exact hsiblings.1 hplace
  · exact hsiblings.2 hplace

/-- After filings that all succeed a file holds what was filed last under its
name, or what it held before. -/
theorem writeAll_holds_lastFiled {filings : List Filing}
    (hapart : ∀ filing ∈ filings, Apart store.tree directoryOf filing.username username)
    (hfilings : ∀ filing ∈ filings, IsCredentialName filing.name)
    (hname : IsCredentialName name)
    (hdone : (store.writeAll (filings.map (·.write directoryOf))).1 = .ok ())
    (hholds : store.tree.Holds ((directoryOf username).join name) content) :
    (store.writeAll (filings.map (·.write directoryOf))).2.tree.Holds
      ((directoryOf username).join name) ((lastFiled? username name filings).getD content) := by
  induction filings generalizing store content with
  | nil => exact hholds
  | cons filing rest ih =>
      rw [List.map_cons] at hdone ⊢
      obtain ⟨outcome, hfirst, hrest⟩ := writeAll_cons_eq_ok hdone
      have hfiled := writeFile_holds_filed (hapart filing List.mem_cons_self)
        (hfilings filing List.mem_cons_self) hname hfirst hholds
      have hfolders := (store.writeFile_effect (filing.write directoryOf)).agreesOutside.folders
      rw [writeAll_cons_ok hfirst, lastFiled?, Option.getD_or]
      apply ih _ _ hrest hfiled
      · -- no filing changes a directory, so the users stay apart
        intro other hother
        exact (hapart other (List.mem_cons_of_mem filing hother)).congr hfolders
      · intro other hother
        exact hfilings other (List.mem_cons_of_mem filing hother)

/-! ## Deposits -/

/-- After deposits that are all kept, a file of one of them holds what was filed
last under its name since. -/
theorem persistAll_holds_lastFiled {deposits : List Deposit} {front back : List Filing}
    {filing : Filing} (hdone : (store.persistAll deposits).1.isOk = true)
    (hsplit : deposits.flatMap Deposit.filings = front ++ filing :: back)
    (hapart : ∀ other ∈ back,
      Apart store.tree store.directoryOf other.username filing.username) :
    (store.persistAll deposits).2.tree.Holds
      ((store.directoryOf filing.username).join filing.name)
      ((lastFiled? filing.username filing.name back).getD filing.content) := by
  have hsafe := isSafeName_of_persistAll hdone
  have hnames : ∀ other ∈ front ++ filing :: back, IsCredentialName other.name := by
    intro other hother
    rw [← hsplit] at hother
    obtain ⟨deposit, hdeposit, hmem⟩ := List.mem_flatMap.1 hother
    exact isCredentialName_of_mem_filings (hsafe deposit hdeposit) hmem
  obtain ⟨hrun, htree⟩ := writeAll_of_persistAll hdone
  rw [depositWrites_eq_map_filings hsafe, hsplit, List.map_append, List.map_cons] at hrun htree
  obtain ⟨middle, hfolders, hholds, hrest⟩ := writeAll_split_eq_ok hrun
  rw [hrest] at hrun
  rw [htree, hrest]
  apply writeAll_holds_lastFiled _ _ _ hrun hholds
  · intro other hother
    exact (hapart other hother).congr hfolders
  · intro other hother
    exact hnames other (by simp [hother])
  · exact hnames filing (by simp)

theorem credentialName_ne_compressed (client id : String) :
    credentialName client (id ++ compressedMark) ≠ credentialName client id := by
  rw [← credentialName_append_compressedMark]
  intro heq
  have hlength := congrArg String.length heq
  rw [String.length_append] at hlength
  exact absurd hlength (by simp [compressedMark])

theorem username_of_mem_filings {deposit : Deposit} {filing : Filing}
    (hmem : filing ∈ deposit.filings) : filing.username = deposit.username := by
  rcases List.mem_pair.1 hmem with rfl | rfl
  · rfl
  · rfl

private theorem apart_of_mem_filings {directoryOf : String → Path} {tree : FileTree}
    {later : List Deposit}
    (hapart : ∀ other ∈ later, Apart tree directoryOf other.username username)
    {filing : Filing} (hmem : filing ∈ later.flatMap Deposit.filings) :
    Apart tree directoryOf filing.username username := by
  obtain ⟨owner, howner, hfiling⟩ := List.mem_flatMap.1 hmem
  rw [username_of_mem_filings hfiling]
  exact hapart owner howner

private theorem filings_split (before later : List Deposit) (deposit : Deposit) :
    (before ++ deposit :: later).flatMap Deposit.filings =
      before.flatMap Deposit.filings ++
        deposit.raw :: deposit.compressed :: later.flatMap Deposit.filings := by
  rw [List.flatMap_append, List.flatMap_cons, Deposit.filings]
  rfl

/-- What both files of a deposit hold after it and all later ones. -/
theorem persistAll_holds_files {before later : List Deposit} {deposit : Deposit}
    (hdone : (store.persistAll (before ++ deposit :: later)).1.isOk = true)
    (hapart : ∀ other ∈ later,
      Apart store.tree store.directoryOf other.username deposit.username) :
    (store.persistAll (before ++ deposit :: later)).2.tree.Holds
        (deposit.files store.directoryOf).raw
        ((lastFiled? deposit.username deposit.raw.name
          (later.flatMap Deposit.filings)).getD deposit.material) ∧
      (store.persistAll (before ++ deposit :: later)).2.tree.Holds
        (deposit.files store.directoryOf).compressed
        ((lastFiled? deposit.username deposit.compressed.name
          (later.flatMap Deposit.filings)).getD (compressedLine deposit.material)) := by
  have hsafe := isSafeName_of_persistAll hdone deposit (by simp)
  have hfilings := filings_split before later deposit
  rw [Deposit.files, filesOf, credentialFiles_eq hsafe]
  constructor
  · have hown : ∀ other ∈ deposit.compressed :: later.flatMap Deposit.filings,
        Apart store.tree store.directoryOf other.username deposit.raw.username := by
      intro other hother
      cases hother with
      | head =>
          intro place hleft hright
          rfl
      | tail _ hmem => exact apart_of_mem_filings hapart hmem
    have hholds := persistAll_holds_lastFiled hdone hfilings hown
    -- the compressed form of the deposit itself stands under another name
    have hline : ¬ (deposit.compressed.username = deposit.raw.username ∧
        deposit.compressed.name = deposit.raw.name) :=
      fun hsame => credentialName_ne_compressed deposit.client deposit.id hsame.2
    rw [lastFiled?, if_neg hline, Option.or_none] at hholds
    exact hholds
  · have hown : ∀ other ∈ later.flatMap Deposit.filings,
        Apart store.tree store.directoryOf other.username deposit.compressed.username := by
      intro other hother
      exact apart_of_mem_filings hapart hother
    have hlast : (before ++ deposit :: later).flatMap Deposit.filings =
        before.flatMap Deposit.filings ++ [deposit.raw] ++
          deposit.compressed :: later.flatMap Deposit.filings := by
      rw [hfilings, ← List.append_cons]
    have hholds := persistAll_holds_lastFiled hdone hlast hown
    exact hholds

end CredentialIntake.Store
