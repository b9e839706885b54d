import CredentialIntake.Proofs.Obstacles

/-!
# Renewing what is kept

A credential that was kept once can be kept again with other material, as long as
a file beside the compressed one can have the longer name of its staging file.
A file that is not there yet needs no staging file, so names can be made that
leave no room for one; what stands under them can never be renewed.
-/

namespace CredentialIntake.Store

open FileTree

/-- The directory of a user, if it is there, holds files only. -/
def HoldsFilesOnly (store : Store) (username : String) : Prop :=
  ∀ location, store.tree.folderAt (store.directoryOf username) = .ok location →
    ∀ name, store.tree.nodes[location ++ [name]]? ≠ some .directory

/-- Keeps a deposit. -/
def keep (store : Store) (deposit : Deposit) : Except IntakeError CredentialFiles × Store :=
  store.persist deposit.username deposit.id deposit.material deposit.client

/-- The same credential with other material. -/
def Deposit.renewal (deposit : Deposit) (fresh : Bytes) : Deposit :=
  { deposit with material := fresh }

/-- The deposit is kept, and both files hold its material afterwards. -/
def Renews (store : Store) (deposit : Deposit) : Prop :=
  ∃ files, (store.keep deposit).1 = .ok files ∧
    (store.keep deposit).2.tree.Holds files.raw deposit.material ∧
    (store.keep deposit).2.tree.Holds files.compressed (compressedLine deposit.material)

variable {store : Store} {deposit : Deposit} {files : CredentialFiles} {fresh : Bytes}

/-! ## A deposit that was kept -/

private theorem persistAll_of_keep (hkept : (store.keep deposit).1 = .ok files) :
    store.persistAll [deposit] = (.ok [files], (store.keep deposit).2) := by
  rw [keep] at hkept ⊢
  rw [persistAll, ← Prod.mk.eta (p := store.persist deposit.username deposit.id deposit.material
    deposit.client), hkept]
  rfl

theorem isSafeName_of_keep (hkept : (store.keep deposit).1 = .ok files) :
    isSafeName deposit.client = true := by
  have hdone : (store.persistAll [deposit]).1.isOk = true := by
    rw [persistAll_of_keep hkept]
    rfl
  exact isSafeName_of_persistAll hdone deposit List.mem_cons_self

/-- With a client name that can be used, keeping a deposit is making its filings. -/
theorem keep_of_safe (hsafe : isSafeName deposit.client = true) :
    ((∃ files, (store.keep deposit).1 = .ok files) ↔
        (store.writeAll (deposit.filings.map (·.write store.directoryOf))).1 = .ok ()) ∧
      (store.keep deposit).2 =
        (store.writeAll (deposit.filings.map (·.write store.directoryOf))).2 := by
  rw [keep, persist_of_safe hsafe, writes_eq_map_filings hsafe]
  cases store.writeAll (deposit.filings.map (·.write store.directoryOf)) with
  | mk result after => cases result <;> simp

private theorem files_of_keep (hkept : (store.keep deposit).1 = .ok files) :
    files = deposit.files store.directoryOf := by
  have hsafe := isSafeName_of_keep hkept
  rw [keep, persist_of_safe hsafe] at hkept
  cases hrun : store.writeAll (deposit.writes store.directoryOf) with
  | mk result after =>
      rw [hrun] at hkept
      cases result with
      | ok done => exact (Except.ok.inj hkept).symm
      | error error => cases hkept

/-- What is kept is in the two files. -/
theorem renews_of_keep (hkept : (store.keep deposit).1 = .ok files) : Renews store deposit := by
  have hdone : (store.persistAll ([] ++ [deposit])).1.isOk = true := by
    rw [List.nil_append, persistAll_of_keep hkept]
    rfl
  obtain ⟨hraw, hcompressed⟩ := persistAll_holds_files hdone (by simp)
  rw [List.nil_append, persistAll_of_keep hkept] at hraw hcompressed
  rw [files_of_keep hkept] at hkept
  exact ⟨_, hkept, hraw, hcompressed⟩

private theorem holds_filing (hkept : (store.keep deposit).1 = .ok files) {filing : Filing}
    (hfiling : filing ∈ deposit.filings) :
    (store.keep deposit).2.tree.Holds (filing.write store.directoryOf).path filing.content := by
  obtain ⟨found, hfound, hraw, hcompressed⟩ := renews_of_keep hkept
  rw [files_of_keep hfound, Deposit.files, filesOf,
    credentialFiles_eq (isSafeName_of_keep hkept)] at hraw hcompressed
  rcases List.mem_pair.1 hfiling with rfl | rfl
  · exact hraw
  · exact hcompressed

private theorem folders_keep (hkept : (store.keep deposit).1 = .ok files) :
    SameFolders store.tree (store.keep deposit).2.tree := by
  rw [(keep_of_safe (isSafeName_of_keep hkept)).2]
  exact (store.writeAll_agreesOutside _).folders

private theorem directoryOf_keep (hkept : (store.keep deposit).1 = .ok files) :
    (store.keep deposit).2.directoryOf = store.directoryOf := by
  rw [(keep_of_safe (isSafeName_of_keep hkept)).2]
  exact store.directoryOf_writeAll _

/-- The files of a deposit that was kept stand in the user's directory, under names
that entries can have. -/
private theorem exists_leadsTo_filing (hkept : (store.keep deposit).1 = .ok files)
    {filing : Filing} (hfiling : filing ∈ deposit.filings) :
    IsEntryName filing.name ∧ ∃ location,
      store.tree.folderAt (store.directoryOf filing.username) = .ok location ∧
        (store.keep deposit).2.tree.target? (filing.write store.directoryOf).path =
          some (location ++ [filing.name]) := by
  obtain ⟨place, hleads⟩ := (holds_filing hkept hfiling).leadsTo
  have hname := isCredentialName_of_mem_filings (isSafeName_of_keep hkept) hfiling
  obtain ⟨location, hfolder, hentry, rfl⟩ :=
    (target?_join_eq_some_iff hname.isPlainName).1 hleads.target
  exact ⟨hentry, location, (folders_keep hkept).folderAt_eq_ok_iff.1 hfolder, hleads.target⟩

private theorem isTidy_of_keep (hfiles : HoldsFilesOnly store deposit.username)
    (hkept : (store.keep deposit).1 = .ok files) :
    IsTidy (store.keep deposit).2.tree (store.directoryOf deposit.username) := by
  obtain ⟨-, location, hfolder, -⟩ := exists_leadsTo_filing hkept
    (show deposit.raw ∈ deposit.filings from List.mem_cons_self)
  have htidy : IsTidy store.tree (store.directoryOf deposit.username) := by
    refine ⟨location, hfolder, ?_⟩
    intro rest
    rw [node?_of_not_isAnchor (not_isAnchor_append_nameLead location rest)]
    exact hfiles location hfolder (nameLead ++ rest)
  exact htidy.congr (folders_keep hkept)

/-! ## Keeping it again -/

/-- What stands under a name can be replaced by the same bytes, or if there is room
for a staging file. -/
private theorem obstructed_ok_iff {content : Bytes} {filing : Filing}
    (hentry : IsEntryName filing.name) :
    Obstructed (.ok content) filing ↔
      content ≠ filing.content ∧ ¬ IsEntryName (filing.name ++ ".new") := by
  constructor
  · intro hobstructed
    cases hobstructed with
    | unnamed hunnamed => exact absurd hentry hunnamed
    | unreadable hfound => cases hfound
    | cramped hfound hdiffers hlong =>
        cases hfound
        exact ⟨hdiffers, hlong⟩
  · rintro ⟨hdiffers, hlong⟩
    exact .cramped rfl hdiffers hlong

/-- The raw file leaves room, because the compressed one has the longer name. -/
private theorem isEntryName_staging_raw (hkept : (store.keep deposit).1 = .ok files) :
    IsEntryName (deposit.raw.name ++ ".new") := by
  obtain ⟨hraw, -⟩ := exists_leadsTo_filing hkept
    (show deposit.raw ∈ deposit.filings from List.mem_cons_self)
  obtain ⟨hcompressed, -⟩ := exists_leadsTo_filing hkept
    (show deposit.compressed ∈ deposit.filings from List.mem_cons_of_mem _ List.mem_cons_self)
  apply (isEntryName_append_iff hraw (by decide) (by decide)).2
  have hsize := hcompressed.size_le
  have hmarks : compressedMark.utf8ByteSize = 11 ∧ ".new".utf8ByteSize = 4 := by decide +kernel
  rw [Deposit.compressed, ← credentialName_append_compressedMark,
    String.utf8ByteSize_append] at hsize
  change (credentialName deposit.client deposit.id ++ ".new").utf8ByteSize ≤ nameLimit
  rw [String.utf8ByteSize_append]
  omega

private theorem forall_split_pair {α : Type} {left right : α} {P : List α → α → Prop} :
    (∀ before item after, [left, right] = before ++ item :: after → P before item) ↔
      P [] left ∧ P [left] right := by
  constructor
  · intro hall
    exact ⟨hall [] left [right] rfl, hall [left] right [] rfl⟩
  · rintro ⟨hleft, hright⟩ before item after hsplit
    rcases before with _ | ⟨first, _ | ⟨second, rest⟩⟩
    · cases hsplit
      exact hleft
    · cases hsplit
      exact hright
    · simp at hsplit

private theorem contentAt_filing (hkept : (store.keep deposit).1 = .ok files) {filing : Filing}
    (hfiling : filing ∈ deposit.filings) :
    contentAt (store.keep deposit).2.tree store.directoryOf filing = .ok filing.content := by
  obtain ⟨file, hread, hcontent⟩ := holds_filing hkept hfiling
  rw [contentAt, hread]
  exact congrArg Except.ok hcontent

/-- The raw file does not stand in the place of the compressed one. -/
private theorem found_raw_compressed {tree : FileTree} {directoryOf : String → Path}
    {place : Location} (hsafe : isSafeName deposit.client = true)
    (htarget : tree.target? (deposit.compressed.write directoryOf).path = some place) :
    found tree directoryOf [deposit.raw] deposit.compressed =
      contentAt tree directoryOf deposit.compressed := by
  have hraw : IsCredentialName deposit.raw.name := ⟨deposit.client, deposit.id, hsafe, rfl⟩
  have hcompressed : IsCredentialName deposit.compressed.name :=
    ⟨deposit.client, deposit.id ++ compressedMark, hsafe, rfl⟩
  have hlast : lastAimedAt? tree (deposit.compressed.write directoryOf).path
      ([deposit.raw].map (·.write directoryOf)) = none := by
    apply List.find?_eq_none.2
    intro write hwrite haimed
    obtain rfl := List.mem_singleton.1 (List.mem_reverse.1 hwrite)
    have hsame := (of_decide_eq_true haimed).trans htarget
    obtain ⟨hnames, -⟩ := eq_of_target?_eq hcompressed hraw htarget hsame
    exact credentialName_ne_compressed deposit.client deposit.id hnames
  rw [found, hlast]

/-- What was kept is kept again exactly if its compressed form stays the same or
its staging file has a possible name. -/
theorem keep_renewal_iff (hfiles : HoldsFilesOnly store deposit.username)
    (hkept : (store.keep deposit).1 = .ok files) (fresh : Bytes) :
    (∃ files, ((store.keep deposit).2.keep (deposit.renewal fresh)).1 = .ok files) ↔
      compressedLine fresh = compressedLine deposit.material ∨
        IsEntryName (deposit.compressed.name ++ ".new") := by
  have hclient := isSafeName_of_keep hkept
  have hsafe : isSafeName (deposit.renewal fresh).client = true := hclient
  have htidy : ∀ filing ∈ (deposit.renewal fresh).filings,
      IsTidy (store.keep deposit).2.tree (store.directoryOf filing.username) := by
    intro filing hfiling
    rw [username_of_mem_filings hfiling]
    exact isTidy_of_keep hfiles hkept
  have hnames : ∀ filing ∈ (deposit.renewal fresh).filings, IsCredentialName filing.name :=
    fun filing hfiling => isCredentialName_of_mem_filings hsafe hfiling
  have hmemRaw : deposit.raw ∈ deposit.filings := List.mem_cons_self
  have hmem : deposit.compressed ∈ deposit.filings := List.mem_cons_of_mem _ List.mem_cons_self
  obtain ⟨hentryRaw, -⟩ := exists_leadsTo_filing hkept hmemRaw
  obtain ⟨hentry, location, -, htarget⟩ := exists_leadsTo_filing hkept hmem
  have hrawFound : contentAt (store.keep deposit).2.tree store.directoryOf
      (deposit.renewal fresh).raw = .ok deposit.material := contentAt_filing hkept hmemRaw
  have hcompressedFound : found (store.keep deposit).2.tree store.directoryOf
      [(deposit.renewal fresh).raw] (deposit.renewal fresh).compressed =
        .ok (compressedLine deposit.material) := by
    rw [found_raw_compressed hsafe htarget]
    exact contentAt_filing hkept hmem
  have hrawFree : ¬ Obstructed (.ok deposit.material) (deposit.renewal fresh).raw := by
    have hname : IsEntryName (deposit.renewal fresh).raw.name := hentryRaw
    have hroom := isEntryName_staging_raw hkept
    rw [obstructed_ok_iff hname, not_and_not_right]
    exact fun _ => hroom
  have hcompressedFree :
      ¬ Obstructed (.ok (compressedLine deposit.material)) (deposit.renewal fresh).compressed ↔
        compressedLine fresh = compressedLine deposit.material ∨
          IsEntryName (deposit.compressed.name ++ ".new") := by
    have hname : IsEntryName (deposit.renewal fresh).compressed.name := hentry
    rw [obstructed_ok_iff hname, not_and_not_right, ← or_iff_not_imp_left, eq_comm]
    exact Iff.rfl
  rw [(keep_of_safe hsafe).1, directoryOf_keep hkept, writeAll_filings_eq_ok_iff htidy hnames,
    Deposit.filings, forall_split_pair, found_nil, hrawFound, hcompressedFound,
    and_iff_right hrawFree, hcompressedFree]

/-- What was kept can be kept again with any material exactly if the staging file of
the compressed file has a possible name, or else with material that has the same
compressed form. -/
theorem renews_iff (store : Store) (deposit : Deposit) (files : CredentialFiles) (fresh : Bytes)
    (hfiles : HoldsFilesOnly store deposit.username)
    (hkept : (store.keep deposit).1 = .ok files) :
    Renews (store.keep deposit).2 (deposit.renewal fresh) ↔
      compressedLine fresh = compressedLine deposit.material ∨
        (credentialName deposit.client deposit.id ++ "_compressed.new").utf8ByteSize ≤
          nameLimit := by
  have hmem : deposit.compressed ∈ deposit.filings := List.mem_cons_of_mem _ List.mem_cons_self
  have hentry := (exists_leadsTo_filing hkept hmem).1
  have hname : deposit.compressed.name ++ ".new" =
      credentialName deposit.client deposit.id ++ "_compressed.new" := by
    rw [Deposit.compressed, ← credentialName_append_compressedMark, String.append_assoc]
    rfl
  rw [← hname, ← isEntryName_append_iff hentry (by decide) (by decide),
    ← keep_renewal_iff hfiles hkept fresh]
  constructor
  · rintro ⟨found, hfound, -⟩
    exact ⟨found, hfound⟩
  · rintro ⟨found, hfound⟩
    exact renews_of_keep hfound

/-! ## Names that leave no room -/

/-- Whatever was kept in a directory of files only can be kept again with any other
material. -/
def IsAlwaysRenewable : Prop :=
  ∀ (store : Store) (deposit : Deposit) (files : CredentialFiles),
    HoldsFilesOnly store deposit.username → (store.keep deposit).1 = .ok files →
      ∀ fresh, Renews (store.keep deposit).2 (deposit.renewal fresh)

private theorem folderAt_directoryOf_trial (username : String) :
    Store.trial.tree.folderAt (Store.trial.directoryOf username) = .ok ["users"] := by
  change Store.trial.tree.folderAt ⟨"users"⟩ = .ok ["users"]
  decide +kernel

private theorem holdsFilesOnly_trial (username : String) :
    HoldsFilesOnly Store.trial username := by
  intro location hlocation name
  rw [folderAt_directoryOf_trial] at hlocation
  cases hlocation
  simp [Store.trial, FileTree.empty]

/-- An ordinary client and id leave room for any renewal. -/
theorem renews_iff_ordinary :
    HoldsFilesOnly Store.trial "user" ∧
      (Store.trial.keep ⟨"user", "client", "1", [1]⟩).1 =
        .ok ⟨⟨"users/credential_client_1"⟩, ⟨"users/credential_client_1_compressed"⟩⟩ ∧
      ∀ fresh, Renews (Store.trial.keep ⟨"user", "client", "1", [1]⟩).2
        ⟨"user", "client", "1", fresh⟩ := by
  have hkept : (Store.trial.keep ⟨"user", "client", "1", [1]⟩).1 =
      .ok ⟨⟨"users/credential_client_1"⟩, ⟨"users/credential_client_1_compressed"⟩⟩ := by
    decide +kernel
  refine ⟨holdsFilesOnly_trial _, hkept, ?_⟩
  intro fresh
  exact (renews_iff Store.trial ⟨"user", "client", "1", [1]⟩ _ fresh (holdsFilesOnly_trial _)
    hkept).2 (Or.inr (by decide +kernel))

/-- The trial store keeps a deposit if its files can have their names. -/
private theorem exists_keep_trial (hsafe : isSafeName deposit.client = true)
    (hraw : IsEntryName deposit.raw.name) (hcompressed : IsEntryName deposit.compressed.name) :
    ∃ files, (Store.trial.keep deposit).1 = .ok files := by
  have hnames : ∀ filing ∈ deposit.filings, IsCredentialName filing.name :=
    fun filing hfiling => isCredentialName_of_mem_filings hsafe hfiling
  have htidy : ∀ filing ∈ deposit.filings,
      IsTidy Store.trial.tree (Store.trial.directoryOf filing.username) := by
    intro filing _
    refine ⟨["users"], folderAt_directoryOf_trial filing.username, ?_⟩
    intro rest
    rw [node?_of_not_isAnchor (not_isAnchor_append_nameLead ["users"] rest)]
    exact holdsFilesOnly_trial filing.username _ (folderAt_directoryOf_trial _) _
  have hfree : ∀ filing ∈ deposit.filings, IsEntryName filing.name →
      ¬ Obstructed (contentAt Store.trial.tree Store.trial.directoryOf filing) filing := by
    intro filing hfiling hentry
    rw [contentAt_of_free (hnames filing hfiling) (folderAt_directoryOf_trial _) hentry
      (by simp [Store.trial, FileTree.empty])]
    exact not_obstructed_of_free hentry
  have hmem : deposit.compressed ∈ deposit.filings := List.mem_cons_of_mem _ List.mem_cons_self
  have htarget : Store.trial.tree.target?
      (deposit.compressed.write Store.trial.directoryOf).path =
        some (["users"] ++ [deposit.compressed.name]) :=
    (target?_join_eq_some_iff (hnames _ hmem).isPlainName).2
      ⟨["users"], folderAt_directoryOf_trial _, hcompressed, rfl⟩
  rw [(keep_of_safe hsafe).1, writeAll_filings_eq_ok_iff htidy hnames, Deposit.filings,
    forall_split_pair, found_nil, found_raw_compressed hsafe htarget]
  exact ⟨hfree _ List.mem_cons_self hraw, hfree _ hmem hcompressed⟩

/-- A client name of 230 letters: the compressed file of an id can have a name, and
its staging file cannot. -/
private def crampedDeposit : Deposit := ⟨"user", String.ofList (List.replicate 230 'a'), "1", []⟩

/-- The raw file is replaced, and the compressed one keeps the old material. -/
theorem not_isAlwaysRenewable : ¬ IsAlwaysRenewable := by
  intro halways
  have hsafe : isSafeName crampedDeposit.client = true := by decide +kernel
  have hsize : crampedDeposit.client.utf8ByteSize = 230 := by decide +kernel
  have hraw : IsEntryName crampedDeposit.raw.name := by
    apply (isEntryName_credentialName_iff hsafe "1").2
    rw [hsize]
    decide +kernel
  have hcompressed : IsEntryName crampedDeposit.compressed.name := by
    apply (isEntryName_credentialName_iff hsafe ("1" ++ compressedMark)).2
    rw [hsize]
    decide +kernel
  have hstaging : ¬ IsEntryName (crampedDeposit.compressed.name ++ ".new") := by
    intro hentry
    have hfits := hentry.size_le
    have hfull : crampedDeposit.compressed.name.utf8ByteSize = 254 := by decide +kernel
    have hmark : ".new".utf8ByteSize = 4 := by decide +kernel
    rw [String.utf8ByteSize_append, hfull, hmark] at hfits
    exact absurd hfits (by decide)
  have hlines : compressedLine [0] ≠ compressedLine crampedDeposit.material := by decide +kernel
  obtain ⟨files, hkept⟩ := exists_keep_trial hsafe hraw hcompressed
  obtain ⟨again, hagain, -⟩ :=
    halways Store.trial crampedDeposit files (holdsFilesOnly_trial _) hkept [0]
  rcases (keep_renewal_iff (holdsFilesOnly_trial _) hkept [0]).1 ⟨again, hagain⟩ with
    hsame | hentry
  · exact hlines hsame
  · exact hstaging hentry

end CredentialIntake.Store
