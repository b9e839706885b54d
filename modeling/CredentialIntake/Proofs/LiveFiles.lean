import CredentialIntake.Proofs.Deposits

/-!
# Live files and their siblings

While a credential file is replaced, two siblings stand beside it: the backup,
whose name ends in `.old`, and the staging file, whose name ends in `.new`.  A
client name may hold dots and underscores and even end in `.old`, but behind it
the name of a credential file goes on with an underscore and an escaped id, in
which every dot has a comma after it.  So no sibling is itself a credential
file, and an update never takes another credential's file away through one.
-/

namespace CredentialIntake

namespace Store

open CredentialIntake.Path
open FileTree

namespace CredentialFiles

/-- The paths under which a credential is kept. -/
def live (files : CredentialFiles) : List Path := [files.raw, files.compressed]

/-- The paths that replacing the files makes use of besides. -/
def siblings (files : CredentialFiles) : List Path :=
  files.live.flatMap fun path => [backupPath path, stagingPath path]

end CredentialFiles

theorem isCredentialPath_of_mem_live {client : String} (hsafe : isSafeName client = true)
    {folder path : Path} {id : String} (hmem : path ∈ (credentialFiles folder client id).live) :
    IsCredentialPath folder path := by
  rw [credentialFiles_eq hsafe, CredentialFiles.live] at hmem
  rcases List.mem_pair.1 hmem with rfl | rfl
  · exact ⟨_, ⟨client, id, hsafe, rfl⟩, rfl⟩
  · exact ⟨_, ⟨client, id ++ compressedMark, hsafe, rfl⟩, rfl⟩

/-! ## Siblings are no live files -/

theorem IsCredentialName.append_ne_here {name : String} (hname : IsCredentialName name)
    (suffix : String) : name ++ suffix ≠ "." := by
  obtain ⟨client, id, -, rfl⟩ := hname
  simp only [credentialName, String.append_assoc]
  exact append_ne_of_length_lt (by decide) _

section Siblings

variable {folder otherFolder path live sibling : Path}

/-- A sibling ends with a name that no credential has. -/
private theorem components_withSuffix_ne {suffix : String} (hpath : IsCredentialPath folder path)
    (hlive : IsCredentialPath otherFolder live) (hsuffix : suffix = ".old" ∨ suffix = ".new") :
    (path.withSuffix suffix).components ≠ live.components := by
  obtain ⟨name, hname, rfl⟩ := hpath
  obtain ⟨other, hother, rfl⟩ := hlive
  have hslash : '/' ∉ suffix.toList := by rcases hsuffix with rfl | rfl <;> decide
  intro heq
  have hlast := congrArg List.getLast? heq
  rw [withSuffix_join hname.isPlainName hslash,
    getLast?_components_join (hname.isPlainName.append hslash) (hname.append_ne_here suffix),
    getLast?_components_join hother.isPlainName
      (by simpa using hother.append_ne_here "")] at hlast
  have hnames := Option.some.inj hlast
  rcases hsuffix with rfl | rfl
  · exact (hother.ne_append name).1 hnames.symm
  · exact (hother.ne_append name).2 hnames.symm

theorem exists_of_mem_siblings {client : String} (hsafe : isSafeName client = true) {id : String}
    (hmem : sibling ∈ (credentialFiles folder client id).siblings) :
    ∃ path, IsCredentialPath folder path ∧
      (sibling = backupPath path ∨ sibling = stagingPath path) := by
  obtain ⟨path, hpath, hsibling⟩ := List.mem_flatMap.1 hmem
  exact ⟨path, isCredentialPath_of_mem_live hsafe hpath, List.mem_pair.1 hsibling⟩

end Siblings

/-! ## Updates -/

/-- What persisting a credential concerns, besides its own live files. -/
private theorem mem_footprint_persist {store : Store} (deposit : Deposit) {live : Path}
    {folder : Path} {place : Location} (hsafe : isSafeName deposit.client = true)
    (hlive : IsCredentialPath folder live) (htarget : store.tree.target? live = some place)
    (hmem : place ∈ runFootprint store.tree (deposit.writes store.directoryOf)) :
    ∃ own ∈ (deposit.files store.directoryOf).live, store.tree.target? own = some place := by
  obtain ⟨write, hwrite, sibling, hsibling, hplace⟩ := hmem
  have hsiblings :=
    target?_sibling_ne (isCredentialPath_of_mem_writes hsafe hwrite) hlive htarget
  simp only [List.mem_cons, List.not_mem_nil, or_false] at hsibling
  rcases hsibling with rfl | rfl | rfl
  · refine ⟨write.path, ?_, hplace⟩
    rw [Deposit.writes, writesFor] at hwrite
    rcases List.mem_pair.1 hwrite with rfl | rfl <;> simp [CredentialFiles.live]
  · exact absurd hplace hsiblings.1
  · exact absurd hplace hsiblings.2

theorem tree_persist_of_safe {store : Store} (deposit : Deposit)
    (hsafe : isSafeName deposit.client = true) :
    (store.persist deposit.username deposit.id deposit.material deposit.client).2.tree =
      (store.writeAll (deposit.writes store.directoryOf)).2.tree := by
  rw [persist_of_safe hsafe]
  cases store.writeAll (deposit.writes store.directoryOf) with
  | mk result after => cases result <;> rfl

/-- No backup and no staging file of a credential is a live file of any credential, the same or
another, in whatever directories they are kept: the paths differ, and in no tree do they lead to
one place.  So an update leaves alone every place of another credential's live files that is no
place of its own. -/
theorem siblings_apart_from_live (folder otherFolder : Path) {client other : String}
    (hclient : isSafeName client = true) (hother : isSafeName other = true) (id rest : String) :
    (∀ sibling ∈ (credentialFiles folder client id).siblings,
      ∀ live ∈ (credentialFiles otherFolder other rest).live,
        sibling ≠ live ∧ sibling.components ≠ live.components ∧
          ∀ (tree : FileTree) (place : Location),
            tree.target? live = some place → tree.target? sibling ≠ some place) ∧
    ∀ (store : Store) (username : String) (material : Bytes),
      store.directoryOf username = folder →
      ∀ live ∈ (credentialFiles otherFolder other rest).live, ∀ place,
        store.tree.target? live = some place →
        (∀ own ∈ (credentialFiles folder client id).live,
          store.tree.target? own ≠ some place) →
        (store.persist username id material client).2.tree.node? place =
          store.tree.node? place := by
  constructor
  · intro sibling hsibling live hmem
    obtain ⟨path, hpath, hcases⟩ := exists_of_mem_siblings hclient hsibling
    have hlive := isCredentialPath_of_mem_live hother hmem
    have hcomponents : sibling.components ≠ live.components := by
      rcases hcases with rfl | rfl
      · exact components_withSuffix_ne hpath hlive (Or.inl rfl)
      · exact components_withSuffix_ne hpath hlive (Or.inr rfl)
    refine ⟨fun heq => hcomponents (congrArg Path.components heq), hcomponents, ?_⟩
    intro tree place htarget
    rcases hcases with rfl | rfl
    · exact (target?_sibling_ne hpath hlive htarget).1
    · exact (target?_sibling_ne hpath hlive htarget).2
  · rintro store username material rfl live hmem place htarget hown
    have hlive := isCredentialPath_of_mem_live hother hmem
    let deposit : Deposit := ⟨username, client, id, material⟩
    have hagrees := store.writeAll_agreesOutside (deposit.writes store.directoryOf)
    have htree : (store.persist username id material client).2.tree =
        (store.writeAll (deposit.writes store.directoryOf)).2.tree :=
      tree_persist_of_safe deposit hclient
    rw [htree]
    apply hagrees.node?_eq
    intro hfootprint
    obtain ⟨own, hlives, hplace⟩ :=
      mem_footprint_persist deposit hclient hlive htarget hfootprint
    exact hown own hlives hplace

/-- A store in which one credential is kept. -/
def livingStore : Store :=
  { trial with
    tree := trial.tree.insert ["users", "credential_fe_1.old_"] (.file ⟨privateMode, [7]⟩) }

/-- A client whose name ends like the backup of another client's credential, with the empty id:
one more underscore keeps its file out of the way of the update. -/
theorem siblings_apart_from_live_trailing :
    isSafeName "fe" = true ∧ isSafeName "fe_1.old" = true ∧
      Path.mk "users/credential_fe_1.old" ∈ (credentialFiles ⟨"users"⟩ "fe" "1").siblings ∧
      Path.mk "users/credential_fe_1.old_" ∈ (credentialFiles ⟨"users"⟩ "fe_1.old" "").live ∧
      (Path.mk "users/credential_fe_1.old").components ≠
        (Path.mk "users/credential_fe_1.old_").components ∧
      ∀ material, (livingStore.persist "user" "1" material "fe").2.tree.node?
        ["users", "credential_fe_1.old_"] = some (.file ⟨privateMode, [7]⟩) := by
  have hclient : isSafeName "fe" = true := by decide
  have hother : isSafeName "fe_1.old" = true := by decide
  have hsibling : Path.mk "users/credential_fe_1.old" ∈
      (credentialFiles ⟨"users"⟩ "fe" "1").siblings := List.mem_cons_self
  have hlive : Path.mk "users/credential_fe_1.old_" ∈
      (credentialFiles ⟨"users"⟩ "fe_1.old" "").live := List.mem_cons_self
  obtain ⟨hapart, hupdate⟩ :=
    siblings_apart_from_live ⟨"users"⟩ ⟨"users"⟩ hclient hother "1" ""
  refine ⟨hclient, hother, hsibling, hlive, (hapart _ hsibling _ hlive).2.1, ?_⟩
  intro material
  have hkept := hupdate livingStore "user" material rfl _ hlive
    ["users", "credential_fe_1.old_"] (by decide +kernel) (by decide +kernel)
  rw [hkept]
  decide +kernel

end Store

end CredentialIntake
