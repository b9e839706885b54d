import CredentialIntake.Proofs.Holdings
import CredentialIntake.Proofs.KeptDeposits

/-!
# What keeps a filing from being made

In a directory that holds no directories where credentials go, a filing fails for
three reasons only: its name cannot be a name, what stands there cannot be read,
or other bytes stand there and the staging file's name would be too long.  What
stands there is what was filed last, or what was there at first.
-/

namespace CredentialIntake.Store

open CredentialIntake.Path
open FileTree

/-! ## Directories without directories -/

/-- The folder is there, and no directory stands where a credential would. -/
def IsTidy (tree : FileTree) (folder : Path) : Prop :=
  ∃ location, tree.folderAt folder = .ok location ∧
    ∀ rest, tree.node? (location ++ [nameLead ++ rest]) ≠ some .directory

theorem IsTidy.congr {before after : FileTree} {folder : Path} (htidy : IsTidy before folder)
    (hsame : SameFolders before after) : IsTidy after folder := by
  obtain ⟨location, hfolder, hnodes⟩ := htidy
  refine ⟨location, hsame.folderAt_eq_ok_iff.2 hfolder, ?_⟩
  intro rest hnode
  exact hnodes rest ((hsame _).1 hnode)

theorem not_isAnchor_append_nameLead (location : Location) (rest : String) :
    (location ++ [nameLead ++ rest]).isAnchor = false := by
  rw [Location.isAnchor, Bool.or_eq_false_iff]
  constructor
  · have hname : nameLead ++ rest ≠ ".." := append_ne_of_length_lt (by decide) rest
    simp [hname]
  · rw [beq_eq_false_iff_ne]
    intro heq
    have hlast := congrArg List.getLast? heq
    rw [List.getLast?_append_cons] at hlast
    exact append_ne_of_length_lt (by decide) rest (Option.some.inj hlast)

theorem IsCredentialName.exists_rest {name : String} (hname : IsCredentialName name) :
    ∃ rest, name = nameLead ++ rest := by
  obtain ⟨client, id, -, rfl⟩ := hname
  exact ⟨client ++ "_" ++ escapeId id, by simp only [credentialName, nameLead, String.append_assoc]⟩

/-- A file can be named after a credential unless the id has a zero byte or
client and id are too long together. -/
theorem isEntryName_credentialName_iff {client : String} (hsafe : isSafeName client = true)
    (id : String) :
    IsEntryName (credentialName client id) ↔
      '\x00' ∉ (escapeId id).toList ∧
        12 + client.utf8ByteSize + (escapeId id).utf8ByteSize ≤ nameLimit := by
  have hname : IsCredentialName (credentialName client id) := ⟨client, id, hsafe, rfl⟩
  have hnul : '\x00' ∈ (credentialName client id).toList ↔ '\x00' ∈ (escapeId id).toList := by
    rw [toList_credentialName, escapeId, String.toList_ofList]
    simp [(isSafeName_iff.1 hsafe).nul_not_mem, nameLead]
  have hsize : (credentialName client id).utf8ByteSize =
      12 + client.utf8ByteSize + (escapeId id).utf8ByteSize := by
    have hlead : "credential_".utf8ByteSize = 11 ∧ "_".utf8ByteSize = 1 := by decide +kernel
    rw [credentialName, String.utf8ByteSize_append, String.utf8ByteSize_append,
      String.utf8ByteSize_append]
    omega
  rw [← hnul, ← hsize]
  constructor
  · intro hentry
    exact ⟨hentry.nul_not_mem, hentry.size_le⟩
  · rintro ⟨hclean, hle⟩
    obtain ⟨rest, hrest⟩ := hname.exists_rest
    rw [hrest] at hclean hle ⊢
    exact ⟨hclean, append_ne_of_length_lt (by decide) rest,
      append_ne_of_length_lt (by decide) rest, hle⟩

/-! ## One filing -/

/-- What keeps a filing from being made, where `found` is what is read under its
name. -/
inductive Obstructed (found : Except FileFault Bytes) (filing : Filing) : Prop where
  | unnamed :
      ¬ IsEntryName filing.name → Obstructed found filing
  | unreadable :
      found = .error .permissionDenied → Obstructed found filing
  /-- The bytes would have to be replaced, and the staging file has no name. -/
  | cramped {content : Bytes} :
      found = .ok content → content ≠ filing.content → ¬ IsEntryName (filing.name ++ ".new") →
      Obstructed found filing

section Single

variable {tree after : FileTree} {directoryOf : String → Path} {filing : Filing}

/-- What is read under the name of a filing. -/
def contentAt (tree : FileTree) (directoryOf : String → Path) (filing : Filing) :
    Except FileFault Bytes :=
  (tree.read (filing.write directoryOf).path).map (·.content)

/-- A filing leads to an entry of its folder, unless its name cannot be one. -/
private theorem leadsTo_of_isTidy (htidy : IsTidy tree (directoryOf filing.username))
    (hname : IsCredentialName filing.name) (hentry : IsEntryName filing.name) :
    ∃ location, LeadsTo tree (filing.write directoryOf).path (location ++ [filing.name]) ∧
      ∀ suffix, tree.node? (location ++ [filing.name ++ suffix]) ≠ some .directory := by
  obtain ⟨location, hfolder, hnodes⟩ := htidy
  obtain ⟨rest, hrest⟩ := hname.exists_rest
  refine ⟨location, ⟨?_, endsWithSlash_join hname.isPlainName⟩, ?_⟩
  · exact (target?_join_eq_some_iff hname.isPlainName).2 ⟨location, hfolder, hentry, rfl⟩
  · intro suffix
    rw [hrest, String.append_assoc]
    exact hnodes (rest ++ suffix)

theorem contentAt_of_free {location : Location} (hname : IsCredentialName filing.name)
    (hfolder : tree.folderAt (directoryOf filing.username) = .ok location)
    (hentry : IsEntryName filing.name)
    (hfree : tree.nodes[location ++ [filing.name]]? = none) :
    contentAt tree directoryOf filing = .error .notFound := by
  obtain ⟨rest, hrest⟩ := hname.exists_rest
  have hleads : LeadsTo tree (filing.write directoryOf).path (location ++ [filing.name]) :=
    ⟨(target?_join_eq_some_iff hname.isPlainName).2 ⟨location, hfolder, hentry, rfl⟩,
      endsWithSlash_join hname.isPlainName⟩
  have hanchor := not_isAnchor_append_nameLead location rest
  rw [← hrest] at hanchor
  rw [contentAt, read_of_leadsTo hleads, node?_of_not_isAnchor hanchor, hfree]
  rfl

private theorem isEntryName_of_leadsTo {place : Location} (hname : IsCredentialName filing.name)
    (hleads : LeadsTo tree (filing.write directoryOf).path place) :
    ∃ location, place = location ++ [filing.name] ∧ IsEntryName filing.name := by
  obtain ⟨location, -, hentry, hplace⟩ :=
    (target?_join_eq_some_iff hname.isPlainName).1 hleads.target
  exact ⟨location, hplace, hentry⟩

/-- A filing that fails was obstructed, and nothing has been touched. -/
private theorem obstructed_of_effect {error : IntakeError}
    (htidy : IsTidy tree (directoryOf filing.username)) (hname : IsCredentialName filing.name)
    (heffect : WriteEffect tree (filing.write directoryOf).path filing.content (.error error)
      after) :
    Obstructed (contentAt tree directoryOf filing) filing ∧ after = tree := by
  by_cases hentry : IsEntryName filing.name
  · obtain ⟨location, hleads, hnodes⟩ := leadsTo_of_isTidy htidy hname hentry
    have hread := read_of_leadsTo hleads
    have hnode := hnodes ""
    rw [String.append_empty] at hnode
    cases heffect with
    | @unreadable fault hfault hfound =>
        refine ⟨.unreadable ?_, rfl⟩
        rw [contentAt, hfault]
        rw [hfault] at hread
        split at hread
        · exact absurd (Except.error.inj hread) hfound
        next hdirectory => exact absurd hdirectory hnode
        · split at hread
          · cases hread
          · rw [Except.error.inj hread]
            rfl
    | @uncreatable fault hmissing hcreate =>
        rw [create_of_leadsTo hleads] at hcreate
        rw [hmissing] at hread
        split at hread
        next hfree =>
          rw [hfree] at hcreate
          cases hcreate
        · cases hread
        · split at hread <;> cases hread
    | @unstaged folder name file fault hsite hfile hcontent hblocked =>
        obtain ⟨rfl, rfl⟩ := List.append_singleton_inj.1 (hsite.unique hleads)
        have hstaging : ¬ IsEntryName (filing.name ++ ".new") :=
          fun hstaging => hnodes ".new" (hblocked hstaging)
        refine ⟨.cramped ?_ hcontent hstaging, discard_backup_of_unnamed hsite hstaging⟩
        rw [contentAt, hfile]
        rfl
  · refine ⟨.unnamed hentry, ?_⟩
    cases heffect with
    | unreadable => rfl
    | uncreatable => rfl
    | unstaged hsite =>
        obtain ⟨-, -, hother⟩ := isEntryName_of_leadsTo hname hsite
        exact absurd hother hentry

/-- Under a name that can be one, what is not there yet can be made. -/
theorem not_obstructed_of_free (hentry : IsEntryName filing.name) :
    ¬ Obstructed (.error .notFound) filing := by
  intro hobstructed
  cases hobstructed with
  | unnamed hunnamed => exact hunnamed hentry
  | unreadable hfound => cases hfound
  | cramped hfound => cases hfound

private theorem not_obstructed_of_fits {content : Bytes} (hentry : IsEntryName filing.name)
    (hfits : content = filing.content ∨ IsEntryName (filing.name ++ ".new")) :
    ¬ Obstructed (.ok content) filing := by
  intro hobstructed
  cases hobstructed with
  | unnamed hunnamed => exact hunnamed hentry
  | unreadable hfound => cases hfound
  | cramped hfound hdiffers hlong =>
      cases hfound
      exact hfits.elim hdiffers hlong

/-- A filing that succeeds was not obstructed. -/
private theorem not_obstructed_of_effect {outcome : WriteOutcome}
    (hname : IsCredentialName filing.name)
    (heffect : WriteEffect tree (filing.write directoryOf).path filing.content (.ok outcome)
      after) :
    ¬ Obstructed (contentAt tree directoryOf filing) filing := by
  obtain ⟨place, hheld⟩ := heffect.holds.leadsTo
  have hleads := hheld.congr heffect.agreesOutside.folders.symm
  obtain ⟨location, rfl, hentry⟩ := isEntryName_of_leadsTo hname hleads
  cases heffect with
  | created hsite hfree =>
      obtain rfl := hsite.unique hleads
      have hread := read_of_leadsTo hleads
      rw [hfree] at hread
      rw [contentAt, hread]
      exact not_obstructed_of_free hentry
  | unchanged hfile hcontent =>
      rw [contentAt, hfile]
      exact not_obstructed_of_fits hentry (Or.inl hcontent)
  | replaced hsite hfile hcontent hstaging =>
      obtain ⟨-, rfl⟩ := List.append_singleton_inj.1 (hsite.unique hleads)
      rw [contentAt, hfile]
      exact not_obstructed_of_fits hentry (Or.inr hstaging)

end Single

section Runs

variable {store : Store} {directoryOf : String → Path}

/-- A filing fails exactly if it is obstructed, and then nothing is touched. -/
theorem writeFile_eq_ok_iff {filing : Filing}
    (htidy : IsTidy store.tree (directoryOf filing.username))
    (hname : IsCredentialName filing.name) :
    (∃ outcome, (store.writeFile (filing.write directoryOf)).1 = .ok outcome) ↔
      ¬ Obstructed (contentAt store.tree directoryOf filing) filing := by
  have heffect := store.writeFile_effect (filing.write directoryOf)
  cases hresult : (store.writeFile (filing.write directoryOf)).1 with
  | ok outcome =>
      rw [hresult] at heffect
      exact iff_of_true ⟨outcome, rfl⟩ (not_obstructed_of_effect hname heffect)
  | error error =>
      rw [hresult] at heffect
      refine iff_of_false ?_ (not_not_intro (obstructed_of_effect htidy hname heffect).1)
      rintro ⟨outcome, hok⟩
      cases hok

theorem holdings_of_obstructed {filing : Filing}
    (htidy : IsTidy store.tree (directoryOf filing.username))
    (hname : IsCredentialName filing.name)
    (hobstructed : Obstructed (contentAt store.tree directoryOf filing) filing) :
    ∃ error, (store.writeFile (filing.write directoryOf)).1 = .error error ∧
      (store.writeFile (filing.write directoryOf)).2.holdings = store.holdings := by
  have heffect := store.writeFile_effect (filing.write directoryOf)
  have hcounters := store.counters_writeFile (filing.write directoryOf)
  cases hresult : (store.writeFile (filing.write directoryOf)).1 with
  | ok outcome =>
      exact absurd hobstructed ((writeFile_eq_ok_iff htidy hname).1 ⟨outcome, hresult⟩)
  | error error =>
      rw [hresult] at heffect hcounters
      refine ⟨error, rfl, ?_⟩
      rw [holdings, (obstructed_of_effect htidy hname heffect).2, hcounters]
      rfl

/-! ## Filings one after the other -/

/-- What a filing finds under its name after others: what was filed there last,
or what is read there at first. -/
def found (tree : FileTree) (directoryOf : String → Path) (earlier : List Filing)
    (filing : Filing) : Except FileFault Bytes :=
  match lastAimedAt? tree (filing.write directoryOf).path
      (earlier.map (·.write directoryOf)) with
  | some write => .ok write.content
  | none => contentAt tree directoryOf filing

@[simp]
theorem found_nil (tree : FileTree) (directoryOf : String → Path) (filing : Filing) :
    found tree directoryOf [] filing = contentAt tree directoryOf filing := rfl

private theorem siblingFree_filings {filings : List Filing}
    (hnames : ∀ filing ∈ filings, IsCredentialName filing.name) (tree : FileTree) :
    SiblingFree tree (filings.map (·.write directoryOf)) := by
  apply siblingFree_of_isCredentialPath
  intro write hwrite
  obtain ⟨filing, hfiling, rfl⟩ := List.mem_map.1 hwrite
  exact ⟨directoryOf filing.username, filing.name, hnames filing hfiling, rfl⟩

/-- A place that no filing leads to is left as it was. -/
private theorem node?_writeAll_filings {filings : List Filing} {filing : Filing}
    (hnames : ∀ other ∈ filings, IsCredentialName other.name)
    (hname : IsCredentialName filing.name) {place : Location}
    (hplace : store.tree.target? (filing.write directoryOf).path = some place)
    (hnone : lastAimedAt? store.tree (filing.write directoryOf).path
      (filings.map (·.write directoryOf)) = none) :
    (store.writeAll (filings.map (·.write directoryOf))).2.tree.node? place =
      store.tree.node? place := by
  apply (store.writeAll_agreesOutside _).node?_eq
  rintro ⟨write, hwrite, sibling, hsibling, htarget⟩
  obtain ⟨other, hother, rfl⟩ := List.mem_map.1 hwrite
  have hsiblings := target?_sibling_ne
    (⟨other.name, hnames other hother, rfl⟩ :
      IsCredentialPath (directoryOf other.username) (other.write directoryOf).path)
    ⟨filing.name, hname, rfl⟩ hplace
  simp only [List.mem_cons, List.not_mem_nil, or_false] at hsibling
  rcases hsibling with rfl | rfl | rfl
  · have hpasses := List.find?_eq_none.1 hnone _ (List.mem_reverse.2 hwrite)
    exact hpasses (decide_eq_true (htarget.trans hplace.symm))
  · exact hsiblings.1 htarget
  · exact hsiblings.2 htarget

/-- What is read under the name of a filing after others that succeeded. -/
private theorem contentAt_writeAll {earlier : List Filing} {filing : Filing}
    (hnames : ∀ other ∈ earlier, IsCredentialName other.name)
    (hname : IsCredentialName filing.name)
    (hdone : (store.writeAll (earlier.map (·.write directoryOf))).1 = .ok ())
    {place : Location} (hleads : LeadsTo store.tree (filing.write directoryOf).path place) :
    contentAt (store.writeAll (earlier.map (·.write directoryOf))).2.tree directoryOf filing =
      found store.tree directoryOf earlier filing := by
  have hsame := (store.writeAll_agreesOutside (earlier.map (·.write directoryOf))).folders
  rw [found]
  cases hlast : lastAimedAt? store.tree (filing.write directoryOf).path
      (earlier.map (·.write directoryOf)) with
  | none =>
      have hnode := node?_writeAll_filings hnames hname hleads.target hlast
      rw [contentAt, contentAt, read_of_leadsTo hleads, read_of_leadsTo (hleads.congr hsame),
        hnode]
  | some last =>
      have haimed : store.tree.target? last.path =
          store.tree.target? (filing.write directoryOf).path :=
        of_decide_eq_true (List.find?_eq_some_iff_append.1 hlast).1
      have hmem := List.mem_reverse.1 (List.mem_of_find?_eq_some hlast)
      obtain ⟨other, hother, hholds⟩ :=
        writeAll_holds_lastAimedAt hdone (siblingFree_filings hnames store.tree) hmem
      rw [lastAimedAt?, haimed] at hother
      obtain rfl := Option.some.inj (hother.symm.trans hlast)
      obtain ⟨file, hread, hcontent⟩ := hholds.congr
        ((hsame.target?_eq other.path).trans (haimed.trans hleads.target)) (hleads.congr hsame)
      rw [contentAt, hread]
      exact congrArg Except.ok hcontent

theorem obstructed_writeAll_iff {earlier : List Filing} {filing : Filing}
    (htidy : IsTidy store.tree (directoryOf filing.username))
    (hnames : ∀ other ∈ earlier, IsCredentialName other.name)
    (hname : IsCredentialName filing.name)
    (hdone : (store.writeAll (earlier.map (·.write directoryOf))).1 = .ok ()) :
    Obstructed (contentAt (store.writeAll (earlier.map (·.write directoryOf))).2.tree
        directoryOf filing) filing ↔
      Obstructed (found store.tree directoryOf earlier filing) filing := by
  by_cases hentry : IsEntryName filing.name
  · obtain ⟨location, hleads, -⟩ := leadsTo_of_isTidy htidy hname hentry
    rw [contentAt_writeAll hnames hname hdone hleads]
  · exact iff_of_true (.unnamed hentry) (.unnamed hentry)

private theorem writeAll_singleton_eq_ok_iff {write : FileWrite} :
    (store.writeAll [write]).1 = .ok () ↔
      ∃ outcome, (store.writeFile write).1 = .ok outcome := by
  cases hfirst : (store.writeFile write).1 with
  | ok outcome => exact iff_of_true (by rw [writeAll_cons_ok hfirst]; rfl) ⟨outcome, rfl⟩
  | error error => simp [writeAll_cons_error hfirst]

/-- Filings all succeed exactly if none of them is obstructed by what stands
there after those before it. -/
theorem writeAll_filings_eq_ok_iff {filings : List Filing}
    (htidy : ∀ filing ∈ filings, IsTidy store.tree (directoryOf filing.username))
    (hnames : ∀ filing ∈ filings, IsCredentialName filing.name) :
    (store.writeAll (filings.map (·.write directoryOf))).1 = .ok () ↔
      ∀ before filing after, filings = before ++ filing :: after →
        ¬ Obstructed (found store.tree directoryOf before filing) filing := by
  induction filings using List.reverseRecOn with
  | nil => simp [writeAll]
  | append_singleton earlier last ih =>
      have hearlier := ih (fun filing hfiling => htidy filing (List.mem_append_left _ hfiling))
        fun filing hfiling => hnames filing (List.mem_append_left _ hfiling)
      have htidyLast := htidy last (by simp)
      have hnameLast := hnames last (by simp)
      have hnamesEarlier : ∀ other ∈ earlier, IsCredentialName other.name :=
        fun other hother => hnames other (List.mem_append_left _ hother)
      rw [List.map_append, writeAll_append_eq_ok_iff]
      have hlast : (store.writeAll (earlier.map (·.write directoryOf))).1 = .ok () →
          ((((store.writeAll (earlier.map (·.write directoryOf))).2.writeAll
            [last.write directoryOf]).1 = .ok ()) ↔
              ¬ Obstructed (found store.tree directoryOf earlier last) last) := by
        intro hdone
        have hsame := (store.writeAll_agreesOutside (earlier.map (·.write directoryOf))).folders
        rw [← obstructed_writeAll_iff htidyLast hnamesEarlier hnameLast hdone,
          ← writeFile_eq_ok_iff (htidyLast.congr hsame) hnameLast, writeAll_singleton_eq_ok_iff]
      constructor
      · rintro ⟨hdone, hfinal⟩ before filing after hsplit
        rcases List.eq_nil_or_concat after with rfl | ⟨inside, final, rfl⟩
        · obtain ⟨rfl, rfl⟩ := List.append_singleton_inj.1 hsplit
          exact (hlast hdone).1 hfinal
        · rw [List.concat_eq_append, ← List.cons_append, ← List.append_assoc] at hsplit
          obtain ⟨hsame, -⟩ := List.append_inj' hsplit rfl
          exact hearlier.1 hdone before filing inside hsame
      · intro hfree
        have hdone := hearlier.2 fun before filing after hsplit =>
          hfree before filing (after ++ [last]) (by simp [hsplit])
        exact ⟨hdone, (hlast hdone).2 (hfree earlier last [] rfl)⟩

/-- Filings that do not all succeed leave files and counters alone exactly if
already the first of them is obstructed. -/
theorem holdings_writeAll_filings_iff {first : Filing} {rest : List Filing}
    (htidy : IsTidy store.tree (directoryOf first.username))
    (hname : IsCredentialName first.name) :
    (store.writeAll ((first :: rest).map (·.write directoryOf))).2.holdings = store.holdings ↔
      Obstructed (found store.tree directoryOf [] first) first := by
  rw [List.map_cons, found_nil]
  constructor
  · intro hsame
    by_contra hfree
    obtain ⟨outcome, hfirst⟩ := (writeFile_eq_ok_iff htidy hname).2 hfree
    -- the write that succeeded stays counted
    have htotal := total_le_total_writeAll (store.writeFile (first.write directoryOf)).2
      (rest.map (·.write directoryOf))
    rw [← writeAll_cons_ok hfirst, counters_writeFile, hfirst, StoreCounters.total_count_ok]
      at htotal
    have hcounters := congrArg Holdings.counters hsame
    simp only [holdings] at hcounters
    rw [hcounters] at htotal
    exact absurd htotal (Nat.not_succ_le_self _)
  · intro hobstructed
    obtain ⟨error, hfirst, hholdings⟩ := holdings_of_obstructed htidy hname hobstructed
    rw [writeAll_cons_error hfirst, hholdings]

end Runs

end CredentialIntake.Store
