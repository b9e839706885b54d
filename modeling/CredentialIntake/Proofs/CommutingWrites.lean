import CredentialIntake.Proofs.AlikeTrees
import CredentialIntake.Proofs.Obstacles
import CredentialIntake.Proofs.UserDirectories

/-!
# Writes that can be exchanged

Writes to different files of the users of a factory do not see each other, and
writing the same bytes twice ends like writing them once.  Among writes of which
no two bring different bytes to one file the order therefore does not matter, and
none of them ends otherwise for the others.
-/

namespace CredentialIntake

open CredentialIntake.Path

namespace Store

open FileTree FileProgram

/-! ## A write and its siblings -/

theorem eq_of_siblings_meet {name other sibling : String} (hname : IsCredentialName name)
    (hother : IsCredentialName other) (hleft : sibling ∈ siblingNames name)
    (hright : sibling ∈ siblingNames other) : name = other :=
  eq_of_siblingNames_meet (hname.ne_append other) (hother.ne_append name) hleft hright

section Within

variable {paths : Set Path} {path : Path}

private theorem within_createTarget (pieces : Pieces) (hpath : path ∈ paths) (content : Bytes) :
    (createTarget pieces path content).Within paths := by
  apply within_bind (within_write pieces hpath _ content)
  rintro (fault | done) <;> exact within_pure _

private theorem within_replaceTarget (pieces : Pieces) (hpath : path ∈ paths)
    (hbackup : backupPath path ∈ paths) (hstaging : stagingPath path ∈ paths) (content : Bytes) :
    (replaceTarget pieces path content).Within paths := by
  have hremove : ∀ {other : Path}, other ∈ paths → (attempt (.remove other)).Within paths :=
    fun hother => within_attempt (by simpa [FileChange.paths] using hother)
  apply within_bind (hremove hbackup)
  intro _
  apply within_bind (hremove hstaging)
  intro _
  apply within_bind (within_write pieces hstaging _ content)
  rintro (fault | done)
  · exact within_pure _
  apply within_bind (within_copy pieces hpath hbackup)
  intro backup
  apply within_bind (within_attempt (by simp [FileChange.paths, hpath, hstaging]))
  rintro (fault | done)
  · apply within_bind (hremove hstaging)
    intro _
    exact within_pure _
  · exact within_pure _

private theorem within_atomicWriteProgram (pieces : Pieces) (hpath : path ∈ paths)
    (hbackup : backupPath path ∈ paths) (hstaging : stagingPath path ∈ paths) (content : Bytes) :
    (atomicWriteProgram pieces path content).Within paths := by
  apply within_bind (within_readFile hpath)
  rintro (fault | file)
  · cases fault <;> first | exact within_createTarget pieces hpath content | exact within_pure _
  · simp only
    split
    · exact within_pure _
    · exact within_replaceTarget pieces hpath hbackup hstaging content

end Within

/-- Where trees are alike under a name and those of its siblings, a write to it
ends alike. -/
theorem atomicWrite_alike {folder : Path} {name : String} (hplain : IsPlainName name)
    (content : Bytes) {left right : FileTree}
    (halike : AlikeIn folder (siblingNames name) left right) :
    (atomicWrite (folder.join name) content left).1 =
        (atomicWrite (folder.join name) content right).1 ∧
      AlikeIn folder (siblingNames name) (atomicWrite (folder.join name) content left).2
        (atomicWrite (folder.join name) content right).2 := by
  have hsibling : ∀ suffix ∈ ["", ".old", ".new"], '/' ∉ suffix.toList →
      (folder.join name).withSuffix suffix ∈ pathsIn folder (siblingNames name) := by
    intro suffix hsuffix hslash
    exact ⟨name ++ suffix, ⟨suffix, hsuffix, rfl⟩, hplain.append hslash,
      withSuffix_join hplain hslash⟩
  have hpath := hsibling "" (by simp) (by decide)
  rw [withSuffix, String.append_empty] at hpath
  exact run_alike (within_atomicWriteProgram Pieces.whole hpath
    (hsibling ".old" (by simp) (by decide)) (hsibling ".new" (by simp) (by decide)) content) halike

/-! ## Writes of credentials -/

/-- A write to the file of a credential in the directory of a user. -/
def IsCredentialWrite (config : FactoryConfig) (write : FileWrite) : Prop :=
  ∃ username name, '/' ∉ username.toList ∧ IsCredentialName name ∧
    write.path = (config.credentialDir username).join name

section Exchange

variable {config : FactoryConfig} {tree : FileTree} {write other : FileWrite} {place : Location}

/-- The places of a name and its siblings in a folder. -/
def placesOf (tree : FileTree) (folder : Path) (name : String) : Set Location :=
  {place | ∃ location, ∃ sibling ∈ siblingNames name, tree.folderAt folder = .ok location ∧
    place = location ++ [sibling]}

private theorem footprint_subset_placesOf {folder : Path} {name : String}
    (hname : IsCredentialName name) :
    footprint tree (folder.join name) ⊆ placesOf tree folder name := by
  rintro place ⟨path, hpath, htarget⟩
  have hsuffix : ∃ suffix ∈ ["", ".old", ".new"], '/' ∉ suffix.toList ∧
      path = (folder.join name).withSuffix suffix := by
    simp only [List.mem_cons, List.not_mem_nil, or_false] at hpath
    rcases hpath with rfl | rfl | rfl
    · exact ⟨"", by simp, by decide, by rw [withSuffix, String.append_empty]⟩
    · exact ⟨".old", by simp, by decide, rfl⟩
    · exact ⟨".new", by simp, by decide, rfl⟩
  obtain ⟨suffix, hmem, hslash, rfl⟩ := hsuffix
  obtain ⟨location, hfolder, hplace⟩ := exists_location_of_target? hname hslash htarget
  exact ⟨location, name ++ suffix, ⟨suffix, hmem, rfl⟩, hfolder, hplace⟩

/-- No credential has a place in common with another of the same or another user. -/
private theorem eq_of_placesOf_meet (hglidein : '/' ∉ config.glideinName.toList)
    {username owner name title : String} (husername : '/' ∉ username.toList)
    (howner : '/' ∉ owner.toList) (hname : IsCredentialName name)
    (htitle : IsCredentialName title)
    (hleft : place ∈ placesOf tree (config.credentialDir username) name)
    (hright : place ∈ placesOf tree (config.credentialDir owner) title) :
    username = owner ∧ name = title := by
  obtain ⟨location, sibling, hsibling, hlocation, rfl⟩ := hleft
  obtain ⟨other, hit, hhit, hother, heq⟩ := hright
  obtain ⟨base, hbase, rfl⟩ :=
    FactoryConfig.folderAt_credentialDir_eq_ok hglidein husername hlocation
  obtain ⟨root, hroot, rfl⟩ := FactoryConfig.folderAt_credentialDir_eq_ok hglidein howner hother
  obtain rfl := Except.ok.inj (hbase.symm.trans hroot)
  obtain ⟨hlocations, rfl⟩ := List.append_singleton_inj.1 heq
  exact ⟨by simpa using hlocations, eq_of_siblings_meet hname htitle hsibling hhit⟩

private theorem path_eq_of_footprints_meet (hglidein : '/' ∉ config.glideinName.toList)
    (hwrite : IsCredentialWrite config write) (hother : IsCredentialWrite config other)
    (hleft : place ∈ footprint tree write.path) (hright : place ∈ footprint tree other.path) :
    write.path = other.path := by
  obtain ⟨username, name, husername, hname, hpath⟩ := hwrite
  obtain ⟨owner, title, howner, htitle, hotherPath⟩ := hother
  rw [hpath] at hleft ⊢
  rw [hotherPath] at hright ⊢
  obtain ⟨rfl, rfl⟩ := eq_of_placesOf_meet hglidein husername howner hname htitle
    (footprint_subset_placesOf hname hleft) (footprint_subset_placesOf htitle hright)
  rfl

/-- A write leaves alone all that another with a different path looks at. -/
theorem alikeIn_of_path_ne (hglidein : '/' ∉ config.glideinName.toList)
    (hwrite : IsCredentialWrite config write) {username name : String}
    (husername : '/' ∉ username.toList) (hname : IsCredentialName name)
    (hne : write.path ≠ (config.credentialDir username).join name) :
    AlikeIn (config.credentialDir username) (siblingNames name)
      (atomicWrite write.path write.content tree).2 tree := by
  obtain ⟨owner, title, howner, htitle, hpath⟩ := hwrite
  have hagrees := (atomicWrite_effect tree write.path write.content).agreesOutside
  have hplaces : footprint tree write.path ⊆
      placesOf tree (config.credentialDir owner) title := by
    rw [hpath]
    exact footprint_subset_placesOf htitle
  refine ⟨FactoryConfig.folderAt_credentialDir_congr hglidein husername hagrees ?_, ?_⟩
  · intro place hplace
    obtain ⟨location, sibling, -, hlocation, rfl⟩ := hplaces hplace
    obtain ⟨base, hbase, rfl⟩ :=
      FactoryConfig.folderAt_credentialDir_eq_ok hglidein howner hlocation
    exact ⟨base, hbase, by simp⟩
  · intro location hlocation sibling hsibling
    apply hagrees.node?_eq
    intro hplace
    obtain ⟨rfl, rfl⟩ := eq_of_placesOf_meet hglidein husername howner hname htitle
      ⟨location, sibling, hsibling, hlocation, rfl⟩ (hplaces hplace)
    exact hne hpath

/-! ## How writes end -/

/-- Whether a write to a tree succeeds, or what it fails with. -/
def ending (tree : FileTree) (write : FileWrite) : Except IntakeError Unit :=
  (atomicWrite write.path write.content tree).1.map fun _ => ()

theorem ending_of_holds (hholds : tree.Holds write.path write.content) :
    ending tree write = .ok () := by
  rw [ending, atomicWrite_of_holds hholds]
  rfl

/-- A directory in the way of the staging file is still in the way when the
backup is gone. -/
private theorem ending_of_blocked {folder : Location} {name : String} {file : File}
    (hleads : LeadsTo tree write.path (folder ++ [name])) (hread : tree.read write.path = .ok file)
    (hcontent : file.content ≠ write.content) (hentry : IsEntryName (name ++ ".new"))
    (hdirectory : tree.node? (folder ++ [name ++ ".new"]) = some .directory) :
    ending (tree.discard (backupPath write.path)) write = ending tree write := by
  have hbackupName := (isEntryName_backup_iff_staging (isEntryName_of_target hleads)).2 hentry
  have hbackup : LeadsTo tree (backupPath write.path) (folder ++ [name ++ ".old"]) :=
    leadsTo_sibling hleads (by decide) hbackupName
  have hagrees := agreesOutside_discard hbackup
  have hstill : (tree.discard (backupPath write.path)).read write.path = .ok file := by
    apply hagrees.read_eq_ok hread
    intro place hplace
    obtain rfl := Option.some.inj (hleads.target.symm.trans hplace)
    exact ne_append_suffix folder name (by decide)
  have hblocked : (tree.discard (backupPath write.path)).node? (folder ++ [name ++ ".new"]) =
      some .directory := by
    rw [hagrees.node?_eq (by simp), hdirectory]
  rw [ending, ending, atomicWrite_of_blocked hleads hread hcontent hentry hdirectory,
    atomicWrite_of_blocked (hleads.congr hagrees.folders) hstill hcontent hentry hblocked]

/-- Made again, a write ends as it did. -/
theorem ending_again (tree : FileTree) (write : FileWrite) :
    ending (atomicWrite write.path write.content tree).2 write = ending tree write := by
  have heffect := atomicWrite_effect tree write.path write.content
  cases hresult : (atomicWrite write.path write.content tree).1 with
  | ok outcome =>
      rw [hresult] at heffect
      rw [ending_of_holds heffect.holds, ending, hresult]
      rfl
  | error error =>
      rw [hresult] at heffect
      generalize (atomicWrite write.path write.content tree).2 = after at heffect ⊢
      cases heffect with
      | unreadable => rfl
      | uncreatable => rfl
      | @unstaged folder name file fault hleads hread hcontent hblocked =>
          by_cases hentry : IsEntryName (name ++ ".new")
          · exact ending_of_blocked hleads hread hcontent hentry (hblocked hentry)
          · rw [discard_backup_of_unnamed hleads hentry]

/-- A path that leads nowhere cannot be written, and nothing comes of trying. -/
theorem perform_of_target?_eq_none {holdings : Holdings}
    (hnowhere : holdings.tree.target? write.path = none) : holdings.perform write = holdings := by
  have heffect := atomicWrite_effect holdings.tree write.path write.content
  rw [Holdings.perform]
  cases hresult : (atomicWrite write.path write.content holdings.tree).1 with
  | ok outcome =>
      rw [hresult] at heffect
      obtain ⟨place, hleads⟩ := heffect.holds.leadsTo
      have htarget := (hleads.congr heffect.agreesOutside.folders.symm).target
      rw [hnowhere] at htarget
      cases htarget
  | error error =>
      rw [hresult] at heffect
      generalize (atomicWrite write.path write.content holdings.tree).2 = after at heffect ⊢
      cases heffect with
      | unreadable => rfl
      | uncreatable => rfl
      | unstaged hleads =>
          rw [hleads.target] at hnowhere
          cases hnowhere

/-! ## Concordant writes -/

/-- Writes of credentials of which no two bring different bytes to one file of the
tree. -/
structure Concordant (config : FactoryConfig) (tree : FileTree) (writes : Set FileWrite) :
    Prop where
  glidein : '/' ∉ config.glideinName.toList
  placed : ∀ write ∈ writes, IsCredentialWrite config write
  same_content : ∀ write ∈ writes, ∀ other ∈ writes, ∀ place,
    tree.target? write.path = some place → tree.target? other.path = some place →
      write.content = other.content

theorem sameFolders_perform (holdings : Holdings) (write : FileWrite) :
    SameFolders holdings.tree (holdings.perform write).tree :=
  (atomicWrite_effect holdings.tree write.path write.content).agreesOutside.folders

namespace Concordant

variable {writes : Set FileWrite} {holdings : Holdings}

/-- Two writes to one path are one write, or the path leads nowhere. -/
theorem eq_or_target?_eq_none (hconcordant : Concordant config tree writes)
    (hwrite : write ∈ writes) (hother : other ∈ writes) (hpath : write.path = other.path) :
    write = other ∨ tree.target? write.path = none := by
  cases htarget : tree.target? write.path with
  | none => exact Or.inr rfl
  | some place =>
      left
      have hcontent := hconcordant.same_content write hwrite other hother place htarget
        (hpath ▸ htarget)
      cases write
      cases other
      exact congrArg₂ FileWrite.mk hpath hcontent

/-- A write ends alike before and after another with a different path, and does
the same to the locations it is concerned with. -/
private theorem unseen (hconcordant : Concordant config tree writes) (hwrite : write ∈ writes)
    (hother : other ∈ writes) (hne : write.path ≠ other.path) (start : FileTree) :
    (atomicWrite other.path other.content
        (atomicWrite write.path write.content start).2).1 =
      (atomicWrite other.path other.content start).1 ∧
    ∀ place ∈ footprint start other.path,
      (atomicWrite other.path other.content
          (atomicWrite write.path write.content start).2).2.nodes[place]? =
        (atomicWrite other.path other.content start).2.nodes[place]? := by
  obtain ⟨username, name, husername, hname, hpath⟩ := hconcordant.placed other hother
  have halike : AlikeIn (config.credentialDir username) (siblingNames name)
      (atomicWrite write.path write.content start).2 start :=
    alikeIn_of_path_ne hconcordant.glidein (hconcordant.placed write hwrite) husername hname
      (hpath ▸ hne)
  rw [hpath]
  obtain ⟨hresult, hafter⟩ := atomicWrite_alike hname.isPlainName other.content halike
  refine ⟨hresult, ?_⟩
  intro place hplace
  obtain ⟨location, sibling, hsibling, hfolder, rfl⟩ := footprint_subset_placesOf hname hplace
  have hsame := (atomicWrite_effect start ((config.credentialDir username).join name)
    other.content).agreesOutside.folders
  have hentry := hafter.entries location (hsame.folderAt_eq_ok_iff.2 hfolder) sibling hsibling
  obtain ⟨suffix, -, rfl⟩ := hsibling
  obtain ⟨rest, hrest⟩ := hname.exists_rest
  have hanchor := not_isAnchor_append_nameLead location (rest ++ suffix)
  rw [← String.append_assoc, ← hrest] at hanchor
  rwa [node?_of_not_isAnchor hanchor, node?_of_not_isAnchor hanchor] at hentry

/-- What a write is concerned with is the same before and after another. -/
private theorem footprint_after (start : FileTree) (write : FileWrite) (path : Path) :
    footprint (atomicWrite write.path write.content start).2 path = footprint start path :=
  footprint_congr (atomicWrite_effect start write.path write.content).agreesOutside.folders path

/-- Where one of two writes with different paths is concerned, it does the same
whichever of them comes first. -/
private theorem nodes_exchange (hconcordant : Concordant config tree writes)
    (hwrite : write ∈ writes) (hother : other ∈ writes) (hne : write.path ≠ other.path)
    {start : FileTree} (hplace : place ∈ footprint start other.path) :
    (atomicWrite other.path other.content
        (atomicWrite write.path write.content start).2).2.nodes[place]? =
      (atomicWrite write.path write.content
        (atomicWrite other.path other.content start).2).2.nodes[place]? := by
  have haside : place ∉ footprint (atomicWrite other.path other.content start).2 write.path := by
    rw [footprint_after]
    intro hmeets
    exact hne (path_eq_of_footprints_meet hconcordant.glidein (hconcordant.placed write hwrite)
      (hconcordant.placed other hother) hmeets hplace)
  calc
    (atomicWrite other.path other.content
          (atomicWrite write.path write.content start).2).2.nodes[place]? =
        (atomicWrite other.path other.content start).2.nodes[place]? :=
      (hconcordant.unseen hwrite hother hne start).2 place hplace
    _ = (atomicWrite write.path write.content
          (atomicWrite other.path other.content start).2).2.nodes[place]? :=
      ((atomicWrite_effect (atomicWrite other.path other.content start).2 write.path
        write.content).agreesOutside.elsewhere place haside).symm

private theorem tree_exchange (hconcordant : Concordant config tree writes)
    (hwrite : write ∈ writes) (hother : other ∈ writes) (hne : write.path ≠ other.path)
    (start : FileTree) :
    (atomicWrite other.path other.content (atomicWrite write.path write.content start).2).2 =
      (atomicWrite write.path write.content
        (atomicWrite other.path other.content start).2).2 := by
  ext place : 1
  by_cases hfirst : place ∈ footprint start write.path
  · exact (nodes_exchange hconcordant hother hwrite (Ne.symm hne) hfirst).symm
  by_cases hsecond : place ∈ footprint start other.path
  · exact nodes_exchange hconcordant hwrite hother hne hsecond
  · -- neither of the writes is concerned
    have hleave : ∀ (before : FileTree) (only : FileWrite), place ∉ footprint before only.path →
        (atomicWrite only.path only.content before).2.nodes[place]? = before.nodes[place]? :=
      fun before only =>
        (atomicWrite_effect before only.path only.content).agreesOutside.elsewhere place
    rw [hleave _ other (by rwa [footprint_after]), hleave _ write hfirst,
      hleave _ write (by rwa [footprint_after]), hleave _ other hsecond]

/-- How a concordant write ends does not depend on another made before. -/
theorem ending_perform (hconcordant : Concordant config tree writes) (hwrite : write ∈ writes)
    (hother : other ∈ writes) (hsame : SameFolders tree holdings.tree) :
    ending (holdings.perform write).tree other = ending holdings.tree other := by
  by_cases hpath : write.path = other.path
  · rcases hconcordant.eq_or_target?_eq_none hwrite hother hpath with rfl | hnowhere
    · exact ending_again holdings.tree write
    · rw [perform_of_target?_eq_none ((hsame.target?_eq write.path).trans hnowhere)]
  · rw [ending, ending, Holdings.perform, (hconcordant.unseen hwrite hother hpath _).1]

/-- Concordant writes can be made in either order. -/
theorem perform_comm (hconcordant : Concordant config tree writes) (hwrite : write ∈ writes)
    (hother : other ∈ writes) (hsame : SameFolders tree holdings.tree) :
    (holdings.perform write).perform other = (holdings.perform other).perform write := by
  by_cases hpath : write.path = other.path
  · rcases hconcordant.eq_or_target?_eq_none hwrite hother hpath with rfl | hnowhere
    · rfl
    · have hwriteNowhere := (hsame.target?_eq write.path).trans hnowhere
      have hotherNowhere := (hsame.target?_eq other.path).trans (hpath ▸ hnowhere)
      rw [perform_of_target?_eq_none hwriteNowhere, perform_of_target?_eq_none hotherNowhere,
        perform_of_target?_eq_none hwriteNowhere]
  · simp only [Holdings.perform, tree_exchange hconcordant hwrite hother hpath,
      (hconcordant.unseen hwrite hother hpath holdings.tree).1,
      (hconcordant.unseen hother hwrite (Ne.symm hpath) holdings.tree).1,
      StoreCounters.count_comm]

/-- Concordant writes can be made in any order. -/
theorem foldl_perform_perm (hconcordant : Concordant config tree writes)
    {left right : List FileWrite} (hperm : left.Perm right)
    (hmem : ∀ write ∈ left, write ∈ writes) (hsame : SameFolders tree holdings.tree) :
    left.foldl Holdings.perform holdings = right.foldl Holdings.perform holdings := by
  induction hperm generalizing holdings with
  | nil => rfl
  | cons write hrest ih =>
      rw [List.foldl_cons, List.foldl_cons]
      exact ih (fun other hother => hmem other (List.mem_cons_of_mem write hother))
        (hsame.trans (sameFolders_perform holdings write))
  | swap first second rest =>
      simp only [List.foldl_cons]
      rw [hconcordant.perform_comm (hmem second (by simp)) (hmem first (by simp)) hsame]
  | trans hfirst hsecond ihFirst ihSecond =>
      rw [ihFirst hmem hsame,
        ihSecond (fun write hwrite => hmem write (hfirst.mem_iff.2 hwrite)) hsame]

end Concordant

end Exchange

end Store

end CredentialIntake
