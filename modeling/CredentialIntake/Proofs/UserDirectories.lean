import CredentialIntake.Proofs.TreeFrames
import CredentialIntake.Settings.FactoryConfig

/-!
# Directories of users

The directories of all users of a factory stand two levels below a common one.
Changes further down leave each of them where it is, or missing for the reason
it was missing.
-/

namespace CredentialIntake

open CredentialIntake.Path

namespace FileTree

/-! ## Folders inside of folders -/

theorem enter_append_singleton (tree : FileTree) (place : Location) (names : List String)
    (name : String) :
    tree.enter place (names ++ [name]) =
      (tree.enter place names).bind fun location => tree.enter location [name] := by
  induction names generalizing place with
  | nil => rfl
  | cons first rest ih =>
      simp only [List.cons_append, enter, ih]
      split
      · rfl
      split
      · rfl
      split
      · rfl
      split <;> rfl

section Join

variable {before after : FileTree} {folder : Path} {name : String}

/-- A plain name in a folder is looked for from where the folder is. -/
private theorem folderAt_join (tree : FileTree) (hplain : IsPlainName name)
    (hnul : '\x00' ∉ name.toList) :
    tree.folderAt (folder.join name) =
      (tree.folderAt folder).bind fun location => tree.enter location [name] := by
  have hstart : Location.ofStart (folder.join name) = Location.ofStart folder := by
    rw [Location.ofStart, Location.ofStart, isAbsolute_join hplain]
  have hjoin : '\x00' ∈ (folder.join name).text.toList ↔ '\x00' ∈ folder.text.toList := by
    rw [nul_mem_text_join hplain, or_iff_left hnul]
  rw [folderAt, folderAt, hstart, names_join hplain, enter_append_singleton]
  simp only [hjoin]
  split <;> rfl

private theorem folderAt_join_of_nul (tree : FileTree) (hplain : IsPlainName name)
    (hnul : '\x00' ∈ name.toList) : tree.folderAt (folder.join name) = .error .nulByte := by
  rw [folderAt, if_pos ((nul_mem_text_join hplain).2 (Or.inr hnul))]

/-- A name that a directory inside of a folder can have. -/
structure IsFolderName (name : String) : Prop where
  plain : IsPlainName name
  ne_here : name ≠ "."
  ne_above : name ≠ ".."

theorem folderAt_join_eq_ok {location : Location} (hname : IsFolderName name)
    (hfolder : before.folderAt (folder.join name) = .ok location) :
    ∃ place, before.folderAt folder = .ok place ∧ location = place ++ [name] := by
  by_cases hnul : '\x00' ∈ name.toList
  · rw [folderAt_join_of_nul before hname.plain hnul] at hfolder
    cases hfolder
  rw [folderAt_join before hname.plain hnul] at hfolder
  cases hplace : before.folderAt folder with
  | error fault =>
      rw [hplace] at hfolder
      cases hfolder
  | ok place =>
      simp only [hplace, Except.bind, enter, if_neg hname.ne_here, if_neg hname.ne_above] at hfolder
      split at hfolder
      · cases hfolder
      split at hfolder
      · cases hfolder
      · cases hfolder
      · exact ⟨place, rfl, (Except.ok.inj hfolder).symm⟩

/-- A folder inside another is found alike where the other is and where what
stands under its name is the same. -/
theorem folderAt_join_congr (hname : IsFolderName name)
    (hfolder : after.folderAt folder = before.folderAt folder)
    (hnode : ∀ place, before.folderAt folder = .ok place →
      after.node? (place ++ [name]) = before.node? (place ++ [name])) :
    after.folderAt (folder.join name) = before.folderAt (folder.join name) := by
  by_cases hnul : '\x00' ∈ name.toList
  · rw [folderAt_join_of_nul after hname.plain hnul, folderAt_join_of_nul before hname.plain hnul]
  rw [folderAt_join after hname.plain hnul, folderAt_join before hname.plain hnul, hfolder]
  cases hplace : before.folderAt folder with
  | error fault => rfl
  | ok place => simp only [Except.bind, enter, hnode place hplace]

end Join

end FileTree

/-! ## Directories of the users of a factory -/

namespace FactoryConfig

open FileTree

private theorem isFolderName_append {lead rest : String} (hlead : IsPlainName lead)
    (hlong : "..".length < lead.length) (hslash : '/' ∉ rest.toList) : IsFolderName (lead ++ rest) where
  plain := hlead.append hslash
  ne_here := append_ne_of_length_lt (Nat.lt_trans (by decide) hlong) rest
  ne_above := append_ne_of_length_lt hlong rest

variable {config : FactoryConfig} {before after : FileTree} {username : String}

private theorem isFolderName_user (husername : '/' ∉ username.toList) :
    IsFolderName ("user_" ++ username) :=
  isFolderName_append ⟨by decide, by decide⟩ (by decide) husername

private theorem isFolderName_glidein (hglidein : '/' ∉ config.glideinName.toList) :
    IsFolderName ("glidein_" ++ config.glideinName) :=
  isFolderName_append ⟨by decide, by decide⟩ (by decide) hglidein

/-- The directory of a user stands two levels below that of all users. -/
theorem folderAt_credentialDir_eq_ok (hglidein : '/' ∉ config.glideinName.toList)
    (husername : '/' ∉ username.toList) {location : Location}
    (hfolder : before.folderAt (config.credentialDir username) = .ok location) :
    ∃ base, before.folderAt config.proxiesDir = .ok base ∧
      location = base ++ ["user_" ++ username, "glidein_" ++ config.glideinName] := by
  obtain ⟨place, hplace, rfl⟩ := folderAt_join_eq_ok (isFolderName_glidein hglidein) hfolder
  obtain ⟨base, hbase, rfl⟩ := folderAt_join_eq_ok (isFolderName_user husername) hplace
  exact ⟨base, hbase, by simp⟩

/-- Changes three levels below the directory of all users leave the directory of
every user where it is, or missing for the same reason. -/
theorem folderAt_credentialDir_congr (hglidein : '/' ∉ config.glideinName.toList)
    (husername : '/' ∉ username.toList) {places : Set Location}
    (hagrees : AgreesOutside places before after)
    (hplaces : ∀ place ∈ places, ∃ base, before.folderAt config.proxiesDir = .ok base ∧
      place.length = base.length + 3) :
    after.folderAt (config.credentialDir username) =
      before.folderAt (config.credentialDir username) := by
  cases hbase : before.folderAt config.proxiesDir with
  | error fault =>
      -- then there is no place at which the trees could differ
      have hsame : after = before := by
        apply ext_nodes
        intro place
        apply hagrees.elsewhere
        intro hplace
        obtain ⟨base, hother, -⟩ := hplaces place hplace
        cases hbase.symm.trans hother
      rw [hsame]
  | ok base =>
      have hkeeps : ∀ place : Location, place.length < base.length + 3 →
          after.node? place = before.node? place := by
        intro place hshort
        apply hagrees.node?_eq
        intro hplace
        obtain ⟨other, hother, hlength⟩ := hplaces place hplace
        obtain rfl := Except.ok.inj (hbase.symm.trans hother)
        omega
      have hroot : after.folderAt config.proxiesDir = before.folderAt config.proxiesDir := by
        rw [hbase]
        exact hagrees.folders.folderAt_eq_ok_iff.2 hbase
      have huser : after.folderAt (config.proxiesDir.join ("user_" ++ username)) =
          before.folderAt (config.proxiesDir.join ("user_" ++ username)) := by
        apply folderAt_join_congr (isFolderName_user husername) hroot
        intro place hplace
        obtain rfl := Except.ok.inj (hbase.symm.trans hplace)
        exact hkeeps _ (by simp)
      apply folderAt_join_congr (isFolderName_glidein hglidein) huser
      intro place hplace
      obtain ⟨other, hother, rfl⟩ := folderAt_join_eq_ok (isFolderName_user husername) hplace
      obtain rfl := Except.ok.inj (hbase.symm.trans hother)
      exact hkeeps _ (by simp)

end FactoryConfig

end CredentialIntake
