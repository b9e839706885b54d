import CredentialIntake.Proofs.KeptDeposits

/-!
# Credentials that share a file

Different pairs of client and id can have a file in common, because the client
name stands in file names as it is and both it and the id may hold underscores.
A deposit is kept exactly until something else is filed under one of its names.
-/

namespace CredentialIntake.Store

open FileTree

/-- Two deposits file something under one name of one user. -/
def SharesFile (left right : Deposit) : Prop :=
  ∃ filing ∈ left.filings, ∃ other ∈ right.filings,
    filing.username = other.username ∧ filing.name = other.name

private theorem compressed_name_eq_iff (left right : Deposit) :
    left.compressed.name = right.compressed.name ↔ left.raw.name = right.raw.name := by
  simp only [Deposit.compressed, Deposit.raw, ← credentialName_append_compressedMark,
    String.append_left_inj]

/-- When two deposits share a file, by their users, clients and ids. -/
theorem sharesFile_iff (left right : Deposit) :
    SharesFile left right ↔ left.username = right.username ∧
      (Meets left.client left.id right.client right.id ∨
        Meets left.client (left.id ++ compressedMark) right.client right.id ∨
        Meets left.client left.id right.client (right.id ++ compressedMark)) := by
  have hraw : left.raw.name = right.raw.name ↔
      Meets left.client left.id right.client right.id := credentialName_eq_iff _ _ _ _
  have hleft : left.compressed.name = right.raw.name ↔
      Meets left.client (left.id ++ compressedMark) right.client right.id :=
    credentialName_eq_iff _ _ _ _
  have hright : left.raw.name = right.compressed.name ↔
      Meets left.client left.id right.client (right.id ++ compressedMark) :=
    credentialName_eq_iff _ _ _ _
  have hcompressed := compressed_name_eq_iff left right
  rw [← hraw, ← hleft, ← hright]
  constructor
  · rintro ⟨filing, hfiling, other, hother, husername, hname⟩
    rcases List.mem_pair.1 hfiling with rfl | rfl <;>
      rcases List.mem_pair.1 hother with rfl | rfl
    · exact ⟨husername, Or.inl hname⟩
    · exact ⟨husername, Or.inr (Or.inr hname)⟩
    · exact ⟨husername, Or.inr (Or.inl hname)⟩
    · exact ⟨husername, Or.inl (hcompressed.1 hname)⟩
  · rintro ⟨husername, hname | hname | hname⟩
    · exact ⟨left.raw, by simp [Deposit.filings], right.raw, by simp [Deposit.filings],
        husername, hname⟩
    · exact ⟨left.compressed, by simp [Deposit.filings], right.raw, by simp [Deposit.filings],
        husername, hname⟩
    · exact ⟨left.raw, by simp [Deposit.filings], right.compressed, by simp [Deposit.filings],
        husername, hname⟩

private theorem holds_iff_of_holds {tree : FileTree} {path : Path} {filed : Option Bytes}
    {content : Bytes} (hholds : tree.Holds path (filed.getD content)) :
    tree.Holds path content ↔ ∀ other, filed = some other → other = content := by
  constructor
  · rintro hcontent other rfl
    exact hholds.unique hcontent
  · intro hsame
    cases hfiled : filed with
    | none => rwa [hfiled] at hholds
    | some other =>
        rw [hfiled] at hholds
        rwa [← hsame other hfiled]

/-- After deposits that are all kept, both files of one of them hold its data
exactly if what was filed last under their names since, if anything was, is the
same data.  The names are those of another deposit too exactly if the user is
the same and the pairs of client and id meet, the id of one possibly being that
of a compressed form. -/
theorem holds_files_iff (store : Store) (before later : List Deposit) (deposit : Deposit)
    (hdone : (store.persistAll (before ++ deposit :: later)).1.isOk = true)
    (hapart : ∀ other ∈ later,
      Apart store.tree store.directoryOf other.username deposit.username) :
    (((store.persistAll (before ++ deposit :: later)).2.tree.Holds
          (deposit.files store.directoryOf).raw deposit.material ∧
        (store.persistAll (before ++ deposit :: later)).2.tree.Holds
          (deposit.files store.directoryOf).compressed (compressedLine deposit.material)) ↔
      (∀ content, lastFiled? deposit.username deposit.raw.name
          (later.flatMap Deposit.filings) = some content → content = deposit.material) ∧
        ∀ content, lastFiled? deposit.username deposit.compressed.name
          (later.flatMap Deposit.filings) = some content →
            content = compressedLine deposit.material) ∧
    ∀ other ∈ later, SharesFile deposit other ↔ deposit.username = other.username ∧
      (Meets deposit.client deposit.id other.client other.id ∨
        Meets deposit.client (deposit.id ++ compressedMark) other.client other.id ∨
        Meets deposit.client deposit.id other.client (other.id ++ compressedMark)) := by
  obtain ⟨hraw, hcompressed⟩ := persistAll_holds_files hdone hapart
  refine ⟨?_, fun other _ => sharesFile_iff deposit other⟩
  exact and_congr (holds_iff_of_holds hraw) (holds_iff_of_holds hcompressed)

/-- A deposit of another client leaves both files alone. -/
theorem holds_files_iff_apart :
    (trial.persistAll ([] ++ [⟨"user", "a", "1", [1]⟩, ⟨"user", "b", "1", [2]⟩])).2.tree.Holds
      (Deposit.files trial.directoryOf ⟨"user", "a", "1", [1]⟩).raw [1] := by
  have hraw : lastFiled? "user" (Deposit.raw ⟨"user", "a", "1", [1]⟩).name
      ([⟨"user", "b", "1", [2]⟩].flatMap Deposit.filings) = none := by decide +kernel
  have hcompressed : lastFiled? "user" (Deposit.compressed ⟨"user", "a", "1", [1]⟩).name
      ([⟨"user", "b", "1", [2]⟩].flatMap Deposit.filings) = none := by decide +kernel
  have hkept := holds_files_iff trial [] [⟨"user", "b", "1", [2]⟩] ⟨"user", "a", "1", [1]⟩
    (by decide +kernel) (by
      intro other hother place hleft hright
      rw [List.mem_singleton.1 hother])
  apply (hkept.1.2 ⟨_, _⟩).1
  · intro content hfiled
    cases hraw.symm.trans hfiled
  · intro content hfiled
    cases hcompressed.symm.trans hfiled

/-! ## Keys are not kept apart -/

/-- In directories that were empty, the files of a user, client and id hold what
the last deposit for these three brought. -/
def KeepsKeysApart : Prop :=
  ∀ (store : Store) (before later : List Deposit) (deposit : Deposit),
    (∀ left ∈ before ++ deposit :: later, ∀ right ∈ before ++ deposit :: later,
      Apart store.tree store.directoryOf left.username right.username) →
    (∀ other ∈ before ++ deposit :: later, ∀ folder name,
      store.tree.folderAt (store.directoryOf other.username) = .ok folder →
        store.tree.nodes[folder ++ [name]]? = none) →
    (store.persistAll (before ++ deposit :: later)).1.isOk = true →
    (∀ other ∈ later, (other.username, other.client, other.id) ≠
      (deposit.username, deposit.client, deposit.id)) →
    (store.persistAll (before ++ deposit :: later)).2.tree.Holds
        (deposit.files store.directoryOf).raw deposit.material ∧
      (store.persistAll (before ++ deposit :: later)).2.tree.Holds
        (deposit.files store.directoryOf).compressed (compressedLine deposit.material)

/-- Client `a` with id `b_c` and client `a_b` with id `c` have the same files. -/
theorem not_keepsKeysApart : ¬ KeepsKeysApart := by
  intro hkeeps
  have husername : ∀ other ∈ ([] ++ [⟨"user", "a", "b_c", [1]⟩, ⟨"user", "a_b", "c", [2]⟩] :
      List Deposit), other.username = "user" := by decide
  have hfolder : trial.tree.folderAt ⟨"users"⟩ = .ok ["users"] := by decide +kernel
  have hempty : ∀ folder name, trial.tree.folderAt ⟨"users"⟩ = .ok folder →
      trial.tree.nodes[folder ++ [name]]? = none := by
    intro folder name hplace
    rw [hfolder] at hplace
    cases hplace
    simp [trial, FileTree.empty]
  obtain ⟨⟨file, hread, hcontent⟩, -⟩ := hkeeps trial [] [⟨"user", "a_b", "c", [2]⟩]
    ⟨"user", "a", "b_c", [1]⟩
    (fun left hleft right hright _ _ _ =>
      (husername left hleft).trans (husername right hright).symm)
    (fun _ _ => hempty) (by decide +kernel) (by simp)
  have hpath : (Deposit.files trial.directoryOf ⟨"user", "a", "b_c", [1]⟩).raw =
      ⟨"users/credential_a_b_c"⟩ := by decide +kernel
  have hfinal : (trial.persistAll ([] ++ [⟨"user", "a", "b_c", [1]⟩,
      ⟨"user", "a_b", "c", [2]⟩])).2.tree.read ⟨"users/credential_a_b_c"⟩ =
        .ok ⟨privateMode, [2]⟩ := by decide +kernel
  rw [hpath, hfinal] at hread
  cases hread
  cases hcontent

end CredentialIntake.Store
