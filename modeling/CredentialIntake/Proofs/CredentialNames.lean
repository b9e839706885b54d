import CredentialIntake.Proofs.EscapedIds
import CredentialIntake.Proofs.PathForms
import CredentialIntake.Store.AtomicWrite

/-!
# Names of credential files

The compressed file of an id has the name of the raw file of a longer id, so all
files of all credentials are named by one function of client and id.  No backup
and no staging file has such a name.  The function is not injective: two pairs
have one name exactly if the ids differ by a part that the client names carry
in its escaped form.
-/

namespace CredentialIntake.Store

open CredentialIntake.Path

/-- What the name of every credential file begins with. -/
def nameLead : String := "credential_"

/-- What tells the compressed file from the raw one. -/
def compressedMark : String := "_compressed"

theorem toList_credentialName (client id : String) :
    (credentialName client id).toList =
      nameLead.toList ++ (client.toList ++ '_' :: escapeChars id.toList) := by
  simp only [credentialName, escapeId, nameLead, String.toList_append, String.toList_ofList,
    List.append_assoc]
  rfl

/-- A name that can only stand for an entry of the directory it is looked up in. -/
structure IsSingleName (name : String) : Prop extends IsPlainName name where
  ne_here : name ≠ "."
  ne_above : name ≠ ".."
  nul_not_mem : '\x00' ∉ name.toList

theorem isSafeName_iff {name : String} : isSafeName name = true ↔ IsSingleName name := by
  simp only [isSafeName, Bool.and_eq_true, decide_eq_true_eq, Bool.not_eq_true',
    List.contains_eq_mem, decide_eq_false_iff_not]
  constructor
  · rintro ⟨⟨⟨⟨hempty, hhere⟩, habove⟩, hslash⟩, hnul⟩
    exact ⟨⟨hempty, hslash⟩, hhere, habove, hnul⟩
  · rintro ⟨⟨hempty, hslash⟩, hhere, habove, hnul⟩
    exact ⟨⟨⟨⟨hempty, hhere⟩, habove⟩, hslash⟩, hnul⟩

theorem isPlainName_credentialName {client : String} (hsafe : isSafeName client = true)
    (id : String) : IsPlainName (credentialName client id) where
  ne_empty := by
    intro hempty
    have hchars := congrArg String.toList hempty
    rw [toList_credentialName] at hchars
    exact absurd (List.append_eq_nil_iff.1 hchars).1 (by decide +kernel)
  slash_not_mem := by
    rw [toList_credentialName]
    simp only [List.mem_append, List.mem_cons, not_or]
    exact ⟨by decide +kernel, (isSafeName_iff.1 hsafe).slash_not_mem, by decide,
      slash_not_mem_escapeChars id.toList⟩

/-- The compressed file of an id is named like the raw file of the id with the
mark appended. -/
theorem credentialName_append_compressedMark (client id : String) :
    credentialName client id ++ compressedMark = credentialName client (id ++ compressedMark) := by
  have hmark : escapeChars compressedMark.toList = compressedMark.toList := by decide +kernel
  rw [← String.toList_inj]
  calc
    (credentialName client id ++ compressedMark).toList =
        nameLead.toList ++
          (client.toList ++ '_' :: (escapeChars id.toList ++ compressedMark.toList)) := by
      rw [String.toList_append, toList_credentialName]
      simp
    _ = nameLead.toList ++
          (client.toList ++ '_' :: escapeChars (id ++ compressedMark).toList) := by
      rw [String.toList_append, escapeChars_append, hmark]
    _ = (credentialName client (id ++ compressedMark)).toList :=
      (toList_credentialName client (id ++ compressedMark)).symm

/-- Both files of a credential, in a folder, by their names. -/
theorem credentialFiles_eq {client : String} (hsafe : isSafeName client = true) (folder : Path)
    (id : String) :
    credentialFiles folder client id =
      { raw := folder.join (credentialName client id)
        compressed := folder.join (credentialName client (id ++ compressedMark)) } := by
  rw [credentialFiles, ← credentialName_append_compressedMark]
  congr 1
  exact withSuffix_join (isPlainName_credentialName hsafe id) (by decide +kernel)

/-! ## Backups and staging files -/

/-- What a name ends with that a sibling of a credential file has. -/
theorem credentialName_ne_append {tail : String} {after : List Char}
    (htail : tail.toList = '.' :: after) (hcomma : ',' ∉ after) (hline : '_' ∉ after)
    (client id text : String) : credentialName client id ≠ text ++ tail := by
  intro heq
  have hchars := congrArg String.toList heq
  rw [toList_credentialName, String.toList_append, htail, ← List.append_assoc] at hchars
  rcases List.append_eq_append_iff.1 hchars with ⟨middle, -, hrest⟩ | ⟨middle, -, hafter⟩
  · -- the dot stands behind the underscore, hence in the escaped id
    rcases List.cons_eq_append_iff.1 hrest with ⟨-, hdot⟩ | ⟨inside, -, hinside⟩
    · simp at hdot
    · exact hcomma (comma_mem_of_escapeChars_eq hinside)
  · -- the dot stands before the underscore, which it must not
    rcases List.cons_eq_append_iff.1 hafter with ⟨-, hline'⟩ | ⟨inside, -, rfl⟩
    · simp at hline'
    · exact hline (by simp)

/-- A name that a credential of a usable client has. -/
def IsCredentialName (name : String) : Prop :=
  ∃ client id, isSafeName client = true ∧ name = credentialName client id

theorem IsCredentialName.isPlainName {name : String} (hname : IsCredentialName name) :
    IsPlainName name := by
  obtain ⟨client, id, hsafe, rfl⟩ := hname
  exact isPlainName_credentialName hsafe id

/-- The backup or staging file of a credential file has no credential's name. -/
theorem IsCredentialName.ne_append {name : String} (hname : IsCredentialName name)
    (text : String) : name ≠ text ++ ".old" ∧ name ≠ text ++ ".new" := by
  obtain ⟨client, id, -, rfl⟩ := hname
  exact ⟨credentialName_ne_append (rfl : ".old".toList = '.' :: ['o', 'l', 'd']) (by decide)
      (by decide) client id text,
    credentialName_ne_append (rfl : ".new".toList = '.' :: ['n', 'e', 'w']) (by decide)
      (by decide) client id text⟩

/-! ## Which pairs have one name -/

/-- The longer client name carries, behind an underscore, the escaped form of
what the other id has in front of it. -/
def Absorbs (client id longer rest : String) : Prop :=
  ∃ part, longer = client ++ "_" ++ escapeId part ∧ id = part ++ "_" ++ rest

/-- Two pairs that are equal, or one of which absorbs a part of the other. -/
def Meets (client id other rest : String) : Prop :=
  (client = other ∧ id = rest) ∨ Absorbs client id other rest ∨ Absorbs other rest client id

private theorem escapeChar_underscore : escapeChar '_' = ['_'] := by decide

private theorem eq_or_absorbs {client id longer rest : String} {middle : List Char}
    (hlonger : longer.toList = client.toList ++ middle)
    (hid : '_' :: escapeChars id.toList = middle ++ '_' :: escapeChars rest.toList) :
    client = longer ∧ id = rest ∨ Absorbs client id longer rest := by
  rcases List.cons_eq_append_iff.1 hid with ⟨rfl, hrest⟩ | ⟨inside, rfl, hinside⟩
  · left
    obtain ⟨-, hescaped⟩ := List.cons_eq_cons.1 hrest
    rw [List.append_nil] at hlonger
    exact ⟨String.toList_inj.1 hlonger.symm,
      String.toList_inj.1 (escapeChars_injective hescaped.symm)⟩
  · right
    obtain ⟨part, rfl, hpart⟩ := escapeChars_eq_append_underscore hinside
    refine ⟨String.ofList part, ?_, ?_⟩
    · rw [← String.toList_inj, hlonger]
      simp [escapeId]
    · rw [← String.toList_inj, hpart]
      simp

private theorem credentialName_eq_of_absorbs {client id longer rest : String}
    (habsorbs : Absorbs client id longer rest) :
    credentialName client id = credentialName longer rest := by
  obtain ⟨part, rfl, rfl⟩ := habsorbs
  rw [← String.toList_inj, toList_credentialName, toList_credentialName]
  simp [escapeId, escapeChars_append, escapeChars_cons, escapeChar_underscore]

/-- Two pairs of client and id have one name exactly if they are equal, or if
one client name absorbs a part of the other's id. -/
theorem credentialName_eq_iff (client id other rest : String) :
    credentialName client id = credentialName other rest ↔ Meets client id other rest := by
  constructor
  · intro heq
    rw [← String.toList_inj, toList_credentialName, toList_credentialName,
      List.append_right_inj] at heq
    rcases List.append_eq_append_iff.1 heq with ⟨middle, hother, hrest⟩ | ⟨middle, hclient, hid⟩
    · rcases eq_or_absorbs hother hrest with hsame | habsorbs
      · exact Or.inl hsame
      · exact Or.inr (Or.inl habsorbs)
    · rcases eq_or_absorbs hclient hid with ⟨hsame, hids⟩ | habsorbs
      · exact Or.inl ⟨hsame.symm, hids.symm⟩
      · exact Or.inr (Or.inr habsorbs)
  · rintro (⟨rfl, rfl⟩ | habsorbs | habsorbs)
    · rfl
    · exact credentialName_eq_of_absorbs habsorbs
    · exact (credentialName_eq_of_absorbs habsorbs).symm

end CredentialIntake.Store
