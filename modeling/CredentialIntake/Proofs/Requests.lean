import CredentialIntake.Intake.Processing
import CredentialIntake.Proofs.Deposits
import CredentialIntake.Proofs.Trust

/-!
# What a request asks for

The credentials of a request, decrypted, say everything about it: which of them
are kept, for whom, and with which writes, and which are left out.  A request is
accepted exactly if its frontend passes authentication, all credentials decrypt,
and the client name can be used or is not needed.
-/

namespace CredentialIntake

namespace ClassAd

theorem idOfKey?_eq_some_iff {key id : String} :
    idOfKey? key = some id ↔ key = securityClassKey id := by
  rw [idOfKey?, Option.map_eq_some_iff, securityClassKey]
  constructor
  · rintro ⟨rest, hprefix, rfl⟩
    rw [← String.toList_inj, String.toList_append, String.toList_ofList]
    exact (List.isPrefixOf?_eq_some_iff_append_eq.1 hprefix).symm
  · rintro rfl
    refine ⟨id.toList, ?_, String.ofList_toList⟩
    rw [List.isPrefixOf?_eq_some_iff_append_eq, String.toList_append]

/-- The ids are those announced by a security class attribute. -/
theorem mem_credentialIds_iff {ad : ClassAd} {id : String} :
    id ∈ ad.credentialIds ↔ (ad.get? (securityClassKey id)).isSome := by
  rw [credentialIds, List.mem_filterMap]
  simp only [idOfKey?_eq_some_iff, exists_eq_right, keys, Std.ExtTreeMap.mem_keys,
    Std.ExtTreeMap.mem_iff_isSome_getElem?, get?]

/-- The ids stand in the order of their attributes, each of them once. -/
theorem pairwise_credentialIds (ad : ClassAd) :
    ad.credentialIds.Pairwise fun left right =>
      compare (securityClassKey left) (securityClassKey right) = .lt := by
  have hkeys : ad.keys.Pairwise fun left right => compare left right = .lt :=
    Std.ExtTreeMap.ordered_keys
  rw [credentialIds, List.pairwise_filterMap]
  apply hkeys.imp
  intro left right hlt id hid other hother
  rw [← idOfKey?_eq_some_iff.1 hid, ← idOfKey?_eq_some_iff.1 hother]
  exact hlt

end ClassAd

namespace Intake

open Store

/-! ## Embedded credentials -/

/-- A credential as a request carries it, decrypted. -/
structure Embedded where
  id : String
  material : Bytes
  securityClass : String
  deriving DecidableEq

namespace Embedded

/-- Decrypts the credential of an id. -/
def read? (frontend : AuthenticatedFrontend) (ad : ClassAd) (id : String) : Option Embedded := do
  let material ← (ad.get? (ClassAd.parameterKey id)).bind frontend.key.decrypt?
  let securityClass ← (ad.get? (ClassAd.securityClassKey id)).bind frontend.key.decryptText?
  return { id, material, securityClass }

theorem read?_eq_some_iff {frontend : AuthenticatedFrontend} {ad : ClassAd} {id : String}
    {credential : Embedded} :
    read? frontend ad id = some credential ↔
      credential.id = id ∧
        (ad.get? (ClassAd.parameterKey id)).bind frontend.key.decrypt? =
          some credential.material ∧
        (ad.get? (ClassAd.securityClassKey id)).bind frontend.key.decryptText? =
          some credential.securityClass := by
  rw [read?]
  constructor
  · intro hread
    obtain ⟨material, hmaterial, hrest⟩ := Option.bind_eq_some_iff.1 hread
    obtain ⟨securityClass, hclass, hcredential⟩ := Option.bind_eq_some_iff.1 hrest
    cases hcredential
    exact ⟨rfl, hmaterial, hclass⟩
  · rintro ⟨rfl, hmaterial, hclass⟩
    rw [hmaterial, hclass]
    rfl

/-- The user a credential is kept for. -/
def username? (policy : FrontendPolicy) (securityName : String) (credential : Embedded) :
    Option String :=
  policy.usernameOf? securityName credential.securityClass

def disposition (policy : FrontendPolicy) (securityName client : String)
    (credential : Embedded) : Disposition :=
  match credential.username? policy securityName with
  | some username => .staged { id := credential.id, username, material := credential.material }
  | none => .skipped (.mapping client credential.id credential.securityClass)

end Embedded

/-- What can be wrong with the credential of an id. -/
inductive CredentialFault (frontend : AuthenticatedFrontend) (ad : ClassAd) (id : String) :
    IntakeError → Prop where
  | materialMissing :
      ad.get? (ClassAd.parameterKey id) = none →
      CredentialFault frontend ad id
        (.malformedRequest (.missingAttribute (ClassAd.parameterKey id)))
  | materialUndecryptable {ciphertext : String} :
      ad.get? (ClassAd.parameterKey id) = some ciphertext →
      frontend.key.decrypt? ciphertext = none →
      CredentialFault frontend ad id
        (.authentication (.undecryptable (ClassAd.parameterKey id)))
  | classUndecryptable {ciphertext classCiphertext : String} {material : Bytes} :
      ad.get? (ClassAd.parameterKey id) = some ciphertext →
      frontend.key.decrypt? ciphertext = some material →
      ad.get? (ClassAd.securityClassKey id) = some classCiphertext →
      frontend.key.decryptText? classCiphertext = none →
      CredentialFault frontend ad id
        (.authentication (.undecryptable (ClassAd.securityClassKey id)))

section Staging

variable {policy : FrontendPolicy} {frontend : AuthenticatedFrontend} {ad : ClassAd}
  {client id : String}

theorem stage_of_read {credential : Embedded}
    (hread : Embedded.read? frontend ad id = some credential) :
    stage policy frontend ad client id =
      .ok (credential.disposition policy frontend.securityName client) := by
  obtain ⟨rfl, hmaterial, hclass⟩ := Embedded.read?_eq_some_iff.1 hread
  obtain ⟨ciphertext, hparameter, hmaterial⟩ := Option.bind_eq_some_iff.1 hmaterial
  obtain ⟨classCiphertext, hclass, htext⟩ := Option.bind_eq_some_iff.1 hclass
  simp only [stage, requireAttribute, decrypted, hparameter, hmaterial, hclass, htext, bind,
    Except.bind, Embedded.disposition, Embedded.username?]
  cases policy.usernameOf? frontend.securityName credential.securityClass with
  | none => rfl
  | some username => rfl

theorem stage_of_fault {error : IntakeError} (hfault : CredentialFault frontend ad id error) :
    stage policy frontend ad client id = .error error := by
  cases hfault with
  | materialMissing hparameter =>
      simp [stage, requireAttribute, hparameter, bind, Except.bind]
  | materialUndecryptable hparameter hmaterial =>
      simp [stage, requireAttribute, decrypted, hparameter, hmaterial, bind, Except.bind]
  | classUndecryptable hparameter hmaterial hclass htext =>
      simp [stage, requireAttribute, decrypted, hparameter, hmaterial, hclass, htext, bind,
        Except.bind]

/-- An announced credential that does not decrypt has a fault. -/
theorem exists_fault_of_unreadable
    (hannounced : (ad.get? (ClassAd.securityClassKey id)).isSome)
    (hread : Embedded.read? frontend ad id = none) :
    ∃ error, CredentialFault frontend ad id error := by
  obtain ⟨classCiphertext, hclass⟩ := Option.isSome_iff_exists.1 hannounced
  cases hparameter : ad.get? (ClassAd.parameterKey id) with
  | none => exact ⟨_, .materialMissing hparameter⟩
  | some ciphertext =>
      cases hmaterial : frontend.key.decrypt? ciphertext with
      | none => exact ⟨_, .materialUndecryptable hparameter hmaterial⟩
      | some material =>
          cases htext : frontend.key.decryptText? classCiphertext with
          | none => exact ⟨_, .classUndecryptable hparameter hmaterial hclass htext⟩
          | some securityClass =>
              simp [Embedded.read?, hparameter, hmaterial, hclass, htext] at hread

/-- The ids stand for credentials that all decrypt. -/
def AllRead (frontend : AuthenticatedFrontend) (ad : ClassAd) (ids : List String)
    (credentials : List Embedded) : Prop :=
  List.Forall₂ (fun id credential => Embedded.read? frontend ad id = some credential) ids
    credentials

theorem stageAll_of_allRead {ids : List String} {credentials : List Embedded}
    (hread : AllRead frontend ad ids credentials) :
    stageAll policy frontend ad client ids =
      ⟨credentials.map (·.disposition policy frontend.securityName client), none⟩ := by
  induction hread with
  | nil => rfl
  | cons hfirst hrest ih => rw [stageAll, stage_of_read hfirst, ih, List.map_cons]

/-- Staging stops at the first credential with a fault. -/
theorem stageAll_of_fault (policy : FrontendPolicy) (client : String) {before : List String}
    (after : List String) {credentials : List Embedded} {error : IntakeError}
    (hread : AllRead frontend ad before credentials)
    (hfault : CredentialFault frontend ad id error) :
    stageAll policy frontend ad client (before ++ id :: after) =
      ⟨credentials.map (·.disposition policy frontend.securityName client), some error⟩ := by
  induction hread with
  | nil => rw [List.nil_append, stageAll, stage_of_fault hfault, List.map_nil]
  | cons hfirst hrest ih =>
    rw [List.cons_append, stageAll, stage_of_read hfirst, ih, List.map_cons]

/-- Either all credentials decrypt, or there is a first one with a fault. -/
theorem allRead_or_fault (frontend : AuthenticatedFrontend) (ad : ClassAd) {ids : List String}
    (hannounced : ∀ id ∈ ids, (ad.get? (ClassAd.securityClassKey id)).isSome) :
    (∃ credentials, AllRead frontend ad ids credentials) ∨
      ∃ before id after error, ids = before ++ id :: after ∧
        (∃ credentials, AllRead frontend ad before credentials) ∧
          CredentialFault frontend ad id error := by
  induction ids with
  | nil => exact Or.inl ⟨[], .nil⟩
  | cons id rest ih =>
      cases hread : Embedded.read? frontend ad id with
      | none =>
          right
          obtain ⟨error, hfault⟩ :=
            exists_fault_of_unreadable (hannounced id List.mem_cons_self) hread
          exact ⟨[], id, rest, error, rfl, ⟨[], .nil⟩, hfault⟩
      | some credential =>
          rcases ih fun other hother => hannounced other (List.mem_cons_of_mem id hother) with
            ⟨credentials, hrest⟩ |
              ⟨before, other, after, error, rfl, ⟨credentials, hbefore⟩, hfault⟩
          · exact Or.inl ⟨credential :: credentials, .cons hread hrest⟩
          · exact Or.inr ⟨id :: before, other, after, error, rfl,
              ⟨credential :: credentials, .cons hread hbefore⟩, hfault⟩

theorem AllRead.map_id {ids : List String} {credentials : List Embedded}
    (hread : AllRead frontend ad ids credentials) : credentials.map (·.id) = ids := by
  induction hread with
  | nil => rfl
  | cons hfirst hrest ih => rw [List.map_cons, (Embedded.read?_eq_some_iff.1 hfirst).1, ih]

theorem AllRead.read?_of_mem {ids : List String} {credentials : List Embedded}
    (hread : AllRead frontend ad ids credentials) {credential : Embedded}
    (hmem : credential ∈ credentials) :
    credential.id ∈ ids ∧ Embedded.read? frontend ad credential.id = some credential := by
  constructor
  · rw [← hread.map_id]
    exact List.mem_map_of_mem hmem
  · induction hread with
    | nil => cases hmem
    | cons hfirst hrest ih =>
        rcases List.mem_cons.1 hmem with rfl | hlater
        · rwa [(Embedded.read?_eq_some_iff.1 hfirst).1]
        · exact ih hlater

end Staging

end Intake

end CredentialIntake
