import CredentialIntake.Authentication
import Mathlib

/-!
# What makes a request trusted

Authentication succeeds exactly if the identity inside the request, the identity
the transport saw and the identity the factory expects of the frontend are one.
-/

namespace CredentialIntake

/-- Why a request can be trusted: three sources name one identity. -/
structure Trusted (factoryKey : FactoryKey) (ad : ClassAd) (policy : FrontendPolicy)
    (frontend : AuthenticatedFrontend) (identity : String) : Prop where
  opened : (ad.get? ClassAd.keyCode).bind factoryKey.unwrap? = some frontend.key
  transport : ad.get? ClassAd.authenticatedIdentity = some identity
  claimed : (ad.get? ClassAd.claimedIdentity).bind frontend.key.decryptText? = some identity
  named : (ad.get? ClassAd.securityName).bind frontend.key.decryptText? =
    some frontend.securityName
  expected : policy.identityOf? frontend.securityName = some identity

namespace Authentication

theorem extractKey_eq_ok_iff {factoryKey : FactoryKey} {ad : ClassAd} {key : SymmetricKey} :
    extractKey factoryKey ad = .ok key ↔
      (ad.get? ClassAd.keyCode).bind factoryKey.unwrap? = some key := by
  rw [extractKey]
  cases ad.get? ClassAd.keyCode with
  | none => simp
  | some code =>
      simp only [Option.bind_some]
      cases factoryKey.unwrap? code with
      | none => simp
      | some found => simp

theorem decryptAttribute_eq_ok_iff {key : SymmetricKey} {ad : ClassAd} {name text : String} :
    decryptAttribute key ad name = .ok text ↔
      (ad.get? name).bind key.decryptText? = some text := by
  rw [decryptAttribute]
  cases ad.get? name with
  | none => simp
  | some ciphertext =>
      simp only [Option.bind_some]
      cases key.decryptText? ciphertext with
      | none => simp
      | some found => simp

private theorem exists_of_bind_eq_ok {ε α β : Type} {first : Except ε α}
    {next : α → Except ε β} {result : β} (hrun : first >>= next = .ok result) :
    ∃ value, first = .ok value ∧ next value = .ok result := by
  cases first with
  | error error => cases hrun
  | ok value => exact ⟨value, rfl, hrun⟩

private theorem trusted_of_check {factoryKey : FactoryKey} {ad : ClassAd}
    {policy : FrontendPolicy} {frontend : AuthenticatedFrontend}
    (hcheck : check factoryKey ad policy = .ok frontend) :
    ∃ identity, Trusted factoryKey ad policy frontend identity := by
  obtain ⟨key, hopened, hrest⟩ := exists_of_bind_eq_ok hcheck
  cases htransport : ad.get? ClassAd.authenticatedIdentity with
  | none =>
      rw [htransport] at hrest
      cases hrest
  | some identity =>
      simp only [htransport] at hrest
      obtain ⟨claimed, hclaimed, hrest⟩ := exists_of_bind_eq_ok hrest
      split at hrest
      · cases hrest
      next hidentity =>
        obtain ⟨securityName, hname, hrest⟩ := exists_of_bind_eq_ok hrest
        cases hexpected : policy.identityOf? securityName with
        | none =>
            rw [hexpected] at hrest
            cases hrest
        | some expected =>
            simp only [hexpected] at hrest
            split at hrest
            · cases hrest
            next hfrontend =>
              cases hrest
              rw [not_not] at hidentity hfrontend
              subst hidentity hfrontend
              exact ⟨_, extractKey_eq_ok_iff.1 hopened, htransport,
                decryptAttribute_eq_ok_iff.1 hclaimed, decryptAttribute_eq_ok_iff.1 hname,
                hexpected⟩

private theorem check_of_trusted {factoryKey : FactoryKey} {ad : ClassAd}
    {policy : FrontendPolicy} {frontend : AuthenticatedFrontend} {identity : String}
    (htrusted : Trusted factoryKey ad policy frontend identity) :
    check factoryKey ad policy = .ok frontend := by
  have hopened := extractKey_eq_ok_iff.2 htrusted.opened
  have hclaimed := decryptAttribute_eq_ok_iff.2 htrusted.claimed
  have hname := decryptAttribute_eq_ok_iff.2 htrusted.named
  simp [check, bind, Except.bind, pure, Except.pure, hopened, htrusted.transport, hclaimed,
    hname, htrusted.expected]

end Authentication

/-- A frontend passes authentication exactly if its request can be trusted. -/
theorem authenticate_eq_ok_iff {factoryKey : FactoryKey} {ad : ClassAd}
    {policy : FrontendPolicy} {frontend : AuthenticatedFrontend} :
    authenticate factoryKey ad policy = .ok frontend ↔
      ∃ identity, Trusted factoryKey ad policy frontend identity := by
  have hmapped : authenticate factoryKey ad policy = .ok frontend ↔
      Authentication.check factoryKey ad policy = .ok frontend := by
    rw [authenticate]
    cases Authentication.check factoryKey ad policy <;> simp [Except.mapError]
  rw [hmapped]
  constructor
  · exact Authentication.trusted_of_check
  · rintro ⟨identity, htrusted⟩
    exact Authentication.check_of_trusted htrusted

/-- Authentication fails with a cause of its own class. -/
theorem exists_cause_of_authenticate {factoryKey : FactoryKey} {ad : ClassAd}
    {policy : FrontendPolicy} {error : IntakeError}
    (hfailed : authenticate factoryKey ad policy = .error error) :
    ∃ cause, error = .authentication cause := by
  rw [authenticate] at hfailed
  cases hcheck : Authentication.check factoryKey ad policy with
  | ok frontend =>
      rw [hcheck] at hfailed
      cases hfailed
  | error cause =>
      rw [hcheck] at hfailed
      cases hfailed
      exact ⟨cause, rfl⟩

end CredentialIntake
