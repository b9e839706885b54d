import CredentialIntake.Proofs.Trust

/-!
# Why a frontend is turned away

Authentication looks at its conditions in a fixed order and reports the first
one that fails.  A request that is not trusted has exactly one such condition,
so the answer is known for every combination of attributes.  Trust needs one
identity from three sources, and only one of them is the attribute the transport
sets: of two requests that differ in that attribute alone, at most one passes.
-/

namespace CredentialIntake

/-- Why an encrypted attribute cannot be used: it is not there, or it does not
decrypt to a text. -/
inductive Unread (key : SymmetricKey) (ad : ClassAd) (name : String) :
    AuthenticationCause → Prop where
  | missing :
      ad.get? name = none →
      Unread key ad name (.attributeMissing name)
  | undecryptable {ciphertext : String} :
      ad.get? name = some ciphertext → key.decryptText? ciphertext = none →
      Unread key ad name (.undecryptable name)

/-- The factory key opens the request, and the transport names an identity. -/
structure Identified (factoryKey : FactoryKey) (ad : ClassAd) (key : SymmetricKey)
    (identity : String) : Prop where
  opened : (ad.get? ClassAd.keyCode).bind factoryKey.unwrap? = some key
  transport : ad.get? ClassAd.authenticatedIdentity = some identity

/-- The request itself claims the identity the transport names. -/
structure Vouched (factoryKey : FactoryKey) (ad : ClassAd) (key : SymmetricKey)
    (identity : String) : Prop extends Identified factoryKey ad key identity where
  claimed : (ad.get? ClassAd.claimedIdentity).bind key.decryptText? = some identity

/-- The first condition of trust that a request fails, every condition before it
being met. -/
inductive Refusal (factoryKey : FactoryKey) (ad : ClassAd) (policy : FrontendPolicy) :
    AuthenticationCause → Prop where
  | noKeyCode :
      ad.get? ClassAd.keyCode = none →
      Refusal factoryKey ad policy .noKeyCode
  | keyNotExtracted {code : String} :
      ad.get? ClassAd.keyCode = some code → factoryKey.unwrap? code = none →
      Refusal factoryKey ad policy .keyNotExtracted
  | unidentified {key : SymmetricKey} :
      (ad.get? ClassAd.keyCode).bind factoryKey.unwrap? = some key →
      ad.get? ClassAd.authenticatedIdentity = none →
      Refusal factoryKey ad policy .noAuthenticatedIdentity
  | claimUnread {key : SymmetricKey} {identity : String} {cause : AuthenticationCause} :
      Identified factoryKey ad key identity →
      Unread key ad ClassAd.claimedIdentity cause →
      Refusal factoryKey ad policy cause
  | claimDiffers {key : SymmetricKey} {identity claimed : String} :
      Identified factoryKey ad key identity →
      (ad.get? ClassAd.claimedIdentity).bind key.decryptText? = some claimed →
      claimed ≠ identity →
      Refusal factoryKey ad policy (.identityMismatch claimed identity)
  | nameUnread {key : SymmetricKey} {identity : String} {cause : AuthenticationCause} :
      Vouched factoryKey ad key identity →
      Unread key ad ClassAd.securityName cause →
      Refusal factoryKey ad policy cause
  | unknownFrontend {key : SymmetricKey} {identity securityName : String} :
      Vouched factoryKey ad key identity →
      (ad.get? ClassAd.securityName).bind key.decryptText? = some securityName →
      policy.identityOf? securityName = none →
      Refusal factoryKey ad policy (.unknownFrontend securityName)
  | unexpectedIdentity {key : SymmetricKey} {identity securityName expected : String} :
      Vouched factoryKey ad key identity →
      (ad.get? ClassAd.securityName).bind key.decryptText? = some securityName →
      policy.identityOf? securityName = some expected → expected ≠ identity →
      Refusal factoryKey ad policy (.unexpectedIdentity securityName)

section Deciding

variable {factoryKey : FactoryKey} {ad : ClassAd} {policy : FrontendPolicy}

/-! ## Every request is trusted or refused -/

/-- An encrypted attribute holds a text, or there is a reason why it does not. -/
theorem text_or_unread (key : SymmetricKey) (ad : ClassAd) (name : String) :
    (∃ text, (ad.get? name).bind key.decryptText? = some text) ∨
      ∃ cause, Unread key ad name cause := by
  cases hattribute : ad.get? name with
  | none => exact Or.inr ⟨_, .missing hattribute⟩
  | some ciphertext =>
      cases htext : key.decryptText? ciphertext with
      | none => exact Or.inr ⟨_, .undecryptable hattribute htext⟩
      | some text => exact Or.inl ⟨text, by simpa using htext⟩

/-- Once the claim is settled, the frontend decides. -/
private theorem trusted_or_refusal_of_vouched {key : SymmetricKey} {identity : String}
    (hvouched : Vouched factoryKey ad key identity) :
    (∃ frontend identity, Trusted factoryKey ad policy frontend identity) ∨
      ∃ cause, Refusal factoryKey ad policy cause := by
  rcases text_or_unread key ad ClassAd.securityName with ⟨securityName, hname⟩ | ⟨cause, hunread⟩
  · cases hexpected : policy.identityOf? securityName with
    | none => exact Or.inr ⟨_, .unknownFrontend hvouched hname hexpected⟩
    | some expected =>
        by_cases hsame : expected = identity
        · subst hsame
          left
          exact ⟨⟨key, securityName⟩, expected,
            ⟨hvouched.opened, hvouched.transport, hvouched.claimed, hname, hexpected⟩⟩
        · exact Or.inr ⟨_, .unexpectedIdentity hvouched hname hexpected hsame⟩
  · exact Or.inr ⟨cause, .nameUnread hvouched hunread⟩

theorem trusted_or_refusal (factoryKey : FactoryKey) (ad : ClassAd) (policy : FrontendPolicy) :
    (∃ frontend identity, Trusted factoryKey ad policy frontend identity) ∨
      ∃ cause, Refusal factoryKey ad policy cause := by
  cases hcode : ad.get? ClassAd.keyCode with
  | none => exact Or.inr ⟨_, .noKeyCode hcode⟩
  | some code =>
      cases hkey : factoryKey.unwrap? code with
      | none => exact Or.inr ⟨_, .keyNotExtracted hcode hkey⟩
      | some key =>
          have hopened : (ad.get? ClassAd.keyCode).bind factoryKey.unwrap? = some key := by
            rw [hcode]
            exact hkey
          cases htransport : ad.get? ClassAd.authenticatedIdentity with
          | none => exact Or.inr ⟨_, .unidentified hopened htransport⟩
          | some identity =>
              have hidentified : Identified factoryKey ad key identity := ⟨hopened, htransport⟩
              rcases text_or_unread key ad ClassAd.claimedIdentity with
                ⟨claimed, hclaimed⟩ | ⟨cause, hunread⟩
              · by_cases hsame : claimed = identity
                · subst hsame
                  exact trusted_or_refusal_of_vouched ⟨hidentified, hclaimed⟩
                · exact Or.inr ⟨_, .claimDiffers hidentified hclaimed hsame⟩
              · exact Or.inr ⟨cause, .claimUnread hidentified hunread⟩

/-! ## What a refusal comes to -/

namespace Authentication

theorem decryptAttribute_of_unread {key : SymmetricKey} {name : String}
    {cause : AuthenticationCause} (hunread : Unread key ad name cause) :
    decryptAttribute key ad name = .error cause := by
  cases hunread with
  | missing hattribute => simp [decryptAttribute, hattribute]
  | undecryptable hattribute htext => simp [decryptAttribute, hattribute, htext]

/-- The checks up to the claim, for a request the factory key opens. -/
private theorem check_of_identified {key : SymmetricKey} {identity : String}
    (hidentified : Identified factoryKey ad key identity) :
    check factoryKey ad policy =
      (decryptAttribute key ad ClassAd.claimedIdentity).bind fun claimed => do
        if claimed ≠ identity then
          throw (.identityMismatch claimed identity)
        let securityName ← decryptAttribute key ad ClassAd.securityName
        let some expected := policy.identityOf? securityName
          | throw (.unknownFrontend securityName)
        if expected ≠ identity then
          throw (.unexpectedIdentity securityName)
        return { key, securityName } := by
  have hopened := extractKey_eq_ok_iff.2 hidentified.opened
  simp only [check, hopened, hidentified.transport]
  rfl

/-- The checks from the security name on. -/
private theorem check_of_vouched {key : SymmetricKey} {identity : String}
    (hvouched : Vouched factoryKey ad key identity) :
    check factoryKey ad policy =
      (decryptAttribute key ad ClassAd.securityName).bind fun securityName => do
        let some expected := policy.identityOf? securityName
          | throw (.unknownFrontend securityName)
        if expected ≠ identity then
          throw (.unexpectedIdentity securityName)
        return { key, securityName } := by
  have hclaimed := decryptAttribute_eq_ok_iff.2 hvouched.claimed
  rw [check_of_identified hvouched.toIdentified, hclaimed]
  simp [bind, Except.bind, pure, Except.pure]

theorem check_of_refusal {cause : AuthenticationCause}
    (hrefusal : Refusal factoryKey ad policy cause) :
    check factoryKey ad policy = .error cause := by
  cases hrefusal with
  | noKeyCode hcode => simp [check, extractKey, hcode, bind, Except.bind]
  | keyNotExtracted hcode hkey => simp [check, extractKey, hcode, hkey, bind, Except.bind]
  | unidentified hopened htransport =>
      simp only [check, extractKey_eq_ok_iff.2 hopened, htransport]
      rfl
  | claimUnread hidentified hunread =>
      rw [check_of_identified hidentified, decryptAttribute_of_unread hunread]
      rfl
  | claimDiffers hidentified hclaimed hdiffers =>
      rw [check_of_identified hidentified, decryptAttribute_eq_ok_iff.2 hclaimed]
      simp [Except.bind, hdiffers]
      rfl
  | nameUnread hvouched hunread =>
      rw [check_of_vouched hvouched, decryptAttribute_of_unread hunread]
      rfl
  | unknownFrontend hvouched hname hexpected =>
      rw [check_of_vouched hvouched, decryptAttribute_eq_ok_iff.2 hname]
      simp only [Except.bind, hexpected]
      rfl
  | unexpectedIdentity hvouched hname hexpected hdiffers =>
      rw [check_of_vouched hvouched, decryptAttribute_eq_ok_iff.2 hname]
      simp only [Except.bind, hexpected]
      rw [if_pos hdiffers]
      rfl

end Authentication

theorem authenticate_of_refusal {cause : AuthenticationCause}
    (hrefusal : Refusal factoryKey ad policy cause) :
    authenticate factoryKey ad policy = .error (.authentication cause) := by
  rw [authenticate, Authentication.check_of_refusal hrefusal]
  rfl

/-- What a request fails authentication with is its refusal, in the class of
authentication errors. -/
theorem authenticate_eq_error_iff {error : IntakeError} :
    authenticate factoryKey ad policy = .error error ↔
      ∃ cause, Refusal factoryKey ad policy cause ∧ error = .authentication cause := by
  constructor
  · intro hfailed
    rcases trusted_or_refusal factoryKey ad policy with
      ⟨frontend, htrusted⟩ | ⟨cause, hrefusal⟩
    · rw [authenticate_eq_ok_iff.2 htrusted] at hfailed
      cases hfailed
    · rw [authenticate_of_refusal hrefusal] at hfailed
      cases hfailed
      exact ⟨cause, hrefusal, rfl⟩
  · rintro ⟨cause, hrefusal, rfl⟩
    exact authenticate_of_refusal hrefusal

/-! ## One transport identity -/

/-- The requests agree in everything but the identity the transport names. -/
structure DifferInTransport (ad other : ClassAd) : Prop where
  elsewhere : ∀ name, name ≠ ClassAd.authenticatedIdentity → other.get? name = ad.get? name
  transport : other.get? ClassAd.authenticatedIdentity ≠ ad.get? ClassAd.authenticatedIdentity

/-- The identity inside a request is fixed by attributes the transport does not
set. -/
theorem Trusted.transport_eq {other : ClassAd} {frontend otherFrontend : AuthenticatedFrontend}
    {identity otherIdentity : String}
    (htrusted : Trusted factoryKey ad policy frontend identity)
    (hother : Trusted factoryKey other policy otherFrontend otherIdentity)
    (helsewhere : ∀ name, name ≠ ClassAd.authenticatedIdentity →
      other.get? name = ad.get? name) :
    otherIdentity = identity := by
  have hopened := hother.opened
  rw [helsewhere ClassAd.keyCode (by decide), htrusted.opened] at hopened
  have hclaimed := hother.claimed
  rw [helsewhere ClassAd.claimedIdentity (by decide), ← Option.some.inj hopened,
    htrusted.claimed] at hclaimed
  exact (Option.some.inj hclaimed).symm

end Deciding

/-- Authentication yields a key and a security name exactly if the request is
trusted with them, and in every other case the first condition that fails, as an
error of its own class.  Two requests that differ in the identity the transport
names never both pass. -/
theorem authenticate_decides_trust (factoryKey : FactoryKey) (ad : ClassAd)
    (policy : FrontendPolicy) :
    (∀ key securityName, authenticate factoryKey ad policy = .ok ⟨key, securityName⟩ ↔
      ∃ identity, Trusted factoryKey ad policy ⟨key, securityName⟩ identity) ∧
    (∀ error, authenticate factoryKey ad policy = .error error ↔
      ∃ cause, Refusal factoryKey ad policy cause ∧ error = .authentication cause) ∧
    ∀ other, DifferInTransport ad other →
      ¬ ((authenticate factoryKey ad policy).isOk = true ∧
        (authenticate factoryKey other policy).isOk = true) := by
  refine ⟨fun key securityName => authenticate_eq_ok_iff,
    fun error => authenticate_eq_error_iff, ?_⟩
  rintro other hdiffer ⟨hpasses, hotherPasses⟩
  cases hresult : authenticate factoryKey ad policy with
  | error error =>
      rw [hresult] at hpasses
      cases hpasses
  | ok frontend =>
      cases hotherResult : authenticate factoryKey other policy with
      | error error =>
          rw [hotherResult] at hotherPasses
          cases hotherPasses
      | ok otherFrontend =>
          obtain ⟨identity, htrusted⟩ := authenticate_eq_ok_iff.1 hresult
          obtain ⟨otherIdentity, hother⟩ := authenticate_eq_ok_iff.1 hotherResult
          have hsame := htrusted.transport_eq hother hdiffer.elsewhere
          apply hdiffer.transport
          rw [hother.transport, htrusted.transport, hsame]

namespace Authentication.Trial

/-- Opens every key code to a key whose ciphertexts are in plain hexadecimal. -/
def factoryKey : FactoryKey := ⟨fun _ => some (SymmetricKey.masked 0)⟩

def policy : FrontendPolicy where
  identityOf? := fun _ => some "host"
  usernameOf? := fun _ _ => none

/-- A request of the frontend `vo` that claims to come from `host`. -/
def request : ClassAd := ClassAd.ofList
  [("ReqEncKeyCode", "code"), ("AuthenticatedIdentity", "host"),
    ("ReqEncIdentity", "686f7374"), ("GlideinEncParamSecurityName", "766f")]

/-- The same request as seen by a transport that names another identity. -/
def replayed : ClassAd := ⟨request.attributes.insert ClassAd.authenticatedIdentity "other"⟩

end Authentication.Trial

open Authentication in
/-- A request that passes does not pass when it is sent again from elsewhere. -/
theorem authenticate_decides_trust_replayed :
    (authenticate Trial.factoryKey Trial.request Trial.policy).isOk = true ∧
      (authenticate Trial.factoryKey Trial.replayed Trial.policy).isOk = false := by
  have hpasses : (authenticate Trial.factoryKey Trial.request Trial.policy).isOk = true := by
    decide +kernel
  have hdiffer : DifferInTransport Trial.request Trial.replayed := by
    constructor
    · intro name hname
      simp [Trial.replayed, ClassAd.get?, Std.ExtTreeMap.getElem?_insert, Ne.symm hname]
    · decide +kernel
  refine ⟨hpasses, ?_⟩
  rw [← Bool.not_eq_true]
  intro hreplayed
  exact (authenticate_decides_trust Trial.factoryKey Trial.request Trial.policy).2.2
    Trial.replayed hdiffer ⟨hpasses, hreplayed⟩

end CredentialIntake
