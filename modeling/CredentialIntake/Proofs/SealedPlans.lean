import CredentialIntake.Proofs.Refusals
import CredentialIntake.Proofs.Requests

/-!
# What a plan tells about material

Two keys can open the same attributes of a request and read the same in all of
them but the material of its credentials.  Apart from the bytes to be written, the
plans that come of the two keys are one: the same credentials are left out, the
same error is found, and the same report is made with writes to the same paths.
-/

namespace CredentialIntake

/-- The keys open the same attributes of a request, and read the same in those that
the request is judged by. -/
structure AgreeButMaterial (ad : ClassAd) (left right : SymmetricKey) : Prop where
  opened : ∀ name ciphertext, ad.get? name = some ciphertext →
    (left.decrypt? ciphertext).isSome = (right.decrypt? ciphertext).isSome
  identity : ∀ ciphertext, ad.get? ClassAd.claimedIdentity = some ciphertext →
    left.decrypt? ciphertext = right.decrypt? ciphertext
  securityName : ∀ ciphertext, ad.get? ClassAd.securityName = some ciphertext →
    left.decrypt? ciphertext = right.decrypt? ciphertext
  securityClass : ∀ id ciphertext, ad.get? (ClassAd.securityClassKey id) = some ciphertext →
    left.decrypt? ciphertext = right.decrypt? ciphertext

/-- The keys open the key code of a request to keys that agree but for the
material, or neither opens it. -/
def UnwrapAlike (ad : ClassAd) (left right : FactoryKey) : Prop :=
  ∀ code, ad.get? ClassAd.keyCode = some code →
    Option.Rel (AgreeButMaterial ad) (left.unwrap? code) (right.unwrap? code)

/-! ## Authentication -/

section Reading

variable {ad : ClassAd} {key other : SymmetricKey} {name : String}

private theorem bind_decryptText?_eq
    (hsame : ∀ ciphertext, ad.get? name = some ciphertext →
      key.decrypt? ciphertext = other.decrypt? ciphertext) :
    (ad.get? name).bind other.decryptText? = (ad.get? name).bind key.decryptText? := by
  cases hvalue : ad.get? name with
  | none => rfl
  | some ciphertext => simp [SymmetricKey.decryptText?, hsame ciphertext hvalue]

private theorem Unread.congr {cause : AuthenticationCause} (hunread : Unread key ad name cause)
    (hsame : ∀ ciphertext, ad.get? name = some ciphertext →
      key.decrypt? ciphertext = other.decrypt? ciphertext) : Unread other ad name cause := by
  cases hunread with
  | missing hmissing => exact .missing hmissing
  | @undecryptable ciphertext hvalue htext =>
      refine .undecryptable hvalue ?_
      rwa [SymmetricKey.decryptText?, ← hsame ciphertext hvalue]

end Reading

section Admission

variable {ad : ClassAd} {left right : FactoryKey} {policy : FrontendPolicy} {key : SymmetricKey}
  {identity : String}

private theorem UnwrapAlike.exists_opened (hkeys : UnwrapAlike ad left right)
    (hopened : (ad.get? ClassAd.keyCode).bind left.unwrap? = some key) :
    ∃ other, (ad.get? ClassAd.keyCode).bind right.unwrap? = some other ∧
      AgreeButMaterial ad key other := by
  obtain ⟨code, hcode, hleft⟩ := Option.bind_eq_some_iff.1 hopened
  have hrelated := hkeys code hcode
  rw [hleft] at hrelated
  rw [hcode, Option.bind_some]
  cases hright : right.unwrap? code with
  | none =>
      rw [hright] at hrelated
      cases hrelated
  | some other =>
      rw [hright] at hrelated
      cases hrelated with
      | some hagree => exact ⟨other, rfl, hagree⟩

private theorem UnwrapAlike.exists_identified (hkeys : UnwrapAlike ad left right)
    (hidentified : Identified left ad key identity) :
    ∃ other, Identified right ad other identity ∧ AgreeButMaterial ad key other := by
  obtain ⟨other, hopened, hagree⟩ := hkeys.exists_opened hidentified.opened
  exact ⟨other, ⟨hopened, hidentified.transport⟩, hagree⟩

private theorem UnwrapAlike.exists_vouched (hkeys : UnwrapAlike ad left right)
    (hvouched : Vouched left ad key identity) :
    ∃ other, Vouched right ad other identity ∧ AgreeButMaterial ad key other := by
  obtain ⟨other, hidentified, hagree⟩ := hkeys.exists_identified hvouched.toIdentified
  have hclaimed := (bind_decryptText?_eq hagree.identity).trans hvouched.claimed
  exact ⟨other, ⟨hidentified, hclaimed⟩, hagree⟩

private theorem UnwrapAlike.exists_trusted (hkeys : UnwrapAlike ad left right)
    {securityName : String} (htrusted : Trusted left ad policy ⟨key, securityName⟩ identity) :
    ∃ other, Trusted right ad policy ⟨other, securityName⟩ identity ∧
      AgreeButMaterial ad key other := by
  obtain ⟨other, hvouched, hagree⟩ :=
    hkeys.exists_vouched ⟨⟨htrusted.opened, htrusted.transport⟩, htrusted.claimed⟩
  have hnamed := (bind_decryptText?_eq hagree.securityName).trans htrusted.named
  exact ⟨other, ⟨hvouched.opened, hvouched.transport, hvouched.claimed, hnamed,
    htrusted.expected⟩, hagree⟩

/-- No refusal has to do with material. -/
private theorem UnwrapAlike.refusal (hkeys : UnwrapAlike ad left right)
    {cause : AuthenticationCause} (hrefusal : Refusal left ad policy cause) :
    Refusal right ad policy cause := by
  cases hrefusal with
  | noKeyCode hcode => exact .noKeyCode hcode
  | @keyNotExtracted code hcode hleft =>
      have hrelated := hkeys code hcode
      rw [hleft] at hrelated
      refine .keyNotExtracted hcode ?_
      cases hright : right.unwrap? code with
      | none => rfl
      | some other =>
          rw [hright] at hrelated
          cases hrelated
  | unidentified hopened htransport =>
      obtain ⟨other, hother, -⟩ := hkeys.exists_opened hopened
      exact .unidentified hother htransport
  | claimUnread hidentified hunread =>
      obtain ⟨other, hother, hagree⟩ := hkeys.exists_identified hidentified
      exact .claimUnread hother (hunread.congr hagree.identity)
  | claimDiffers hidentified hclaimed hdiffers =>
      obtain ⟨other, hother, hagree⟩ := hkeys.exists_identified hidentified
      exact .claimDiffers hother ((bind_decryptText?_eq hagree.identity).trans hclaimed) hdiffers
  | nameUnread hvouched hunread =>
      obtain ⟨other, hother, hagree⟩ := hkeys.exists_vouched hvouched
      exact .nameUnread hother (hunread.congr hagree.securityName)
  | unknownFrontend hvouched hname hunknown =>
      obtain ⟨other, hother, hagree⟩ := hkeys.exists_vouched hvouched
      exact .unknownFrontend hother ((bind_decryptText?_eq hagree.securityName).trans hname)
        hunknown
  | unexpectedIdentity hvouched hname hexpected hdiffers =>
      obtain ⟨other, hother, hagree⟩ := hkeys.exists_vouched hvouched
      exact .unexpectedIdentity hother ((bind_decryptText?_eq hagree.securityName).trans hname)
        hexpected hdiffers

/-- Authentication ends in the same error, or with keys that agree but for the
material and one security name. -/
theorem authenticate_cases (hkeys : UnwrapAlike ad left right) (policy : FrontendPolicy) :
    (∃ error, authenticate left ad policy = .error error ∧
        authenticate right ad policy = .error error) ∨
      ∃ key other securityName, authenticate left ad policy = .ok ⟨key, securityName⟩ ∧
        authenticate right ad policy = .ok ⟨other, securityName⟩ ∧
        AgreeButMaterial ad key other := by
  rcases trusted_or_refusal left ad policy with ⟨frontend, identity, htrusted⟩ | ⟨cause, hrefusal⟩
  · obtain ⟨other, hother, hagree⟩ := hkeys.exists_trusted htrusted
    exact Or.inr ⟨frontend.key, other, frontend.securityName,
      authenticate_eq_ok_iff.2 ⟨identity, htrusted⟩, authenticate_eq_ok_iff.2 ⟨identity, hother⟩,
      hagree⟩
  · exact Or.inl ⟨_, authenticate_of_refusal hrefusal,
      authenticate_of_refusal (hkeys.refusal hrefusal)⟩

end Admission

namespace Intake

/-! ## Without the material -/

/-- A staged credential without its material. -/
def Staged.sealed (staged : Staged) : Staged := { staged with material := [] }

def Disposition.sealed : Disposition → Disposition
  | staged credential => staged credential.sealed
  | skipped error => skipped error

def Staging.sealed (staging : Staging) : Staging :=
  { staging with dispositions := staging.dispositions.map (·.sealed) }

/-- What a plan comes to, with the paths of its writes in place of the writes. -/
def Plan.outline (plan : Plan) : List IntakeError × Except IntakeError (Report × List Path) :=
  (plan.skipped, plan.decision.map fun decided => (decided.1, decided.2.map (·.path)))

/-- Plans with one outline leave the same credentials out, and refuse the request with
one error or come to one report with writes to the same paths. -/
theorem Plan.cases_of_outline_eq {plan other : Plan} (houtline : plan.outline = other.outline) :
    plan.skipped = other.skipped ∧
      ((∃ error, plan.decision = .error error ∧ other.decision = .error error) ∨
        ∃ report writes others, plan.decision = .ok (report, writes) ∧
          other.decision = .ok (report, others) ∧
          writes.map (·.path) = others.map (·.path)) := by
  obtain ⟨hskipped, hdecisions⟩ := Prod.mk.inj houtline
  refine ⟨hskipped, ?_⟩
  cases hplan : plan.decision with
  | error error =>
      cases hother : other.decision with
      | error cause =>
          rw [hplan, hother] at hdecisions
          cases hdecisions
          exact Or.inl ⟨error, rfl, rfl⟩
      | ok decided =>
          rw [hplan, hother] at hdecisions
          cases hdecisions
  | ok decided =>
      cases hother : other.decision with
      | error cause =>
          rw [hplan, hother] at hdecisions
          cases hdecisions
      | ok planned =>
          rw [hplan, hother] at hdecisions
          obtain ⟨report, writes⟩ := decided
          obtain ⟨same, others⟩ := planned
          obtain ⟨rfl, hpaths⟩ := Prod.mk.inj (Except.ok.inj hdecisions)
          exact Or.inr ⟨report, writes, others, rfl, rfl, hpaths⟩

/-! ## Staging -/

section Staging

variable {ad : ClassAd} {left right : SymmetricKey}

/-- Staging a credential asks whether its material decrypts, and for nothing else
about it. -/
private theorem sealed_stage_eq (hagree : AgreeButMaterial ad left right)
    (policy : FrontendPolicy) (securityName client id : String) :
    (stage policy ⟨left, securityName⟩ ad client id).map Disposition.sealed =
      (stage policy ⟨right, securityName⟩ ad client id).map Disposition.sealed := by
  have hclass := bind_decryptText?_eq (hagree.securityClass id)
  cases hparameter : ad.get? (ClassAd.parameterKey id) with
  | none => simp [stage, requireAttribute, hparameter, bind, Except.bind]
  | some ciphertext =>
      have hopened := hagree.opened _ ciphertext hparameter
      cases hleft : left.decrypt? ciphertext with
      | none =>
          rw [hleft, Option.isSome_none, Eq.comm, Option.isSome_eq_false_iff,
            Option.isNone_iff_eq_none] at hopened
          simp [stage, requireAttribute, decrypted, hparameter, hleft, hopened, bind, Except.bind]
      | some material =>
          rw [hleft, Option.isSome_some, Eq.comm, Option.isSome_iff_exists] at hopened
          obtain ⟨other, hright⟩ := hopened
          cases hannounced : ad.get? (ClassAd.securityClassKey id) with
          | none =>
              simp [stage, requireAttribute, decrypted, hparameter, hleft, hright, hannounced, bind,
                Except.bind]
          | some classCiphertext =>
              rw [hannounced, Option.bind_some, Option.bind_some] at hclass
              simp only [stage, requireAttribute, decrypted, hparameter, hleft, hright, hannounced,
                hclass, bind, Except.bind]
              cases left.decryptText? classCiphertext with
              | none => rfl
              | some securityClass =>
                  simp only
                  cases policy.usernameOf? securityName securityClass <;> rfl

private theorem sealed_stageAll_eq (hagree : AgreeButMaterial ad left right)
    (policy : FrontendPolicy) (securityName client : String) (ids : List String) :
    (stageAll policy ⟨left, securityName⟩ ad client ids).sealed =
      (stageAll policy ⟨right, securityName⟩ ad client ids).sealed := by
  induction ids with
  | nil => rfl
  | cons id rest ih =>
      have hfirst := sealed_stage_eq hagree policy securityName client id
      rw [stageAll, stageAll]
      cases hleft : stage policy ⟨left, securityName⟩ ad client id with
      | error error =>
          cases hright : stage policy ⟨right, securityName⟩ ad client id with
          | error other =>
              rw [hleft, hright] at hfirst
              cases hfirst
              rfl
          | ok other =>
              rw [hleft, hright] at hfirst
              cases hfirst
      | ok disposition =>
          cases hright : stage policy ⟨right, securityName⟩ ad client id with
          | error other =>
              rw [hleft, hright] at hfirst
              cases hfirst
          | ok other =>
              rw [hleft, hright] at hfirst
              have hsealed : disposition.sealed = other.sealed := Except.ok.inj hfirst
              simp only [Staging.sealed, List.map_cons, hsealed, Staging.mk.injEq] at ih ⊢
              exact ⟨congrArg _ ih.1, ih.2⟩

end Staging

/-! ## Plans -/

private theorem skipped_sealed (staging : Staging) :
    staging.sealed.skipped = staging.skipped := by
  rw [Staging.skipped, Staging.skipped, Staging.sealed, List.filterMap_map]
  congr 1
  funext disposition
  cases disposition <;> rfl

private theorem staged_sealed (staging : Staging) :
    staging.sealed.staged = staging.staged.map Staged.sealed := by
  rw [Staging.staged, Staging.staged, Staging.sealed, List.filterMap_map, List.map_filterMap]
  congr 1
  funext disposition
  cases disposition <;> rfl

private theorem persisted_sealed (directoryOf : String → Path) (client : String)
    (staged : List Staged) :
    Plan.persisted directoryOf client (staged.map Staged.sealed) =
      Plan.persisted directoryOf client staged := by
  rw [Plan.persisted, Plan.persisted, List.map_map]
  rfl

private theorem paths_writes_sealed (directoryOf : String → Path) (client : String)
    (staged : List Staged) :
    (Plan.writes directoryOf client (staged.map Staged.sealed)).map (·.path) =
      (Plan.writes directoryOf client staged).map (·.path) := by
  rw [Plan.writes, Plan.writes, List.flatMap_map, List.map_flatMap, List.map_flatMap]
  rfl

/-- The outline of a plan does not depend on the material. -/
private theorem outline_ofStaging_sealed (directoryOf : String → Path)
    (client securityName : String) (staging : Staging) :
    (Plan.ofStaging directoryOf client securityName staging.sealed).outline =
      (Plan.ofStaging directoryOf client securityName staging).outline := by
  have hfault : staging.sealed.fault = staging.fault := rfl
  have hempty : staging.sealed.staged.isEmpty = staging.staged.isEmpty := by
    rw [staged_sealed, List.isEmpty_map]
  simp only [Plan.outline, Plan.ofStaging, hfault, hempty, skipped_sealed]
  cases staging.fault with
  | some error => rfl
  | none =>
      simp only
      split
      · simp only [Except.map, staged_sealed, persisted_sealed, paths_writes_sealed]
      · rfl

/-- Keys that agree but for the material have plans with one outline. -/
theorem outline_ofRequest_eq {ad : ClassAd} {left right : FactoryKey}
    (hkeys : UnwrapAlike ad left right) (policy : FrontendPolicy)
    (directoryOf : String → Path) :
    (Plan.ofRequest ⟨some left, policy⟩ directoryOf ad).outline =
      (Plan.ofRequest ⟨some right, policy⟩ directoryOf ad).outline := by
  simp only [Plan.ofRequest, Factory.requireKey]
  rcases authenticate_cases hkeys policy with
    ⟨error, hleft, hright⟩ | ⟨key, other, securityName, hleft, hright, hagree⟩
  · rw [hleft, hright]
  · rw [hleft, hright]
    simp only
    cases requireAttribute ad ClassAd.clientName with
    | error error => rfl
    | ok client =>
        simp only
        rw [← outline_ofStaging_sealed, sealed_stageAll_eq hagree, outline_ofStaging_sealed]

end Intake

end CredentialIntake
