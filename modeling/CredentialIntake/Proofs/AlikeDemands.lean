import CredentialIntake.Proofs.ContractAnswers

/-!
# Requests the contract cannot tell apart

The contract looks at a method through the set of the kinds it declares, and at
the parameters through the set of credentials among them and one mark for a
forwarded token.  Order, repetition, blanks and everything unknown are lost on
the way, also in the list of offending names.  Requests that agree on what is
left get one answer; only the method's text, where it is quoted, tells them
apart.
-/

namespace CredentialIntake.Contract

/-- What the contract looks at is the same in both requests. -/
structure SameDemand (text other : String) (parameters others : List String) : Prop where
  kinds : declaredKinds text = declaredKinds other
  keys : suppliedKeys parameters = suppliedKeys others
  token : forwardedToken ∈ parameters ↔ forwardedToken ∈ others

/-- Two messages that are equal, or differ in the method's text that both quote. -/
inductive QuotesAlike (text other : String) : String → String → Prop where
  | equal (message : String) : QuotesAlike text other message message
  | quoted (lead tail : String) :
      QuotesAlike text other (lead ++ "'" ++ text ++ "'" ++ tail)
        (lead ++ "'" ++ other ++ "'" ++ tail)

/-- Two answers of one kind: both accept, or both refuse with errors of one class
and with messages that differ in the quoted text at most. -/
inductive AnswersAlike (text other : String) :
    Except IntakeError Unit → Except IntakeError Unit → Prop where
  | accepted : AnswersAlike text other (.ok ()) (.ok ())
  | refused {left right : IntakeError} :
      left.code = right.code → QuotesAlike text other left.message right.message →
      AnswersAlike text other (.error left) (.error right)

/-! ## What the verdict is read off -/

section Same

variable {text other : String} {parameters others : List String}

theorem supports_congr (hkinds : declaredKinds text = declaredKinds other) (kind : MethodKind) :
    (AuthMethod.ofText text).supports kind = (AuthMethod.ofText other).supports kind := by
  rw [Bool.eq_iff_iff, supports_ofText_iff, supports_ofText_iff, hkinds]

theorem contains_congr (hkeys : suppliedKeys parameters = suppliedKeys others) {key : String}
    (hrelevant : key ∈ relevantKeys) : parameters.contains key = others.contains key := by
  have hkey : key ∈ suppliedKeys parameters ↔ key ∈ suppliedKeys others := by rw [hkeys]
  rw [Bool.eq_iff_iff, List.contains_iff_mem, List.contains_iff_mem]
  constructor
  · intro hmem
    exact (hkey.1 ⟨hrelevant, hmem⟩).2
  · intro hmem
    exact (hkey.2 ⟨hrelevant, hmem⟩).2

/-- The names reported as too many are listed in an order of their own. -/
theorem unlisted_congr (hkeys : suppliedKeys parameters = suppliedKeys others)
    (allowed : List String) : unlisted allowed parameters = unlisted allowed others := by
  have hfilter : relevantKeys.filter
        (fun key => !allowed.contains key && parameters.contains key) =
      relevantKeys.filter fun key => !allowed.contains key && others.contains key := by
    apply List.filter_congr
    intro key hkey
    rw [contains_congr hkeys hkey]
  rw [unlisted, unlisted, hfilter]

theorem refuseUnlisted_congr (hkeys : suppliedKeys parameters = suppliedKeys others)
    (allowed : List String) :
    refuseUnlisted allowed parameters = refuseUnlisted allowed others := by
  rw [refuseUnlisted, refuseUnlisted, unlisted_congr hkeys]

private theorem relevant_of_mem_required :
    ∀ rule ∈ rules, ∀ key ∈ rule.required, key ∈ relevantKeys := by
  decide

theorem ruleVerdict_congr (hkeys : suppliedKeys parameters = suppliedKeys others) {rule : Rule}
    (hrule : rule ∈ rules) : rule.verdict parameters = rule.verdict others := by
  have hrequired : rule.required.all parameters.contains = rule.required.all others.contains := by
    rw [Bool.eq_iff_iff, List.all_eq_true, List.all_eq_true]
    apply forall₂_congr
    intro key hkey
    rw [contains_congr hkeys (relevant_of_mem_required rule hrule key hkey)]
  rw [Rule.verdict, Rule.verdict, hrequired, refuseUnlisted_congr hkeys]

variable {passthru : Bool} {unknownMethods : UnknownMethodPolicy}

/-- Where some kind is declared, the verdict is a function of what both requests
have in common. -/
theorem SameDemand.verdict_eq (hsame : SameDemand text other parameters others)
    (hdeclared : (declaredKinds text).Nonempty) :
    verdict (AuthMethod.ofText text) parameters passthru unknownMethods =
      verdict (AuthMethod.ofText other) others passthru unknownMethods := by
  have hsupports := supports_congr hsame.kinds
  have hsupported := hasSupported_ofText_iff.2 hdeclared
  have hotherSupported := hasSupported_ofText_iff.2 (hsame.kinds ▸ hdeclared)
  have htoken : parameters.contains forwardedToken = others.contains forwardedToken := by
    rw [Bool.eq_iff_iff, List.contains_iff_mem, List.contains_iff_mem, hsame.token]
  have hsubmit : parameters.contains "SubmitProxy" = others.contains "SubmitProxy" :=
    contains_congr hsame.keys (by decide)
  have hglidein : parameters.contains "GlideinProxy" = others.contains "GlideinProxy" :=
    contains_congr hsame.keys (by decide)
  rw [verdict.eq_def, verdict.eq_def, hsupported, hotherSupported]
  simp only [hsupports, htoken, hsubmit, hglidein, refuseUnlisted_congr hsame.keys,
    Bool.not_true, Bool.false_eq_true, if_false]
  cases hfound : rules.find? fun rule => (AuthMethod.ofText other).supports rule.kind with
  | none => rfl
  | some rule => simp only [ruleVerdict_congr hsame.keys (List.mem_of_find?_eq_some hfound)]

end Same

/-! ## Messages -/

section Messages

variable (text other : String)

private theorem quotesAlike_unsupportedMethod (request : Request) :
    QuotesAlike text other
      (IntakeError.contractViolation request.client request.entry
        (.unsupportedMethod text)).message
      (IntakeError.contractViolation request.client request.entry
        (.unsupportedMethod other)).message := by
  have hlead : "auth method '" = "auth method " ++ "'" := rfl
  have htail : "' is not supported by this factory" =
      "'" ++ " is not supported by this factory" := rfl
  have hquoted : ∀ method : String,
      (IntakeError.contractViolation request.client request.entry
        (.unsupportedMethod method)).message =
        s!"request from {request.client} for entry {request.entry}: " ++ "auth method " ++ "'" ++
          method ++ "'" ++ " is not supported by this factory" := by
    intro method
    change s!"request from {request.client} for entry {request.entry}: " ++
      ("auth method '" ++ method ++ "' is not supported by this factory") = _
    rw [hlead, htail]
    simp only [String.append_assoc]
  rw [hquoted, hquoted]
  exact .quoted _ _

private theorem quotesAlike_noCredentialRule :
    QuotesAlike text other (IntakeError.internal (.noCredentialRule text)).message
      (IntakeError.internal (.noCredentialRule other)).message := by
  have hlead : "auth method '" = "auth method " ++ "'" := rfl
  have htail : "' passed the supported check but has no credential rule" =
      "'" ++ " passed the supported check but has no credential rule" := rfl
  have hquoted : ∀ method : String, (IntakeError.internal (.noCredentialRule method)).message =
      "internal inconsistency: " ++ "auth method " ++ "'" ++ method ++ "'" ++
        " passed the supported check but has no credential rule" := by
    intro method
    change "internal inconsistency: " ++
      ("auth method '" ++ method ++ "' passed the supported check but has no credential rule") = _
    rw [hlead, htail]
    simp only [String.append_assoc]
  rw [hquoted, hquoted]
  exact .quoted _ _

end Messages

/-! ## Monotone acceptance -/

section Acceptance

variable {text : String} {declared : Set MethodKind} {parameters : List String} {passthru : Bool}
  {unknownMethods : UnknownMethodPolicy} {request : Request}

theorem acceptable_of_accepted
    (haccepted :
      (check (AuthMethod.ofText text) parameters request passthru unknownMethods).1 = .ok ()) :
    Acceptable (declaredKinds text) parameters passthru unknownMethods := by
  rcases acceptable_or_onlyIdentityToken_or_refused text parameters passthru unknownMethods with
    hacceptable | honly | ⟨breach, hrefused⟩
  · exact hacceptable
  · cases (answer_of_onlyIdentityToken honly).symm.trans haccepted
  · rw [check, hrefused] at haccepted
    cases haccepted

/-- Letting tokens pass forbids nothing that was allowed. -/
theorem Acceptable.of_passthru_off
    (hacceptable : Acceptable declared parameters false unknownMethods) :
    Acceptable declared parameters true unknownMethods := by
  cases hacceptable with
  | unknown hnone hallow => exact .unknown hnone hallow
  | token htoken => exact .token htoken
  | forwarded hdeclared hforwarded => exact .forwarded hdeclared ⟨rfl, hforwarded.2⟩
  | proxy hproxy _ => exact .proxy hproxy (Or.inl rfl)
  | credentials hproxy htoken _ hfirst hserved =>
    exact .credentials hproxy htoken (Or.inl rfl) hfirst hserved

/-- The lenient policy forbids nothing that the strict one allows. -/
theorem Acceptable.of_deny (hacceptable : Acceptable declared parameters passthru .deny) :
    Acceptable declared parameters passthru .allow := by
  cases hacceptable with
  | unknown hnone hallow => cases hallow
  | token htoken => exact .token htoken
  | forwarded hdeclared hforwarded => exact .forwarded hdeclared hforwarded
  | proxy hproxy hallowed => exact .proxy hproxy hallowed
  | credentials hproxy htoken hproxied hfirst hserved =>
    exact .credentials hproxy htoken hproxied hfirst hserved

/-- The policy on unknown methods is asked where no method is known. -/
theorem verdict_policy_irrelevant (hdeclared : (declaredKinds text).Nonempty)
    (policy other : UnknownMethodPolicy) :
    verdict (AuthMethod.ofText text) parameters passthru policy =
      verdict (AuthMethod.ofText text) parameters passthru other := by
  rw [verdict.eq_def, verdict.eq_def, hasSupported_ofText_iff.2 hdeclared]
  rfl

end Acceptance

/-! ## Two runs -/

/-- A verdict that both requests share is answered alike. -/
theorem answersAlike_of_verdict_eq (text other : String) (request : Request)
    (judged : Verdict) :
    AnswersAlike text other (judged.answer (AuthMethod.ofText text) request)
      (judged.answer (AuthMethod.ofText other) request) := by
  cases judged with
  | accepted => exact .accepted
  | acceptedUnknown => exact .accepted
  | refused breach => exact .refused rfl (.equal _)
  | withoutRule => exact .refused rfl (quotesAlike_noCredentialRule text other)

theorem SameDemand.answersAlike {text other : String} {parameters others : List String}
    (hsame : SameDemand text other parameters others) (request : Request) (passthru : Bool)
    (unknownMethods : UnknownMethodPolicy) :
    AnswersAlike text other
      (check (AuthMethod.ofText text) parameters request passthru unknownMethods).1
      (check (AuthMethod.ofText other) others request passthru unknownMethods).1 := by
  rw [check, check]
  rcases Set.eq_empty_or_nonempty (declaredKinds text) with hnone | hdeclared
  · rw [verdict_of_nothing_declared hnone, verdict_of_nothing_declared (hsame.kinds ▸ hnone)]
    cases unknownMethods with
    | allow => exact .accepted
    | deny => exact .refused rfl (quotesAlike_unsupportedMethod text other request)
  · rw [hsame.verdict_eq hdeclared]
    exact answersAlike_of_verdict_eq text other request _

/-- Requests with the same kinds of methods and the same credentials get one
answer, up to the method's text where it is quoted.  What passes without the
exemption for tokens passes with it, what passes the strict policy passes the
lenient one, and the policy matters to nobody who declares a known method. -/
theorem check_depends_on_demand (text : String) (parameters : List String) (request : Request)
    (passthru : Bool) (unknownMethods : UnknownMethodPolicy) :
    (∀ other others, SameDemand text other parameters others →
      AnswersAlike text other
        (check (AuthMethod.ofText text) parameters request passthru unknownMethods).1
        (check (AuthMethod.ofText other) others request passthru unknownMethods).1) ∧
    ((check (AuthMethod.ofText text) parameters request false unknownMethods).1 = .ok () →
      (check (AuthMethod.ofText text) parameters request true unknownMethods).1 = .ok ()) ∧
    ((check (AuthMethod.ofText text) parameters request passthru .deny).1 = .ok () →
      (check (AuthMethod.ofText text) parameters request passthru .allow).1 = .ok ()) ∧
    ((declaredKinds text).Nonempty →
      check (AuthMethod.ofText text) parameters request passthru .deny =
        check (AuthMethod.ofText text) parameters request passthru .allow) := by
  refine ⟨?_, ?_, ?_, ?_⟩
  · intro other others hsame
    exact hsame.answersAlike request passthru unknownMethods
  · intro haccepted
    exact answer_of_acceptable (acceptable_of_accepted haccepted).of_passthru_off
  · intro haccepted
    exact answer_of_acceptable (acceptable_of_accepted haccepted).of_deny
  · intro hdeclared
    rw [check, check, verdict_policy_irrelevant hdeclared .deny .allow]

/-- The kinds in another order, one of them twice and beside an unknown one, and
the parameters in another order with an unknown one among them. -/
theorem check_depends_on_demand_reordered :
    let text := "cert_pair + key_pair"
    let other := "key_pair+kerberos+ cert_pair+key_pair"
    let parameters := ["Username", "GlideinProxy", "PublicCert", "PrivateCert", "AuthFile"]
    let others := ["AuthFile", "PrivateCert", "Color", "PublicCert", "Username", "AuthFile",
      "GlideinProxy"]
    let answer := fun method supplied =>
      (check (AuthMethod.ofText method) supplied ⟨"glidein.fe1", "entry_1"⟩ false .deny).1
    SameDemand text other parameters others ∧
      AnswersAlike text other (answer text parameters) (answer other others) := by
  intro text other parameters others answer
  have hkinds : declaredKinds text = declaredKinds other := by
    ext kind
    rw [← supports_ofText_iff, ← supports_ofText_iff]
    cases kind <;> decide +kernel
  have hkeys : suppliedKeys parameters = suppliedKeys others := by
    have hlisted : ∀ key ∈ relevantKeys, key ∈ parameters ↔ key ∈ others := by decide +kernel
    ext key
    exact and_congr_right (hlisted key)
  have hsame : SameDemand text other parameters others := ⟨hkinds, hkeys, by decide +kernel⟩
  exact ⟨hsame,
    (check_depends_on_demand text parameters ⟨"glidein.fe1", "entry_1"⟩ false .deny).1 other others
      hsame⟩

end CredentialIntake.Contract
