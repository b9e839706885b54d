import CredentialIntake.Contract.Rules
import CredentialIntake.Event
import CredentialIntake.Settings.UnknownMethods

/-!
# The credential contract

A request for an entry must bring exactly the credentials the declared method
needs: without one of them it cannot be served, and with one more somebody tries
to slip a second credential past the entry. The verdict depends on the method,
the names of the parameters and two settings; who asks, and for which entry,
appears in the diagnostics only.
-/

namespace CredentialIntake.Contract

inductive Verdict where
  | accepted
  /-- Accepted because no method of the entry is known and the factory allows that. -/
  | acceptedUnknown
  | refused (breach : ContractBreach)
  /-- The method is known, but has no rule and is not exempt from having one. -/
  | withoutRule
  deriving DecidableEq, Repr

/-- Accepts parameters that hold no credential but the allowed ones. -/
def refuseUnlisted (allowed parameters : List String) : Verdict :=
  let extra := unlisted allowed parameters
  if extra.isEmpty then .accepted else .refused (.unlistedCredentials extra)

/-- The verdict of a rule. -/
def Rule.verdict (rule : Rule) (parameters : List String) : Verdict :=
  if rule.required.all parameters.contains then refuseUnlisted rule.allowed parameters
  else .refused (.missingCredentials rule.label)

/-- Judges the parameters of a request. `passthru` exempts requests that bring a
SciToken, and every request from bringing a proxy. -/
def verdict (method : AuthMethod) (parameters : List String) (passthru : Bool)
    (unknownMethods : UnknownMethodPolicy) : Verdict :=
  if !method.hasSupported then
    match unknownMethods with
    | .allow => .acceptedUnknown
    | .deny => .refused (.unsupportedMethod method.text)
  else if method.supports .sciToken || (parameters.contains forwardedToken && passthru) then
    .accepted
  else if method.supports .gridProxy then
    if passthru then .accepted
    else if !parameters.contains "SubmitProxy" then .refused .noProxy
    else refuseUnlisted ["SubmitProxy"] parameters
  else if !parameters.contains "GlideinProxy" && !passthru then .refused .noGlideinProxy
  else match rules.find? fun rule => method.supports rule.kind with
    | none => .withoutRule
    | some rule => rule.verdict parameters

/-- Who asks, and for which entry. -/
structure Request where
  client : String
  entry : String

/-- The answer a verdict gives to a request. -/
def Verdict.answer (method : AuthMethod) (request : Request) : Verdict → Except IntakeError Unit
  | accepted => .ok ()
  | acceptedUnknown => .ok ()
  | refused breach => .error (.contractViolation request.client request.entry breach)
  | withoutRule => .error (.internal (.noCredentialRule method.text))

/-- What a verdict reports. -/
def Verdict.events (method : AuthMethod) (request : Request) : Verdict → List Event
  | acceptedUnknown => [.unknownMethodAllowed request.client request.entry method.text]
  | refused breach => [.contractBroken request.client request.entry breach]
  | _ => []

/-- Checks the credentials of a request against the contract of an entry. -/
def check (method : AuthMethod) (parameters : List String) (request : Request)
    (passthru : Bool) (unknownMethods : UnknownMethodPolicy) :
    Except IntakeError Unit × List Event :=
  let verdict := verdict method parameters passthru unknownMethods
  (verdict.answer method request, verdict.events method request)

end CredentialIntake.Contract
