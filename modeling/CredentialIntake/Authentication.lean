import CredentialIntake.ClassAd
import CredentialIntake.Error
import CredentialIntake.Keys
import CredentialIntake.Policy
import CredentialIntake.Text.Quoted

/-!
# Frontend authentication

A request is trusted only if the identity encrypted inside it is the identity
the transport authenticated, and the frontend's security name is one the factory
knows with that same identity. The first condition that fails is the one
reported; nothing is tried again.
-/

namespace CredentialIntake

/-- A frontend whose request passed authentication. -/
structure AuthenticatedFrontend where
  /-- The key for the other encrypted attributes of the request. -/
  key : SymmetricKey
  securityName : String

/-- How an authenticated frontend is shown in diagnostics: its key stays hidden. -/
def AuthenticatedFrontend.describe (frontend : AuthenticatedFrontend) : String :=
  "AuthenticatedFrontend \x7b security_name: " ++ Text.quoted frontend.securityName ++ ", .. \x7d"

namespace Authentication

/-- Opens the key code of a request. -/
def extractKey (factoryKey : FactoryKey) (ad : ClassAd) :
    Except AuthenticationCause SymmetricKey :=
  match ad.get? ClassAd.keyCode with
  | none => .error .noKeyCode
  | some code =>
    match factoryKey.unwrap? code with
    | none => .error .keyNotExtracted
    | some key => .ok key

/-- Decrypts an attribute that has to be there and to hold a text. -/
def decryptAttribute (key : SymmetricKey) (ad : ClassAd) (name : String) :
    Except AuthenticationCause String :=
  match ad.get? name with
  | none => .error (.attributeMissing name)
  | some ciphertext =>
    match key.decryptText? ciphertext with
    | none => .error (.undecryptable name)
    | some text => .ok text

/-- The checks in their order. -/
def check (factoryKey : FactoryKey) (ad : ClassAd) (policy : FrontendPolicy) :
    Except AuthenticationCause AuthenticatedFrontend := do
  let key ← extractKey factoryKey ad
  let some authenticated := ad.get? ClassAd.authenticatedIdentity
    | throw .noAuthenticatedIdentity
  let claimed ← decryptAttribute key ad ClassAd.claimedIdentity
  if claimed ≠ authenticated then
    throw (.identityMismatch claimed authenticated)
  let securityName ← decryptAttribute key ad ClassAd.securityName
  let some expected := policy.identityOf? securityName
    | throw (.unknownFrontend securityName)
  if expected ≠ authenticated then
    throw (.unexpectedIdentity securityName)
  return { key, securityName }

end Authentication

/-- Authenticates the frontend that sent a request. -/
def authenticate (factoryKey : FactoryKey) (ad : ClassAd) (policy : FrontendPolicy) :
    Except IntakeError AuthenticatedFrontend :=
  (Authentication.check factoryKey ad policy).mapError .authentication

end CredentialIntake
