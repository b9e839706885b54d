import CredentialIntake.Contract.AuthMethod

/-!
# Rules of the credential contract

Which parameters carry credentials, and for every method other than the grid
proxy and the token which of them a request must bring and may bring. The rules
stand in the order in which they are tried.
-/

namespace CredentialIntake.Contract

/-- The parameters that carry credential material. All others are of no concern
to the contract. -/
def relevantKeys : List String :=
  ["SubmitProxy", "GlideinProxy", "Username", "Password", "PublicCert", "PrivateCert",
    "PublicKey", "PrivateKey", "VMId", "VMType", "AuthFile"]

/-- The parameter a frontend sets when it forwards a SciToken. -/
def forwardedToken : String := "frontend_scitoken"

structure Rule where
  kind : MethodKind
  /-- What the credentials of the method are called in diagnostics. -/
  label : String
  required : List String
  allowed : List String

def rules : List Rule :=
  [{ kind := .certPair
     label := "certificate pair"
     required := ["PublicCert", "PrivateCert"]
     allowed := ["GlideinProxy", "PublicCert", "PrivateCert", "VMId", "VMType"] },
   { kind := .keyPair
     label := "key pair"
     required := ["PublicKey", "PrivateKey"]
     allowed := ["GlideinProxy", "PublicKey", "PrivateKey", "VMId", "VMType"] },
   { kind := .authFile
     label := "auth_file"
     required := ["AuthFile"]
     allowed := ["GlideinProxy", "AuthFile", "VMId", "VMType"] },
   { kind := .usernamePassword
     label := "username and password"
     required := ["Username", "Password"]
     allowed := ["GlideinProxy", "Username", "Password", "VMId", "VMType"] }]

/-- The credentials supplied although they are not allowed, in ascending order. -/
def unlisted (allowed parameters : List String) : List String :=
  (relevantKeys.filter fun key => !allowed.contains key && parameters.contains key).mergeSort
    fun left right => decide (left ≤ right)

end CredentialIntake.Contract
