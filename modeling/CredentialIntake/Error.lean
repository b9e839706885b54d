import CredentialIntake.FileTree.Fault
import CredentialIntake.Path

/-!
# Intake errors

Everything the intake of a request can fail with. The class of an error decides
how far it reaches, the whole batch, one request or one credential, and whether
another attempt is worth making. Each class has its causes; the wording of a
cause stands in one place only, and an error met elsewhere is carried in the
words it was reported with.
-/

namespace CredentialIntake

/-- What the factory itself lacks. -/
inductive ConfigurationCause where
  | missingFactoryKey
  | stated (text : String)
  deriving DecidableEq, Repr

def ConfigurationCause.message : ConfigurationCause → String
  | .missingFactoryKey => "factory has no public key, cannot decrypt"
  | .stated text => text

/-- Why a request is not trusted. -/
inductive AuthenticationCause where
  /-- The request carries no key code. -/
  | noKeyCode
  /-- The factory key does not open the key code. -/
  | keyNotExtracted
  | noAuthenticatedIdentity
  /-- An encrypted attribute is missing. -/
  | attributeMissing (key : String)
  /-- An encrypted attribute does not decrypt, or not to a text. -/
  | undecryptable (key : String)
  /-- The identity inside the request is not the one the transport saw. -/
  | identityMismatch (claimed authenticated : String)
  /-- The factory knows no frontend of that security name. -/
  | unknownFrontend (securityName : String)
  /-- The frontend of that security name is expected under another identity. -/
  | unexpectedIdentity (securityName : String)
  | stated (text : String)
  deriving DecidableEq, Repr

def AuthenticationCause.message : AuthenticationCause → String
  | .noKeyCode => "classad does not contain a key, cannot decrypt"
  | .keyNotExtracted => "symmetric key extraction failed"
  | .noAuthenticatedIdentity => "classad has no AuthenticatedIdentity"
  | .attributeMissing key => s!"classad has no {key}"
  | .undecryptable key => s!"cannot decrypt {key}"
  | .identityMismatch claimed authenticated =>
    s!"client provided invalid ReqEncIdentity ({claimed} != {authenticated}), " ++
      "skipping for security reasons"
  | .unknownFrontend securityName =>
    s!"frontend is not authorized by the factory, supplied security name: {securityName}"
  | .unexpectedIdentity securityName =>
    s!"authenticated identity of frontend {securityName} does not match the expected identity"
  | .stated text => text

/-- What is wrong with the form of a request. -/
inductive MalformedCause where
  | missingAttribute (key : String)
  /-- The client name would not be a single name in a directory. -/
  | unsafeClientName (client : String)
  | stated (text : String)
  deriving DecidableEq, Repr

def MalformedCause.message : MalformedCause → String
  | .missingAttribute key => s!"classad has no {key} attribute"
  | .unsafeClientName client => s!"client name '{client}' cannot be used in a file name"
  | .stated text => text

/-- How the credentials of a request break the contract of an entry. -/
inductive ContractBreach where
  /-- The entry declares only methods the factory does not know. -/
  | unsupportedMethod (method : String)
  | noProxy
  | noGlideinProxy
  /-- Credentials the declared method needs are missing. -/
  | missingCredentials (label : String)
  /-- Credentials were supplied that the declared method does not allow. -/
  | unlistedCredentials (names : List String)
  | stated (text : String)
  deriving DecidableEq, Repr

def ContractBreach.message : ContractBreach → String
  | .unsupportedMethod method => s!"auth method '{method}' is not supported by this factory"
  | .noProxy => "no proxy provided as required by the entry, skipping request"
  | .noGlideinProxy => "glidein proxy cannot be found, skipping request"
  | .missingCredentials label =>
    s!"the {label} required by the entry was not specified, skipping request"
  | .unlistedCredentials names =>
    "credentials not required by the entry were supplied (" ++ ", ".intercalate names ++
      "), skipping request"
  | .stated text => text

/-- What is wrong with the fields a credential is built from. -/
inductive FieldFault where
  | missing (field : String)
  | notSeconds (text : String)
  | unexpected (fields : List String)
  | stated (text : String)
  deriving DecidableEq, Repr

def FieldFault.message : FieldFault → String
  | .missing field => s!"missing required field '{field}'"
  | .notSeconds text => s!"update_freq '{text}' is not a number of seconds"
  | .unexpected fields => "unexpected field(s) " ++ ", ".intercalate fields
  | .stated text => text

/-- What should never be the case. -/
inductive InternalCause where
  /-- A supported method has no rule for its credentials. -/
  | noCredentialRule (method : String)
  /-- A kind of credentials has nothing to build its material with. -/
  | noConstructor (kind : String)
  | stated (text : String)
  deriving DecidableEq, Repr

def InternalCause.message : InternalCause → String
  | .noCredentialRule method =>
    s!"auth method '{method}' passed the supported check but has no credential rule"
  | .noConstructor kind => s!"no constructor registered for {kind}"
  | .stated text => text

inductive IntakeError where
  | configuration (cause : ConfigurationCause)
  | authentication (cause : AuthenticationCause)
  /-- A security class that no local user stands for. -/
  | mapping (client credentialId securityClass : String)
  | contractViolation (client entry : String) (breach : ContractBreach)
  | malformedRequest (cause : MalformedCause)
  | unknownCredentialKind (kind : String)
  | invalidCredentialFields (kind : String) (fault : FieldFault)
  | internal (cause : InternalCause)
  | io (path : Path) (fault : FileFault)
  deriving DecidableEq

namespace IntakeError

def message : IntakeError → String
  | configuration cause => "configuration error: " ++ cause.message
  | authentication cause => "authentication failed: " ++ cause.message
  | mapping client credentialId securityClass =>
    s!"cannot find a mapping for credential {credentialId} of client {client}; " ++
      s!"security class '{securityClass}' is not mapped"
  | contractViolation client entry breach =>
    s!"request from {client} for entry {entry}: " ++ breach.message
  | malformedRequest cause => "malformed request: " ++ cause.message
  | unknownCredentialKind kind => s!"unknown credential type: {kind}"
  | invalidCredentialFields kind fault =>
    s!"incorrect parameters for credential {kind}: " ++ fault.message
  | internal cause => "internal inconsistency: " ++ cause.message
  | io path fault => "i/o error on " ++ path.text ++ ": " ++ fault.message

/-- The stable name of the class of an error. -/
def code : IntakeError → String
  | configuration _ => "configuration"
  | authentication _ => "authentication"
  | mapping .. => "mapping"
  | contractViolation .. => "contract_violation"
  | malformedRequest _ => "malformed_request"
  | unknownCredentialKind _ => "unknown_credential_kind"
  | invalidCredentialFields .. => "invalid_credential_fields"
  | internal _ => "internal"
  | io .. => "io"

/-- How far an error reaches. -/
inductive Scope where
  /-- Nothing is processed until it is mended. -/
  | global
  /-- The request is dropped, others go on. -/
  | request
  /-- One credential is left out, the rest of the request goes on. -/
  | credential
  deriving DecidableEq, Repr

def scope : IntakeError → Scope
  | configuration _ => .global
  | mapping .. => .credential
  | _ => .request

/-- Only a failure to write is worth another attempt. -/
def isRetryable : IntakeError → Bool
  | io .. => true
  | _ => false

end IntakeError

end CredentialIntake
