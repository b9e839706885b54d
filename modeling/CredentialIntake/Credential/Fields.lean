import CredentialIntake.Credential.Basic
import CredentialIntake.Error
import CredentialIntake.Json.Record
import CredentialIntake.Text.Blank
import CredentialIntake.Text.Decimal

/-!
# Building credentials from fields

A credential is built from named texts. Every kind has a constructor that takes
the fields of the kind's own out of them; what all kinds share is taken out
after that, and a field that is left over then is one that nobody knows and is
refused. The first fault met is the one reported.
-/

namespace CredentialIntake.Credential

/-- Takes fields out of those that are left, by their names. -/
abbrev FieldReader := StateT TextMap (Except FieldFault)

namespace FieldReader

/-- A field that may be left out. -/
def optional (name : String) : FieldReader (Option String) := do
  let fields ← get
  set (fields.erase name)
  return fields[name]?

/-- A field that must be there. -/
def required (name : String) : FieldReader String := do
  match ← optional name with
  | some text => return text
  | none => throw (.missing name)

def path (name : String) : FieldReader Path := return ⟨← required name⟩

/-- A number of seconds, blanks around it allowed. -/
def seconds (name : String) : FieldReader (Option Nat) := do
  match ← optional name with
  | none => return none
  | some text =>
    match Text.readNumber (Text.trim text) with
    | .ok number => return some number
    | .error _ => throw (.notSeconds text)

/-- Refuses fields that are left over, in ascending order. -/
def finish : FieldReader Unit := do
  let rest ← get
  if rest.isEmpty then return () else throw (.unexpected rest.keys)

end FieldReader

open FieldReader

/-! ## Material -/

def readGridProxy : FieldReader Material := return .gridProxy (← path "cred_loc")

def readCertPair : FieldReader Material := return .certPair (← path "cert") (← path "certkey")

def readKeyPair : FieldReader Material :=
  return .keyPair (← path "pub_key") (← path "priv_key") (← optional "rem_user")

def readUsernamePassword : FieldReader Material :=
  return .usernamePassword (← required "username") (← required "password")

def readAuthFile : FieldReader Material :=
  return .authFile (← path "file") (← optional "rem_user")

def readSciToken : FieldReader Material := return .sciToken (← path "cred_loc")

/-- What the material of each kind is built with. -/
def constructors : List (CredentialKind × FieldReader Material) :=
  [(.gridProxy, readGridProxy), (.certPair, readCertPair), (.keyPair, readKeyPair),
    (.usernamePassword, readUsernamePassword), (.authFile, readAuthFile),
    (.sciToken, readSciToken)]

/-! ## Whole credentials -/

def readCloud : FieldReader CloudFields :=
  return { vmId := ← optional "vm_id"
           vmType := ← optional "vm_type"
           pilotProxy := ← optional "pilot_proxy" }

/-- What all kinds share, read after the material. -/
def readShared (material : Material) : FieldReader Credential := do
  let securityClass ← required "sec_class"
  let trustDomain ← required "trust_dom"
  let cloud ← readCloud
  let updateFrequency ← seconds "update_freq"
  let creationScript ← optional "creation_script"
  finish
  return { securityClass, trustDomain, cloud, material
           renewal := { creationScript, updateFrequency } }

/-- Builds a credential of the kind with the given name. -/
def ofFields (kindName : String) (fields : TextMap) : Except IntakeError Credential :=
  match CredentialKind.ofText? kindName with
  | none => .error (.unknownCredentialKind kindName)
  | some kind =>
    match constructors.lookup kind with
    | none => .error (.internal (.noConstructor kind.text))
    | some readMaterial =>
      ((readMaterial >>= readShared).run' fields).mapError (.invalidCredentialFields kind.text)

end CredentialIntake.Credential
