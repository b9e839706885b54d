import CredentialIntake.Credential.Kind
import CredentialIntake.Path

/-!
# Credentials

One piece of credential material with the metadata that policies look at. The
kind of a credential is read off its material, so the two cannot disagree. Two
credentials are equal when their fields are, paths compared as paths.
-/

namespace CredentialIntake

inductive Material where
  | gridProxy (location : Path)
  | sciToken (location : Path)
  | certPair (cert key : Path)
  | keyPair (publicKey privateKey : Path) (remoteUsername : Option String)
  | usernamePassword (username password : String)
  | authFile (file : Path) (remoteUsername : Option String)
  deriving BEq

namespace Material

def kind : Material → CredentialKind
  | gridProxy _ => .gridProxy
  | sciToken _ => .sciToken
  | certPair .. => .certPair
  | keyPair .. => .keyPair
  | usernamePassword .. => .usernamePassword
  | authFile .. => .authFile

/-- The file that stands for the material, if it is kept in files. -/
def location? : Material → Option Path
  | gridProxy location => some location
  | sciToken location => some location
  | certPair cert _ => some cert
  | keyPair publicKey _ _ => some publicKey
  | authFile file _ => some file
  | usernamePassword .. => none

end Material

/-- What only cloud entries need. -/
structure CloudFields where
  vmId : Option String
  vmType : Option String
  pilotProxy : Option String
  deriving DecidableEq, Repr

structure RenewalFields where
  creationScript : Option String
  /-- Seconds between renewals. -/
  updateFrequency : Option Nat
  deriving DecidableEq, Repr

structure Credential where
  securityClass : String
  trustDomain : String
  cloud : CloudFields
  renewal : RenewalFields
  material : Material
  deriving BEq

namespace Credential

def kind (credential : Credential) : CredentialKind := credential.material.kind

def location? (credential : Credential) : Option Path := credential.material.location?

end Credential

end CredentialIntake
