import CredentialIntake.ClassAd

/-!
# Credential generators

A site can make credentials on demand. A generator is asked with the group, what
is known of the entry, and the trust domain; it answers with a credential, with
the reason why there is none, or it crashes.
-/

namespace CredentialIntake

/-- What a generator is told about an entry. -/
structure EntryInfo where
  name : Option String
  gatekeeper : Option String
  /-- The identity of the factory that serves the entry. -/
  factory : Option String
  deriving DecidableEq, Repr

def EntryInfo.ofAttributes (attributes : ClassAd) : EntryInfo where
  name := attributes.get? "EntryName"
  gatekeeper := attributes.get? "GLIDEIN_Gatekeeper"
  factory := attributes.get? ClassAd.authenticatedIdentity

structure GeneratedCredential where
  token : String
  /-- The remaining lifetime in seconds. -/
  lifetime : Nat
  deriving DecidableEq, Repr

inductive GeneratorError where
  | missingInformation (what : String)
  | couldNotGenerate (what : String)
  deriving DecidableEq, Repr

def GeneratorError.message : GeneratorError → String
  | .missingInformation what => s!"missing information to generate credential: {what}"
  | .couldNotGenerate what => s!"could not generate credential: {what}"

/-- How one call of a generator ends. -/
inductive GeneratorAnswer where
  | generated (credential : GeneratedCredential)
  | failed (error : GeneratorError)
  | crashed
  deriving DecidableEq, Repr

/-- What a generator is asked for. -/
structure GeneratorRequest where
  group : String
  entry : EntryInfo
  trustDomain : String
  deriving DecidableEq, Repr

end CredentialIntake
