import CredentialIntake.Json.Record
import CredentialIntake.Policy
import CredentialIntake.Settings.Document

/-!
# Frontend descriptors

The frontends a factory accepts, by security name: the identity each must
present and the local users its security classes stand for.
-/

namespace CredentialIntake

structure FrontendEntry where
  identity : String
  /-- Local users by security class. -/
  userMap : TextMap

namespace FrontendEntry

/-- Lets a user stand for a security class. -/
def mapClass (entry : FrontendEntry) (securityClass username : String) : FrontendEntry :=
  { entry with userMap := entry.userMap.insert securityClass username }

def ofJson? (value : Json.Value) : Option FrontendEntry := do
  match ← value.fields? ["identity", "usermap"] with
  | [identity, userMap] =>
    return {
      identity := ← Json.required? Json.Value.text? identity
      userMap := ← Json.defaulted? ∅ Json.Value.textMap? userMap }
  | _ => none

end FrontendEntry

structure FrontendDescriptor where
  frontends : Std.ExtTreeMap String FrontendEntry

namespace FrontendDescriptor

def empty : FrontendDescriptor := ⟨∅⟩

def get? (descriptor : FrontendDescriptor) (securityName : String) : Option FrontendEntry :=
  descriptor.frontends[securityName]?

/-- Sets the identity of a frontend. One that is new has no users yet, one that
is known keeps its users. -/
def addFrontend (descriptor : FrontendDescriptor) (securityName identity : String) :
    FrontendDescriptor :=
  let entry := match descriptor.get? securityName with
    | some entry => { entry with identity }
    | none => { identity, userMap := ∅ }
  ⟨descriptor.frontends.insert securityName entry⟩

/-- Lets a user stand for a security class of a frontend that is there. -/
def mapClass (descriptor : FrontendDescriptor) (securityName securityClass username : String) :
    FrontendDescriptor :=
  match descriptor.get? securityName with
  | some entry => ⟨descriptor.frontends.insert securityName (entry.mapClass securityClass username)⟩
  | none => descriptor

def ofJson? (value : Json.Value) : Option FrontendDescriptor := do
  match ← value.fields? ["frontends"] with
  | [frontends] =>
    return ⟨← Json.defaulted? ∅ (Json.Value.map? FrontendEntry.ofJson?) frontends⟩
  | _ => none

def load (tree : FileTree) (path : Path) : Except SettingsError FrontendDescriptor :=
  loadDocument .frontendDescriptor ofJson? tree path

/-- The policy a descriptor describes. -/
def policy (descriptor : FrontendDescriptor) : FrontendPolicy where
  identityOf? securityName := (descriptor.get? securityName).map (·.identity)
  usernameOf? securityName securityClass :=
    (descriptor.get? securityName).bind fun entry => entry.userMap[securityClass]?

end FrontendDescriptor

end CredentialIntake
