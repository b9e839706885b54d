import CredentialIntake.Credential.Kind
import CredentialIntake.Event
import CredentialIntake.Settings.Document
import CredentialIntake.Text.Blank

/-!
# Entry descriptors

Which credential files an entry is configured with: their types, their trust
domains, and the generators that can make them. Each of the three can be set for
the entry itself or for the whole frontend, and the entry's own setting counts
unless it is absent or empty.
-/

namespace CredentialIntake

/-- The three settings of one level. -/
structure DescriptorSection where
  /-- Credential types by credential name. -/
  types : Option TextMap := none
  /-- Trust domains by credential name. -/
  trustDomains : Option TextMap := none
  /-- Generator names by credential name. -/
  generators : Option TextMap := none

def DescriptorSection.ofJson? (value : Json.Value) : Option DescriptorSection := do
  let read := Json.defaulted? none (Json.Value.optional? Json.Value.textMap?)
  match ← value.fields? ["proxy_types", "proxy_trust_domains", "credential_generators"] with
  | [types, trustDomains, generators] =>
    return {
      types := ← read types
      trustDomains := ← read trustDomains
      generators := ← read generators }
  | _ => none

structure EntryDescriptor where
  /-- The settings of the entry itself. -/
  entry : DescriptorSection := {}
  /-- The settings of the frontend. -/
  frontend : DescriptorSection := {}

namespace EntryDescriptor

def ofJson? (value : Json.Value) : Option EntryDescriptor := do
  match ← value.fields? ["element", "frontend"] with
  | [entry, frontend] =>
    return {
      entry := ← Json.defaulted? {} DescriptorSection.ofJson? entry
      frontend := ← Json.defaulted? {} DescriptorSection.ofJson? frontend }
  | _ => none

def load (tree : FileTree) (path : Path) : Except SettingsError EntryDescriptor :=
  loadDocument .entryDescriptor ofJson? tree path

/-- The setting that counts: the entry's when it is there and not empty, else the
frontend's. -/
def effective (entry frontend : Option TextMap) : Option TextMap :=
  match entry with
  | some setting => if setting.isEmpty then frontend else some setting
  | none => frontend

def types (descriptor : EntryDescriptor) : Option TextMap :=
  effective descriptor.entry.types descriptor.frontend.types

def trustDomains (descriptor : EntryDescriptor) : Option TextMap :=
  effective descriptor.entry.trustDomains descriptor.frontend.trustDomains

def generators (descriptor : EntryDescriptor) : Option TextMap :=
  effective descriptor.entry.generators descriptor.frontend.generators

/-- The names of the credentials of a kind in a trust domain, in ascending order. -/
def credentialsFor (descriptor : EntryDescriptor) (kind : CredentialKind) (trustDomain : String) :
    List String :=
  match descriptor.types, descriptor.trustDomains with
  | some types, some domains =>
    (types.toList.filter fun (name, type) =>
      type == kind.text && domains[name]? == some trustDomain).map (·.1)
  | _, _ => []

/-- The SciToken configured locally for a trust domain, without the blanks around
it. Of several the last in order counts, whether it is usable or not; a file that
is there but cannot be read as a text is reported. -/
def localToken (descriptor : EntryDescriptor) (tree : FileTree) (trustDomain : String) :
    Option String × List Event :=
  match (descriptor.credentialsFor .sciToken trustDomain).getLast? with
  | none => (none, [])
  | some name =>
    let path : Path := ⟨name⟩
    if tree.contains path then
      match tree.readText path with
      | .ok text => (some (Text.trim text), [])
      | .error fault => (none, [.tokenUnreadable path fault])
    else (none, [])

end EntryDescriptor

end CredentialIntake
