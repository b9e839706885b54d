import CredentialIntake.Generator.Registry

/-!
# Generating credentials

To get a credential for a trust domain, the generators configured for it are
asked one after the other, in the order of the credential names, until one of
them answers with a credential. A generator that fails or crashes is reported
and the search goes on. A call may change the world outside, so the world is
handed from call to call.
-/

namespace CredentialIntake.Generator

/-- How a search ended: the token found, the world after the last call, and what
was reported. -/
structure Search (σ : Type) where
  token : Option String
  world : σ
  events : List Event

variable {γ σ : Type}

/-- Asks the generators of the given credentials and generator names in turn. -/
def search (registry : GeneratorRegistry γ) (domains : TextMap)
    (ask : γ → GeneratorRequest → σ → GeneratorAnswer × σ) (request : GeneratorRequest) :
    List (String × String) → σ → Search σ
  | [], world => ⟨none, world, []⟩
  | (credential, name) :: rest, world =>
    if domains[credential]? = some request.trustDomain then
      match registry.get? name with
      | none => search registry domains ask request rest world
      | some generator =>
        match ask generator request world with
        | (.generated found, world) => ⟨some found.token, world, []⟩
        | (.failed error, world) =>
          let later := search registry domains ask request rest world
          { later with events := .generationFailed error :: later.events }
        | (.crashed, world) =>
          let later := search registry domains ask request rest world
          { later with events := .generatorCrashed name :: later.events }
    else search registry domains ask request rest world

/-- Asks the generators an entry descriptor configures for a credential. -/
def generate (descriptor : EntryDescriptor) (registry : GeneratorRegistry γ)
    (ask : γ → GeneratorRequest → σ → GeneratorAnswer × σ) (attributes : ClassAd)
    (group trustDomain : String) (world : σ) : Search σ :=
  match descriptor.generators, descriptor.trustDomains with
  | some generators, some domains =>
    search registry domains ask ⟨group, EntryInfo.ofAttributes attributes, trustDomain⟩
      generators.toList world
  | _, _ => ⟨none, world, []⟩

end CredentialIntake.Generator
