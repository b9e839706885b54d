import CredentialIntake.Event
import CredentialIntake.Settings.EntryDescriptor
import Std.Data.ExtTreeSet

/-!
# Generator registry

The generators at hand, by the names the entry descriptors use for them. Names
that were configured but stand for no generator are remembered as unavailable,
and each of them is reported once, when the configuration is taken over.
-/

namespace CredentialIntake

/-- Generators of a type `γ` by name, and the names left without one. -/
structure GeneratorRegistry (γ : Type) where
  bound : Std.ExtTreeMap String γ
  unavailable : Std.ExtTreeSet String

namespace GeneratorRegistry

variable {γ : Type}

def empty : GeneratorRegistry γ := ⟨∅, ∅⟩

/-- Takes one configured name over, unless that was done before. -/
def bind (available : Std.ExtTreeMap String γ) (registry : GeneratorRegistry γ) (name : String) :
    GeneratorRegistry γ × List Event :=
  if registry.bound.contains name || registry.unavailable.contains name then (registry, [])
  else match available[name]? with
    | some generator => ({ registry with bound := registry.bound.insert name generator }, [])
    | none =>
      ({ registry with unavailable := registry.unavailable.insert name },
        [.generatorUnavailable name])

/-- Takes configured names over one after the other. -/
def bindAll (available : Std.ExtTreeMap String γ) (registry : GeneratorRegistry γ) :
    List String → GeneratorRegistry γ × List Event
  | [] => (registry, [])
  | name :: rest =>
    let (registry, events) := registry.bind available name
    let (registry, later) := bindAll available registry rest
    (registry, events ++ later)

/-- The registry for the generators an entry descriptor configures. -/
def ofDescriptor (descriptor : EntryDescriptor) (available : Std.ExtTreeMap String γ) :
    GeneratorRegistry γ × List Event :=
  match descriptor.generators with
  | none => (empty, [])
  | some configured => bindAll available empty configured.values

/-- Puts a generator under a name, in place of the one that may be there. -/
def register (registry : GeneratorRegistry γ) (name : String) (generator : γ) :
    GeneratorRegistry γ where
  bound := registry.bound.insert name generator
  unavailable := registry.unavailable.erase name

def get? (registry : GeneratorRegistry γ) (name : String) : Option γ := registry.bound[name]?

end GeneratorRegistry

end CredentialIntake
