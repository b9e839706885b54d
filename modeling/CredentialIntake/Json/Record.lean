import CredentialIntake.Json.Value
import CredentialIntake.Text.Decimal
import Std.Data.ExtTreeMap

/-!
# Typed reading of JSON values

Records, maps and scalars as descriptors write them. A record may be written as
an object, where unknown members are passed over and a known one may stand only
once, or as an array of its fields in order. In a map of texts the last of
several equal keys counts.
-/

namespace CredentialIntake

/-- Texts by name, in the order of the names. -/
abbrev TextMap := Std.ExtTreeMap String String

namespace Json

def Value.text? : Value → Option String
  | .string text => text
  | _ => none

def Value.bool? : Value → Option Bool
  | .bool value => some value
  | _ => none

/-- A count of 64 bits. -/
def Value.count? : Value → Option Nat
  | .natural value => if value < Text.numberLimit then some value else none
  | _ => none

/-- A value that may be absent: `null` is absence. -/
def Value.optional? {α : Type} (read : Value → Option α) : Value → Option (Option α)
  | .null => some none
  | value => (read value).map some

/-- The members of an object with their keys, if every key is a text. -/
def Value.members? : Value → Option (List (String × Value))
  | .object members => members.mapM fun (key, value) => key.map (·, value)
  | _ => none

/-- A map: every key a text, every value readable, the last of equal keys
counting. -/
def Value.map? {α : Type} (read : Value → Option α) (value : Value) :
    Option (Std.ExtTreeMap String α) := do
  (← value.members?).foldlM (fun map (key, value) => do return map.insert key (← read value)) ∅

def Value.textMap? : Value → Option TextMap := Value.map? Value.text?

/-- A word out of a list of choices, written as a string, or as an object with
the word as its only key and `null` as the value. -/
def Value.choice? {α : Type} (choices : List (String × α)) : Value → Option α
  | .string (some word) => choices.lookup word
  | .object [(some word, .null)] => choices.lookup word
  | _ => none

/-- The values written for the fields of a record, in the order of `names`. -/
def Value.fields? (names : List String) : Value → Option (List (Option Value))
  | .object members => do
    let members ← (Value.object members).members?
    names.mapM fun name =>
      match members.filter (·.1 == name) with
      | [] => some none
      | [(_, value)] => some (some value)
      | _ => none
  | .array items =>
    if items.length ≤ names.length then
      some (items.map some ++ List.replicate (names.length - items.length) none)
    else none
  | _ => none

/-- A field that must be written. -/
def required? {α : Type} (read : Value → Option α) : Option Value → Option α
  | some value => read value
  | none => none

/-- A field with a default. -/
def defaulted? {α : Type} (default : α) (read : Value → Option α) : Option Value → Option α
  | some value => read value
  | none => some default

end Json

end CredentialIntake
