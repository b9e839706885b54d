import CredentialIntake.Json.Token

/-!
# Reading JSON documents

The tokens of a document are put together by a machine with a stack of the
containers not yet closed. Reading is strict: one value, no comma before a
closing bracket, nothing after the value.
-/

namespace CredentialIntake.Json

/-- A container not yet closed, its parts in reverse. `member` is an object that
waits for the value of its last key. -/
inductive Frame where
  | array (items : List Value)
  | object (members : List Member)
  | member (members : List Member) (key : Option String)

/-- What may come next. -/
inductive Expected where
  | value
  /-- A value, or the end of an array that has no items. -/
  | firstItem
  /-- A key, or the end of an object that has no members. -/
  | firstKey
  | key
  | colon
  /-- A comma or the end of the container on top. -/
  | separator
  /-- Nothing: the document is complete. -/
  | nothing (value : Value)

abbrev Machine := Expected × List Frame

/-- Hands a finished value to the container on top. -/
def settle? (value : Value) : List Frame → Option Machine
  | [] => some (.nothing value, [])
  | .array items :: frames => some (.separator, .array (value :: items) :: frames)
  | .member members key :: frames => some (.separator, .object ((key, value) :: members) :: frames)
  | .object _ :: _ => none

/-- Begins a value. -/
def beginValue? (token : Token) (frames : List Frame) : Option Machine :=
  match token with
  | .scalar value => settle? value frames
  | .beginArray => some (.firstItem, .array [] :: frames)
  | .beginObject => some (.firstKey, .object [] :: frames)
  | _ => none

def beginKey? (token : Token) (frames : List Frame) : Option Machine :=
  match token, frames with
  | .scalar (.string key), .object members :: frames => some (.colon, .member members key :: frames)
  | _, _ => none

/-- Ends the container on top. -/
def close? (token : Token) (frames : List Frame) : Option Machine :=
  match token, frames with
  | .endArray, .array items :: frames => settle? (.array items.reverse) frames
  | .endObject, .object members :: frames => settle? (.object members.reverse) frames
  | _, _ => none

def takeToken? (machine : Machine) (token : Token) : Option Machine :=
  match machine, token with
  | (.value, frames), token => beginValue? token frames
  | (.firstItem, frames), .endArray => close? .endArray frames
  | (.firstItem, frames), token => beginValue? token frames
  | (.firstKey, frames), .endObject => close? .endObject frames
  | (.firstKey, frames), token => beginKey? token frames
  | (.key, frames), token => beginKey? token frames
  | (.colon, frames), .colon => some (.value, frames)
  | (.separator, .array items :: frames), .comma => some (.value, .array items :: frames)
  | (.separator, .object members :: frames), .comma => some (.key, .object members :: frames)
  | (.separator, frames), token => close? token frames
  | _, _ => none

/-- The value a document consists of. -/
def read? (document : String) : Option Value := do
  let tokens ← tokens? document.toList
  match ← tokens.foldlM takeToken? (.value, []) with
  | (.nothing value, _) => return value
  | _ => none

end CredentialIntake.Json
