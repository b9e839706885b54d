/-!
# JSON values

Settings and descriptors are JSON documents. A value keeps what a typed reader
can ask for: a plain non-negative integer is told apart from every other number,
an object keeps all its members in written order, and a string that escapes half
of a surrogate pair is no text.
-/

namespace CredentialIntake.Json

inductive Value where
  | null
  | bool (value : Bool)
  /-- A number written with digits alone. -/
  | natural (value : Nat)
  /-- A number with a minus sign, a fraction or an exponent. -/
  | otherNumber
  /-- A string, as far as it is a text. -/
  | string (text : Option String)
  | array (items : List Value)
  | object (members : List (Option String × Value))

abbrev Member := Option String × Value

end CredentialIntake.Json
