/-!
# Decimal numbers of 64 bits

Frequencies and worker counts are written as decimal numbers: an optional single
plus sign, then digits and nothing else. The characters are looked at from left
to right, and the first fault met is the one reported.
-/

namespace CredentialIntake.Text

/-- Why a text is not a number of 64 bits. -/
inductive NumberFault where
  | empty
  | invalidDigit
  | tooLarge
  deriving DecidableEq, Repr

def NumberFault.message : NumberFault → String
  | .empty => "cannot parse integer from empty string"
  | .invalidDigit => "invalid digit found in string"
  | .tooLarge => "number too large to fit in target type"

/-- The least number that does not fit. -/
def numberLimit : Nat := 18446744073709551616

/-- Appends digits to the number read so far. A character that is no digit is
reported before the overflow it would cause, and an overflow before anything
that stands behind it. -/
def readDigits (value : Nat) : List Char → Except NumberFault Nat
  | [] => .ok value
  | char :: rest =>
    if char.isDigit then
      let value := 10 * value + (char.toNat - 48)
      if value < numberLimit then readDigits value rest else .error .tooLarge
    else .error .invalidDigit

/-- The number a text stands for. A sign alone has no digits and is reported as
an invalid digit. -/
def readNumber (text : String) : Except NumberFault Nat :=
  match text.toList with
  | [] => .error .empty
  | ['+'] => .error .invalidDigit
  | '+' :: digits => readDigits 0 digits
  | digits => readDigits 0 digits

end CredentialIntake.Text
