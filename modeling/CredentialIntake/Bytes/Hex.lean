import CredentialIntake.Bytes

/-!
# Hexadecimal text of bytes

Ciphertexts travel as hexadecimal text, two digits a byte. Writing uses the
digits `0-9a-f`; reading takes both cases and nothing else, and refuses an odd
number of digits.
-/

namespace CredentialIntake.Hex

/-- The digit that stands for a number below sixteen. -/
def digit (value : Nat) : Char :=
  if value < 10 then Char.ofNat (48 + value) else Char.ofNat (87 + value)

/-- The two digits of a byte, the high half first. -/
def digits (byte : UInt8) : List Char := [digit (byte.toNat / 16), digit (byte.toNat % 16)]

def encode (bytes : Bytes) : String := String.ofList (bytes.flatMap digits)

/-- The number a digit stands for. -/
def value? (char : Char) : Option Nat :=
  if '0' ≤ char ∧ char ≤ '9' then some (char.toNat - 48)
  else if 'a' ≤ char ∧ char ≤ 'f' then some (char.toNat - 87)
  else if 'A' ≤ char ∧ char ≤ 'F' then some (char.toNat - 55)
  else none

/-- Reads digits two at a time; `done` holds the bytes read so far, the last
one first. -/
def decodeOnto (done : Bytes) : List Char → Option Bytes
  | [] => some done.reverse
  | high :: low :: rest =>
    match value? high, value? low with
    | some highValue, some lowValue =>
      decodeOnto (UInt8.ofNat (16 * highValue + lowValue) :: done) rest
    | _, _ => none
  | [_] => none

def decode? (text : String) : Option Bytes := decodeOnto [] text.toList

end CredentialIntake.Hex
