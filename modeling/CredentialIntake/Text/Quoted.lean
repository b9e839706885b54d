import CredentialIntake.Text.Invisible

/-!
# Quoted text

How a name is shown inside a diagnostic record: between double quotes, with
quotes and backslashes escaped, the common controls by letter, and every other
character without a shape of its own by its code point.
-/

namespace CredentialIntake.Text

/-- Hexadecimal digits of a number, no leading zero. -/
def hexNumber (value : Nat) : List Char := Nat.toDigits 16 value

/-- One character between quotes. A single quote needs no escape there. -/
def quoteChar (char : Char) : List Char :=
  if char = '\x00' then ['\\', '0']
  else if char = '\t' then ['\\', 't']
  else if char = '\r' then ['\\', 'r']
  else if char = '\n' then ['\\', 'n']
  else if char = '\\' then ['\\', '\\']
  else if char = '"' then ['\\', '"']
  else if isInvisible char then ['\\', 'u', '\x7b'] ++ hexNumber char.toNat ++ ['\x7d']
  else [char]

def quoted (text : String) : String :=
  String.ofList ('"' :: (text.toList.flatMap quoteChar ++ ['"']))

end CredentialIntake.Text
