/-!
# Byte strings

Credential material, file contents and decrypted attributes are byte strings.
A text becomes a byte string through its UTF-8 form, and a byte string is a
text exactly when it is the UTF-8 form of one.
-/

namespace CredentialIntake

/-- A byte string, first byte first. -/
abbrev Bytes := List UInt8

namespace Bytes

/-- The UTF-8 form of a text. -/
def ofText (text : String) : Bytes := text.toByteArray.data.toList

/-- The text whose UTF-8 form the bytes are, if there is one. -/
def toText? (bytes : Bytes) : Option String := String.fromUTF8? ⟨bytes.toArray⟩

/-- A number below `2 ^ (8 * count)` as `count` bytes, least significant first;
of a larger number the high bytes are dropped. -/
def littleEndian : (count : Nat) → (value : Nat) → Bytes
  | 0, _ => []
  | count + 1, value => UInt8.ofNat (value % 256) :: littleEndian count (value / 256)

/-- The number a byte string stands for when its first byte is the least
significant one. -/
def littleEndianValue : Bytes → Nat
  | [] => 0
  | byte :: rest => byte.toNat + 256 * littleEndianValue rest

@[simp]
theorem length_littleEndian (count value : Nat) :
    (littleEndian count value).length = count := by
  induction count generalizing value with
  | zero => rfl
  | succ count ih => simp [littleEndian, ih]

end Bytes

end CredentialIntake
