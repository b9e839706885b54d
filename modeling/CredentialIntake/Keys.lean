import CredentialIntake.Bytes.Hex
import Std.Data.ExtTreeMap

/-!
# Keys

The cryptography itself is not part of the intake. A factory key opens the key
code of a request and yields the symmetric key of that request; a symmetric key
decrypts attributes. Either may fail, and nothing else is known of them.
-/

namespace CredentialIntake

/-- The key that the encrypted attributes of one request are read with. -/
structure SymmetricKey where
  decrypt? : String → Option Bytes

/-- The private key of the factory. -/
structure FactoryKey where
  unwrap? : String → Option SymmetricKey

namespace SymmetricKey

/-- Decrypts an attribute that holds a text. -/
def decryptText? (key : SymmetricKey) (ciphertext : String) : Option String :=
  (key.decrypt? ciphertext).bind Bytes.toText?

/-- A key without secrecy, for trying the intake out: ciphertexts are the
hexadecimal form of the plaintext with every byte combined with `mask`. -/
def masked (mask : UInt8) : SymmetricKey where
  decrypt? ciphertext := (Hex.decode? ciphertext).map fun bytes => bytes.map (· ^^^ mask)

end SymmetricKey

/-- A factory key that opens exactly the listed key codes, each to the masked key
of its number. -/
def FactoryKey.ofMasks (masks : Std.ExtTreeMap String UInt8) : FactoryKey where
  unwrap? code := masks[code]?.map SymmetricKey.masked

end CredentialIntake
