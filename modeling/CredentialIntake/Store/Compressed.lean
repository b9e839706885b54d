import CredentialIntake.Bytes.Base64
import CredentialIntake.Bytes.Gzip

/-!
# Compressed credentials

The form in which cloud glideins take credentials: one line that assigns the
base64 of a gzip member. Equal material has equal lines.
-/

namespace CredentialIntake.Store

/-- What the line begins with. -/
def compressedLead : Bytes := Bytes.ofText "glidein_credentials="

/-- Gzip, then base64. -/
def compress (material : Bytes) : Bytes := Base64.encode (Gzip.member material)

def compressedLine (material : Bytes) : Bytes := compressedLead ++ compress material

/-- The gzip member a base64 text holds, with its content. -/
def decompress? (symbols : Bytes) : Option (Bytes × Bytes) := do
  let member ← Base64.decode? symbols
  return (member, ← Gzip.read? member)

/-- The gzip member in a line of the compressed form, with its content. -/
def readCompressedLine? (line : Bytes) : Option (Bytes × Bytes) :=
  (compressedLead.isPrefixOf? line).bind decompress?

end CredentialIntake.Store
