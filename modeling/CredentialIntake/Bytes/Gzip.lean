import CredentialIntake.Bytes.Checksum
import CredentialIntake.Bytes.Deflate

/-!
# Gzip members

A member is a header, deflated data, and a trailer with the CRC-32 and the
length of the content. The header written here is fixed, in particular it
carries no time, so equal contents have equal members.
-/

namespace CredentialIntake.Gzip

/-- The header of every member written here: the magic number, deflate, no
flags, no time, no extra flags, an unknown system. -/
def header : Bytes := [0x1f, 0x8b, 8, 0, 0, 0, 0, 0, 0, 0xff]

/-- CRC-32 and length of the content, both in four bytes. -/
def trailer (content : Bytes) : Bytes :=
  Bytes.littleEndian 4 (Checksum.crc32 content).toNat ++ Bytes.littleEndian 4 content.length

def member (content : Bytes) : Bytes := header ++ (Deflate.stored content ++ trailer content)

/-- The bytes after a text that ends with a zero byte. -/
def skipText? : Bytes → Option Bytes
  | [] => none
  | byte :: rest => if byte = 0 then some rest else skipText? rest

/-- The bytes after a field whose length stands in its first two bytes. -/
def skipField? : Bytes → Option Bytes
  | a :: b :: rest =>
    let length := Bytes.littleEndianValue [a, b]
    if length ≤ rest.length then some (rest.drop length) else none
  | _ => none

/-- The bytes after the header. Its flags say which optional parts follow the
first ten bytes: an extra field, a file name, a comment, and a checksum of all
the header before it. -/
def skipHeader? (bytes : Bytes) : Option Bytes :=
  match bytes with
  | 0x1f :: 0x8b :: 8 :: flags :: _ :: _ :: _ :: _ :: _ :: _ :: rest => do
    let has (bit : Nat) : Bool := flags.toNat.testBit bit
    guard !(has 5 || has 6 || has 7)
    let rest ← if has 2 then skipField? rest else some rest
    let rest ← if has 3 then skipText? rest else some rest
    let rest ← if has 4 then skipText? rest else some rest
    if has 1 then
      let covered := bytes.take (bytes.length - rest.length)
      guard (Bytes.littleEndianValue (rest.take 2) = (Checksum.crc32 covered).toNat % 65536)
      guard (2 ≤ rest.length)
      return rest.drop 2
    else return rest
  | _ => none

/-- The content of exactly one member, when the trailer agrees with it and
nothing follows. -/
def read? (bytes : Bytes) : Option Bytes := do
  let deflated ← skipHeader? bytes
  let (content, rest) ← Deflate.inflate? deflated
  if rest = trailer content then some content else none

end CredentialIntake.Gzip
