import CredentialIntake.Bytes.Gzip
import Mathlib

/-!
# Gzip members and what they hold

How to deflate is left to who writes: any cut into blocks of any kind will do, as
long as inflating gives the content back.  Keeping the bytes as they are is one way.
A member around such a body is read back as its content, whatever the body is.
-/

namespace CredentialIntake

namespace Bytes

/-- Of a number that is too large the low bytes are kept. -/
theorem littleEndianValue_littleEndian (count value : Nat) :
    littleEndianValue (littleEndian count value) = value % 256 ^ count := by
  induction count generalizing value with
  | zero => simp [littleEndian, littleEndianValue, Nat.mod_one]
  | succ count ih =>
    have hlow : (UInt8.ofNat (value % 256)).toNat = value % 256 := by simp
    rw [littleEndian, littleEndianValue, ih, hlow, Nat.pow_succ', Nat.mod_mul]

/-- Bytes are determined by how many they are and by the number they stand for. -/
theorem eq_of_littleEndianValue_eq :
    ∀ {left right : Bytes}, left.length = right.length →
      littleEndianValue left = littleEndianValue right → left = right
  | [], [], _, _ => rfl
  | a :: left, b :: right, hlength, hvalue => by
      have ha := a.toNat_lt
      have hb := b.toNat_lt
      rw [littleEndianValue, littleEndianValue] at hvalue
      have hhead : a = b := UInt8.toNat_inj.1 (by omega)
      have htail : left = right :=
        eq_of_littleEndianValue_eq (Nat.succ.inj hlength) (by omega)
      rw [hhead, htail]

end Bytes

namespace Deflate

open Bytes

/-- Read from the start of `body`, deflated data has the given content and ends where
`body` ends, whatever follows. -/
def Inflates (body content : Bytes) : Prop :=
  ∀ rest, inflate? (body ++ rest) = some (content, rest)

/-! ## Reading one stored block -/

/-- The first bit of a block marks the last one, the next two are its kind. -/
private theorem takeBit?_mark (last : Bool) (rest : Bytes) :
    (Input.ofBytes ((if last then 1 else 0) :: rest)).takeBit? =
      some (last, ⟨List.replicate 7 false, rest⟩) := by
  cases last <;> rfl

private theorem takeNumber?_kind (rest : Bytes) :
    Input.takeNumber? 2 ⟨List.replicate 7 false, rest⟩ =
      some (0, ⟨List.replicate 5 false, rest⟩) := rfl

/-- The rest of the byte with the kind is left out. -/
private theorem takeStored?_storedBlock {content : Bytes} (hlength : content.length ≤ storedLimit)
    (done : Bytes) (bits : List Bool) (rest : Bytes) :
    takeStored? done ⟨bits, littleEndian 2 content.length ++
        (littleEndian 2 (storedLimit - content.length) ++ content) ++ rest⟩ =
      some (content.reverse ++ done, Input.ofBytes rest) := by
  have htwo : ∀ value ≤ storedLimit,
      littleEndianValue [UInt8.ofNat (value % 256), UInt8.ofNat (value / 256 % 256)] = value := by
    intro value hle
    calc
      _ = littleEndianValue (littleEndian 2 value) := rfl
      _ = value % 256 ^ 2 := littleEndianValue_littleEndian 2 value
      _ = value := Nat.mod_eq_of_lt (Nat.lt_succ_of_le hle)
  simp [littleEndian, takeStored?, htwo _ hlength, htwo _ (Nat.sub_le _ _), Input.ofBytes]

/-- One block is read as its content, and reading goes on if it is not the last. -/
private theorem takeBlocks?_storedBlock {content : Bytes}
    (hlength : content.length ≤ storedLimit) (last : Bool) (bound : Nat) (done rest : Bytes) :
    takeBlocks? (bound + 1) done (Input.ofBytes (storedBlock last content ++ rest)) =
      if last then some (content.reverse ++ done, Input.ofBytes rest)
      else takeBlocks? bound (content.reverse ++ done) (Input.ofBytes rest) := by
  rw [storedBlock, List.cons_append, takeBlocks?, takeBit?_mark, Option.bind_eq_bind,
    Option.bind_some]
  simp only [takeNumber?_kind, Option.bind_eq_bind, Option.bind_some, if_pos,
    takeStored?_storedBlock hlength]
  rfl

/-! ## Reading all of them -/

/-- Block by block the content is read, as long as the last block is not too long. -/
private theorem takeBlocks?_storedBlocks {full : Nat} :
    ∀ {content : Bytes} {bound : Nat} (done rest : Bytes),
      content.length ≤ storedLimit * (full + 1) → full < bound →
        takeBlocks? bound done (Input.ofBytes (storedBlocks full content ++ rest)) =
          some (content.reverse ++ done, Input.ofBytes rest) := by
  induction full with
  | zero =>
      intro content bound done rest hlength hbound
      obtain ⟨bound, rfl⟩ := Nat.exists_eq_succ_of_ne_zero (Nat.ne_zero_of_lt hbound)
      rw [Nat.zero_add, Nat.mul_one] at hlength
      rw [storedBlocks, takeBlocks?_storedBlock hlength, if_pos rfl]
  | succ full ih =>
      intro content bound done rest hlength hbound
      obtain ⟨bound, rfl⟩ := Nat.exists_eq_succ_of_ne_zero (Nat.ne_zero_of_lt hbound)
      have htake : (content.take storedLimit).length ≤ storedLimit := List.length_take_le _ _
      have hdrop : (content.drop storedLimit).length ≤ storedLimit * (full + 1) := by
        rw [List.length_drop]
        exact Nat.sub_le_of_le_add hlength
      rw [storedBlocks, List.append_assoc, takeBlocks?_storedBlock htake,
        if_neg Bool.false_ne_true, ih _ _ hdrop (Nat.lt_of_succ_lt_succ hbound),
        ← List.append_assoc, ← List.reverse_append, List.take_append_drop]

/-- There are enough blocks. -/
private theorem length_le_blocks (content : Bytes) :
    content.length ≤ storedLimit * ((content.length - 1) / storedLimit + 1) := by
  have hlt : content.length - 1 < storedLimit * ((content.length - 1) / storedLimit + 1) :=
    Nat.lt_mul_div_succ _ (by decide)
  exact Nat.le_of_pred_lt hlt

/-- There are fewer full blocks than bytes. -/
private theorem blocks_le_length (content : Bytes) :
    (content.length - 1) / storedLimit ≤ content.length :=
  (Nat.div_le_self _ _).trans (Nat.sub_le _ _)

private theorem length_le_length_storedBlocks {full : Nat} :
    ∀ content : Bytes, content.length ≤ (storedBlocks full content).length := by
  induction full with
  | zero =>
      intro content
      simp only [storedBlocks, storedBlock, List.length_append, List.length_cons]
      omega
  | succ full ih =>
      intro content
      have hrest := ih (content.drop storedLimit)
      simp only [storedBlocks, storedBlock, List.length_append, List.length_cons,
        length_littleEndian, List.length_drop, List.length_take] at hrest ⊢
      omega

/-- What is stored is read back. -/
theorem inflates_stored (content : Bytes) : Inflates (stored content) content := by
  intro rest
  have hbound : (content.length - 1) / storedLimit < 8 * (stored content ++ rest).length + 1 := by
    have hblocks := blocks_le_length content
    have hstored : content.length ≤ (stored content).length :=
      length_le_length_storedBlocks content
    rw [List.length_append]
    omega
  have hread := takeBlocks?_storedBlocks [] rest (length_le_blocks content) hbound
  rw [← stored, List.append_nil] at hread
  calc
    inflate? (stored content ++ rest) = some (content.reverse.reverse, rest) := by
      rw [inflate?, hread]
      rfl
    _ = some (content, rest) := by rw [List.reverse_reverse]

end Deflate

namespace Gzip

open Bytes Deflate

/-! ## Members -/

/-- A member of exactly one content and nothing else: the fixed header, a body that
inflates to the content, and eight bytes with the checksum and the length. -/
def IsMember (content bytes : Bytes) : Prop :=
  ∃ body checksum length,
    bytes = [0x1f, 0x8b, 8, 0, 0, 0, 0, 0, 0, 0xff] ++ (body ++ (checksum ++ length)) ∧
    Inflates body content ∧
    checksum.length = 4 ∧ littleEndianValue checksum = (Checksum.crc32 content).toNat ∧
    length.length = 4 ∧ littleEndianValue length = content.length % 2 ^ 32

private theorem littleEndianValue_checksum (content : Bytes) :
    littleEndianValue (littleEndian 4 (Checksum.crc32 content).toNat) =
      (Checksum.crc32 content).toNat := by
  rw [littleEndianValue_littleEndian]
  exact Nat.mod_eq_of_lt (Checksum.crc32 content).toNat_lt

/-- Any blocks will do for the body. -/
theorem isMember_of_inflates {body content : Bytes} (hinflates : Inflates body content) :
    IsMember content (header ++ (body ++ trailer content)) :=
  ⟨body, _, _, rfl, hinflates,
    length_littleEndian _ _, littleEndianValue_checksum content,
    length_littleEndian _ _, littleEndianValue_littleEndian 4 content.length⟩

theorem isMember_member (content : Bytes) : IsMember content (member content) :=
  isMember_of_inflates (inflates_stored content)

/-- The checksum has the check value that identifies its kind. -/
example : Checksum.crc32 (ofText "123456789") = 0xCBF43926 := by decide +kernel

/-! ## Reading a member -/

/-- Nothing of the header is optional, so what follows it is the body. -/
private theorem skipHeader?_header (rest : Bytes) :
    skipHeader? ([0x1f, 0x8b, 8, 0, 0, 0, 0, 0, 0, 0xff] ++ rest) = some rest := rfl

/-- Whatever blocks the body consists of, a member is read back as its content. -/
theorem IsMember.read?_eq {content bytes : Bytes} (hmember : IsMember content bytes) :
    read? bytes = some content := by
  obtain ⟨body, checksum, length, rfl, hinflates, hchecksum, hcrc, hlength, hcount⟩ := hmember
  have htrailer : checksum ++ length = trailer content := by
    rw [trailer]
    congr 1
    · exact eq_of_littleEndianValue_eq (by rw [hchecksum, length_littleEndian])
        (by rw [hcrc, littleEndianValue_checksum])
    · exact eq_of_littleEndianValue_eq (by rw [hlength, length_littleEndian])
        (by rw [hcount, littleEndianValue_littleEndian]; rfl)
  rw [read?, skipHeader?_header, Option.bind_eq_bind, Option.bind_some, hinflates,
    Option.bind_eq_bind, Option.bind_some]
  exact if_pos htrailer

end Gzip

end CredentialIntake
