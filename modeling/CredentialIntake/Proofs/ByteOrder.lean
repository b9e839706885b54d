import CredentialIntake.Bytes
import Mathlib

/-!
# The order of texts

Texts are ordered by their characters, and maps list their keys in that order.
It is the order of the UTF-8 bytes as well.  The first byte of the form of a
character says how many follow, and more follow the greater it is; the others
carry the rest of the character, six bits each, most significant first.  So the
forms of two characters differ before either of them ends, and the greater
character has the greater byte there.
-/

namespace CredentialIntake.Bytes

/-- How many bytes follow the first byte of a form, and what that byte is. -/
inductive FirstByte (value : Nat) : (count first : Nat) → Prop where
  | one : value < 0x80 → FirstByte value 0 value
  | two : 0x80 ≤ value → value < 0x800 → FirstByte value 1 (value / 64 + 0xC0)
  | three : 0x800 ≤ value → value < 0x10000 → FirstByte value 2 (value / 4096 + 0xE0)
  | four : 0x10000 ≤ value → value < 0x110000 → FirstByte value 3 (value / 262144 + 0xF0)

/-- The bytes of a form after its first one. -/
def trailing : (count value : Nat) → Bytes
  | 0, _ => []
  | count + 1, value => UInt8.ofNat (value / 64 ^ count % 64 + 0x80) :: trailing count value

theorem exists_firstByte (char : Char) :
    ∃ count first, FirstByte char.val.toNat count first ∧
      String.utf8EncodeChar char = UInt8.ofNat first :: trailing count char.val.toNat := by
  have hbound : char.val.toNat < 0x110000 := by
    rcases char.valid with hbelow | ⟨-, habove⟩
    · exact hbelow.trans (by decide)
    · exact habove
  fun_cases String.utf8EncodeChar char with
  | case1 value hone => exact ⟨_, _, .one (Nat.lt_succ_of_le hone), rfl⟩
  | case2 value hone htwo =>
    have hfirst : value / 64 % 32 = value / 64 := by omega
    rw [hfirst]
    exact ⟨_, _, .two (by omega) (by omega), by simp [trailing, value]⟩
  | case3 value hone htwo hthree =>
    have hfirst : value / 4096 % 16 = value / 4096 := by omega
    rw [hfirst]
    exact ⟨_, _, .three (by omega) (by omega), by simp [trailing, value]⟩
  | case4 value hone htwo hthree =>
    have hfirst : value / 262144 % 8 = value / 262144 := by omega
    rw [hfirst]
    exact ⟨_, _, .four (by omega) hbound, by simp [trailing, value]⟩

section Numbers

variable {low high : Nat}

theorem FirstByte.lt_256 {count first : Nat} (hbyte : FirstByte low count first) :
    first < 256 := by
  cases hbyte <;> omega

/-- The greater of two characters has the greater first byte, or the same one and
a greater rest. -/
theorem FirstByte.first_lt_or {leftCount rightCount leftFirst rightFirst : Nat}
    (hleft : FirstByte low leftCount leftFirst) (hright : FirstByte high rightCount rightFirst)
    (hlt : low < high) :
    leftFirst < rightFirst ∨ leftCount = rightCount ∧ leftFirst = rightFirst ∧
      low % 64 ^ rightCount < high % 64 ^ rightCount := by
  cases hleft <;> cases hright <;> simp only [Nat.reducePow, true_and] <;> omega

theorem ofNat_cons_lt (hlt : low < high) (hbyte : high < 256) (left right : Bytes) :
    UInt8.ofNat low :: left < UInt8.ofNat high :: right := by
  refine List.Lex.rel (UInt8.lt_iff_toNat_lt.2 ?_)
  rwa [UInt8.toNat_ofNat_of_lt' (hlt.trans hbyte), UInt8.toNat_ofNat_of_lt' hbyte]

/-- Of two numbers the greater one has the greater first digit, or the same one and
a greater rest. -/
private theorem digit_lt_or {count : Nat} (hlt : low % 64 ^ (count + 1) < high % 64 ^ (count + 1)) :
    low / 64 ^ count % 64 < high / 64 ^ count % 64 ∨
      low / 64 ^ count % 64 = high / 64 ^ count % 64 ∧ low % 64 ^ count < high % 64 ^ count := by
  rw [Nat.pow_succ, Nat.mod_mul, Nat.mod_mul] at hlt
  have hrest : high % 64 ^ count < 64 ^ count := Nat.mod_lt _ (by positivity)
  rcases Nat.lt_trichotomy (low / 64 ^ count % 64) (high / 64 ^ count % 64) with
    hless | hsame | hmore
  · exact Or.inl hless
  · rw [hsame] at hlt
    exact Or.inr ⟨hsame, Nat.lt_of_add_lt_add_right hlt⟩
  · have hweight := Nat.mul_le_mul_left (64 ^ count) (Nat.succ_le_of_lt hmore)
    rw [Nat.mul_succ] at hweight
    omega

theorem trailing_append_lt {count : Nat} (hlt : low % 64 ^ count < high % 64 ^ count)
    (left right : Bytes) : trailing count low ++ left < trailing count high ++ right := by
  induction count with
  | zero =>
    rw [Nat.pow_zero, Nat.mod_one, Nat.mod_one] at hlt
    exact absurd hlt (Nat.lt_irrefl 0)
  | succ count ih =>
    rcases digit_lt_or hlt with hdigit | ⟨hsame, hrest⟩
    · exact ofNat_cons_lt (by omega) (by omega) _ _
    · rw [trailing, trailing, hsame]
      exact List.Lex.cons (ih hrest)

end Numbers

/-- Two characters decide the order of what begins with their forms. -/
theorem utf8EncodeChar_append_lt {left right : Char} (hlt : left < right)
    (leftRest rightRest : Bytes) :
    String.utf8EncodeChar left ++ leftRest < String.utf8EncodeChar right ++ rightRest := by
  obtain ⟨leftCount, leftFirst, hleft, hleftForm⟩ := exists_firstByte left
  obtain ⟨rightCount, rightFirst, hright, hrightForm⟩ := exists_firstByte right
  rw [hleftForm, hrightForm]
  rcases hleft.first_lt_or hright hlt with hfirst | ⟨rfl, rfl, htrailing⟩
  · exact ofNat_cons_lt hfirst hright.lt_256 _ _
  · exact List.Lex.cons (trailing_append_lt htrailing _ _)

theorem ofText_eq_flatMap (text : String) :
    ofText text = text.toList.flatMap String.utf8EncodeChar := by
  rw [ofText, ← String.utf8Encode_toList, List.utf8Encode, List.data_toByteArray]

/-- The lesser of two texts has the lesser bytes. -/
theorem ofText_lt_ofText {left right : String} (hlt : left < right) :
    ofText left < ofText right := by
  rw [ofText_eq_flatMap, ofText_eq_flatMap]
  rw [String.lt_iff_toList_lt] at hlt
  generalize left.toList = leftChars at hlt ⊢
  generalize right.toList = rightChars at hlt ⊢
  induction hlt with
  | nil =>
    rw [List.flatMap_cons]
    obtain ⟨count, first, -, hform⟩ := exists_firstByte _
    rw [hform]
    exact List.nil_lt_cons _ _
  | cons hrest ih => exact List.append_left_lt ih
  | rel hfirst => exact utf8EncodeChar_append_lt hfirst _ _

end CredentialIntake.Bytes
