import CredentialIntake.Text.Blank
import CredentialIntake.Text.Decimal
import Mathlib

/-!
# Texts that spell numbers

A text is read as a number exactly if it is a decimal number that 64 bits hold,
and the digits a number is written with are read as that number.
-/

namespace CredentialIntake.Text

/-- Digits, at least one of them, that spell a number of 64 bits. -/
structure SpellsNumber (digits : List Char) (number : Nat) : Prop where
  nonempty : digits ≠ []
  isDigit : ∀ char ∈ digits, char.isDigit = true
  value : Nat.ofDigitChars 10 digits 0 = number
  fits : number < numberLimit

/-- A decimal number, with one plus sign in front or without. -/
def IsDecimal (text : String) (number : Nat) : Prop :=
  SpellsNumber text.toList number ∨
    ∃ digits, text.toList = '+' :: digits ∧ SpellsNumber digits number

theorem IsDecimal.fits {text : String} {number : Nat} (hdecimal : IsDecimal text number) :
    number < numberLimit := by
  rcases hdecimal with hspells | ⟨_, -, hspells⟩
  · exact hspells.fits
  · exact hspells.fits

/-- Further digits do not make a number smaller. -/
private theorem le_ofDigitChars (value : Nat) (digits : List Char) :
    value ≤ Nat.ofDigitChars 10 digits value := by
  induction digits generalizing value with
  | nil => simp
  | cons char rest ih =>
    rw [Nat.ofDigitChars_cons]
    exact le_trans (by omega) (ih _)

theorem readDigits_eq_ok_iff {value number : Nat} {digits : List Char}
    (hvalue : value < numberLimit) :
    readDigits value digits = .ok number ↔
      (∀ char ∈ digits, char.isDigit = true) ∧
        Nat.ofDigitChars 10 digits value = number ∧ number < numberLimit := by
  induction digits generalizing value with
  | nil =>
    simp only [readDigits, Except.ok.injEq, List.not_mem_nil, false_imp_iff, implies_true,
      Nat.ofDigitChars_nil, true_and]
    exact ⟨fun hsame => ⟨hsame, hsame ▸ hvalue⟩, And.left⟩
  | cons char rest ih =>
    rw [readDigits, Nat.ofDigitChars_cons, List.forall_mem_cons]
    split
    next hdigit =>
      dsimp only
      split
      next hfits => rw [ih hfits, and_assoc]; simp [hdigit]
      next hlarge =>
        refine iff_of_false (by simp) ?_
        rintro ⟨-, rfl, hsmall⟩
        exact hlarge (lt_of_le_of_lt (le_ofDigitChars _ rest) hsmall)
    next hother => exact iff_of_false (by simp) fun hall => hother hall.1.1

private theorem readDigits_zero_eq_ok_iff {number : Nat} {digits : List Char}
    (hnonempty : digits ≠ []) :
    readDigits 0 digits = .ok number ↔ SpellsNumber digits number := by
  rw [readDigits_eq_ok_iff (by decide)]
  exact ⟨fun ⟨hdigits, hvalue, hfits⟩ => ⟨hnonempty, hdigits, hvalue, hfits⟩,
    fun hspells => ⟨hspells.isDigit, hspells.value, hspells.fits⟩⟩

theorem readNumber_eq_ok_iff {text : String} {number : Nat} :
    readNumber text = .ok number ↔ IsDecimal text number := by
  have hsigned : ∀ {digits : List Char}, ¬ SpellsNumber ('+' :: digits) number := by
    intro digits hspells
    exact absurd (hspells.isDigit '+' List.mem_cons_self) (by decide)
  have hempty : ¬ SpellsNumber [] number := fun hspells => hspells.nonempty rfl
  rw [readNumber, IsDecimal]
  split
  next hnil => simp [hnil, hempty]
  next hsign => simp [hsign, hsigned, hempty]
  next digits hnonempty hsign => simp [readDigits_zero_eq_ok_iff hnonempty, hsign, hsigned]
  next digits hnil hplus hunsigned =>
    rw [readDigits_zero_eq_ok_iff hnil, or_iff_left]
    rintro ⟨rest, hrest, -⟩
    exact hunsigned rest hrest

/-- The largest number that fits, and the first one that does not. -/
example : readNumber "+18446744073709551615" = .ok 18446744073709551615 ∧
    readNumber "18446744073709551616" = .error .tooLarge := by
  decide +kernel

/-! ## Numbers as they are written -/

private theorem isDigit_of_mem_toString (number : Nat) :
    ∀ char ∈ (toString number).toList, char.isDigit = true := by
  have hdigits : (toString number).toList = Nat.toDigits 10 number := Nat.toList_repr
  rw [hdigits]
  intro char hchar
  exact Nat.isDigit_of_mem_toDigits (by decide) (by decide) hchar

theorem isDecimal_toString {number : Nat} (hfits : number < numberLimit) :
    IsDecimal (toString number) number := by
  have hdigits : (toString number).toList = Nat.toDigits 10 number := Nat.toList_repr
  refine Or.inl ⟨?_, isDigit_of_mem_toString number, ?_, hfits⟩
  · rw [hdigits]
    exact Nat.toDigits_ne_nil
  · rw [hdigits]
    exact Nat.ofDigitChars_ten_toDigits

private theorem isBlank_of_isDigit {char : Char} (hdigit : char.isDigit = true) :
    isBlank char = false := by
  simp only [Char.isDigit, Bool.and_eq_true, decide_eq_true_eq, UInt32.le_iff_toNat_le] at hdigit
  have hlow : 48 ≤ char.toNat := hdigit.1
  have hhigh : char.toNat ≤ 57 := hdigit.2
  simp [isBlank, blankRanges]
  omega

theorem trim_toString (number : Nat) : trim (toString number) = toString number := by
  have hkept : ∀ chars : List Char, (∀ char ∈ chars, char.isDigit = true) →
      chars.dropWhile isBlank = chars := by
    rintro (_ | ⟨char, rest⟩) hall
    · rfl
    · rw [List.dropWhile_cons_of_neg]
      simp [isBlank_of_isDigit (hall char List.mem_cons_self)]
  have hall := isDigit_of_mem_toString number
  rw [trim, trimChars, hkept _ hall, hkept _ (by simpa using hall), List.reverse_reverse,
    String.ofList_toList]

end CredentialIntake.Text
