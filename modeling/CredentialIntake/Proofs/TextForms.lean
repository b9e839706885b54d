import CredentialIntake.Text.Blank
import CredentialIntake.Text.Split
import Mathlib

/-!
# Trimmed and split texts

What is left of a text without the blanks around it, and what the pieces of a
text between separators are, is said here by how the text is put together from
them.  Either way there is one answer only, and it is the one that is computed.
-/

namespace CredentialIntake.Text

/-! ## Trimming -/

/-- What is left of a text when the blanks at its two ends are taken off. -/
structure IsTrimOf (trimmed text : String) : Prop where
  within : ∃ lead tail : List Char, text.toList = lead ++ (trimmed.toList ++ tail) ∧
    (∀ char ∈ lead, isBlank char = true) ∧ ∀ char ∈ tail, isBlank char = true
  head : ∀ char, trimmed.toList.head? = some char → isBlank char = false
  last : ∀ char, trimmed.toList.getLast? = some char → isBlank char = false

private theorem dropWhile_blank {lead rest : List Char}
    (hlead : ∀ char ∈ lead, isBlank char = true)
    (hhead : ∀ char, rest.head? = some char → isBlank char = false) :
    (lead ++ rest).dropWhile isBlank = rest := by
  rw [List.dropWhile_append_of_pos hlead]
  cases rest with
  | nil => rfl
  | cons char rest => exact List.dropWhile_cons_of_neg (by simp [hhead char rfl])

theorem isTrimOf_trim (text : String) : IsTrimOf (trim text) text := by
  have htrim : (trim text).toList = (text.toList.dropWhile isBlank).rdropWhile isBlank :=
    String.toList_ofList
  have hkept : (trim text).toList ++ (text.toList.dropWhile isBlank).rtakeWhile isBlank =
      text.toList.dropWhile isBlank := by
    rw [htrim, List.rdropWhile_append_rtakeWhile]
  constructor
  · refine ⟨text.toList.takeWhile isBlank, (text.toList.dropWhile isBlank).rtakeWhile isBlank,
      ?_, ?_, ?_⟩
    · rw [hkept, List.takeWhile_append_dropWhile]
    · exact fun char hchar => List.mem_takeWhile_imp hchar
    · exact fun char hchar => List.mem_rtakeWhile_imp hchar
  · intro char hhead
    have hfirst : (text.toList.dropWhile isBlank).head? = some char := by
      rw [← hkept, List.head?_append, hhead, Option.some_or]
    have hnot := List.head?_dropWhile_not isBlank text.toList
    rwa [hfirst] at hnot
  · intro char hlast
    rw [htrim] at hlast
    have hne := List.getLast?_isSome.1 (Option.isSome_iff_exists.2 ⟨char, hlast⟩)
    rw [List.getLast?_eq_some_getLast hne] at hlast
    rw [← Option.some.inj hlast]
    simpa using List.rdropWhile_last_not isBlank _ hne

theorem IsTrimOf.eq_trim {trimmed text : String} (htrim : IsTrimOf trimmed text) :
    trimmed = trim text := by
  obtain ⟨lead, tail, htext, hlead, htail⟩ := htrim.within
  rw [← String.toList_inj, trim, String.toList_ofList, trimChars, htext]
  by_cases hempty : trimmed.toList = []
  · have hblank : (lead ++ (trimmed.toList ++ tail)).dropWhile isBlank = [] := by
      rw [hempty, List.nil_append, List.dropWhile_append_of_pos hlead, List.dropWhile_eq_nil_iff]
      exact htail
    rw [hblank, hempty]
    rfl
  · have hhead : ∀ char, (trimmed.toList ++ tail).head? = some char → isBlank char = false := by
      rw [List.head?_append_of_ne_nil _ hempty]
      exact htrim.head
    have hlast : ∀ char, trimmed.toList.reverse.head? = some char → isBlank char = false := by
      rw [List.head?_reverse]
      exact htrim.last
    rw [dropWhile_blank hlead hhead, List.reverse_append,
      dropWhile_blank (by simpa using htail) hlast, List.reverse_reverse]

theorem isTrimOf_iff {trimmed text : String} : IsTrimOf trimmed text ↔ trimmed = trim text := by
  constructor
  · exact IsTrimOf.eq_trim
  · rintro rfl
    exact isTrimOf_trim text

/-! ## Splitting -/

theorem splitChars_of_not_mem {separator : Char} {chars : List Char}
    (hfree : separator ∉ chars) : splitChars separator chars = [chars] := by
  induction chars with
  | nil => rfl
  | cons char rest ih =>
      rw [List.mem_cons, not_or] at hfree
      rw [splitChars, ih hfree.2]
      exact if_neg (Ne.symm hfree.1)

/-- A separator ends one run of pieces and begins another. -/
theorem splitChars_append_separator (separator : Char) (left right : List Char) :
    splitChars separator (left ++ separator :: right) =
      splitChars separator left ++ splitChars separator right := by
  induction left with
  | nil =>
      cases hright : splitChars separator right with
      | nil => exact absurd hright (splitChars_ne_nil separator right)
      | cons piece pieces => simp [splitChars, hright]
  | cons char rest ih =>
      cases hrest : splitChars separator rest with
      | nil => exact absurd hrest (splitChars_ne_nil separator rest)
      | cons piece pieces =>
          have hjoined : splitChars separator (rest ++ separator :: right) =
              piece :: (pieces ++ splitChars separator right) := by
            rw [ih, hrest, List.cons_append]
          simp only [List.cons_append, splitChars, hjoined, hrest]
          split <;> rfl

/-- Pieces without the separator are found again in the text they are joined to. -/
theorem splitChars_intercalate {separator : Char} {pieces : List (List Char)}
    (hnonempty : pieces ≠ []) (hapart : ∀ piece ∈ pieces, separator ∉ piece) :
    splitChars separator ([separator].intercalate pieces) = pieces := by
  induction pieces with
  | nil => exact absurd rfl hnonempty
  | cons piece rest ih =>
    obtain ⟨hpiece, hrest⟩ := List.forall_mem_cons.1 hapart
    cases rest with
    | nil => simpa [List.intercalate] using splitChars_of_not_mem hpiece
    | cons second others =>
      have hjoined : [separator].intercalate (piece :: second :: others) =
          piece ++ separator :: [separator].intercalate (second :: others) := by
        simp [List.intercalate]
      rw [hjoined, splitChars_append_separator, splitChars_of_not_mem hpiece,
        ih (List.cons_ne_nil second others) hrest, List.singleton_append]

/-- The pieces of a text between the occurrences of a character. -/
structure IsSplitAt (separator : Char) (pieces : List String) (text : String) : Prop where
  nonempty : pieces ≠ []
  joined : (String.singleton separator).intercalate pieces = text
  apart : ∀ piece ∈ pieces, separator ∉ piece.toList

theorem isSplitAt_split (separator : Char) (text : String) :
    IsSplitAt separator (split separator text) text where
  nonempty := by simpa [split] using splitChars_ne_nil separator text.toList
  joined := by
    rw [← String.toList_inj, String.toList_intercalate, split, List.map_map]
    simpa [Function.comp_def] using intercalate_splitChars separator text.toList
  apart := by
    intro piece hpiece
    obtain ⟨chars, hchars, rfl⟩ := List.mem_map.1 hpiece
    rw [String.toList_ofList]
    exact separator_not_mem_of_mem_splitChars hchars

theorem IsSplitAt.eq_split {separator : Char} {pieces : List String} {text : String}
    (hsplit : IsSplitAt separator pieces text) : pieces = split separator text := by
  have hpieces : splitChars separator text.toList = pieces.map String.toList := by
    rw [← hsplit.joined, String.toList_intercalate, String.toList_singleton]
    apply splitChars_intercalate
    · simpa using hsplit.nonempty
    · simpa using hsplit.apart
  rw [split, hpieces, List.map_map]
  simp [Function.comp_def]

end CredentialIntake.Text
