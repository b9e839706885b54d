/-!
# Splitting text at a separator

The pieces of a text between the occurrences of one character. There is always
one piece more than there are separators, and putting the separator back
between the pieces gives the text again.
-/

namespace CredentialIntake.Text

/-- The pieces between separators; two separators in a row, or one at an end,
bound an empty piece. -/
def splitChars (separator : Char) : List Char → List (List Char)
  | [] => [[]]
  | char :: rest =>
    match splitChars separator rest with
    | [] => [[]]
    | piece :: pieces =>
      if char = separator then [] :: piece :: pieces else (char :: piece) :: pieces

theorem splitChars_ne_nil (separator : Char) (chars : List Char) :
    splitChars separator chars ≠ [] := by
  induction chars with
  | nil => simp [splitChars]
  | cons char rest ih =>
    rw [splitChars]
    split
    · simp
    · split <;> simp

/-- Joining the pieces with the separator restores the text. -/
theorem intercalate_splitChars (separator : Char) (chars : List Char) :
    [separator].intercalate (splitChars separator chars) = chars := by
  induction chars with
  | nil => rfl
  | cons char rest ih =>
    rw [splitChars]
    split
    · next h => exact absurd h (splitChars_ne_nil separator rest)
    · next piece pieces h =>
      rw [h] at ih
      split
      · next heq => subst heq; simp [List.intercalate] at ih ⊢; exact ih
      · cases pieces <;> simp_all [List.intercalate]

/-- No piece holds the separator. -/
theorem separator_not_mem_of_mem_splitChars {separator : Char} {chars piece : List Char}
    (h : piece ∈ splitChars separator chars) : separator ∉ piece := by
  induction chars generalizing piece with
  | nil => simp_all [splitChars]
  | cons char rest ih =>
    rw [splitChars] at h
    split at h
    · simp_all
    · next first pieces hsplit =>
      rw [hsplit] at ih
      split at h
      · rcases List.mem_cons.1 h with rfl | h
        · simp
        · exact ih h
      · next hne =>
        rcases List.mem_cons.1 h with rfl | h
        · simp [Ne.symm hne, ih (List.mem_cons_self ..)]
        · exact ih (List.mem_cons_of_mem _ h)

def split (separator : Char) (text : String) : List String :=
  (splitChars separator text.toList).map String.ofList

end CredentialIntake.Text
