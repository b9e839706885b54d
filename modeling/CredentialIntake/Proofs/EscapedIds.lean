import CredentialIntake.Store.FileNames
import Mathlib

/-!
# Escaped ids

An escaped id is a row of characters that stand for themselves and of groups
that open with a dot and close with a comma.  A group holds no underscore and no
slash, so an underscore always stands between two escaped ids, and a dot always
has a comma after it.
-/

namespace CredentialIntake.Store

/-! ## The table -/

/-- What makes a word readable inside a group, checked over the whole table. -/
private theorem word_of_mem_spelledOut :
    ∀ entry ∈ spelledOut, ',' ∉ entry.2.toList ∧ '_' ∉ entry.2.toList ∧
      '/' ∉ entry.2.toList ∧ charOfWord? entry.2.toList = some entry.1 := by
  decide +kernel

/-- A character is spelled out in a group, or stands for itself. -/
theorem escapeChar_eq_group_or_self (char : Char) :
    (∃ word, (char, word) ∈ spelledOut ∧ escapeChar char = '.' :: (word.toList ++ [','])) ∨
      spelledOut.lookup char = none ∧ escapeChar char = [char] := by
  rw [escapeChar]
  cases hlookup : spelledOut.lookup char with
  | none => exact Or.inr ⟨rfl, rfl⟩
  | some word =>
      obtain ⟨before, after, htable, -⟩ := List.lookup_eq_some_iff.1 hlookup
      exact Or.inl ⟨word, by simp [htable], rfl⟩

/-- No word holds a mark of a group, and what stands for itself is no mark. -/
theorem escapeChar_cases (char : Char) :
    (∃ word : List Char, escapeChar char = '.' :: (word ++ [',']) ∧ ',' ∉ word ∧ '_' ∉ word ∧
        '/' ∉ word ∧ charOfWord? word = some char) ∨
      escapeChar char = [char] ∧ spelledOut.lookup char = none ∧ char ≠ '.' ∧ char ≠ '/' := by
  rcases escapeChar_eq_group_or_self char with ⟨word, hmem, hgroup⟩ | ⟨hlookup, hself⟩
  · left
    obtain ⟨hcomma, hline, hslash, hchar⟩ := word_of_mem_spelledOut (char, word) hmem
    exact ⟨word.toList, hgroup, hcomma, hline, hslash, hchar⟩
  · right
    refine ⟨hself, hlookup, ?_, ?_⟩
    · rintro rfl
      revert hlookup
      decide
    · rintro rfl
      revert hlookup
      decide

theorem escapeChars_cons (char : Char) (rest : List Char) :
    escapeChars (char :: rest) = escapeChar char ++ escapeChars rest := by
  simp [escapeChars]

theorem escapeChars_append (left right : List Char) :
    escapeChars (left ++ right) = escapeChars left ++ escapeChars right := by
  simp [escapeChars]

theorem slash_not_mem_escapeChars (chars : List Char) : '/' ∉ escapeChars chars := by
  induction chars with
  | nil => simp [escapeChars]
  | cons char rest ih =>
      rw [escapeChars_cons, List.mem_append, not_or]
      refine ⟨?_, ih⟩
      rcases escapeChar_cases char with ⟨word, hgroup, -, -, hslash, -⟩ | ⟨hself, -, -, hslash⟩
      · simp [hgroup, hslash]
      · simp [hself, Ne.symm hslash]

/-! ## Reading back -/

private theorem unescapeFrom_word {word : List Char} (hcomma : ',' ∉ word)
    (begun rest : List Char) :
    unescapeFrom (some begun) (word ++ ',' :: rest) =
      (charOfWord? (begun.reverse ++ word)).bind fun char =>
        (unescapeFrom none rest).map (char :: ·) := by
  induction word generalizing begun with
  | nil => simp [unescapeFrom]
  | cons char word ih =>
      rw [List.mem_cons, not_or] at hcomma
      rw [List.cons_append, unescapeFrom]
      simp only [Ne.symm hcomma.1, if_false]
      rw [ih hcomma.2]
      simp

/-- Every escaped id is read back. -/
theorem unescapeFrom_escapeChars (chars : List Char) :
    unescapeFrom none (escapeChars chars) = some chars := by
  induction chars with
  | nil => rfl
  | cons char rest ih =>
      rw [escapeChars_cons]
      rcases escapeChar_cases char with ⟨word, hgroup, hcomma, -, -, hchar⟩ |
        ⟨hself, hlookup, hdot, -⟩
      · have hread := unescapeFrom_word hcomma [] (escapeChars rest)
        rw [hgroup, List.cons_append, List.append_assoc, List.singleton_append, unescapeFrom]
        simp only [if_true]
        rw [hread]
        simp [hchar, ih]
      · rw [hself, List.singleton_append, unescapeFrom]
        simp [hdot, hlookup, ih]

theorem escapeChars_injective : Function.Injective escapeChars := by
  intro left right heq
  have hread := congrArg (unescapeFrom none) heq
  rw [unescapeFrom_escapeChars, unescapeFrom_escapeChars] at hread
  exact Option.some.inj hread

/-! ## Where a character stands -/

/-- Every character of an escaped id stands in the written form of one character of
the id. -/
theorem exists_written_of_escapeChars_eq {chars before after : List Char} {char : Char}
    (heq : escapeChars chars = before ++ char :: after) :
    ∃ first written rest front back, chars = first ++ written :: rest ∧
      escapeChar written = front ++ char :: back ∧
      before = escapeChars first ++ front ∧ after = back ++ escapeChars rest := by
  induction chars generalizing before with
  | nil => simp [escapeChars] at heq
  | cons head tail ih =>
      rw [escapeChars_cons] at heq
      rcases List.append_eq_append_iff.1 heq with ⟨middle, rfl, htail⟩ | ⟨middle, hhead, hafter⟩
      · obtain ⟨first, written, rest, front, back, rfl, hwritten, rfl, rfl⟩ := ih htail
        exact ⟨head :: first, written, rest, front, back, rfl, hwritten,
          by rw [escapeChars_cons, List.append_assoc], rfl⟩
      -- it stands in the form of the first character, or right behind it
      rcases List.cons_eq_append_iff.1 hafter with ⟨rfl, htail⟩ | ⟨inside, rfl, rfl⟩
      · obtain ⟨first, written, rest, front, back, rfl, hwritten, hbefore, rfl⟩ := @ih [] htail
        refine ⟨head :: first, written, rest, front, back, rfl, hwritten, ?_, rfl⟩
        rw [escapeChars_cons, List.append_assoc, ← hbefore, hhead, List.append_nil,
          List.append_nil]
      · exact ⟨[], head, tail, before, inside, rfl, hhead, rfl, rfl⟩

/-- In an escaped id every dot has a comma somewhere after it. -/
theorem comma_mem_of_escapeChars_eq {chars before after : List Char}
    (heq : escapeChars chars = before ++ '.' :: after) : ',' ∈ after := by
  obtain ⟨-, written, rest, front, back, -, hwritten, -, rfl⟩ :=
    exists_written_of_escapeChars_eq heq
  rw [List.mem_append]
  left
  rcases escapeChar_cases written with ⟨word, hgroup, -⟩ | ⟨hself, -, hdot, -⟩
  · have hlast := congrArg List.getLast? (hgroup.symm.trans hwritten)
    rw [← List.cons_append, List.getLast?_concat, List.getLast?_append_cons] at hlast
    simpa using List.mem_of_getLast? hlast.symm
  · have hmem : '.' ∈ escapeChar written := by simp [hwritten]
    rw [hself, List.mem_singleton] at hmem
    exact absurd hmem.symm hdot

/-- An underscore in an escaped id stands between two escaped ids. -/
theorem escapeChars_eq_append_underscore {chars before after : List Char}
    (heq : escapeChars chars = before ++ '_' :: escapeChars after) :
    ∃ first, before = escapeChars first ∧ chars = first ++ '_' :: after := by
  obtain ⟨first, written, rest, front, back, rfl, hwritten, rfl, hafter⟩ :=
    exists_written_of_escapeChars_eq heq
  rcases escapeChar_cases written with ⟨word, hgroup, -, hline, -⟩ | ⟨hself, -⟩
  · have hmem : '_' ∈ escapeChar written := by simp [hwritten]
    rw [hgroup] at hmem
    simp [hline] at hmem
  · rw [hself] at hwritten
    obtain ⟨rfl, hchar⟩ | ⟨-, hnil⟩ := List.append_eq_singleton_iff.1 hwritten.symm
    · obtain ⟨rfl, rfl⟩ := List.cons_eq_cons.1 hchar
      exact ⟨first, List.append_nil _, by rw [escapeChars_injective hafter]⟩
    · cases hnil

end CredentialIntake.Store
