import CredentialIntake.Proofs.EscapedIds

/-!
# The form of escaped ids

An escaped id is read character by character: what is spelled out becomes a
group, the word of the character between a dot and a comma, and all else stands
for itself.  Since no word holds a character that is spelled out, every dot opens
a group and every comma closes one, and a text is read back exactly if it is the
escaped form of some id.
-/

namespace CredentialIntake.Store

/-! ## The table -/

/-- Twenty-eight characters are spelled out, each of them once. -/
example : spelledOut.length = 28 ∧ (spelledOut.map (·.1)).Nodup := by decide

private theorem lookup_of_mem_spelledOut :
    ∀ entry ∈ spelledOut, spelledOut.lookup entry.1 = some entry.2 := by
  decide

/-- No word holds a character that is spelled out. -/
private theorem plain_of_mem_spelledOut :
    ∀ entry ∈ spelledOut, ∀ char ∈ entry.2.toList, spelledOut.lookup char = none := by
  simp [spelledOut, List.lookup]

theorem escapeChar_of_mem_spelledOut {char : Char} {word : String}
    (hmem : (char, word) ∈ spelledOut) : escapeChar char = '.' :: (word.toList ++ [',']) := by
  rw [escapeChar, lookup_of_mem_spelledOut _ hmem]

/-! ## The marks of groups -/

/-- Every dot opens the group of some word, every comma closes one, and no other
character that is spelled out occurs. -/
structure IsGrouped (escaped : List Char) : Prop where
  opened : ∀ before after, escaped = before ++ '.' :: after →
    ∃ entry ∈ spelledOut, ∃ rest, after = entry.2.toList ++ ',' :: rest
  closed : ∀ before after, escaped = before ++ ',' :: after →
    ∃ entry ∈ spelledOut, ∃ first, before = first ++ '.' :: entry.2.toList
  marks : ∀ char ∈ escaped, (spelledOut.lookup char).isSome → char = '.' ∨ char = ','

section Groups

variable {word : String} {char : Char} {front back : List Char}

private theorem eq_of_group_eq_dot (hplain : ∀ char ∈ word.toList, spelledOut.lookup char = none)
    (heq : '.' :: (word.toList ++ [',']) = front ++ '.' :: back) :
    front = [] ∧ back = word.toList ++ [','] := by
  rcases List.cons_eq_append_iff.1 heq with ⟨rfl, hback⟩ | ⟨inside, -, hinside⟩
  · exact ⟨rfl, (List.cons_eq_cons.1 hback).2⟩
  · have hmem : '.' ∈ word.toList ++ [','] := by simp [hinside]
    have hword : '.' ∈ word.toList := by simpa using hmem
    exact absurd (hplain '.' hword) (by decide)

private theorem eq_of_group_eq_comma
    (hplain : ∀ char ∈ word.toList, spelledOut.lookup char = none)
    (heq : '.' :: (word.toList ++ [',']) = front ++ ',' :: back) :
    front = '.' :: word.toList ∧ back = [] := by
  rw [← List.cons_append] at heq
  rcases List.append_eq_append_iff.1 heq with ⟨middle, hfront, hback⟩ | ⟨middle, hgroup, hcomma⟩
  · rcases List.cons_eq_append_iff.1 hback with ⟨rfl, hrest⟩ | ⟨inside, -, hinside⟩
    · rw [List.append_nil] at hfront
      exact ⟨hfront, (List.cons_eq_cons.1 hrest).2⟩
    · simp at hinside
  · rcases List.cons_eq_append_iff.1 hcomma with ⟨rfl, hrest⟩ | ⟨inside, rfl, -⟩
    · rw [List.append_nil] at hgroup
      exact ⟨hgroup.symm, (List.cons_eq_cons.1 hrest).2.symm⟩
    · have hmem : ',' ∈ '.' :: word.toList := by simp [hgroup]
      have hword : ',' ∈ word.toList := by simpa using hmem
      exact absurd (hplain ',' hword) (by decide)

end Groups

theorem isGrouped_escapeChars (chars : List Char) : IsGrouped (escapeChars chars) where
  opened := by
    intro before after heq
    obtain ⟨first, written, rest, front, back, -, hwritten, -, rfl⟩ :=
      exists_written_of_escapeChars_eq heq
    rcases escapeChar_eq_group_or_self written with ⟨word, hmem, hgroup⟩ | ⟨hlookup, hself⟩
    · obtain ⟨-, rfl⟩ :=
        eq_of_group_eq_dot (plain_of_mem_spelledOut _ hmem) (hgroup.symm.trans hwritten)
      exact ⟨_, hmem, escapeChars rest, by simp⟩
    · have hdot : '.' ∈ escapeChar written := by simp [hwritten]
      rw [hself, List.mem_singleton] at hdot
      rw [← hdot] at hlookup
      exact absurd hlookup (by decide)
  closed := by
    intro before after heq
    obtain ⟨first, written, rest, front, back, -, hwritten, rfl, -⟩ :=
      exists_written_of_escapeChars_eq heq
    rcases escapeChar_eq_group_or_self written with ⟨word, hmem, hgroup⟩ | ⟨hlookup, hself⟩
    · obtain ⟨rfl, -⟩ :=
        eq_of_group_eq_comma (plain_of_mem_spelledOut _ hmem) (hgroup.symm.trans hwritten)
      exact ⟨_, hmem, escapeChars first, rfl⟩
    · have hcomma : ',' ∈ escapeChar written := by simp [hwritten]
      rw [hself, List.mem_singleton] at hcomma
      rw [← hcomma] at hlookup
      exact absurd hlookup (by decide)
  marks := by
    intro char hmem hspelled
    obtain ⟨written, -, hwritten⟩ := List.mem_flatMap.1 hmem
    rcases escapeChar_eq_group_or_self written with ⟨word, hword, hgroup⟩ | ⟨hlookup, hself⟩
    · rw [hgroup, List.mem_cons, List.mem_append, List.mem_singleton] at hwritten
      rcases hwritten with hdot | hinside | hcomma
      · exact Or.inl hdot
      · rw [plain_of_mem_spelledOut _ hword char hinside] at hspelled
        cases hspelled
      · exact Or.inr hcomma
    · rw [hself, List.mem_singleton] at hwritten
      rw [hwritten, hlookup] at hspelled
      cases hspelled

/-- A text whose dots all open groups is not the name that every directory has for
itself or for the one above. -/
theorem IsGrouped.not_dots {escaped : List Char} (hgrouped : IsGrouped escaped) :
    escaped ≠ ['.'] ∧ escaped ≠ ['.', '.'] := by
  constructor
  · rintro rfl
    obtain ⟨entry, -, rest, hrest⟩ := hgrouped.opened [] [] rfl
    simp at hrest
  · rintro rfl
    obtain ⟨entry, -, rest, hrest⟩ := hgrouped.opened ['.'] [] rfl
    simp at hrest

/-! ## Reading back -/

private theorem mem_spelledOut_of_charOfWord? {word : List Char} {char : Char}
    (hchar : charOfWord? word = some char) :
    ∃ text, (char, text) ∈ spelledOut ∧ text.toList = word := by
  obtain ⟨entry, hfind, rfl⟩ := Option.map_eq_some_iff.1 hchar
  exact ⟨entry.2, List.mem_of_find?_eq_some hfind, by simpa using List.find?_some hfind⟩

/-- What is read from within a group is the rest of the word, a comma, and an
escaped id. -/
private theorem eq_of_unescapeFrom {escaped chars : List Char} :
    (unescapeFrom none escaped = some chars → escaped = escapeChars chars) ∧
      ∀ begun, unescapeFrom (some begun) escaped = some chars →
        ∃ word char rest, escaped = word ++ ',' :: escapeChars rest ∧
          charOfWord? (begun.reverse ++ word) = some char ∧ chars = char :: rest := by
  induction escaped generalizing chars with
  | nil =>
      constructor
      · intro hread
        cases hread
        rfl
      · rintro begun ⟨⟩
  | cons head tail ih =>
      constructor
      · intro hread
        rw [unescapeFrom] at hread
        split at hread
        next hdot =>
          obtain ⟨word, char, rest, rfl, hchar, rfl⟩ := ih.2 [] hread
          obtain ⟨text, hmem, rfl⟩ := mem_spelledOut_of_charOfWord? hchar
          rw [escapeChars_cons, escapeChar_of_mem_spelledOut hmem, hdot]
          simp
        next hdot =>
          split at hread
          · cases hread
          next hplain =>
            obtain ⟨rest, hrest, rfl⟩ := Option.map_eq_some_iff.1 hread
            rw [escapeChars_cons, ih.1 hrest, escapeChar,
              Option.not_isSome_iff_eq_none.1 hplain]
            rfl
      · intro begun hread
        rw [unescapeFrom] at hread
        split at hread
        next hcomma =>
          obtain ⟨char, hchar, hmap⟩ := Option.bind_eq_some_iff.1 hread
          obtain ⟨rest, hrest, rfl⟩ := Option.map_eq_some_iff.1 hmap
          exact ⟨[], char, rest, by rw [hcomma, ih.1 hrest, List.nil_append],
            by rwa [List.append_nil], rfl⟩
        next hcomma =>
          obtain ⟨word, char, rest, rfl, hchar, rfl⟩ := ih.2 _ hread
          exact ⟨head :: word, char, rest, rfl, by simpa using hchar, rfl⟩

/-- A text is read back exactly if it is the escaped form of the id. -/
theorem unescapeId?_eq_some_iff {escaped id : String} :
    unescapeId? escaped = some id ↔ escaped = escapeId id := by
  constructor
  · intro hread
    obtain ⟨chars, hchars, rfl⟩ := Option.map_eq_some_iff.1 hread
    rw [escapeId, String.toList_ofList, ← eq_of_unescapeFrom.1 hchars, String.ofList_toList]
  · rintro rfl
    rw [unescapeId?, escapeId, String.toList_ofList, unescapeFrom_escapeChars,
      Option.map_some, String.ofList_toList]

theorem escapeId_append (left right : String) :
    escapeId (left ++ right) = escapeId left ++ escapeId right := by
  rw [escapeId, String.toList_append, escapeChars_append, String.ofList_append]
  rfl

/-- Escaped ids are uniquely decodable: reading takes them back and refuses every
other text, so two ids never have one form; the form of a text in two parts is that
of the parts; and a form consists of whole groups and plain characters, so that it
holds no slash and names no directory. -/
theorem escapeId_uniquely_decodable :
    (∀ id escaped, unescapeId? escaped = some id ↔ escaped = escapeId id) ∧
      Function.Injective escapeId ∧
      (∀ left right, escapeId (left ++ right) = escapeId left ++ escapeId right) ∧
      ∀ id, IsGrouped (escapeId id).toList ∧ '/' ∉ (escapeId id).toList ∧
        escapeId id ≠ "." ∧ escapeId id ≠ ".." := by
  refine ⟨fun id escaped => unescapeId?_eq_some_iff, ?_, escapeId_append, ?_⟩
  · intro left right heq
    have hread := unescapeId?_eq_some_iff.2 heq.symm
    rw [unescapeId?_eq_some_iff.2 rfl] at hread
    exact (Option.some.inj hread).symm
  · intro id
    have hgrouped : IsGrouped (escapeId id).toList := by
      rw [escapeId, String.toList_ofList]
      exact isGrouped_escapeChars id.toList
    refine ⟨hgrouped, ?_, ?_, ?_⟩
    · rw [escapeId, String.toList_ofList]
      exact slash_not_mem_escapeChars id.toList
    · exact fun heq => hgrouped.not_dots.1 (by rw [heq]; rfl)
    · exact fun heq => hgrouped.not_dots.2 (by rw [heq]; rfl)

end CredentialIntake.Store
