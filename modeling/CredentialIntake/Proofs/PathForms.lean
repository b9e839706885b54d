import CredentialIntake.Path
import CredentialIntake.Proofs.TextForms
import Mathlib

/-!
# The form of paths

Every path that can name a file is a folder joined with one plain name.  The
lemmas of this file reduce appending a suffix, splitting into names and the
zero-byte check to that form, so that nothing after it looks at path texts.
-/

namespace CredentialIntake

namespace Path

theorem append_ne_of_length_lt {lead text : String} (hlong : text.length < lead.length)
    (rest : String) : lead ++ rest ≠ text := by
  rintro rfl
  rw [String.length_append] at hlong
  omega

/-- A name that can stand between two slashes. -/
structure IsPlainName (name : String) : Prop where
  ne_empty : name ≠ ""
  slash_not_mem : '/' ∉ name.toList

theorem IsPlainName.toList_ne_nil {name : String} (hname : IsPlainName name) :
    name.toList ≠ [] := by
  intro hnil
  exact hname.ne_empty (String.toList_inj.1 hnil)

theorem IsPlainName.append {name suffix : String} (hname : IsPlainName name)
    (hsuffix : '/' ∉ suffix.toList) : IsPlainName (name ++ suffix) where
  ne_empty := by
    intro hempty
    have hchars := congrArg String.toList hempty
    rw [String.toList_append] at hchars
    exact hname.toList_ne_nil (List.append_eq_nil_iff.1 hchars).1
  slash_not_mem := by
    rw [String.toList_append, List.mem_append, not_or]
    exact ⟨hname.slash_not_mem, hsuffix⟩

theorem IsPlainName.not_isAbsolute {name : String} (hname : IsPlainName name) :
    (Path.mk name).isAbsolute = false := by
  have hslash := hname.slash_not_mem
  rw [isAbsolute]
  cases hchars : name.toList with
  | nil => rfl
  | cons char rest =>
      rw [hchars, List.mem_cons, not_or] at hslash
      simpa using Ne.symm hslash.1

/-- What stands before a name that is joined to a folder: nothing, or a text
that ends with a slash. -/
def lead (folder : Path) : String :=
  if folder.text.isEmpty || folder.endsWithSlash then folder.text else folder.text ++ "/"

theorem join_eq_lead {folder : Path} {name : String} (hname : IsPlainName name) :
    folder.join name = ⟨folder.lead ++ name⟩ := by
  rw [join, hname.not_isAbsolute, lead]
  by_cases hlead : (folder.text.isEmpty || folder.endsWithSlash) = true
  · simp [hlead]
  · simp only [hlead, Bool.false_eq_true, if_false]

theorem lead_eq_empty_or (folder : Path) :
    (folder.text = "" ∧ folder.lead = "") ∨
      ∃ before, folder.lead.toList = before ++ ['/'] ∧
        (folder.text.toList = before ++ ['/'] ∨ folder.text.toList = before ∧ before ≠ []) := by
  by_cases hempty : folder.text = ""
  · left
    simp [lead, hempty]
  right
  have hne : folder.text.toList ≠ [] := fun hnil => hempty (String.toList_inj.1 hnil)
  by_cases hslash : folder.endsWithSlash
  · obtain ⟨before, hbefore⟩ : ∃ before, folder.text.toList = before ++ ['/'] := by
      rw [endsWithSlash, beq_iff_eq] at hslash
      exact List.getLast?_eq_some_iff.1 hslash
    exact ⟨before, by simpa [lead, hslash] using hbefore, Or.inl hbefore⟩
  · refine ⟨folder.text.toList, ?_, Or.inr ⟨rfl, hne⟩⟩
    simp [lead, hslash, hempty]

/-- The names of a joined path are those of the folder and the name itself. -/
theorem names_join {folder : Path} {name : String} (hname : IsPlainName name) :
    (folder.join name).names = folder.names ++ [name] := by
  have hsplit := Text.splitChars_of_not_mem hname.slash_not_mem
  rw [join_eq_lead hname, names, names, Text.split, Text.split, String.toList_append]
  rcases folder.lead_eq_empty_or with ⟨hempty, hlead⟩ | ⟨before, hlead, hfolder | ⟨hfolder, -⟩⟩
  · simp [hempty, hlead, hsplit, hname.ne_empty, Text.splitChars]
  · have hfolderPieces : Text.splitChars '/' (before ++ ['/']) =
        Text.splitChars '/' before ++ [[]] := Text.splitChars_append_separator '/' before []
    rw [hlead, hfolder, List.append_assoc, List.singleton_append,
      Text.splitChars_append_separator, hsplit, hfolderPieces]
    simp [hname.ne_empty]
  · rw [hlead, hfolder, List.append_assoc, List.singleton_append,
      Text.splitChars_append_separator, hsplit]
    simp [hname.ne_empty]

theorem isAbsolute_join {folder : Path} {name : String} (hname : IsPlainName name) :
    (folder.join name).isAbsolute = folder.isAbsolute := by
  rcases folder.lead_eq_empty_or with ⟨hempty, hlead⟩ | ⟨before, hlead, hfolder | ⟨hfolder, hne⟩⟩
  · have hnone : folder.isAbsolute = false := by simp [isAbsolute, hempty]
    rw [hnone, join_eq_lead hname, hlead, String.empty_append]
    exact hname.not_isAbsolute
  · rw [join_eq_lead hname, isAbsolute, isAbsolute, String.toList_append, hlead, hfolder]
    cases before <;> rfl
  · rw [join_eq_lead hname, isAbsolute, isAbsolute, String.toList_append, hlead, hfolder]
    cases before with
    | nil => exact absurd rfl hne
    | cons char rest => rfl

/-- A name other than `.` adds one component. -/
theorem components_join {folder : Path} {name : String} (hname : IsPlainName name)
    (hhere : name ≠ ".") : (folder.join name).components = folder.components ++ [name] := by
  have hkept : [name].filter (· ≠ ".") = [name] := by simp [hhere]
  rw [components, components, isAbsolute_join hname, names_join hname]
  cases folder.isAbsolute with
  | true => rw [if_pos rfl, if_pos rfl, List.filter_append, hkept, List.cons_append]
  | false =>
      simp only [Bool.false_eq_true, if_false]
      cases hfolder : folder.names with
      | nil =>
          split
          next rest hnames => exact absurd (List.cons_eq_cons.1 hnames).1 hhere
          next => exact hkept
      | cons first others =>
          by_cases hfirst : first = "."
          · simp [hfirst, hhere]
          · simp [hfirst, hhere]

/-- Joined paths are told apart by the names they end with. -/
theorem getLast?_components_join {folder : Path} {name : String} (hname : IsPlainName name)
    (hhere : name ≠ ".") : (folder.join name).components.getLast? = some name := by
  rw [components_join hname hhere, List.getLast?_concat]

theorem endsWithSlash_join {folder : Path} {name : String} (hname : IsPlainName name) :
    (folder.join name).endsWithSlash = false := by
  have hlast : (folder.lead.toList ++ name.toList).getLast? = name.toList.getLast? :=
    List.getLast?_append_of_ne_nil _ hname.toList_ne_nil
  rw [join_eq_lead hname, endsWithSlash, String.toList_append, hlast, beq_eq_false_iff_ne]
  intro hslash
  exact hname.slash_not_mem (List.mem_of_getLast? hslash)

theorem text_join_ne_empty {folder : Path} {name : String} (hname : IsPlainName name) :
    (folder.join name).text ≠ "" := by
  intro hempty
  have hchars := congrArg String.toList hempty
  rw [join_eq_lead hname, String.toList_append] at hchars
  exact hname.toList_ne_nil (List.append_eq_nil_iff.1 hchars).2

theorem nul_mem_text_join {folder : Path} {name : String} (hname : IsPlainName name) :
    '\x00' ∈ (folder.join name).text.toList ↔
      '\x00' ∈ folder.text.toList ∨ '\x00' ∈ name.toList := by
  rw [join_eq_lead hname, String.toList_append, List.mem_append]
  rcases folder.lead_eq_empty_or with ⟨hempty, hlead⟩ | ⟨before, hlead, hfolder | ⟨hfolder, -⟩⟩
  · rw [hempty, hlead]
  · rw [hlead, hfolder]
  · rw [hlead, hfolder, List.mem_append]
    simp

theorem withSuffix_join {folder : Path} {name suffix : String} (hname : IsPlainName name)
    (hsuffix : '/' ∉ suffix.toList) :
    (folder.join name).withSuffix suffix = folder.join (name ++ suffix) := by
  rw [join_eq_lead hname, join_eq_lead (hname.append hsuffix), withSuffix, String.append_assoc]

/-- Every path that is not empty and does not ask for a directory by a trailing
slash is a folder joined with a plain name. -/
theorem exists_eq_join {path : Path} (hne : path.text ≠ "")
    (hslash : path.endsWithSlash = false) :
    ∃ (folder : Path) (name : String), IsPlainName name ∧ path = folder.join name := by
  have hchars : path.text.toList ≠ [] := fun hnil => hne (String.toList_inj.1 hnil)
  by_cases hmem : '/' ∈ path.text.toList.reverse
  · obtain ⟨after, before, hreverse, hfree⟩ := List.eq_append_cons_of_mem hmem
    have hsplit : path.text.toList = before.reverse ++ '/' :: after.reverse := by
      rw [← List.reverse_reverse path.text.toList, hreverse]
      simp
    have hafter : after ≠ [] := by
      intro hnil
      rw [endsWithSlash, hsplit, hnil] at hslash
      simp at hslash
    have hname : IsPlainName (String.ofList after.reverse) :=
      ⟨by simpa [← String.toList_inj] using hafter, by simpa using hfree⟩
    refine ⟨⟨String.ofList (before.reverse ++ ['/'])⟩, String.ofList after.reverse, hname, ?_⟩
    have hlead : lead ⟨String.ofList (before.reverse ++ ['/'])⟩ =
        String.ofList (before.reverse ++ ['/']) := by
      simp [lead, endsWithSlash]
    rw [join_eq_lead hname, hlead, ← String.ofList_append, List.append_assoc,
      List.singleton_append, ← hsplit, String.ofList_toList]
  · have hname : IsPlainName path.text := ⟨hne, by simpa using hmem⟩
    refine ⟨⟨""⟩, path.text, hname, ?_⟩
    rw [join_eq_lead hname]
    simp [lead]

end Path

end CredentialIntake
