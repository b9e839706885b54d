import CredentialIntake.Settings.EntryDescriptor
import Mathlib

/-!
# The settings that count

Types, trust domains and generators are each set on two levels.  Which level
counts is decided for each of the three by itself, so a credential can have its
type from the entry and its trust domain from the frontend.  What descriptors
are used for is said in terms of what the settings that count give a name.
-/

namespace CredentialIntake

namespace EntryDescriptor

/-- Of what the two levels hold, the entry's setting counts if there is one that is
not empty, and else the frontend's, empty or not. -/
inductive Counts : Option TextMap → Option TextMap → TextMap → Prop where
  | own {setting : TextMap} {frontend : Option TextMap} :
      setting ≠ ∅ → Counts (some setting) frontend setting
  | inherited {entry : Option TextMap} {setting : TextMap} :
      (∀ own, entry = some own → own = ∅) → Counts entry (some setting) setting

theorem effective_eq_some_iff {entry frontend : Option TextMap} {setting : TextMap} :
    effective entry frontend = some setting ↔ Counts entry frontend setting := by
  constructor
  · intro hcounts
    cases entry with
    | none =>
      obtain rfl : frontend = some setting := hcounts
      exact .inherited fun own hown => nomatch hown
    | some own =>
      rw [effective] at hcounts
      split at hcounts
      next hempty =>
        subst hcounts
        refine .inherited fun other hother => ?_
        rw [← Option.some.inj hother, ← Std.ExtTreeMap.isEmpty_iff]
        exact hempty
      next hfilled =>
        obtain rfl : own = setting := Option.some.inj hcounts
        exact .own fun hempty => hfilled (Std.ExtTreeMap.isEmpty_iff.2 hempty)
  · intro hcounts
    cases hcounts with
    | own hfilled => exact if_neg fun hempty => hfilled (Std.ExtTreeMap.isEmpty_iff.1 hempty)
    | @inherited entry _ hempty =>
      cases entry with
      | none => rfl
      | some own => exact if_pos (Std.ExtTreeMap.isEmpty_iff.2 (hempty own rfl))

/-- The setting that counts gives the name this value. -/
def Gives (entry frontend : Option TextMap) (name value : String) : Prop :=
  ∃ setting, Counts entry frontend setting ∧ setting[name]? = some value

section Gives

variable {entry frontend : Option TextMap} {setting : TextMap} {name value : String}

theorem gives_iff (hcounts : effective entry frontend = some setting) :
    Gives entry frontend name value ↔ setting[name]? = some value := by
  simp only [Gives, ← effective_eq_some_iff, hcounts, Option.some.injEq, exists_eq_left']

theorem not_gives (habsent : effective entry frontend = none) :
    ¬ Gives entry frontend name value := by
  simp [Gives, ← effective_eq_some_iff, habsent]

theorem effective_eq_none (habsent : ∀ setting, ¬ Counts entry frontend setting) :
    effective entry frontend = none := by
  rw [Option.eq_none_iff_forall_ne_some]
  intro setting hcounts
  exact habsent setting (effective_eq_some_iff.1 hcounts)

end Gives

/-! ## The three settings -/

def HasType (descriptor : EntryDescriptor) : String → String → Prop :=
  Gives descriptor.entry.types descriptor.frontend.types

def HasTrustDomain (descriptor : EntryDescriptor) : String → String → Prop :=
  Gives descriptor.entry.trustDomains descriptor.frontend.trustDomains

def HasGenerator (descriptor : EntryDescriptor) : String → String → Prop :=
  Gives descriptor.entry.generators descriptor.frontend.generators

end EntryDescriptor

/-- The entries of a map stand in the order of their names. -/
theorem pairwise_toList {α : Type} (map : Std.ExtTreeMap String α) :
    map.toList.Pairwise fun left right => left.1 < right.1 :=
  Std.ExtTreeMap.ordered_keys_toList.imp compare_lt_iff_lt.1

end CredentialIntake
