import CredentialIntake.Generator.Registry
import CredentialIntake.Proofs.EffectiveSettings

/-!
# What generator names are bound to

A registry is begun with the names a descriptor configures, many of them perhaps
more than once, and later generators are put under names one by one.  At every
moment a name is bound, or left without a generator, or unknown, and its history
tells which: the last generator put under it counts, then the one it was begun
with, and only a name that had neither is left.
-/

namespace CredentialIntake.GeneratorRegistry

open EntryDescriptor

variable {γ : Type}

/-- The values of a map are those of its entries, in the order of the names. -/
theorem values_eq {α : Type} (map : Std.ExtTreeMap String α) :
    map.values = map.toList.map (·.2) := by
  have hfold : map.values = map.foldr (fun _ value values => value :: values) [] := by
    obtain ⟨⟨map⟩⟩ := map
    induction map using Quotient.ind
    rfl
  rw [hfold, Std.ExtTreeMap.foldr_eq_foldr_toList]
  simp

/-! ## Taking names over -/

/-- The registry has taken these names over and no others: a name is bound to the
generator at hand, and left unavailable where there is none. -/
structure Covers (available : Std.ExtTreeMap String γ) (names : Set String)
    (registry : GeneratorRegistry γ) : Prop where
  bound : ∀ name generator, registry.get? name = some generator ↔
    name ∈ names ∧ available[name]? = some generator
  unavailable : ∀ name, name ∈ registry.unavailable ↔ name ∈ names ∧ available[name]? = none

/-- The events are one warning for each of the names. -/
def ReportsEach (names : Set String) (events : List Event) : Prop :=
  ∃ reported : List String, reported.Nodup ∧ (∀ name, name ∈ reported ↔ name ∈ names) ∧
    events = reported.map .generatorUnavailable

theorem reportsEach_empty : ReportsEach ∅ [] := ⟨[], .nil, by simp, rfl⟩

theorem reportsEach_singleton (name : String) :
    ReportsEach {name} [.generatorUnavailable name] :=
  ⟨[name], List.nodup_singleton name, by simp, rfl⟩

theorem ReportsEach.append {left right : Set String} {events later : List Event}
    (hleft : ReportsEach left events) (hright : ReportsEach right later)
    (hdisjoint : Disjoint left right) : ReportsEach (left ∪ right) (events ++ later) := by
  obtain ⟨names, hnodup, hnames, rfl⟩ := hleft
  obtain ⟨others, hothers, hmem, rfl⟩ := hright
  refine ⟨names ++ others, ?_, ?_, List.map_append.symm⟩
  · refine List.nodup_append'.2 ⟨hnodup, hothers, ?_⟩
    intro name hname hother
    exact Set.disjoint_left.1 hdisjoint ((hnames name).1 hname) ((hmem name).1 hother)
  · intro name
    rw [List.mem_append, hnames, hmem, Set.mem_union]

section Binding

variable {available : Std.ExtTreeMap String γ} {names : Set String}
  {registry : GeneratorRegistry γ} {name : String}

theorem covers_empty (available : Std.ExtTreeMap String γ) :
    Covers available ∅ (empty : GeneratorRegistry γ) where
  bound := by simp [empty, get?]
  unavailable := by simp [empty]

theorem Covers.isKnown_iff (hcovers : Covers available names registry) :
    (registry.bound.contains name || registry.unavailable.contains name) = true ↔
      name ∈ names := by
  have hbound : registry.bound.contains name = true ↔
      name ∈ names ∧ ∃ generator, available[name]? = some generator := by
    rw [Std.ExtTreeMap.contains_iff_mem, Std.ExtTreeMap.mem_iff_isSome_getElem?,
      Option.isSome_iff_exists]
    simp only [← get?.eq_def, hcovers.bound, exists_and_left]
  rw [Bool.or_eq_true, hbound, Std.ExtTreeSet.contains_iff_mem, hcovers.unavailable,
    ← and_or_left, and_iff_left_iff_imp]
  intro _
  cases available[name]? with
  | none => exact Or.inr rfl
  | some generator => exact Or.inl ⟨generator, rfl⟩

/-- The names among these that are new and stand for no generator at hand. -/
def missing (available : Std.ExtTreeMap String γ) (names others : Set String) : Set String :=
  {name | name ∈ others ∧ name ∉ names ∧ available[name]? = none}

theorem missing_of_known {others : Set String}
    (hknown : ∀ other ∈ others, other ∉ names → available[other]? ≠ none) :
    missing available names others = ∅ := by
  rw [Set.eq_empty_iff_forall_notMem]
  rintro other ⟨hother, hnew, hnone⟩
  exact hknown other hother hnew hnone

theorem get?_bind_bound (registry : GeneratorRegistry γ) (unavailable : Std.ExtTreeSet String)
    (name : String) (generator : γ) (other : String) :
    get? ⟨registry.bound.insert name generator, unavailable⟩ other =
      if other = name then some generator else registry.get? other := by
  simp [get?, Std.ExtTreeMap.getElem?_insert, @eq_comm _ name]

theorem Covers.insert_bound (hcovers : Covers available names registry) {generator : γ}
    (hgenerator : available[name]? = some generator) :
    Covers available (insert name names)
      { registry with bound := registry.bound.insert name generator } where
  bound := by
    intro other found
    rw [get?_bind_bound, Set.mem_insert_iff]
    by_cases hother : other = name
    · rw [if_pos hother, hother, hgenerator]
      simp
    · rw [if_neg hother, hcovers.bound]
      simp [hother]
  unavailable := by
    intro other
    rw [hcovers.unavailable, Set.mem_insert_iff]
    by_cases hother : other = name
    · rw [hother, hgenerator]
      simp
    · simp [hother]

theorem Covers.insert_unavailable (hcovers : Covers available names registry)
    (hgenerator : available[name]? = none) :
    Covers available (insert name names)
      { registry with unavailable := registry.unavailable.insert name } where
  bound := by
    intro other found
    change registry.get? other = some found ↔ _
    rw [hcovers.bound, Set.mem_insert_iff]
    by_cases hother : other = name
    · rw [hother, hgenerator]
      simp
    · simp [hother]
  unavailable := by
    intro other
    rw [Std.ExtTreeSet.mem_insert, compare_eq_iff_eq, hcovers.unavailable, Set.mem_insert_iff]
    by_cases hother : other = name
    · rw [hother, hgenerator]
      simp
    · simp [hother, Ne.symm hother]

/-- A name is taken over once, and reported then if there is no generator for it. -/
theorem Covers.bind (hcovers : Covers available names registry) (name : String) :
    Covers available (insert name names) (registry.bind available name).1 ∧
      ReportsEach (missing available names {name}) (registry.bind available name).2 := by
  have hknown : (registry.bound.contains name || registry.unavailable.contains name) = true ↔
      name ∈ names := hcovers.isKnown_iff
  rw [GeneratorRegistry.bind]
  split
  next hold =>
    have hname := hknown.1 hold
    rw [Set.insert_eq_of_mem hname, missing_of_known]
    · exact ⟨hcovers, reportsEach_empty⟩
    · rintro other rfl hnew
      exact absurd hname hnew
  next hnew =>
    split
    next generator hgenerator =>
      rw [missing_of_known]
      · exact ⟨hcovers.insert_bound hgenerator, reportsEach_empty⟩
      · rintro other rfl -
        simp [hgenerator]
    next hgenerator =>
      have hmissing : missing available names {name} = {name} := by
        ext other
        rw [missing, Set.mem_ofPred_eq, Set.mem_singleton_iff, and_iff_left_iff_imp]
        rintro rfl
        exact ⟨fun hmem => hnew (hknown.2 hmem), hgenerator⟩
      rw [hmissing]
      exact ⟨hcovers.insert_unavailable hgenerator, reportsEach_singleton name⟩

theorem Covers.bindAll (hcovers : Covers available names registry) (configured : List String) :
    Covers available (names ∪ {name | name ∈ configured})
        (registry.bindAll available configured).1 ∧
      ReportsEach (missing available names {name | name ∈ configured})
        (registry.bindAll available configured).2 := by
  induction configured generalizing names registry with
  | nil =>
    have hnone : {name : String | name ∈ ([] : List String)} = ∅ := by simp
    rw [hnone, Set.union_empty, missing_of_known (by simp)]
    exact ⟨hcovers, reportsEach_empty⟩
  | cons name rest ih =>
    obtain ⟨hfirst, hevents⟩ := hcovers.bind name
    obtain ⟨hrest, hlater⟩ := ih hfirst
    have hnames : {other | other ∈ name :: rest} = insert name {other | other ∈ rest} := by
      ext other
      simp
    have hall : names ∪ {other | other ∈ name :: rest} =
        insert name names ∪ {other | other ∈ rest} := by
      rw [hnames, Set.union_insert, Set.insert_union]
    have hmissing : missing available names {other | other ∈ name :: rest} =
        missing available names {name} ∪
          missing available (insert name names) {other | other ∈ rest} := by
      ext other
      simp only [missing, List.mem_cons, Set.mem_ofPred_eq, Set.mem_union, Set.mem_singleton_iff,
        Set.mem_insert_iff]
      tauto
    have hdisjoint : Disjoint (missing available names {name})
        (missing available (insert name names) {other | other ∈ rest}) := by
      rw [Set.disjoint_left]
      rintro other ⟨rfl, -⟩ ⟨-, hnew, -⟩
      exact hnew (Set.mem_insert _ _)
    rw [hall, hmissing]
    exact ⟨hrest, hevents.append hlater hdisjoint⟩

end Binding

/-- The name is that of a generator some credential is to be had from. -/
def IsConfigured (descriptor : EntryDescriptor) (name : String) : Prop :=
  ∃ credential, descriptor.HasGenerator credential name

theorem isConfigured_iff {descriptor : EntryDescriptor} {configured : TextMap}
    (hcounts : descriptor.generators = some configured) {name : String} :
    IsConfigured descriptor name ↔ name ∈ configured.values := by
  rw [values_eq, List.mem_map]
  constructor
  · rintro ⟨credential, hgenerator⟩
    exact ⟨(credential, name), Std.ExtTreeMap.mem_toList_iff_getElem?_eq_some.2
      ((gives_iff hcounts).1 hgenerator), rfl⟩
  · rintro ⟨⟨credential, _⟩, hentry, rfl⟩
    exact ⟨credential,
      (gives_iff hcounts).2 (Std.ExtTreeMap.mem_toList_iff_getElem?_eq_some.1 hentry)⟩

theorem covers_ofDescriptor (descriptor : EntryDescriptor) (available : Std.ExtTreeMap String γ) :
    Covers available {name | IsConfigured descriptor name}
        (ofDescriptor descriptor available).1 ∧
      ReportsEach (missing available ∅ {name | IsConfigured descriptor name})
        (ofDescriptor descriptor available).2 := by
  rw [ofDescriptor]
  cases hcounts : descriptor.generators with
  | none =>
    have hnone : {name | IsConfigured descriptor name} = ∅ := by
      rw [Set.eq_empty_iff_forall_notMem]
      rintro name ⟨credential, hgenerator⟩
      exact not_gives hcounts hgenerator
    rw [hnone, missing_of_known (by simp)]
    exact ⟨covers_empty available, reportsEach_empty⟩
  | some configured =>
    have hnames : {name | IsConfigured descriptor name} = {name | name ∈ configured.values} := by
      ext name
      exact isConfigured_iff hcounts
    obtain ⟨hcovers, hevents⟩ := (covers_empty available).bindAll configured.values
    rw [Set.empty_union] at hcovers
    rw [hnames]
    exact ⟨hcovers, hevents⟩

/-! ## Putting generators under names -/

/-- The registry after generators are put under names one after the other. -/
def registerAll (registry : GeneratorRegistry γ) (registrations : List (String × γ)) :
    GeneratorRegistry γ :=
  registrations.foldl (fun registry (name, generator) => registry.register name generator) registry

/-- No name is both bound and left unavailable. -/
def IsConsistent (registry : GeneratorRegistry γ) : Prop :=
  ∀ name, ¬ (name ∈ registry.bound ∧ name ∈ registry.unavailable)

section Registrations

variable {registry : GeneratorRegistry γ} {name : String}

theorem Covers.isConsistent {available : Std.ExtTreeMap String γ} {names : Set String}
    (hcovers : Covers available names registry) : IsConsistent registry := by
  rintro name ⟨hbound, hunavailable⟩
  obtain ⟨generator, hgenerator⟩ :=
    Option.isSome_iff_exists.1 (Std.ExtTreeMap.mem_iff_isSome_getElem?.1 hbound)
  have havailable := ((hcovers.bound name generator).1 hgenerator).2
  rw [((hcovers.unavailable name).1 hunavailable).2] at havailable
  cases havailable

theorem get?_register (registry : GeneratorRegistry γ) (name : String) (generator : γ)
    (other : String) :
    (registry.register name generator).get? other =
      if other = name then some generator else registry.get? other :=
  get?_bind_bound registry _ name generator other

theorem mem_unavailable_register (registry : GeneratorRegistry γ) (name : String) (generator : γ)
    (other : String) :
    other ∈ (registry.register name generator).unavailable ↔
      other ∈ registry.unavailable ∧ other ≠ name := by
  rw [register, Std.ExtTreeSet.mem_erase, ne_eq, compare_eq_iff_eq, and_comm, eq_comm]

theorem IsConsistent.register (hconsistent : IsConsistent registry) (name : String)
    (generator : γ) : IsConsistent (registry.register name generator) := by
  rintro other ⟨hbound, hunavailable⟩
  rw [mem_unavailable_register] at hunavailable
  refine hconsistent other ⟨?_, hunavailable.1⟩
  rw [Std.ExtTreeMap.mem_iff_isSome_getElem?] at hbound ⊢
  change ((registry.register name generator).get? other).isSome = true at hbound
  rwa [get?_register, if_neg hunavailable.2] at hbound

theorem IsConsistent.registerAll (hconsistent : IsConsistent registry)
    (registrations : List (String × γ)) : IsConsistent (registry.registerAll registrations) := by
  induction registrations generalizing registry with
  | nil => exact hconsistent
  | cons registration rest ih => exact ih (hconsistent.register registration.1 registration.2)

/-- The generator put under a name last counts, and else the one that was there. -/
theorem get?_registerAll (registry : GeneratorRegistry γ) (registrations : List (String × γ))
    (name : String) :
    (registry.registerAll registrations).get? name =
      (registrations.reverse.lookup name).or (registry.get? name) := by
  induction registrations generalizing registry with
  | nil => rfl
  | cons registration rest ih =>
    obtain ⟨title, generator⟩ := registration
    calc
      (registry.registerAll ((title, generator) :: rest)).get? name =
          ((registry.register title generator).registerAll rest).get? name := rfl
      _ = (rest.reverse.lookup name).or
            (if name = title then some generator else registry.get? name) := by
        rw [ih, get?_register]
      _ = (rest.reverse.lookup name).or
            (([(title, generator)].lookup name).or (registry.get? name)) := by
        by_cases hname : name = title
        · simp [hname]
        · have hbeq : (name == title) = false := beq_false_of_ne hname
          simp [hname, hbeq, List.lookup]
      _ = (((title, generator) :: rest).reverse.lookup name).or (registry.get? name) := by
        rw [List.reverse_cons, List.lookup_append, Option.or_assoc]

theorem mem_unavailable_registerAll (registry : GeneratorRegistry γ)
    (registrations : List (String × γ)) (name : String) :
    name ∈ (registry.registerAll registrations).unavailable ↔
      name ∈ registry.unavailable ∧ ∀ registration ∈ registrations, registration.1 ≠ name := by
  induction registrations generalizing registry with
  | nil => simp [registerAll]
  | cons registration rest ih =>
    rw [List.forall_mem_cons, ← and_assoc, ne_comm, ← mem_unavailable_register]
    exact ih (registry.register registration.1 registration.2)

end Registrations

/-! ## Whole histories -/

/-- How a registry is begun. -/
inductive Origin (γ : Type) where
  | nothing
  | configured (descriptor : EntryDescriptor) (available : Std.ExtTreeMap String γ)

namespace Origin

def registry : Origin γ → GeneratorRegistry γ
  | nothing => empty
  | configured descriptor available => (ofDescriptor descriptor available).1

/-- A name is bound to a generator from the beginning. -/
inductive Binds : Origin γ → String → γ → Prop where
  | configured {descriptor : EntryDescriptor} {available : Std.ExtTreeMap String γ}
      {name : String} {generator : γ} : IsConfigured descriptor name →
      available[name]? = some generator → Binds (.configured descriptor available) name generator

/-- A name is left without a generator at the beginning. -/
inductive Leaves : Origin γ → String → Prop where
  | configured {descriptor : EntryDescriptor} {available : Std.ExtTreeMap String γ}
      {name : String} : IsConfigured descriptor name → available[name]? = none →
      Leaves (.configured descriptor available) name

theorem get?_registry (origin : Origin γ) (name : String) (generator : γ) :
    origin.registry.get? name = some generator ↔ origin.Binds name generator := by
  cases origin with
  | nothing =>
    refine iff_of_false ?_ fun hbinds => nomatch hbinds
    simp [registry, empty, get?]
  | configured descriptor available =>
    rw [registry, (covers_ofDescriptor descriptor available).1.bound]
    constructor
    · exact fun hbound => .configured hbound.1 hbound.2
    · rintro ⟨hconfigured, havailable⟩
      exact ⟨hconfigured, havailable⟩

theorem mem_unavailable_registry (origin : Origin γ) (name : String) :
    name ∈ origin.registry.unavailable ↔ origin.Leaves name := by
  cases origin with
  | nothing =>
    refine iff_of_false ?_ fun hleaves => nomatch hleaves
    simp [registry, empty]
  | configured descriptor available =>
    rw [registry, (covers_ofDescriptor descriptor available).1.unavailable]
    constructor
    · exact fun hleft => .configured hleft.1 hleft.2
    · rintro ⟨hconfigured, havailable⟩
      exact ⟨hconfigured, havailable⟩

theorem isConsistent_registry (origin : Origin γ) : IsConsistent origin.registry := by
  cases origin with
  | nothing => exact (covers_empty ∅).isConsistent
  | configured descriptor available =>
    exact (covers_ofDescriptor descriptor available).1.isConsistent

end Origin

/-- A registry begun with a descriptor binds the configured names to the generators
at hand, leaves the others, and warns once of each that it leaves.  Whatever it
was begun with and whatever was put under names since, no name is both bound and
left; a name is bound to the generator put there last, and else to the one it was
begun with; and it is left if it was so at the beginning and nothing was put there. -/
theorem registry_follows_history :
    (∀ (descriptor : EntryDescriptor) (available : Std.ExtTreeMap String γ),
      Covers available {name | IsConfigured descriptor name}
        (ofDescriptor descriptor available).1 ∧
      ReportsEach {name | name ∈ (ofDescriptor descriptor available).1.unavailable}
        (ofDescriptor descriptor available).2 ∧
      ∀ event ∈ (ofDescriptor descriptor available).2, event.level = .warn) ∧
    ∀ (origin : Origin γ) (registrations : List (String × γ)) (name : String),
      let registry := origin.registry.registerAll registrations
      ¬ (name ∈ registry.bound ∧ name ∈ registry.unavailable) ∧
      (∀ generator, registry.get? name = some generator ↔
        registrations.reverse.lookup name = some generator ∨
          registrations.reverse.lookup name = none ∧ origin.Binds name generator) ∧
      (name ∈ registry.unavailable ↔
        origin.Leaves name ∧ ∀ registration ∈ registrations, registration.1 ≠ name) := by
  constructor
  · intro descriptor available
    obtain ⟨hcovers, hevents⟩ := covers_ofDescriptor descriptor available
    have hleft : missing available ∅ {name | IsConfigured descriptor name} =
        {name | name ∈ (ofDescriptor descriptor available).1.unavailable} := by
      ext name
      simp [missing, hcovers.unavailable]
    rw [hleft] at hevents
    refine ⟨hcovers, hevents, ?_⟩
    obtain ⟨reported, -, -, hall⟩ := hevents
    rw [hall]
    intro event hevent
    obtain ⟨name, -, rfl⟩ := List.mem_map.1 hevent
    rfl
  · intro origin registrations name
    refine ⟨origin.isConsistent_registry.registerAll registrations name, ?_, ?_⟩
    · intro generator
      rw [get?_registerAll, Option.or_eq_some_iff, origin.get?_registry]
    · rw [mem_unavailable_registerAll, origin.mem_unavailable_registry]

end CredentialIntake.GeneratorRegistry
