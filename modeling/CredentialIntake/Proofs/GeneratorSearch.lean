import CredentialIntake.Generator.Generation
import CredentialIntake.Proofs.EffectiveSettings

/-!
# Searches for a credential

Which generators a search may ask is settled before it begins; which of them it
does ask depends on what they answer, and every call may change what the next
one answers.  A search asks in the order of the credentials and stops at the
first token.  Until then a failure or a crash costs one warning and nothing else.
-/

namespace CredentialIntake.Generator

variable {γ σ : Type}

/-! ## Candidates -/

/-- A credential with the generator it can be had from. -/
structure Candidate (γ : Type) where
  credential : String
  /-- The name of the generator. -/
  name : String
  generator : γ

/-- The settings that count put the credential into the trust domain and name a
generator for it, and the name is bound. -/
structure IsCandidate (descriptor : EntryDescriptor) (registry : GeneratorRegistry γ)
    (trustDomain : String) (candidate : Candidate γ) : Prop where
  generator : descriptor.HasGenerator candidate.credential candidate.name
  trustDomain : descriptor.HasTrustDomain candidate.credential trustDomain
  bound : registry.get? candidate.name = some candidate.generator

/-- These are all candidates, in the order of their credentials. -/
structure Lists (descriptor : EntryDescriptor) (registry : GeneratorRegistry γ)
    (trustDomain : String) (candidates : List (Candidate γ)) : Prop where
  ordered : candidates.Pairwise fun left right => left.credential < right.credential
  mem_iff : ∀ candidate,
    candidate ∈ candidates ↔ IsCandidate descriptor registry trustDomain candidate

/-- What an entry of the generator settings comes to. -/
def candidate? (registry : GeneratorRegistry γ) (domains : TextMap) (trustDomain : String)
    (entry : String × String) : Option (Candidate γ) :=
  if domains[entry.1]? = some trustDomain then
    (registry.get? entry.2).map fun generator => ⟨entry.1, entry.2, generator⟩
  else none

theorem candidate?_eq_some_iff {registry : GeneratorRegistry γ} {domains : TextMap}
    {trustDomain : String} {entry : String × String} {candidate : Candidate γ} :
    candidate? registry domains trustDomain entry = some candidate ↔
      entry = (candidate.credential, candidate.name) ∧
        domains[candidate.credential]? = some trustDomain ∧
        registry.get? candidate.name = some candidate.generator := by
  obtain ⟨credential, name⟩ := entry
  obtain ⟨other, title, generator⟩ := candidate
  rw [candidate?]
  split
  next hdomain =>
    simp only [Option.map_eq_some_iff, Candidate.mk.injEq, Prod.mk.injEq]
    constructor
    · rintro ⟨found, hbound, rfl, rfl, rfl⟩
      exact ⟨⟨rfl, rfl⟩, hdomain, hbound⟩
    · rintro ⟨⟨rfl, rfl⟩, -, hbound⟩
      exact ⟨generator, hbound, rfl, rfl, rfl⟩
  next hdomain =>
    refine iff_of_false (by simp) ?_
    rintro ⟨hentry, hother, -⟩
    obtain ⟨rfl, rfl⟩ := Prod.mk.inj hentry
    exact hdomain hother

theorem lists_filterMap {descriptor : EntryDescriptor} {generators domains : TextMap}
    (hgenerators : descriptor.generators = some generators)
    (hdomains : descriptor.trustDomains = some domains) (registry : GeneratorRegistry γ)
    (trustDomain : String) :
    Lists descriptor registry trustDomain
      (generators.toList.filterMap (candidate? registry domains trustDomain)) where
  ordered := by
    rw [List.pairwise_filterMap]
    apply (pairwise_toList generators).imp
    intro left right hlt candidate hcandidate other hother
    obtain ⟨rfl, -⟩ := candidate?_eq_some_iff.1 hcandidate
    obtain ⟨rfl, -⟩ := candidate?_eq_some_iff.1 hother
    exact hlt
  mem_iff := by
    intro candidate
    simp only [List.mem_filterMap, candidate?_eq_some_iff]
    constructor
    · rintro ⟨entry, hentry, rfl, hdomain, hbound⟩
      exact ⟨(EntryDescriptor.gives_iff hgenerators).2
          (Std.ExtTreeMap.mem_toList_iff_getElem?_eq_some.1 hentry),
        (EntryDescriptor.gives_iff hdomains).2 hdomain, hbound⟩
    · intro hcandidate
      exact ⟨_, Std.ExtTreeMap.mem_toList_iff_getElem?_eq_some.2
          ((EntryDescriptor.gives_iff hgenerators).1 hcandidate.generator), rfl,
        (EntryDescriptor.gives_iff hdomains).1 hcandidate.trustDomain, hcandidate.bound⟩

theorem lists_nil {descriptor : EntryDescriptor}
    (habsent : descriptor.generators = none ∨ descriptor.trustDomains = none)
    (registry : GeneratorRegistry γ) (trustDomain : String) :
    Lists descriptor registry trustDomain [] where
  ordered := .nil
  mem_iff := by
    intro candidate
    refine iff_of_false List.not_mem_nil fun hcandidate => ?_
    rcases habsent with hgenerators | hdomains
    · exact EntryDescriptor.not_gives hgenerators hcandidate.generator
    · exact EntryDescriptor.not_gives hdomains hcandidate.trustDomain

/-! ## Calls -/

/-- A candidate that was asked, with its answer. -/
structure Call (γ : Type) where
  candidate : Candidate γ
  answer : GeneratorAnswer

namespace Call

def token? (call : Call γ) : Option String :=
  match call.answer with
  | .generated credential => some credential.token
  | _ => none

/-- What is reported of a call. -/
def warning? (call : Call γ) : Option Event :=
  match call.answer with
  | .generated _ => none
  | .failed error => some (.generationFailed error)
  | .crashed => some (.generatorCrashed call.candidate.name)

theorem isSome_warning? (call : Call γ) : call.warning?.isSome = call.token?.isNone := by
  rw [warning?, token?]
  cases call.answer <;> rfl

theorem level_of_warning? {call : Call γ} {event : Event} (hwarning : call.warning? = some event) :
    event.level = .warn := by
  rw [warning?] at hwarning
  split at hwarning
  · cases hwarning
  · cases hwarning; rfl
  · cases hwarning; rfl

end Call

/-- The same generators, with every call of them written down. -/
def recording (ask : γ → GeneratorRequest → σ → GeneratorAnswer × σ) (generator : γ)
    (request : GeneratorRequest) (state : σ × List (γ × GeneratorRequest)) :
    GeneratorAnswer × (σ × List (γ × GeneratorRequest)) :=
  let (answer, world) := ask generator request state.1
  (answer, world, state.2 ++ [(generator, request)])

section Searches

variable (ask : γ → GeneratorRequest → σ → GeneratorAnswer × σ) (request : GeneratorRequest)

/-- Every call is answered in the world that the call before it left. -/
inductive Answered : σ → List (Call γ) → σ → Prop where
  | nil (world : σ) : Answered world [] world
  | cons {call : Call γ} {rest : List (Call γ)} {before middle after : σ} :
      ask call.candidate.generator request before = (call.answer, middle) →
      Answered middle rest after → Answered before (call :: rest) after

/-- A search among candidates makes these calls. -/
structure Makes (candidates : List (Candidate γ)) (world : σ) (calls : List (Call γ))
    (found : Search σ) : Prop where
  inOrder : calls.map (·.candidate) <+: candidates
  answered : Answered ask request world calls found.world
  /-- A token ends the search. -/
  stops : ∀ call ∈ calls.dropLast, call.token? = none
  /-- Nothing else ends it. -/
  exhausts : found.token = none → calls.map (·.candidate) = candidates
  token : found.token = calls.findSome? (·.token?)
  events : found.events = calls.filterMap (·.warning?)

variable {ask request}

theorem makes_nil (world : σ) : Makes ask request [] world [] ⟨none, world, []⟩ where
  inOrder := List.nil_prefix
  answered := .nil world
  stops := fun _ hcall => nomatch hcall
  exhausts := fun _ => rfl
  token := rfl
  events := rfl

theorem makes_generated {candidate : Candidate γ} {world after : σ}
    {credential : GeneratedCredential}
    (hanswer : ask candidate.generator request world = (.generated credential, after))
    (rest : List (Candidate γ)) :
    Makes ask request (candidate :: rest) world [⟨candidate, .generated credential⟩]
      ⟨some credential.token, after, []⟩ where
  inOrder := List.cons_prefix_cons.2 ⟨rfl, List.nil_prefix⟩
  answered := .cons hanswer (.nil after)
  stops := fun _ hcall => nomatch hcall
  exhausts := fun hnone => nomatch hnone
  token := rfl
  events := rfl

/-- A call without a token is reported, and the search goes on in the world it left. -/
theorem makes_cons {candidate : Candidate γ} {answer : GeneratorAnswer} {world middle : σ}
    {event : Event} (hanswer : ask candidate.generator request world = (answer, middle))
    (hwarning : Call.warning? ⟨candidate, answer⟩ = some event)
    {rest : List (Candidate γ)} {calls : List (Call γ)} {later : Search σ}
    (hlater : Makes ask request rest middle calls later) :
    Makes ask request (candidate :: rest) world (⟨candidate, answer⟩ :: calls)
      { later with events := event :: later.events } := by
  have htoken : Call.token? ⟨candidate, answer⟩ = none := by
    rw [← Option.isNone_iff_eq_none, ← Call.isSome_warning?, hwarning]
    rfl
  constructor
  · exact List.cons_prefix_cons.2 ⟨rfl, hlater.inOrder⟩
  · exact .cons hanswer hlater.answered
  · intro call hcall
    cases calls with
    | nil => cases hcall
    | cons next others =>
      rw [List.dropLast_cons_cons, List.mem_cons] at hcall
      rcases hcall with rfl | hmem
      · exact htoken
      · exact hlater.stops call hmem
  · intro hnone
    rw [List.map_cons, hlater.exhausts hnone]
  · rw [List.findSome?_cons, htoken]
    exact hlater.token
  · rw [List.filterMap_cons, hwarning]
    exact congrArg (event :: ·) hlater.events

variable {registry : GeneratorRegistry γ} {domains : TextMap} {entry : String × String}
  {rest : List (String × String)}

theorem search_cons_of_none
    (hcandidate : candidate? registry domains request.trustDomain entry = none) (world : σ) :
    search registry domains ask request (entry :: rest) world =
      search registry domains ask request rest world := by
  rw [candidate?] at hcandidate
  rw [search]
  split
  next hdomain =>
    rw [if_pos hdomain, Option.map_eq_none_iff] at hcandidate
    rw [hcandidate]
  next => rfl

theorem search_cons_of_generated {candidate : Candidate γ} {world after : σ}
    {credential : GeneratedCredential}
    (hcandidate : candidate? registry domains request.trustDomain entry = some candidate)
    (hanswer : ask candidate.generator request world = (.generated credential, after)) :
    search registry domains ask request (entry :: rest) world =
      ⟨some credential.token, after, []⟩ := by
  obtain ⟨rfl, hdomain, hbound⟩ := candidate?_eq_some_iff.1 hcandidate
  rw [search, if_pos hdomain, hbound]
  simp only [hanswer]

theorem search_cons_of_warning {candidate : Candidate γ} {answer : GeneratorAnswer}
    {world middle : σ} {event : Event}
    (hcandidate : candidate? registry domains request.trustDomain entry = some candidate)
    (hanswer : ask candidate.generator request world = (answer, middle))
    (hwarning : Call.warning? ⟨candidate, answer⟩ = some event) :
    search registry domains ask request (entry :: rest) world =
      { search registry domains ask request rest middle with
        events := event :: (search registry domains ask request rest middle).events } := by
  obtain ⟨rfl, hdomain, hbound⟩ := candidate?_eq_some_iff.1 hcandidate
  rw [search, if_pos hdomain, hbound]
  simp only [hanswer]
  cases answer with
  | generated credential => cases hwarning
  | failed error => cases hwarning; rfl
  | crashed => cases hwarning; rfl

variable (ask request registry domains) in
/-- A search makes calls, and these are the calls that are written down while it runs. -/
theorem exists_calls_search (entries : List (String × String)) (world : σ)
    (earlier : List (γ × GeneratorRequest)) :
    ∃ calls,
      let found := search registry domains ask request entries world
      Makes ask request (entries.filterMap (candidate? registry domains request.trustDomain))
        world calls found ∧
      search registry domains (recording ask) request entries (world, earlier) =
        ⟨found.token, (found.world,
          earlier ++ calls.map fun call => (call.candidate.generator, request)),
          found.events⟩ := by
  induction entries generalizing world earlier with
  | nil => exact ⟨[], makes_nil world, by simp [search]⟩
  | cons entry rest ih =>
    cases hcandidate : candidate? registry domains request.trustDomain entry with
    | none =>
      simp only [search_cons_of_none hcandidate, List.filterMap_cons, hcandidate]
      exact ih world earlier
    | some candidate =>
      rw [List.filterMap_cons_some hcandidate]
      obtain ⟨⟨answer, middle⟩, hanswer⟩ :
          ∃ step, ask candidate.generator request world = step := ⟨_, rfl⟩
      have hrecorded : recording ask candidate.generator request (world, earlier) =
          (answer, middle, earlier ++ [(candidate.generator, request)]) := by
        simp only [recording, hanswer]
      cases hwarning : Call.warning? ⟨candidate, answer⟩ with
      | some event =>
        obtain ⟨calls, hmakes, hcalls⟩ := ih middle (earlier ++ [(candidate.generator, request)])
        refine ⟨⟨candidate, answer⟩ :: calls, ?_, ?_⟩
        · rw [search_cons_of_warning hcandidate hanswer hwarning]
          exact makes_cons hanswer hwarning hmakes
        · rw [search_cons_of_warning hcandidate hrecorded hwarning, hcalls,
            search_cons_of_warning hcandidate hanswer hwarning]
          simp
      | none =>
        obtain ⟨credential, rfl⟩ : ∃ credential, answer = .generated credential := by
          cases answer with
          | generated credential => exact ⟨credential, rfl⟩
          | failed error => cases hwarning
          | crashed => cases hwarning
        refine ⟨[⟨candidate, .generated credential⟩], ?_, ?_⟩
        · rw [search_cons_of_generated hcandidate hanswer]
          exact makes_generated hanswer _
        · rw [search_cons_of_generated hcandidate hrecorded,
            search_cons_of_generated hcandidate hanswer]
          rfl

/-- Each call without a token is one warning. -/
theorem Makes.length_events {candidates : List (Candidate γ)} {world : σ} {calls : List (Call γ)}
    {found : Search σ} (hmakes : Makes ask request candidates world calls found) :
    found.events.length = calls.countP (·.token?.isNone) := by
  rw [hmakes.events, List.length_filterMap_eq_countP]
  simp only [Call.isSome_warning?]

end Searches

/-! ## The search for a trust domain -/

section Generate

variable {descriptor : EntryDescriptor}

theorem generate_of_absent
    (habsent : descriptor.generators = none ∨ descriptor.trustDomains = none)
    (registry : GeneratorRegistry γ) (ask : γ → GeneratorRequest → σ → GeneratorAnswer × σ)
    (attributes : ClassAd) (group trustDomain : String) (world : σ) :
    generate descriptor registry ask attributes group trustDomain world = ⟨none, world, []⟩ := by
  rw [generate]
  split
  next hgenerators hdomains =>
    rw [hgenerators, hdomains] at habsent
    rcases habsent with hnone | hnone <;> cases hnone
  next => rfl

theorem generate_of_present {generators domains : TextMap}
    (hgenerators : descriptor.generators = some generators)
    (hdomains : descriptor.trustDomains = some domains)
    (registry : GeneratorRegistry γ) (ask : γ → GeneratorRequest → σ → GeneratorAnswer × σ)
    (attributes : ClassAd) (group trustDomain : String) (world : σ) :
    generate descriptor registry ask attributes group trustDomain world =
      search registry domains ask ⟨group, EntryInfo.ofAttributes attributes, trustDomain⟩
        generators.toList world := by
  rw [generate, hgenerators, hdomains]

theorem exists_calls_generate (descriptor : EntryDescriptor) (registry : GeneratorRegistry γ)
    (ask : γ → GeneratorRequest → σ → GeneratorAnswer × σ) (attributes : ClassAd)
    (group trustDomain : String) (world : σ) :
    let request : GeneratorRequest := ⟨group, EntryInfo.ofAttributes attributes, trustDomain⟩
    let found := generate descriptor registry ask attributes group trustDomain world
    ∃ candidates calls, Lists descriptor registry trustDomain candidates ∧
      Makes ask request candidates world calls found ∧
      generate descriptor registry (recording ask) attributes group trustDomain (world, []) =
        ⟨found.token,
          (found.world, calls.map fun call => (call.candidate.generator, request)),
          found.events⟩ := by
  by_cases habsent : descriptor.generators = none ∨ descriptor.trustDomains = none
  · simp only [generate_of_absent habsent]
    exact ⟨[], [], lists_nil habsent registry trustDomain, makes_nil world, rfl⟩
  · rw [not_or, ← ne_eq, ← ne_eq, Option.ne_none_iff_exists', Option.ne_none_iff_exists'] at habsent
    obtain ⟨⟨generators, hgenerators⟩, domains, hdomains⟩ := habsent
    simp only [generate_of_present hgenerators hdomains]
    obtain ⟨calls, hmakes, hcalls⟩ :=
      exists_calls_search ask ⟨group, EntryInfo.ofAttributes attributes, trustDomain⟩ registry
        domains generators.toList world []
    exact ⟨_, calls, lists_filterMap hgenerators hdomains registry trustDomain, hmakes, hcalls⟩

end Generate

/-- A search for a trust domain asks the candidates in the order of their
credentials, each of them once and all for the same, up to the first that answers
with a token; these calls and no others are made of the generators.  The token is
the one that ended the search.  Failures and crashes do not end it, and each is
one warning, which is all that is reported.  Without one of the two settings
nothing is asked. -/
theorem generate_asks_in_turn (descriptor : EntryDescriptor) (registry : GeneratorRegistry γ)
    (ask : γ → GeneratorRequest → σ → GeneratorAnswer × σ) (attributes : ClassAd)
    (group trustDomain : String) (world : σ) :
    let entry : EntryInfo :=
      { name := attributes.get? "EntryName"
        gatekeeper := attributes.get? "GLIDEIN_Gatekeeper"
        factory := attributes.get? "AuthenticatedIdentity" }
    let request : GeneratorRequest := ⟨group, entry, trustDomain⟩
    let found := generate descriptor registry ask attributes group trustDomain world
    (∃ candidates calls, Lists descriptor registry trustDomain candidates ∧
      Makes ask request candidates world calls found ∧
      generate descriptor registry (recording ask) attributes group trustDomain (world, []) =
        ⟨found.token,
          (found.world, calls.map fun call => (call.candidate.generator, request)),
          found.events⟩ ∧
      found.events.length = calls.countP (·.token?.isNone) ∧
      ∀ event ∈ found.events, event.level = .warn) ∧
    ((∀ generators, ¬ EntryDescriptor.Counts descriptor.entry.generators
          descriptor.frontend.generators generators) ∨
        (∀ domains, ¬ EntryDescriptor.Counts descriptor.entry.trustDomains
          descriptor.frontend.trustDomains domains) →
      found = ⟨none, world, []⟩) := by
  intro entry request found
  constructor
  · obtain ⟨candidates, calls, hlists, hmakes, hrecorded⟩ :=
      exists_calls_generate descriptor registry ask attributes group trustDomain world
    refine ⟨candidates, calls, hlists, hmakes, hrecorded, hmakes.length_events, ?_⟩
    intro event hevent
    rw [hmakes.events] at hevent
    obtain ⟨call, -, hwarning⟩ := List.mem_filterMap.1 hevent
    exact Call.level_of_warning? hwarning
  · intro habsent
    apply generate_of_absent
    exact habsent.imp EntryDescriptor.effective_eq_none EntryDescriptor.effective_eq_none

/-- The first candidate crashes, the second one fails when it is asked for the first
time, and the third one, with the same generator, gives a token. -/
example :
    let descriptor : EntryDescriptor :=
      { entry := { generators := some (.ofList [("a", "bad"), ("b", "late"), ("c", "late"),
          ("d", "late"), ("e", "missing")]) }
        frontend := { trustDomains := some (.ofList [("a", "osg"), ("b", "osg"), ("c", "osg"),
          ("d", "osg"), ("e", "osg")]) } }
    let registry : GeneratorRegistry Nat := ⟨.ofList [("bad", 0), ("late", 1)], ∅⟩
    let ask : Nat → GeneratorRequest → Nat → GeneratorAnswer × Nat := fun generator _ asked =>
      if generator = 0 then (.crashed, asked)
      else if asked = 0 then (.failed (.missingInformation "time"), asked + 1)
      else (.generated ⟨"token", 3600⟩, asked + 1)
    let found := generate descriptor registry (recording ask) (.ofList []) "main" "osg" (0, [])
    found.token = some "token" ∧ found.world.1 = 2 ∧ found.world.2.map (·.1) = [0, 1, 1] ∧
      found.events = [.generatorCrashed "bad", .generationFailed (.missingInformation "time")] := by
  decide +kernel

end CredentialIntake.Generator
