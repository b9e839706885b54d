import CredentialIntake.Contract.Verdict
import CredentialIntake.Proofs.TextForms
import Mathlib

/-!
# What the contract accepts

Whether a request is accepted depends on two sets only: the kinds of methods the
entry declares and the credentials among the parameters.  The conditions are
stated here over these sets, without the table of rules, and every request that
meets none of them is answered with a violation or, for an entry that declares
nothing but identity tokens, with an internal error.
-/

namespace CredentialIntake.Contract

/-! ## Declared kinds and supplied credentials -/

/-- What a method's text calls a kind. -/
def kindName : MethodKind → String
  | .gridProxy => "grid_proxy"
  | .certPair => "cert_pair"
  | .keyPair => "key_pair"
  | .authFile => "auth_file"
  | .usernamePassword => "username_password"
  | .idToken => "idtoken"
  | .sciToken => "scitoken"

/-- The kinds that the parts of a method's text name, blanks around them left out. -/
def declaredKinds (text : String) : Set MethodKind :=
  {kind | ∃ parts, Text.IsSplitAt '+' parts text ∧
    ∃ part ∈ parts, Text.IsTrimOf (kindName kind) part}

/-- The parameters that carry credentials. -/
def suppliedKeys (parameters : List String) : Set String :=
  {key | key ∈ relevantKeys ∧ key ∈ parameters}

/-- The request forwards a token, and the factory lets such requests pass. -/
def ForwardsToken (parameters : List String) (passthru : Bool) : Prop :=
  passthru = true ∧ forwardedToken ∈ parameters

/-- The request brings the proxy that glideins run with, or need not bring it. -/
def HasGlideinProxy (parameters : List String) (passthru : Bool) : Prop :=
  passthru = true ∨ "GlideinProxy" ∈ suppliedKeys parameters

theorem lookup_names_eq_some_iff {name : String} {kind : MethodKind} :
    MethodKind.names.lookup name = some kind ↔ kindName kind = name := by
  constructor
  · intro hlookup
    obtain ⟨before, after, hsplit, -⟩ := List.lookup_eq_some_iff.1 hlookup
    have hlisted : (name, kind) ∈ MethodKind.names := by simp [hsplit]
    revert hlisted
    cases kind <;> simp [MethodKind.names, kindName, eq_comm]
  · rintro rfl
    cases kind <;> rfl

theorem ofName_eq_known_iff {name : String} {kind : MethodKind} :
    MethodPart.ofName name = .known kind ↔ kindName kind = name := by
  rw [MethodPart.ofName, ← lookup_names_eq_some_iff]
  cases MethodKind.names.lookup name with
  | none => simp
  | some found => simp

/-- There is one way to split a text, and one way to trim each of its parts. -/
theorem mem_declaredKinds_iff {text : String} {kind : MethodKind} :
    kind ∈ declaredKinds text ↔ ∃ part ∈ Text.split '+' text, kindName kind = Text.trim part := by
  simp only [declaredKinds, Set.mem_ofPred_eq, Text.isTrimOf_iff]
  constructor
  · rintro ⟨parts, hsplit, hnamed⟩
    rwa [← hsplit.eq_split]
  · intro hnamed
    exact ⟨_, Text.isSplitAt_split '+' text, hnamed⟩

theorem supports_ofText_iff {text : String} {kind : MethodKind} :
    (AuthMethod.ofText text).supports kind = true ↔ kind ∈ declaredKinds text := by
  simp only [AuthMethod.supports, AuthMethod.contains, AuthMethod.ofText, List.contains_iff_mem,
    List.mem_map, ofName_eq_known_iff, mem_declaredKinds_iff]

theorem hasSupported_ofText_iff {text : String} :
    (AuthMethod.ofText text).hasSupported = true ↔ (declaredKinds text).Nonempty := by
  rw [AuthMethod.hasSupported, List.any_eq_true]
  constructor
  · rintro ⟨part, hpart, hsupported⟩
    cases part with
    | other name => cases hsupported
    | known kind => exact ⟨kind, supports_ofText_iff.1 (List.contains_iff_mem.2 hpart)⟩
  · rintro ⟨kind, hkind⟩
    exact ⟨.known kind, List.contains_iff_mem.1 (supports_ofText_iff.2 hkind), rfl⟩

/-! ## Rules by their kinds -/

/-- The kinds that bring credentials of their own, in the order in which they
are considered. -/
def credentialKinds : List MethodKind := [.certPair, .keyPair, .authFile, .usernamePassword]

/-- The credentials a kind needs. -/
def requiredKeys : MethodKind → Set String
  | .certPair => {"PublicCert", "PrivateCert"}
  | .keyPair => {"PublicKey", "PrivateKey"}
  | .authFile => {"AuthFile"}
  | .usernamePassword => {"Username", "Password"}
  | _ => ∅

/-- The credentials that may stand beside those of any kind. -/
def companionKeys : Set String := {"GlideinProxy", "VMId", "VMType"}

/-- The credentials supplied are those the kind needs, and perhaps companions. -/
structure Served (kind : MethodKind) (parameters : List String) : Prop where
  complete : requiredKeys kind ⊆ suppliedKeys parameters
  nothingElse : suppliedKeys parameters ⊆ requiredKeys kind ∪ companionKeys

/-- The first of the kinds with credentials of their own that is declared. -/
def IsFirstDeclared (declared : Set MethodKind) (kind : MethodKind) : Prop :=
  ∃ before after, credentialKinds = before ++ kind :: after ∧ kind ∈ declared ∧
    ∀ earlier ∈ before, earlier ∉ declared

private theorem required_of_mem_rules :
    ∀ rule ∈ rules, {key | key ∈ rule.required} = requiredKeys rule.kind ∧
      ∀ key ∈ rule.required, key ∈ relevantKeys := by
  intro rule hrule
  fin_cases hrule <;> exact ⟨by ext key; simp [requiredKeys], by decide⟩

private theorem allowed_of_mem_rules :
    ∀ rule ∈ rules, {key | key ∈ rule.allowed} = requiredKeys rule.kind ∪ companionKeys := by
  intro rule hrule
  fin_cases hrule <;> (ext key; simp [requiredKeys, companionKeys]; tauto)

theorem refuseUnlisted_eq_accepted_iff {allowed parameters : List String} :
    refuseUnlisted allowed parameters = .accepted ↔
      suppliedKeys parameters ⊆ {key | key ∈ allowed} := by
  have hempty : (unlisted allowed parameters).isEmpty = true ↔
      suppliedKeys parameters ⊆ {key | key ∈ allowed} := by
    rw [List.isEmpty_iff, ← List.length_eq_zero_iff, unlisted, List.length_mergeSort,
      List.length_eq_zero_iff, List.filter_eq_nil_iff]
    constructor
    · rintro hnone key ⟨hrelevant, hsupplied⟩
      have hlisted := hnone key hrelevant
      simpa [hsupplied] using hlisted
    · intro hsubset key hrelevant hextra
      simp only [Bool.and_eq_true, Bool.not_eq_true', List.contains_eq_mem, decide_eq_true_eq,
        decide_eq_false_iff_not] at hextra
      exact hextra.1 (hsubset ⟨hrelevant, hextra.2⟩)
  rw [refuseUnlisted, ← hempty]
  split <;> simp_all

theorem refuseUnlisted_eq_accepted_or_refused (allowed parameters : List String) :
    refuseUnlisted allowed parameters = .accepted ∨
      ∃ breach, refuseUnlisted allowed parameters = .refused breach := by
  rw [refuseUnlisted]
  split
  · exact Or.inl rfl
  · exact Or.inr ⟨_, rfl⟩

/-- A rule accepts what serves its kind. -/
theorem verdict_eq_accepted_iff {rule : Rule} (hrule : rule ∈ rules) {parameters : List String} :
    rule.verdict parameters = .accepted ↔ Served rule.kind parameters := by
  obtain ⟨hrequired, hrelevant⟩ := required_of_mem_rules rule hrule
  have hcomplete : rule.required.all parameters.contains = true ↔
      requiredKeys rule.kind ⊆ suppliedKeys parameters := by
    rw [← hrequired, List.all_eq_true]
    constructor
    · intro hall key hkey
      exact ⟨hrelevant key hkey, List.contains_iff_mem.1 (hall key hkey)⟩
    · intro hsubset key hkey
      exact List.contains_iff_mem.2 (hsubset hkey).2
  rw [Rule.verdict]
  split
  next hall =>
    rw [refuseUnlisted_eq_accepted_iff, allowed_of_mem_rules rule hrule]
    exact ⟨fun hothers => ⟨hcomplete.1 hall, hothers⟩, Served.nothingElse⟩
  next hmissing =>
    constructor
    · intro haccepted
      cases haccepted
    · intro hserved
      exact absurd (hcomplete.2 hserved.complete) hmissing

/-- A rule accepts or is breached. -/
theorem verdict_eq_accepted_or_refused (rule : Rule) (parameters : List String) :
    rule.verdict parameters = .accepted ∨ ∃ breach, rule.verdict parameters = .refused breach := by
  rw [Rule.verdict]
  split
  · exact refuseUnlisted_eq_accepted_or_refused rule.allowed parameters
  · exact Or.inr ⟨_, rfl⟩

/-- The rule that is applied is that of the first declared kind. -/
theorem isFirstDeclared_of_find? {text : String} {rule : Rule}
    (hfound : rules.find? (fun rule => (AuthMethod.ofText text).supports rule.kind) = some rule) :
    IsFirstDeclared (declaredKinds text) rule.kind := by
  obtain ⟨hsupports, before, after, hsplit, hbefore⟩ := List.find?_eq_some_iff_append.1 hfound
  have hkinds : credentialKinds = rules.map Rule.kind := rfl
  refine ⟨before.map Rule.kind, after.map Rule.kind, ?_, supports_ofText_iff.1 hsupports, ?_⟩
  · rw [hkinds, hsplit, List.map_append, List.map_cons]
  · intro earlier hearlier hdeclared
    obtain ⟨other, hother, rfl⟩ := List.mem_map.1 hearlier
    have hnot := hbefore other hother
    rw [supports_ofText_iff.2 hdeclared] at hnot
    cases hnot

theorem IsFirstDeclared.unique {declared : Set MethodKind} {left right : MethodKind}
    (hleft : IsFirstDeclared declared left) (hright : IsFirstDeclared declared right) :
    left = right := by
  obtain ⟨before, after, hsplit, hdeclared, hbefore⟩ := hleft
  obtain ⟨other, rest, hother, hotherDeclared, hotherBefore⟩ := hright
  rw [hsplit] at hother
  rcases List.append_eq_append_iff.1 hother with ⟨middle, rfl, hmiddle⟩ | ⟨middle, rfl, hmiddle⟩
  · rcases List.cons_eq_append_iff.1 hmiddle with ⟨-, hsame⟩ | ⟨inside, rfl, -⟩
    · exact (List.cons_eq_cons.1 hsame).1.symm
    · exact absurd hdeclared (hotherBefore left (by simp))
  · rcases List.cons_eq_append_iff.1 hmiddle with ⟨-, hsame⟩ | ⟨inside, rfl, -⟩
    · exact (List.cons_eq_cons.1 hsame).1
    · exact absurd hotherDeclared (hbefore right (by simp))

/-! ## Acceptance -/

/-- The conditions under which a request is accepted. -/
inductive Acceptable (declared : Set MethodKind) (parameters : List String) (passthru : Bool)
    (unknownMethods : UnknownMethodPolicy) : Prop where
  /-- No method of the entry is known, and the factory lets that pass. -/
  | unknown : declared = ∅ → unknownMethods = .allow →
      Acceptable declared parameters passthru unknownMethods
  | token : .sciToken ∈ declared →
      Acceptable declared parameters passthru unknownMethods
  | forwarded : declared.Nonempty → ForwardsToken parameters passthru →
      Acceptable declared parameters passthru unknownMethods
  | proxy : .gridProxy ∈ declared →
      (passthru = true ∨ suppliedKeys parameters = {"SubmitProxy"}) →
      Acceptable declared parameters passthru unknownMethods
  | credentials {kind : MethodKind} : .gridProxy ∉ declared → .sciToken ∉ declared →
      HasGlideinProxy parameters passthru → IsFirstDeclared declared kind →
      Served kind parameters →
      Acceptable declared parameters passthru unknownMethods

/-- Only identity tokens are declared, and nothing has settled the request
before a rule is looked for. -/
structure OnlyIdentityToken (declared : Set MethodKind) (parameters : List String)
    (passthru : Bool) : Prop where
  alone : declared = {.idToken}
  not_forwarded : ¬ ForwardsToken parameters passthru
  proxied : HasGlideinProxy parameters passthru

section Verdicts

variable {text : String} {parameters : List String} {passthru : Bool}
  {unknownMethods : UnknownMethodPolicy}

theorem supports_ofText_eq_false {kind : MethodKind} (hkind : kind ∉ declaredKinds text) :
    (AuthMethod.ofText text).supports kind = false := by
  rw [← Bool.not_eq_true, supports_ofText_iff]
  exact hkind

/-! ### What settles a request before any rule -/

theorem verdict_of_nothing_declared (hnone : declaredKinds text = ∅) :
    verdict (AuthMethod.ofText text) parameters passthru unknownMethods =
      match unknownMethods with
      | .allow => .acceptedUnknown
      | .deny => .refused (.unsupportedMethod text) := by
  have hunsupported : (AuthMethod.ofText text).hasSupported = false := by
    rw [← Bool.not_eq_true, hasSupported_ofText_iff, hnone]
    exact Set.not_nonempty_empty
  rw [verdict.eq_def, hunsupported]
  rfl

theorem verdict_of_token (hdeclared : (declaredKinds text).Nonempty)
    (htoken : .sciToken ∈ declaredKinds text ∨ ForwardsToken parameters passthru) :
    verdict (AuthMethod.ofText text) parameters passthru unknownMethods = .accepted := by
  have hsupported := hasSupported_ofText_iff.2 hdeclared
  rcases htoken with hkind | ⟨hpassthru, hforwarded⟩
  · simp [verdict, hsupported, supports_ofText_iff.2 hkind]
  · simp [verdict, hsupported, hpassthru, hforwarded]

/-- Nothing about tokens settles the request. -/
structure Tokenless (text : String) (parameters : List String) (passthru : Bool) : Prop where
  declared : (declaredKinds text).Nonempty
  not_token : .sciToken ∉ declaredKinds text
  not_forwarded : ¬ ForwardsToken parameters passthru

theorem Tokenless.passes_over (htokenless : Tokenless text parameters passthru) :
    ((AuthMethod.ofText text).supports .sciToken ||
      (parameters.contains forwardedToken && passthru)) = false := by
  have hnot := htokenless.not_forwarded
  rw [supports_ofText_eq_false htokenless.not_token, Bool.false_or, ← Bool.not_eq_true,
    Bool.and_eq_true, List.contains_iff_mem]
  rintro ⟨hforwarded, hpassthru⟩
  exact hnot ⟨hpassthru, hforwarded⟩

theorem Tokenless.verdict_of_proxy (htokenless : Tokenless text parameters passthru)
    (hproxy : .gridProxy ∈ declaredKinds text) :
    verdict (AuthMethod.ofText text) parameters passthru unknownMethods =
      if passthru then .accepted
      else if !parameters.contains "SubmitProxy" then .refused .noProxy
      else refuseUnlisted ["SubmitProxy"] parameters := by
  rw [verdict.eq_def, htokenless.passes_over, hasSupported_ofText_iff.2 htokenless.declared,
    supports_ofText_iff.2 hproxy]
  rfl

theorem Tokenless.verdict_of_rules (htokenless : Tokenless text parameters passthru)
    (hproxy : .gridProxy ∉ declaredKinds text) :
    verdict (AuthMethod.ofText text) parameters passthru unknownMethods =
      if !parameters.contains "GlideinProxy" && !passthru then .refused .noGlideinProxy
      else match rules.find? fun rule => (AuthMethod.ofText text).supports rule.kind with
        | none => .withoutRule
        | some rule => rule.verdict parameters := by
  rw [verdict.eq_def, htokenless.passes_over, hasSupported_ofText_iff.2 htokenless.declared,
    supports_ofText_eq_false hproxy]
  rfl

/-! ### Proxies -/

theorem hasGlideinProxy_iff :
    HasGlideinProxy parameters passthru ↔
      (!parameters.contains "GlideinProxy" && !passthru) = false := by
  have hrelevant : "GlideinProxy" ∈ relevantKeys := by decide
  cases passthru <;> simp [HasGlideinProxy, suppliedKeys, hrelevant]

theorem suppliedKeys_eq_submitProxy_iff :
    suppliedKeys parameters = {"SubmitProxy"} ↔
      "SubmitProxy" ∈ parameters ∧
        suppliedKeys parameters ⊆ {key | key ∈ ["SubmitProxy"]} := by
  have hrelevant : "SubmitProxy" ∈ relevantKeys := by decide
  have hlisted : {key | key ∈ ["SubmitProxy"]} = ({"SubmitProxy"} : Set String) := by
    ext key
    simp
  rw [hlisted, Set.Subset.antisymm_iff, Set.singleton_subset_iff, and_comm]
  exact and_congr_left fun _ => ⟨And.right, fun hsupplied => ⟨hrelevant, hsupplied⟩⟩

/-! ### Rules -/

theorem exists_rule_of_isFirstDeclared {kind : MethodKind}
    (hfirst : IsFirstDeclared (declaredKinds text) kind) :
    ∃ rule ∈ rules, rule.kind = kind ∧
      rules.find? (fun rule => (AuthMethod.ofText text).supports rule.kind) = some rule := by
  obtain ⟨before, after, hsplit, hdeclared, -⟩ := id hfirst
  have hkind : kind ∈ rules.map Rule.kind := by
    change kind ∈ credentialKinds
    rw [hsplit]
    exact List.mem_append_right before List.mem_cons_self
  obtain ⟨rule, hrule, rfl⟩ := List.mem_map.1 hkind
  cases hfound : rules.find? fun rule => (AuthMethod.ofText text).supports rule.kind with
  | none =>
    have hunsupported := List.find?_eq_none.1 hfound rule hrule
    exact absurd (supports_ofText_iff.2 hdeclared) hunsupported
  | some found =>
    have hsame := (isFirstDeclared_of_find? hfound).unique hfirst
    exact ⟨found, List.mem_of_find?_eq_some hfound, hsame, rfl⟩

/-- Where no rule applies, only kinds without one are declared. -/
theorem declaredKinds_eq_idToken (htokenless : Tokenless text parameters passthru)
    (hproxy : .gridProxy ∉ declaredKinds text)
    (hnone : rules.find? (fun rule => (AuthMethod.ofText text).supports rule.kind) = none) :
    declaredKinds text = {.idToken} := by
  have honly : ∀ kind ∈ declaredKinds text, kind = .idToken := by
    intro kind hkind
    have hunruled : ∀ rule ∈ rules, rule.kind ≠ kind := by
      rintro rule hrule rfl
      exact List.find?_eq_none.1 hnone rule hrule (supports_ofText_iff.2 hkind)
    cases kind with
    | idToken => rfl
    | gridProxy => exact absurd hkind hproxy
    | sciToken => exact absurd hkind htokenless.not_token
    | certPair | keyPair | authFile | usernamePassword =>
      simp [rules] at hunruled
  exact Set.eq_singleton_iff_nonempty_unique_mem.2 ⟨htokenless.declared, honly⟩

theorem find?_eq_none_of_idToken (halone : declaredKinds text = {.idToken}) :
    rules.find? (fun rule => (AuthMethod.ofText text).supports rule.kind) = none := by
  rw [List.find?_eq_none]
  intro rule hrule hsupports
  have hkind : rule.kind = .idToken := by
    simpa [halone] using supports_ofText_iff.1 hsupports
  revert hkind
  fin_cases hrule <;> decide

/-! ### Answers -/

variable {request : Request}

theorem answer_of_acceptable
    (hacceptable : Acceptable (declaredKinds text) parameters passthru unknownMethods) :
    (check (AuthMethod.ofText text) parameters request passthru unknownMethods).1 = .ok () := by
  rw [check]
  have hanswer : ∀ {judged : Verdict}, judged = .accepted →
      judged.answer (AuthMethod.ofText text) request = .ok () := by
    rintro judged rfl
    rfl
  cases hacceptable with
  | unknown hnone hallow =>
    rw [verdict_of_nothing_declared hnone, hallow]
    rfl
  | token htoken => exact hanswer (verdict_of_token ⟨_, htoken⟩ (Or.inl htoken))
  | forwarded hdeclared hforwarded => exact hanswer (verdict_of_token hdeclared (Or.inr hforwarded))
  | proxy hproxy hallowed =>
    by_cases htoken : .sciToken ∈ declaredKinds text ∨ ForwardsToken parameters passthru
    · exact hanswer (verdict_of_token ⟨_, hproxy⟩ htoken)
    have htokenless : Tokenless text parameters passthru :=
      ⟨⟨_, hproxy⟩, fun hkind => htoken (Or.inl hkind), fun hforwarded => htoken (Or.inr hforwarded)⟩
    apply hanswer
    rw [htokenless.verdict_of_proxy hproxy]
    rcases hallowed with rfl | honly
    · rfl
    · obtain ⟨hsubmit, hothers⟩ := suppliedKeys_eq_submitProxy_iff.1 honly
      simp [hsubmit, refuseUnlisted_eq_accepted_iff.2 hothers]
  | credentials hproxy htoken hproxied hfirst hserved =>
    by_cases hforwarded : ForwardsToken parameters passthru
    · obtain ⟨_, _, _, hdeclared, _⟩ := hfirst
      exact hanswer (verdict_of_token ⟨_, hdeclared⟩ (Or.inr hforwarded))
    obtain ⟨rule, hrule, rfl, hfound⟩ := exists_rule_of_isFirstDeclared hfirst
    obtain ⟨_, _, _, hdeclared, _⟩ := hfirst
    have htokenless : Tokenless text parameters passthru := ⟨⟨_, hdeclared⟩, htoken, hforwarded⟩
    apply hanswer
    rw [htokenless.verdict_of_rules hproxy, hasGlideinProxy_iff.1 hproxied, hfound]
    exact (verdict_eq_accepted_iff hrule).2 hserved

theorem answer_of_onlyIdentityToken
    (honly : OnlyIdentityToken (declaredKinds text) parameters passthru) :
    (check (AuthMethod.ofText text) parameters request passthru unknownMethods).1 =
      .error (.internal (.noCredentialRule text)) := by
  obtain ⟨halone, hforwarded, hproxied⟩ := honly
  have htokenless : Tokenless text parameters passthru :=
    ⟨by simp [halone], by simp [halone], hforwarded⟩
  have hproxy : .gridProxy ∉ declaredKinds text := by simp [halone]
  rw [check, htokenless.verdict_of_rules hproxy, hasGlideinProxy_iff.1 hproxied,
    find?_eq_none_of_idToken halone]
  rfl

/-- Whatever is neither accepted nor without a rule is a breach. -/
theorem acceptable_or_onlyIdentityToken_or_refused (text : String) (parameters : List String)
    (passthru : Bool) (unknownMethods : UnknownMethodPolicy) :
    Acceptable (declaredKinds text) parameters passthru unknownMethods ∨
      OnlyIdentityToken (declaredKinds text) parameters passthru ∨
      ∃ breach, verdict (AuthMethod.ofText text) parameters passthru unknownMethods =
        .refused breach := by
  rcases Set.eq_empty_or_nonempty (declaredKinds text) with hnone | hdeclared
  · cases hallow : unknownMethods with
    | allow => exact Or.inl (.unknown hnone rfl)
    | deny => exact Or.inr (Or.inr ⟨_, verdict_of_nothing_declared hnone⟩)
  by_cases htoken : .sciToken ∈ declaredKinds text
  · exact Or.inl (.token htoken)
  by_cases hforwarded : ForwardsToken parameters passthru
  · exact Or.inl (.forwarded hdeclared hforwarded)
  have htokenless : Tokenless text parameters passthru := ⟨hdeclared, htoken, hforwarded⟩
  by_cases hproxy : .gridProxy ∈ declaredKinds text
  · rw [htokenless.verdict_of_proxy hproxy]
    split
    next hpassthru => exact Or.inl (.proxy hproxy (Or.inl hpassthru))
    split
    · exact Or.inr (Or.inr ⟨_, rfl⟩)
    next hsubmit =>
      rcases refuseUnlisted_eq_accepted_or_refused ["SubmitProxy"] parameters with
        haccepted | hrefused
      · refine Or.inl (.proxy hproxy (Or.inr (suppliedKeys_eq_submitProxy_iff.2 ⟨?_, ?_⟩)))
        · simpa using hsubmit
        · exact refuseUnlisted_eq_accepted_iff.1 haccepted
      · exact Or.inr (Or.inr hrefused)
  rw [htokenless.verdict_of_rules hproxy]
  split
  · exact Or.inr (Or.inr ⟨_, rfl⟩)
  next hproxied =>
    have hproxied := hasGlideinProxy_iff.2 (Bool.not_eq_true _ ▸ hproxied)
    split
    next hnone =>
      exact Or.inr (Or.inl ⟨declaredKinds_eq_idToken htokenless hproxy hnone, hforwarded, hproxied⟩)
    next rule hfound =>
      rcases verdict_eq_accepted_or_refused rule parameters with haccepted | hrefused
      · have hserved := (verdict_eq_accepted_iff (List.mem_of_find?_eq_some hfound)).1 haccepted
        exact Or.inl (.credentials hproxy htoken hproxied (isFirstDeclared_of_find? hfound) hserved)
      · exact Or.inr (Or.inr hrefused)

end Verdicts

/-- A request is accepted under the stated conditions only; of the others, those
for an entry with identity tokens alone find no rule, and all the rest break the
contract. -/
theorem check_accepts_iff_acceptable (text : String) (parameters : List String)
    (request : Request) (passthru : Bool) (unknownMethods : UnknownMethodPolicy) :
    let answer :=
      (check (AuthMethod.ofText text) parameters request passthru unknownMethods).1
    (answer = .ok () ↔ Acceptable (declaredKinds text) parameters passthru unknownMethods) ∧
      ((∃ cause, answer = .error (.internal cause)) ↔
        OnlyIdentityToken (declaredKinds text) parameters passthru) ∧
      (answer = .ok () ∨ answer = .error (.internal (.noCredentialRule text)) ∨
        ∃ breach, answer = .error (.contractViolation request.client request.entry breach)) := by
  intro answer
  rcases acceptable_or_onlyIdentityToken_or_refused text parameters passthru unknownMethods with
    hacceptable | honly | ⟨breach, hrefused⟩
  · have hanswer : answer = .ok () := answer_of_acceptable hacceptable
    refine ⟨iff_of_true hanswer hacceptable, iff_of_false ?_ ?_, Or.inl hanswer⟩
    · rintro ⟨cause, hcause⟩
      cases hanswer.symm.trans hcause
    · intro honly
      cases hanswer.symm.trans (answer_of_onlyIdentityToken honly)
  · have hanswer : answer = .error (.internal (.noCredentialRule text)) :=
      answer_of_onlyIdentityToken honly
    refine ⟨iff_of_false ?_ ?_, iff_of_true ⟨_, hanswer⟩ honly, Or.inr (Or.inl hanswer)⟩
    · intro haccepted
      cases hanswer.symm.trans haccepted
    · intro hacceptable
      cases hanswer.symm.trans (answer_of_acceptable hacceptable)
  · have hanswer : answer = .error (.contractViolation request.client request.entry breach) := by
      change (verdict _ _ _ _).answer _ _ = _
      rw [hrefused]
      rfl
    refine ⟨iff_of_false ?_ ?_, iff_of_false ?_ ?_, Or.inr (Or.inr ⟨breach, hanswer⟩)⟩
    · intro haccepted
      cases hanswer.symm.trans haccepted
    · intro hacceptable
      cases hanswer.symm.trans (answer_of_acceptable hacceptable)
    · rintro ⟨cause, hcause⟩
      cases hanswer.symm.trans hcause
    · intro honly
      cases hanswer.symm.trans (answer_of_onlyIdentityToken honly)

end CredentialIntake.Contract
