import CredentialIntake.Proofs.FieldReading

/-!
# Credentials built from fields

A credential is built from exactly the fields its kind calls for, and they can
be written down again from it.  Of anything else the first fault is reported, in
the order in which the fields are asked for.
-/

namespace CredentialIntake.Credential

section Whole

variable {kind : CredentialKind} {fields : TextMap}

theorem ofFields_text (kind : CredentialKind) (fields : TextMap) :
    ofFields kind.text fields =
      ((materialReader kind >>= readShared).run' fields).mapError
        (.invalidCredentialFields kind.text) := by
  rw [ofFields, CredentialKind.ofText?_text]
  dsimp only
  rw [lookup_constructors]

theorem ofFields_of_run_ok {credential : Credential} {rest : TextMap}
    (hrun : (materialReader kind >>= readShared).run fields = .ok (credential, rest)) :
    ofFields kind.text fields = .ok credential := by
  rw [ofFields_text, StateT.run'_eq, hrun]
  rfl

theorem ofFields_of_run_error {fault : FieldFault}
    (hrun : (materialReader kind >>= readShared).run fields = .error fault) :
    ofFields kind.text fields = .error (.invalidCredentialFields kind.text fault) := by
  rw [ofFields_text, StateT.run'_eq, hrun]
  rfl

/-- The fields of a kind's own are none of those that all kinds share. -/
theorem notMem_own_of_mem_shared (kind : CredentialKind) :
    ∀ name ∈ sharedFields, name ∉ kind.requiredFields ++ kind.optionalFields := by
  cases kind <;> decide

/-- What is left of the fields once the material of the kind is read. -/
structure Remainder (kind : CredentialKind) (fields rest : TextMap) : Prop where
  shared : ∀ name ∈ sharedFields, rest[name]? = fields[name]?
  others : ∀ name, name ∈ rest ∧ name ∉ sharedFields ↔ name ∈ fields ∧ name ∉ knownFields kind

/-- Where no demanded field is missing, the material is read, and all depends on
what is left after that. -/
theorem run_of_complete (hcomplete : ∀ name ∈ demandedFields kind, name ∈ fields) :
    ∃ (material : Material) (rest : TextMap) (securityClass trustDomain : String),
      material.kind = kind ∧ (∀ entry ∈ material.entries, fields[entry.1]? = entry.2) ∧
      Remainder kind fields rest ∧
      rest["sec_class"]? = some securityClass ∧ rest["trust_dom"]? = some trustDomain ∧
      (materialReader kind >>= readShared).run fields = (readShared material).run rest := by
  obtain ⟨material, hkind, hentries, hrun⟩ :=
    run_material fun name hname => hcomplete name (List.mem_append_left _ hname)
  obtain ⟨securityClass, hclass⟩ :=
    exists_text (hcomplete "sec_class" (by simp [demandedFields]))
  obtain ⟨trustDomain, hdomain⟩ :=
    exists_text (hcomplete "trust_dom" (by simp [demandedFields]))
  have hshared : ∀ name ∈ sharedFields,
      (without (kind.requiredFields ++ kind.optionalFields) fields)[name]? = fields[name]? := by
    intro name hname
    exact getElem?_without_of_notMem _ (notMem_own_of_mem_shared kind name hname)
  refine ⟨material, _, securityClass, trustDomain, hkind, hentries, ⟨hshared, ?_⟩,
    (hshared _ (by decide)).trans hclass, (hshared _ (by decide)).trans hdomain,
    run_bind_of_ok hrun⟩
  intro name
  rw [mem_without_iff, knownFields, and_assoc, ← not_or, ← List.mem_append]

theorem exists_seconds
    (hseconds : ∀ text, fields["update_freq"]? = some text → ∃ number, IsSeconds text number) :
    ∃ number, Option.Rel IsSeconds fields["update_freq"]? number := by
  cases hgiven : fields["update_freq"]? with
  | none => exact ⟨none, .none⟩
  | some text =>
    obtain ⟨number, hnumber⟩ := hseconds text hgiven
    exact ⟨some number, .some hnumber⟩

theorem ofFields_of_wellFormed (hwell : WellFormed kind fields) :
    ∃ credential : Credential, ofFields kind.text fields = .ok credential ∧
      credential.kind = kind ∧ credential.Holds fields := by
  obtain ⟨material, rest, securityClass, trustDomain, hkind, hentries, hrest, hclass, hdomain,
    hrun⟩ := run_of_complete hwell.complete
  obtain ⟨number, hnumber⟩ := exists_seconds hwell.seconds
  have hnothing : ∀ name ∈ rest, name ∈ sharedFields := by
    intro name hname
    by_contra hother
    obtain ⟨hgiven, hunknown⟩ := (hrest.others name).1 ⟨hname, hother⟩
    exact hunknown (hwell.nothingElse name hgiven)
  have hshared := run_shared_of_nothing_left material hclass hdomain
    (hrest.shared "update_freq" (by decide) ▸ hnumber) hnothing
  refine ⟨_, ofFields_of_run_ok (hrun.trans hshared), hkind, hentries, ?_, hnumber⟩
  intro entry hentry hother
  have hname : entry.1 ∈ sharedFields := List.mem_map_of_mem hentry
  rw [← hrest.shared entry.1 hname]
  simp only [sharedEntries, List.mem_cons, List.not_mem_nil, or_false] at hentry
  rcases hentry with rfl | rfl | rfl | rfl | rfl | rfl | rfl
  · exact hclass
  · exact hdomain
  · rfl
  · rfl
  · rfl
  · exact absurd rfl hother
  · rfl

theorem ofFields_of_firstFieldFault {fault : FieldFault}
    (hfault : FirstFieldFault kind fields fault) :
    ofFields kind.text fields = .error (.invalidCredentialFields kind.text fault) := by
  apply ofFields_of_run_error
  cases hfault with
  | missing hsplit hbefore hmissing =>
    exact demands_materialReader kind fields _ _ _ hsplit hbefore hmissing
  | notSeconds hcomplete hgiven hnot =>
    obtain ⟨material, rest, _, _, -, -, hrest, hclass, hdomain, hrun⟩ := run_of_complete hcomplete
    have hleft := (hrest.shared "update_freq" (by decide)).trans hgiven
    exact hrun.trans (run_shared_of_not_seconds material hclass hdomain hleft hnot)
  | unexpected hcomplete hseconds hnonempty hordered hnames =>
    obtain ⟨material, rest, _, _, -, -, hrest, hclass, hdomain, hrun⟩ := run_of_complete hcomplete
    obtain ⟨number, hnumber⟩ := exists_seconds hseconds
    have hleft := hrest.shared "update_freq" (by decide) ▸ hnumber
    exact hrun.trans (run_shared_of_names material hclass hdomain hleft hnonempty hordered
      fun name => (hnames name).trans (hrest.others name).symm)

theorem wellFormed_or_firstFieldFault (kind : CredentialKind) (fields : TextMap) :
    WellFormed kind fields ∨ ∃ fault, FirstFieldFault kind fields fault := by
  cases hfirst : (demandedFields kind).find? fun name => !fields.contains name with
  | some name =>
    obtain ⟨hmissing, before, after, hsplit, hbefore⟩ := List.find?_eq_some_iff_append.1 hfirst
    refine Or.inr ⟨_, .missing hsplit ?_ ?_⟩
    · intro earlier hearlier
      simpa using hbefore earlier hearlier
    · intro hgiven
      rw [Std.ExtTreeMap.contains_iff_mem.2 hgiven] at hmissing
      cases hmissing
  | none =>
    have hcomplete : ∀ name ∈ demandedFields kind, name ∈ fields := by
      intro name hname
      simpa using List.find?_eq_none.1 hfirst name hname
    by_cases hseconds : ∀ text, fields["update_freq"]? = some text → ∃ number, IsSeconds text number
    · let names := fields.keys.filter fun name => !(knownFields kind).contains name
      have hnames : ∀ name, name ∈ names ↔ name ∈ fields ∧ name ∉ knownFields kind := by
        intro name
        simp [names]
      rcases eq_or_ne names [] with hnone | hsome
      · refine Or.inl ⟨hcomplete, hseconds, ?_⟩
        intro name hname
        by_contra hunknown
        have hmem := (hnames name).2 ⟨hname, hunknown⟩
        rw [hnone] at hmem
        cases hmem
      · have hordered : fields.keys.Pairwise (· < ·) :=
          Std.ExtTreeMap.ordered_keys.imp compare_lt_iff_lt.1
        exact Or.inr ⟨_, .unexpected hcomplete hseconds hsome (hordered.filter _) hnames⟩
    · push Not at hseconds
      obtain ⟨text, hgiven, hnot⟩ := hseconds
      exact Or.inr ⟨_, .notSeconds hcomplete hgiven (by simpa using hnot)⟩

theorem ofFields_of_unknown {kindName : String}
    (hunknown : ∀ kind : CredentialKind, kind.text ≠ kindName) :
    ofFields kindName fields = .error (.unknownCredentialKind kindName) := by
  cases hfound : CredentialKind.ofText? kindName with
  | none => rw [ofFields, hfound]
  | some kind => exact absurd (CredentialKind.ofText?_eq_some_iff.1 hfound) (hunknown kind)

/-- The three ways in which the building of a credential ends. -/
theorem ofFields_cases (kindName : String) (fields : TextMap) :
    (∃ kind credential, kind.text = kindName ∧ WellFormed kind fields ∧
      ofFields kindName fields = .ok credential ∧ credential.kind = kind ∧
      credential.Holds fields) ∨
    (∃ kind fault, kind.text = kindName ∧ FirstFieldFault kind fields fault ∧
      ofFields kindName fields = .error (.invalidCredentialFields kindName fault)) ∨
    (∀ kind : CredentialKind, kind.text ≠ kindName) ∧
      ofFields kindName fields = .error (.unknownCredentialKind kindName) := by
  by_cases hkind : ∃ kind : CredentialKind, kind.text = kindName
  · obtain ⟨kind, rfl⟩ := hkind
    rcases wellFormed_or_firstFieldFault kind fields with hwell | ⟨fault, hfault⟩
    · obtain ⟨credential, hread, hsame, hholds⟩ := ofFields_of_wellFormed hwell
      exact Or.inl ⟨kind, credential, rfl, hwell, hread, hsame, hholds⟩
    · exact Or.inr (Or.inl ⟨kind, fault, rfl, hfault, ofFields_of_firstFieldFault hfault⟩)
  · rw [not_exists] at hkind
    exact Or.inr (Or.inr ⟨hkind, ofFields_of_unknown hkind⟩)

end Whole

/-- A credential is built from the fields its kind calls for and from no others;
it is of that kind, and the fields can be written down again from it, but for the
spelling of the number of seconds.  Whatever else is asked for is refused for an
unknown kind or else for the first fault among the fields, and never for want of
a constructor. -/
theorem ofFields_exact (kindName : String) (fields : TextMap) :
    ((∃ credential, ofFields kindName fields = .ok credential) ↔
      ∃ kind, kind.text = kindName ∧ WellFormed kind fields) ∧
    (∀ credential, ofFields kindName fields = .ok credential →
      credential.kind.text = kindName ∧ SameButSpelling credential.toFields fields) ∧
    (∀ error, ofFields kindName fields = .error error ↔
      (∀ kind : CredentialKind, kind.text ≠ kindName) ∧
          error = .unknownCredentialKind kindName ∨
        ∃ kind fault, kind.text = kindName ∧ FirstFieldFault kind fields fault ∧
          error = .invalidCredentialFields kindName fault) ∧
    ∀ cause, ofFields kindName fields ≠ .error (.internal cause) := by
  refine ⟨⟨?_, ?_⟩, ?_, fun error => ⟨?_, ?_⟩, ?_⟩
  · rintro ⟨credential, hread⟩
    rcases ofFields_cases kindName fields with
      ⟨kind, _, hkind, hwell, -⟩ | ⟨_, _, -, -, hfailed⟩ | ⟨-, hfailed⟩
    · exact ⟨kind, hkind, hwell⟩
    · cases hread.symm.trans hfailed
    · cases hread.symm.trans hfailed
  · rintro ⟨kind, rfl, hwell⟩
    obtain ⟨credential, hread, -⟩ := ofFields_of_wellFormed hwell
    exact ⟨credential, hread⟩
  · intro credential hread
    rcases ofFields_cases kindName fields with
      ⟨_, other, hkind, hwell, hother, rfl, hholds⟩ | ⟨_, _, -, -, hfailed⟩ | ⟨-, hfailed⟩
    · obtain rfl : credential = other := Except.ok.inj (hread.symm.trans hother)
      exact ⟨hkind, hholds.sameButSpelling hwell.nothingElse⟩
    · cases hread.symm.trans hfailed
    · cases hread.symm.trans hfailed
  · intro hfailed
    rcases ofFields_cases kindName fields with
      ⟨_, _, -, -, hread, -⟩ | ⟨kind, fault, hkind, hfault, hother⟩ | ⟨hunknown, hother⟩
    · cases hread.symm.trans hfailed
    · exact Or.inr ⟨kind, fault, hkind, hfault, Except.error.inj (hfailed.symm.trans hother)⟩
    · exact Or.inl ⟨hunknown, Except.error.inj (hfailed.symm.trans hother)⟩
  · rintro (⟨hunknown, rfl⟩ | ⟨kind, fault, rfl, hfault, rfl⟩)
    · exact ofFields_of_unknown hunknown
    · exact ofFields_of_firstFieldFault hfault
  · intro cause hfailed
    rcases ofFields_cases kindName fields with
      ⟨_, _, -, -, hread, -⟩ | ⟨_, _, -, -, hother⟩ | ⟨-, hother⟩
    · cases hread.symm.trans hfailed
    · cases hother.symm.trans hfailed
    · cases hother.symm.trans hfailed

end CredentialIntake.Credential
