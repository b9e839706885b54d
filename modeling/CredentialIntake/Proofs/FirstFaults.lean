import CredentialIntake.Proofs.Planning

/-!
# The first fault of a request

The faults a request can be given up for, other than those of files, stand in a
fixed order, and the first one is the one reported.  They all come to light
before anything is written, so such a request leaves files and counters as they
were.
-/

namespace CredentialIntake.Intake

open Store

/-- The first thing that is wrong with a request. -/
inductive FirstFault (factory : Factory) (ad : ClassAd) : IntakeError → Prop where
  | noKey :
      factory.key = none →
      FirstFault factory ad (.configuration .missingFactoryKey)
  | untrusted {key : FactoryKey} {error : IntakeError} :
      factory.key = some key → authenticate key ad factory.policy = .error error →
      FirstFault factory ad error
  | unnamed {frontend : AuthenticatedFrontend} :
      Admitted factory ad frontend → ad.get? ClassAd.clientName = none →
      FirstFault factory ad (.malformedRequest (.missingAttribute ClassAd.clientName))
  /-- All credentials before the one with the fault decrypt. -/
  | credential {frontend : AuthenticatedFrontend} {client id : String}
      {before after : List String} {earlier : List Embedded} {error : IntakeError} :
      Admitted factory ad frontend → ad.get? ClassAd.clientName = some client →
      ad.credentialIds = before ++ id :: after → AllRead frontend ad before earlier →
      CredentialFault frontend ad id error →
      FirstFault factory ad error
  /-- The client name matters only if some credential has a user. -/
  | unusableName {frontend : AuthenticatedFrontend} {client username : String}
      {credentials : List Embedded} {credential : Embedded} :
      Deciphered factory ad frontend client credentials → credential ∈ credentials →
      credential.username? factory.policy frontend.securityName = some username →
      isSafeName client = false →
      FirstFault factory ad (.malformedRequest (.unsafeClientName client))

variable {factory : Factory} {store : Store} {ad : ClassAd} {frontend : AuthenticatedFrontend}
  {client : String} {credentials : List Embedded} {error : IntakeError}

/-- A request is accepted when it is deciphered and every deposit it asks for
comes under a usable name. -/
structure Accepted (factory : Factory) (ad : ClassAd) (frontend : AuthenticatedFrontend)
    (client : String) (credentials : List Embedded) : Prop where
  deciphered : Deciphered factory ad frontend client credentials
  usable : ∀ deposit ∈ deposits factory.policy frontend.securityName client credentials,
    isSafeName deposit.client = true

private theorem accepted_or_firstFault_of_deciphered
    (hdeciphered : Deciphered factory ad frontend client credentials) :
    Accepted factory ad frontend client credentials ∨ ∃ error, FirstFault factory ad error := by
  cases hsafe : isSafeName client with
  | true =>
      left
      refine ⟨hdeciphered, ?_⟩
      intro deposit hmem
      rwa [client_of_mem_deposits hmem]
  | false =>
      cases hdeposits : deposits factory.policy frontend.securityName client credentials with
      | nil => exact Or.inl ⟨hdeciphered, by simp [hdeposits]⟩
      | cons deposit rest =>
          right
          have hmem : deposit ∈
              deposits factory.policy frontend.securityName client credentials := by
            rw [hdeposits]
            exact List.mem_cons_self
          obtain ⟨credential, hcredential, username, husername, -⟩ := mem_deposits_iff.1 hmem
          exact ⟨_, .unusableName hdeciphered hcredential husername hsafe⟩

/-- Every request is accepted or has a first fault. -/
theorem accepted_or_firstFault (factory : Factory) (ad : ClassAd) :
    (∃ frontend client credentials, Accepted factory ad frontend client credentials) ∨
      ∃ error, FirstFault factory ad error := by
  cases hkey : factory.key with
  | none => exact Or.inr ⟨_, .noKey hkey⟩
  | some key =>
      cases hfrontend : authenticate key ad factory.policy with
      | error error => exact Or.inr ⟨_, .untrusted hkey hfrontend⟩
      | ok frontend =>
          have hadmitted : Admitted factory ad frontend := ⟨key, hkey, hfrontend⟩
          cases hclient : ad.get? ClassAd.clientName with
          | none => exact Or.inr ⟨_, .unnamed hadmitted hclient⟩
          | some client =>
              rcases allRead_or_fault frontend ad
                  fun id hid => ClassAd.mem_credentialIds_iff.1 hid with
                ⟨credentials, hread⟩ | ⟨before, id, after, error, hids, ⟨earlier, hbefore⟩, hfault⟩
              · rcases accepted_or_firstFault_of_deciphered ⟨hadmitted, hclient, hread⟩ with
                  haccepted | hfault
                · exact Or.inl ⟨frontend, client, credentials, haccepted⟩
                · exact Or.inr hfault
              · exact Or.inr ⟨error, .credential hadmitted hclient hids hbefore hfault⟩

/-! ## What a fault comes to -/

/-- A request with a fault is refused by its plan. -/
theorem FirstFault.decision_eq (hfault : FirstFault factory ad error)
    (directoryOf : String → Path) :
    (Plan.ofRequest factory directoryOf ad).decision = .error error := by
  cases hfault with
  | noKey hkey => simp only [Plan.ofRequest, Factory.requireKey, hkey, Plan.refuse]
  | untrusted hkey hauthenticate =>
      simp only [Plan.ofRequest, Factory.requireKey, hkey, hauthenticate, Plan.refuse]
  | unnamed hadmitted hclient =>
      obtain ⟨key, hkey, hfrontend⟩ := hadmitted
      simp only [Plan.ofRequest, Factory.requireKey, requireAttribute, hkey, hfrontend, hclient,
        Plan.refuse]
  | @credential frontend client id before after _ _ hadmitted hclient hids hearlier hfault =>
      obtain ⟨key, hkey, hfrontend⟩ := hadmitted
      have hstaged := stageAll_of_fault factory.policy client after hearlier hfault
      simp only [Plan.ofRequest, Factory.requireKey, requireAttribute, hkey, hfrontend, hclient,
        Plan.ofStaging, hids, hstaged]
  | @unusableName frontend client username credentials credential hdeciphered hcredential
      husername hrefused =>
      obtain ⟨⟨key, hkey, hfrontend⟩, hclient, hread⟩ := hdeciphered
      have hdisposition : credential.disposition factory.policy frontend.securityName client =
          .staged ⟨credential.id, username, credential.material⟩ := by
        rw [Embedded.disposition, husername]
      have hstaged : (Staging.mk (credentials.map
          (·.disposition factory.policy frontend.securityName client)) none).staged.isEmpty =
            false := by
        rw [List.isEmpty_eq_false_iff]
        exact List.ne_nil_of_mem (List.mem_filterMap.2
          ⟨_, List.mem_map_of_mem hcredential, congrArg Disposition.staged? hdisposition⟩)
      simp only [Plan.ofRequest, Factory.requireKey, requireAttribute, hkey, hfrontend, hclient,
        stageAll_of_allRead hread, Plan.ofStaging, hstaged, hrefused, Bool.or_self,
        Bool.false_eq_true, if_false]

/-- A fault is what the request fails with, and nothing has been touched. -/
theorem FirstFault.process_eq (hfault : FirstFault factory ad error) (store : Store) :
    (process factory store ad).1 = .error error ∧
      (process factory store ad).2.tree = store.tree ∧
      (process factory store ad).2.counters = store.counters := by
  rw [process_of_refused (hfault.decision_eq store.directoryOf)]
  exact ⟨rfl, rfl, rfl⟩

/-! ## What acceptance comes to -/

namespace Accepted

/-- The writes of an accepted request. -/
def writes (factory : Factory) (directoryOf : String → Path) (frontend : AuthenticatedFrontend)
    (client : String) (credentials : List Embedded) : List FileWrite :=
  depositWrites directoryOf (deposits factory.policy frontend.securityName client credentials)

/-- An accepted request is one run of writes. -/
theorem process_eq (haccepted : Accepted factory ad frontend client credentials)
    (store : Store) :
    process factory store ad =
      match (begun store factory.policy frontend.securityName client credentials).writeAll
          (writes factory store.directoryOf frontend client credentials) with
      | (.ok (), after) =>
        (.ok (reportOf store.directoryOf factory.policy frontend.securityName client
          credentials), after)
      | (.error error, after) => (.error error, abort after ad error) := by
  rw [process_of_deciphered haccepted.deciphered, persistAll_of_safe _ haccepted.usable,
    directoryOf_begun, writes]
  cases (begun store factory.policy frontend.securityName client credentials).writeAll
      (depositWrites store.directoryOf
        (deposits factory.policy frontend.securityName client credentials)) with
  | mk result after => cases result <;> rfl

theorem tree_process (haccepted : Accepted factory ad frontend client credentials)
    (store : Store) :
    (process factory store ad).2.tree =
      ((begun store factory.policy frontend.securityName client credentials).writeAll
        (writes factory store.directoryOf frontend client credentials)).2.tree := by
  rw [haccepted.process_eq store]
  cases (begun store factory.policy frontend.securityName client credentials).writeAll
      (writes factory store.directoryOf frontend client credentials) with
  | mk result after => cases result <;> rfl

theorem process_eq_ok_iff (haccepted : Accepted factory ad frontend client credentials)
    {report : Report} :
    (process factory store ad).1 = .ok report ↔
      ((begun store factory.policy frontend.securityName client credentials).writeAll
          (writes factory store.directoryOf frontend client credentials)).1 = .ok () ∧
        report = reportOf store.directoryOf factory.policy frontend.securityName client
          credentials := by
  rw [haccepted.process_eq store]
  cases (begun store factory.policy frontend.securityName client credentials).writeAll
      (writes factory store.directoryOf frontend client credentials) with
  | mk result after => cases result <;> simp [eq_comm]

/-- What an accepted request fails with is a file's fault. -/
theorem eq_io (haccepted : Accepted factory ad frontend client credentials)
    (hfailed : (process factory store ad).1 = .error error) :
    ∃ path fault, error = .io path fault := by
  rw [haccepted.process_eq store] at hfailed
  cases hrun : (begun store factory.policy frontend.securityName client credentials).writeAll
      (writes factory store.directoryOf frontend client credentials) with
  | mk result after =>
      cases result with
      | ok done =>
          rw [hrun] at hfailed
          cases hfailed
      | error fault =>
          rw [hrun] at hfailed
          cases hfailed
          exact writeAll_error_eq_io (congrArg Prod.fst hrun)

end Accepted

/-- A first fault lies in the factory, in the trust in the request, or in the
form of the request. -/
theorem FirstFault.exists_cause (hfault : FirstFault factory ad error) :
    (∃ cause, error = .configuration cause) ∨ (∃ cause, error = .authentication cause) ∨
      ∃ cause, error = .malformedRequest cause := by
  cases hfault with
  | noKey => exact Or.inl ⟨_, rfl⟩
  | untrusted hkey hauthenticate =>
      exact Or.inr (Or.inl (exists_cause_of_authenticate hauthenticate))
  | unnamed => exact Or.inr (Or.inr ⟨_, rfl⟩)
  | credential hadmitted hclient hids hearlier hfault =>
      cases hfault with
      | materialMissing => exact Or.inr (Or.inr ⟨_, rfl⟩)
      | materialUndecryptable => exact Or.inr (Or.inl ⟨_, rfl⟩)
      | classUndecryptable => exact Or.inr (Or.inl ⟨_, rfl⟩)
  | unusableName => exact Or.inr (Or.inr ⟨_, rfl⟩)

/-- A request fails with something other than a file's fault exactly if that is
its first fault, and then the files and all counters are as they were.  That a
credential has no user is never what a request fails with. -/
theorem process_fails_iff_firstFault (factory : Factory) (store : Store) (ad : ClassAd)
    (error : IntakeError) :
    (((process factory store ad).1 = .error error ∧ ∀ path fault, error ≠ .io path fault) ↔
      FirstFault factory ad error) ∧
    (FirstFault factory ad error →
      (process factory store ad).2.tree = store.tree ∧
        (process factory store ad).2.counters = store.counters ∧
        ∀ name id securityClass, error ≠ .mapping name id securityClass) := by
  constructor
  · constructor
    · -- an accepted request only fails in its writes
      rintro ⟨hfailed, hfile⟩
      rcases accepted_or_firstFault factory ad with
        ⟨frontend, client, credentials, haccepted⟩ | ⟨other, hfault⟩
      · obtain ⟨path, fault, heq⟩ := haccepted.eq_io hfailed
        exact absurd heq (hfile path fault)
      · rw [(hfault.process_eq store).1] at hfailed
        cases hfailed
        exact hfault
    · intro hfault
      refine ⟨(hfault.process_eq store).1, ?_⟩
      intro path fault
      rcases hfault.exists_cause with ⟨cause, rfl⟩ | ⟨cause, rfl⟩ | ⟨cause, rfl⟩ <;> simp
  · intro hfault
    obtain ⟨-, htree, hcounters⟩ := hfault.process_eq store
    refine ⟨htree, hcounters, ?_⟩
    intro name id securityClass
    rcases hfault.exists_cause with ⟨cause, rfl⟩ | ⟨cause, rfl⟩ | ⟨cause, rfl⟩ <;> simp

/-- The second of two credentials does not decrypt, and the first is not kept. -/
theorem process_fails_iff_firstFault_undecryptable :
    FirstFault Trial.factory (Trial.ad "client" [("1", "proxy", "class"), ("2", "", "class")])
        (.authentication (.undecryptable "GlideinEncParam2")) ∧
      (process Trial.factory Store.trial
        (Trial.ad "client" [("1", "proxy", "class"), ("2", "", "class")])).2.tree =
          Store.trial.tree := by
  have hfault := (process_fails_iff_firstFault Trial.factory Store.trial
    (Trial.ad "client" [("1", "proxy", "class"), ("2", "", "class")])
    (.authentication (.undecryptable "GlideinEncParam2"))).1.1 ⟨by decide +kernel, by simp⟩
  exact ⟨hfault, ((process_fails_iff_firstFault _ Store.trial _ _).2 hfault).1⟩

end CredentialIntake.Intake
