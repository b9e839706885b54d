import CredentialIntake.Proofs.Requests

/-!
# Carrying out a request

Once a request is authenticated and all its credentials are decrypted, carrying
it out is nothing but keeping the mapped credentials one after the other, in the
order of their ids.  The plan, which looks at the client name before anything is
written, and the store, which looks at it with every credential, agree because
all credentials of a request come from one client.
-/

namespace CredentialIntake.Intake

open Store

/-! ## From credentials to deposits and reports -/

namespace Embedded

variable (policy : FrontendPolicy) (securityName client : String) (credential : Embedded)

def deposit? : Option Deposit :=
  (credential.username? policy securityName).map fun username =>
    { username, client, id := credential.id, material := credential.material }

def persisted? (directoryOf : String → Path) : Option PersistedCredential :=
  (credential.username? policy securityName).map fun username =>
    { id := credential.id
      username
      files := credentialFiles (directoryOf username) client credential.id }

def skipped? : Option IntakeError :=
  match credential.username? policy securityName with
  | some _ => none
  | none => some (.mapping client credential.id credential.securityClass)

end Embedded

/-- What a request asks the store to keep, in the order of the ids. -/
def deposits (policy : FrontendPolicy) (securityName client : String)
    (credentials : List Embedded) : List Deposit :=
  credentials.filterMap (·.deposit? policy securityName client)

/-- The report of a request whose credentials are all kept or left out. -/
def reportOf (directoryOf : String → Path) (policy : FrontendPolicy)
    (securityName client : String) (credentials : List Embedded) : Report where
  client
  securityName
  persisted := credentials.filterMap (·.persisted? policy securityName client directoryOf)
  skipped := credentials.filterMap (·.skipped? policy securityName client)

variable {policy : FrontendPolicy} {securityName client : String}

theorem mem_deposits_iff {credentials : List Embedded} {deposit : Deposit} :
    deposit ∈ deposits policy securityName client credentials ↔
      ∃ credential ∈ credentials, ∃ username,
        credential.username? policy securityName = some username ∧
          deposit = ⟨username, client, credential.id, credential.material⟩ := by
  simp only [deposits, List.mem_filterMap, Embedded.deposit?, Option.map_eq_some_iff,
    @eq_comm _ deposit]

theorem client_of_mem_deposits {credentials : List Embedded} {deposit : Deposit}
    (hmem : deposit ∈ deposits policy securityName client credentials) :
    deposit.client = client := by
  obtain ⟨credential, -, username, -, rfl⟩ := mem_deposits_iff.1 hmem
  rfl

/-- A report lists the deposits as kept. -/
theorem persisted_reportOf (directoryOf : String → Path) (credentials : List Embedded) :
    (reportOf directoryOf policy securityName client credentials).persisted =
      (deposits policy securityName client credentials).map fun deposit =>
        { id := deposit.id, username := deposit.username, files := deposit.files directoryOf } := by
  rw [reportOf, deposits, List.map_filterMap]
  apply List.filterMap_congr
  intro credential hmem
  rw [Embedded.persisted?, Embedded.deposit?, Option.map_map]
  rfl

private def stagingOf (policy : FrontendPolicy) (securityName client : String)
    (credentials : List Embedded) : Staging :=
  ⟨credentials.map (·.disposition policy securityName client), none⟩

private theorem skipped_stagingOf (credentials : List Embedded) :
    (stagingOf policy securityName client credentials).skipped =
      credentials.filterMap (·.skipped? policy securityName client) := by
  rw [Staging.skipped, stagingOf, List.filterMap_map]
  congr 1
  funext credential
  simp only [Function.comp_apply, Embedded.disposition, Embedded.skipped?]
  cases credential.username? policy securityName <;> rfl

private def depositOf (client : String) (staged : Staged) : Deposit :=
  ⟨staged.username, client, staged.id, staged.material⟩

private theorem staged_stagingOf (credentials : List Embedded) :
    (stagingOf policy securityName client credentials).staged.map (depositOf client) =
      deposits policy securityName client credentials := by
  rw [Staging.staged, stagingOf, List.filterMap_map, List.map_filterMap, deposits]
  congr 1
  funext credential
  simp only [Function.comp_apply, Embedded.disposition, Embedded.deposit?]
  cases credential.username? policy securityName <;> rfl

private theorem persisted_stagingOf (directoryOf : String → Path) (credentials : List Embedded) :
    Plan.persisted directoryOf client (stagingOf policy securityName client credentials).staged =
      credentials.filterMap (·.persisted? policy securityName client directoryOf) := by
  rw [Plan.persisted, Staging.staged, stagingOf, List.filterMap_map, List.map_filterMap]
  congr 1
  funext credential
  simp only [Function.comp_apply, Embedded.disposition, Embedded.persisted?]
  cases credential.username? policy securityName <;> rfl

private theorem writes_eq_depositWrites (directoryOf : String → Path) (staged : List Staged) :
    Plan.writes directoryOf client staged =
      depositWrites directoryOf (staged.map (depositOf client)) := by
  rw [Plan.writes, depositWrites, List.flatMap_map]
  rfl

/-! ## Planning and keeping -/

/-- The factory has a key, and with it the frontend passes authentication. -/
def Admitted (factory : Factory) (ad : ClassAd) (frontend : AuthenticatedFrontend) : Prop :=
  ∃ key, factory.key = some key ∧ authenticate key ad factory.policy = .ok frontend

/-- A request is admitted, has a client name, and all its credentials decrypt. -/
structure Deciphered (factory : Factory) (ad : ClassAd) (frontend : AuthenticatedFrontend)
    (client : String) (credentials : List Embedded) : Prop where
  admitted : Admitted factory ad frontend
  named : ad.get? ClassAd.clientName = some client
  read : AllRead frontend ad ad.credentialIds credentials

/-- How the plan of a request comes about: either it is refused, for want of trust
in the request or of its client name, or it is made of what is staged. -/
inductive Plan.Origin (factory : Factory) (directoryOf : String → Path) (ad : ClassAd) :
    Plan → Prop where
  | untrusted {error : IntakeError} :
      (∀ frontend, ¬ Admitted factory ad frontend) →
      Origin factory directoryOf ad (.refuse error)
  | unnamed {error : IntakeError} :
      ad.get? ClassAd.clientName = none →
      Origin factory directoryOf ad (.refuse error)
  | staged {frontend : AuthenticatedFrontend} {client : String} :
      Admitted factory ad frontend → ad.get? ClassAd.clientName = some client →
      Origin factory directoryOf ad
        (.ofStaging directoryOf client frontend.securityName
          (stageAll factory.policy frontend ad client ad.credentialIds))

theorem Plan.origin_ofRequest (factory : Factory) (directoryOf : String → Path) (ad : ClassAd) :
    Plan.Origin factory directoryOf ad (Plan.ofRequest factory directoryOf ad) := by
  rw [Plan.ofRequest, Factory.requireKey]
  cases hkey : factory.key with
  | none =>
    refine .untrusted ?_
    rintro frontend ⟨key, hother, -⟩
    rw [hkey] at hother
    cases hother
  | some key =>
    dsimp only
    cases hfrontend : authenticate key ad factory.policy with
    | error error =>
      refine .untrusted ?_
      rintro frontend ⟨other, hother, hadmitted⟩
      obtain rfl : key = other := Option.some.inj (hkey.symm.trans hother)
      cases hfrontend.symm.trans hadmitted
    | ok frontend =>
      dsimp only
      rw [requireAttribute]
      cases hclient : ad.get? ClassAd.clientName with
      | none => exact .unnamed hclient
      | some client => exact .staged ⟨key, hkey, hfrontend⟩ hclient

section Carrying

variable {factory : Factory} {store : Store} {ad : ClassAd} {frontend : AuthenticatedFrontend}
  {credentials : List Embedded}

theorem ofRequest_of_deciphered (directoryOf : String → Path)
    (hdeciphered : Deciphered factory ad frontend client credentials) :
    Plan.ofRequest factory directoryOf ad =
      Plan.ofStaging directoryOf client frontend.securityName
        (stagingOf factory.policy frontend.securityName client credentials) := by
  obtain ⟨⟨key, hkey, hfrontend⟩, hclient, hread⟩ := hdeciphered
  simp only [Plan.ofRequest, Factory.requireKey, requireAttribute, hkey, hfrontend, hclient,
    stageAll_of_allRead hread, stagingOf]

/-- A request that its plan refuses is given up at once. -/
theorem process_of_refused {error : IntakeError}
    (hdecision : (Plan.ofRequest factory store.directoryOf ad).decision = .error error) :
    process factory store ad =
      (.error error,
        abort (begin store (Plan.ofRequest factory store.directoryOf ad)) ad error) := by
  simp only [process, hdecision]

/-- A request whose files are all written succeeds with the report of its plan. -/
theorem process_of_written {report : Report} {writes : List FileWrite} {after : Store}
    (hdecision : (Plan.ofRequest factory store.directoryOf ad).decision = .ok (report, writes))
    (hrun : (begin store (Plan.ofRequest factory store.directoryOf ad)).writeAll writes =
      (.ok (), after)) : process factory store ad = (.ok report, after) := by
  simp only [process, hdecision, hrun]

/-- A request is given up at the first file that cannot be written. -/
theorem process_of_stopped {report : Report} {writes : List FileWrite} {after : Store}
    {error : IntakeError}
    (hdecision : (Plan.ofRequest factory store.directoryOf ad).decision = .ok (report, writes))
    (hrun : (begin store (Plan.ofRequest factory store.directoryOf ad)).writeAll writes =
      (.error error, after)) : process factory store ad = (.error error, abort after ad error) := by
  simp only [process, hdecision, hrun]

/-- What is reported before anything is written. -/
def begun (store : Store) (policy : FrontendPolicy) (securityName client : String)
    (credentials : List Embedded) : Store :=
  store.report ((credentials.filterMap (·.skipped? policy securityName client)).map
    .credentialSkipped)

@[simp]
theorem directoryOf_begun :
    (begun store policy securityName client credentials).directoryOf = store.directoryOf := rfl

private theorem begin_eq_begun (plan : Plan)
    (hskipped : plan.skipped =
      (stagingOf policy securityName client credentials).skipped) :
    begin store plan = begun store policy securityName client credentials := by
  rw [begin, begun, hskipped, skipped_stagingOf]

/-- A name that can be used or is not needed lets every deposit be kept. -/
private theorem isSafeName_of_usable
    (husable : ((stagingOf policy securityName client credentials).staged.isEmpty ||
      isSafeName client) = true) :
    ∀ deposit ∈ deposits policy securityName client credentials,
      isSafeName deposit.client = true := by
  intro deposit hmem
  rw [client_of_mem_deposits hmem]
  rcases Bool.or_eq_true_iff.1 husable with hempty | hsafe
  · rw [← staged_stagingOf, List.isEmpty_iff.1 hempty] at hmem
    simp at hmem
  · exact hsafe

/-- A name that cannot be used but is needed belongs to the first deposit. -/
private theorem deposits_of_unusable
    (hunusable : ((stagingOf policy securityName client credentials).staged.isEmpty ||
      isSafeName client) = false) :
    isSafeName client = false ∧ ∃ deposit rest,
      deposits policy securityName client credentials = deposit :: rest := by
  obtain ⟨hempty, hrefused⟩ := Bool.or_eq_false_iff.1 hunusable
  refine ⟨hrefused, ?_⟩
  rw [← staged_stagingOf]
  cases hstaged : (stagingOf policy securityName client credentials).staged with
  | nil =>
      rw [hstaged] at hempty
      cases hempty
  | cons first rest => exact ⟨_, _, List.map_cons⟩

/-- Carrying a request out is keeping its mapped credentials one by one. -/
theorem process_of_deciphered
    (hdeciphered : Deciphered factory ad frontend client credentials) :
    process factory store ad =
      match (begun store factory.policy frontend.securityName client credentials).persistAll
          (deposits factory.policy frontend.securityName client credentials) with
      | (.ok _, after) =>
        (.ok (reportOf store.directoryOf factory.policy frontend.securityName client
          credentials), after)
      | (.error error, after) => (.error error, abort after ad error) := by
  have hplan := ofRequest_of_deciphered store.directoryOf hdeciphered
  have hbegin : begin store (Plan.ofRequest factory store.directoryOf ad) =
      begun store factory.policy frontend.securityName client credentials := by
    apply begin_eq_begun
    rw [hplan, Plan.ofStaging]
  have hfault : (stagingOf factory.policy frontend.securityName client credentials).fault = none :=
    rfl
  rw [process, hbegin, hplan, Plan.ofStaging]
  -- the plan asks for the client name once, the store with every deposit
  cases husable : ((stagingOf factory.policy frontend.securityName client
      credentials).staged.isEmpty || isSafeName client) with
  | true =>
      rw [persistAll_of_safe _ (isSafeName_of_usable husable)]
      simp only [hfault, if_true, directoryOf_begun, writes_eq_depositWrites, staged_stagingOf,
        persisted_stagingOf, skipped_stagingOf]
      cases (begun store factory.policy frontend.securityName client credentials).writeAll
          (depositWrites store.directoryOf
            (deposits factory.policy frontend.securityName client credentials)) with
      | mk result after => cases result <;> rfl
  | false =>
      obtain ⟨hrefused, deposit, rest, hdeposits⟩ := deposits_of_unusable husable
      have hclient : deposit.client = client := by
        apply client_of_mem_deposits
        rw [hdeposits]
        exact List.mem_cons_self
      rw [hdeposits, persistAll_of_refused _ rest (by rwa [hclient]), hclient]
      simp only [hfault, Bool.false_eq_true, if_false]

end Carrying

/-! ## A request to try things on -/

namespace Trial

/-- Ciphertexts are the texts themselves, and the empty one does not decrypt. -/
def symmetricKey : SymmetricKey where
  decrypt? ciphertext := if ciphertext = "" then none else some (Bytes.ofText ciphertext)

def factory : Factory where
  key := some ⟨fun _ => some symmetricKey⟩
  policy := {
    identityOf? := fun _ => some "frontend"
    usernameOf? := fun _ securityClass => if securityClass = "none" then none else some "user" }

/-- A request with credentials given by id, material and security class. -/
def ad (client : String) (credentials : List (String × String × String)) : ClassAd :=
  ClassAd.ofList <|
    [("ReqEncKeyCode", "code"), ("AuthenticatedIdentity", "frontend"),
      ("ReqEncIdentity", "frontend"), ("GlideinEncParamSecurityName", "name"),
      ("ClientName", client)] ++
    credentials.flatMap fun (id, material, securityClass) =>
      [(ClassAd.parameterKey id, material), (ClassAd.securityClassKey id, securityClass)]

end Trial

end CredentialIntake.Intake
