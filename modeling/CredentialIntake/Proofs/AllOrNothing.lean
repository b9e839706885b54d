import CredentialIntake.Proofs.FirstFaults
import CredentialIntake.Proofs.Obstacles

/-!
# All or nothing

A request that is not accepted touches nothing.  One that is accepted can still
fail at a file, and what it wrote before that stays: on directories that hold
files only, a request is carried out as a whole or not at all exactly if none of
its filings is obstructed or already the first one is.  The compressed file of an
id has the longer name, so an id can be long enough for the one and too long for
the other.
-/

namespace CredentialIntake.Intake

open Store
open FileTree

/-- The directory of every user that a credential of the request stands for is
there, and holds files only. -/
def IsHealthy (factory : Factory) (store : Store) (ad : ClassAd) : Prop :=
  ∀ frontend, Admitted factory ad frontend → ∀ id ∈ ad.credentialIds,
    ∀ securityClass username,
      (ad.get? (ClassAd.securityClassKey id)).bind frontend.key.decryptText? =
        some securityClass →
      factory.policy.usernameOf? frontend.securityName securityClass = some username →
      ∃ folder, store.tree.folderAt (store.directoryOf username) = .ok folder ∧
        ∀ name, store.tree.nodes[folder ++ [name]]? ≠ some .directory

/-- The request succeeds, or files and counters are as they were. -/
def AllOrNothing (factory : Factory) (store : Store) (ad : ClassAd) : Prop :=
  (∃ report, (process factory store ad).1 = .ok report) ∨
    (process factory store ad).2.tree = store.tree ∧
      (process factory store ad).2.counters = store.counters

variable {factory : Factory} {store : Store} {ad : ClassAd} {frontend : AuthenticatedFrontend}
  {client : String} {credentials : List Embedded}

/-- What an accepted request files, in this order. -/
def filings (factory : Factory) (frontend : AuthenticatedFrontend) (client : String)
    (credentials : List Embedded) : List Filing :=
  (deposits factory.policy frontend.securityName client credentials).flatMap Deposit.filings

namespace Accepted

theorem writes_eq (haccepted : Accepted factory ad frontend client credentials)
    (directoryOf : String → Path) :
    writes factory directoryOf frontend client credentials =
      (filings factory frontend client credentials).map (·.write directoryOf) :=
  depositWrites_eq_map_filings haccepted.usable directoryOf

theorem isCredentialName (haccepted : Accepted factory ad frontend client credentials) :
    ∀ filing ∈ filings factory frontend client credentials, IsCredentialName filing.name := by
  intro filing hfiling
  obtain ⟨deposit, hdeposit, hmem⟩ := List.mem_flatMap.1 hfiling
  exact isCredentialName_of_mem_filings (haccepted.usable deposit hdeposit) hmem

/-- On a healthy tree every filing goes to a tidy directory. -/
theorem isTidy (haccepted : Accepted factory ad frontend client credentials)
    (hhealthy : IsHealthy factory store ad) :
    ∀ filing ∈ filings factory frontend client credentials,
      IsTidy store.tree (store.directoryOf filing.username) := by
  intro filing hfiling
  obtain ⟨deposit, hdeposit, hmem⟩ := List.mem_flatMap.1 hfiling
  obtain ⟨credential, hcredential, username, husername, rfl⟩ := mem_deposits_iff.1 hdeposit
  obtain ⟨hid, hread⟩ := haccepted.deciphered.read.read?_of_mem hcredential
  obtain ⟨-, -, hclass⟩ := Embedded.read?_eq_some_iff.1 hread
  obtain ⟨folder, hfolder, hfiles⟩ := hhealthy frontend haccepted.deciphered.admitted
    credential.id hid credential.securityClass username hclass husername
  rw [username_of_mem_filings hmem]
  refine ⟨folder, hfolder, ?_⟩
  intro rest
  rw [node?_of_not_isAnchor (not_isAnchor_append_nameLead folder rest)]
  exact hfiles (nameLead ++ rest)

/-- An accepted request succeeds if its filings do, and leaves what they leave. -/
private theorem allOrNothing_iff_writeAll
    (haccepted : Accepted factory ad frontend client credentials) :
    AllOrNothing factory store ad ↔
      (store.writeAll ((filings factory frontend client credentials).map
          (·.write store.directoryOf))).1 = .ok () ∨
        (store.writeAll ((filings factory frontend client credentials).map
          (·.write store.directoryOf))).2.holdings = store.holdings := by
  have hbegun : (begun store factory.policy frontend.securityName client credentials).holdings =
      store.holdings := rfl
  obtain ⟨hresult, hholdings⟩ :=
    writeAll_congr hbegun (writes factory store.directoryOf frontend client credentials)
  rw [← haccepted.writes_eq, ← hresult, ← hholdings, AllOrNothing, haccepted.process_eq store,
    holdings, holdings, Holdings.mk.injEq]
  cases (begun store factory.policy frontend.securityName client credentials).writeAll
      (writes factory store.directoryOf frontend client credentials) with
  | mk result after => cases result <;> simp [abort, report]

end Accepted

/-- Among filings made one after the other, the first one is obstructed whenever
any of them is. -/
def StopsAtFirst (tree : FileTree) (directoryOf : String → Path) (filings : List Filing) : Prop :=
  ∀ before filing after, filings = before ++ filing :: after →
    Obstructed (found tree directoryOf before filing) filing →
    ∃ first rest, filings = first :: rest ∧ Obstructed (found tree directoryOf [] first) first

theorem Accepted.allOrNothing_iff (haccepted : Accepted factory ad frontend client credentials)
    (hhealthy : IsHealthy factory store ad) :
    AllOrNothing factory store ad ↔
      StopsAtFirst store.tree store.directoryOf
        (filings factory frontend client credentials) := by
  have htidy := haccepted.isTidy hhealthy
  have hnames := haccepted.isCredentialName
  have hleaves : ∀ {first : Filing} {rest : List Filing},
      filings factory frontend client credentials = first :: rest →
      ((store.writeAll ((first :: rest).map (·.write store.directoryOf))).2.holdings =
          store.holdings ↔
        Obstructed (found store.tree store.directoryOf [] first) first) := by
    intro first rest hfilings
    have hfirst : first ∈ filings factory frontend client credentials := by simp [hfilings]
    exact holdings_writeAll_filings_iff (htidy first hfirst) (hnames first hfirst)
  rw [haccepted.allOrNothing_iff_writeAll, writeAll_filings_eq_ok_iff htidy hnames]
  constructor
  · intro hall before filing after hsplit hobstructed
    obtain ⟨first, rest, hfilings⟩ :
        ∃ first rest, filings factory frontend client credentials = first :: rest :=
      List.exists_cons_of_ne_nil (by simp [hsplit])
    rcases hall with hfree | hsame
    · exact absurd hobstructed (hfree before filing after hsplit)
    · rw [hfilings] at hsame
      exact ⟨first, rest, hfilings, (hleaves hfilings).1 hsame⟩
  · intro hstops
    rw [or_iff_not_imp_left]
    intro hnot
    push Not at hnot
    obtain ⟨before, filing, after, hsplit, hobstructed⟩ := hnot
    obtain ⟨first, rest, hfilings, hstopped⟩ := hstops before filing after hsplit hobstructed
    rw [hfilings]
    exact (hleaves hfilings).2 hstopped

/-- On healthy directories a request is carried out as a whole or not at all
exactly if, once it is accepted, nothing but its first filing can stop it. -/
theorem allOrNothing_iff_stopsAtFirst (factory : Factory) (store : Store) (ad : ClassAd)
    (hhealthy : IsHealthy factory store ad) :
    AllOrNothing factory store ad ↔
      ∀ frontend client credentials, Accepted factory ad frontend client credentials →
        StopsAtFirst store.tree store.directoryOf
          (filings factory frontend client credentials) := by
  constructor
  · intro hall frontend client credentials haccepted
    exact (haccepted.allOrNothing_iff hhealthy).1 hall
  · intro hstops
    rcases accepted_or_firstFault factory ad with
      ⟨frontend, client, credentials, haccepted⟩ | ⟨error, hfault⟩
    · exact (haccepted.allOrNothing_iff hhealthy).2 (hstops frontend client credentials haccepted)
    · -- a fault is found before anything is written
      obtain ⟨-, htree, hcounters⟩ := hfault.process_eq store
      exact Or.inr ⟨htree, hcounters⟩

private theorem folderAt_trial : Store.trial.tree.folderAt ⟨"users"⟩ = .ok ["users"] := by
  decide +kernel

private theorem isHealthy_trial (factory : Factory) (ad : ClassAd) :
    IsHealthy factory Store.trial ad := by
  intro frontend _ id _ securityClass username _ _
  refine ⟨["users"], folderAt_trial, ?_⟩
  intro name
  simp [Store.trial, FileTree.empty]

/-- No file can be named after an id with a zero byte, so its request stops at the
first one. -/
theorem allOrNothing_iff_stopsAtFirst_unnamed :
    IsHealthy Trial.factory Store.trial (Trial.ad "client" [("\x00", "proxy", "class")]) ∧
      ∀ frontend client credentials,
        Accepted Trial.factory (Trial.ad "client" [("\x00", "proxy", "class")]) frontend client
          credentials →
        StopsAtFirst Store.trial.tree Store.trial.directoryOf
          (filings Trial.factory frontend client credentials) := by
  have hhealthy := isHealthy_trial Trial.factory
    (Trial.ad "client" [("\x00", "proxy", "class")])
  refine ⟨hhealthy, ?_⟩
  apply (allOrNothing_iff_stopsAtFirst _ _ _ hhealthy).1
  right
  constructor
  · rfl
  · decide +kernel

/-! ## Half of a credential -/

/-- On healthy directories every request is carried out as a whole or not at
all. -/
def IsAlwaysAllOrNothing : Prop :=
  ∀ factory store ad, IsHealthy factory store ad → AllOrNothing factory store ad

/-- A client name of 235 letters, which leaves room for the raw file of an id and
not for the compressed one. -/
private def lengthyClient : String := String.ofList (List.replicate 235 'a')

private def lengthyDeposit : Deposit := ⟨"user", lengthyClient, "1", Bytes.ofText "proxy"⟩

private theorem isSafeName_lengthyClient : isSafeName lengthyClient = true := by
  decide +kernel

private theorem accepted_lengthy :
    Accepted Trial.factory (Trial.ad lengthyClient [("1", "proxy", "class")])
      ⟨Trial.symmetricKey, "name"⟩ lengthyClient [⟨"1", Bytes.ofText "proxy", "class"⟩] where
  deciphered :=
    { admitted := ⟨_, rfl, rfl⟩
      named := rfl
      read := by
        have hids : (Trial.ad lengthyClient [("1", "proxy", "class")]).credentialIds = ["1"] := by
          decide +kernel
        rw [hids]
        exact .cons rfl .nil }
  usable := by
    intro deposit hdeposit
    rw [client_of_mem_deposits hdeposit]
    exact isSafeName_lengthyClient

/-- The raw file is written, and the compressed one has no name. -/
theorem not_isAlwaysAllOrNothing : ¬ IsAlwaysAllOrNothing := by
  intro halways
  have hsize : lengthyClient.utf8ByteSize = 235 := by decide +kernel
  have hraw : IsEntryName lengthyDeposit.raw.name := by
    apply (isEntryName_credentialName_iff isSafeName_lengthyClient "1").2
    rw [hsize]
    decide +kernel
  have hcompressed : ¬ IsEntryName lengthyDeposit.compressed.name := by
    intro hentry
    have hfits := ((isEntryName_credentialName_iff isSafeName_lengthyClient
      ("1" ++ compressedMark)).1 hentry).2
    rw [hsize] at hfits
    exact absurd hfits (by decide +kernel)
  have hstops := (accepted_lengthy.allOrNothing_iff (isHealthy_trial _ _)).1
    (halways _ _ _ (isHealthy_trial _ _))
  have hfilings : filings Trial.factory ⟨Trial.symmetricKey, "name"⟩ lengthyClient
      [⟨"1", Bytes.ofText "proxy", "class"⟩] = lengthyDeposit.filings := rfl
  obtain ⟨first, rest, hfirst, hobstructed⟩ := hstops [lengthyDeposit.raw]
    lengthyDeposit.compressed [] hfilings (.unnamed hcompressed)
  rw [hfilings] at hfirst
  obtain ⟨rfl, -⟩ := List.cons_eq_cons.1 hfirst
  have hfree : contentAt Store.trial.tree Store.trial.directoryOf lengthyDeposit.raw =
      .error .notFound :=
    contentAt_of_free ⟨lengthyClient, "1", isSafeName_lengthyClient, rfl⟩ folderAt_trial hraw
      (by simp [Store.trial, FileTree.empty])
  rw [found_nil, hfree] at hobstructed
  exact not_obstructed_of_free hraw hobstructed

end CredentialIntake.Intake
