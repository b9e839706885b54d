import CredentialIntake.Proofs.FirstFaults

/-!
# Where a request can reach

Only a trusted request changes anything, and all it changes are entries of the
directories of users that its own credentials stand for, under the names of
credential files.  Neither the client name nor the ids can lead elsewhere: a
client name that reaches across directories stops the request, and an id is
written in its escaped form.
-/

namespace CredentialIntake.Intake

open Store

/-- An entry of a user's directory that is named like a credential file. -/
def IsCredentialEntry (store : Store) (username : String) (place : Location) : Prop :=
  ∃ folder rest, store.tree.folderAt (store.directoryOf username) = .ok folder ∧
    place = folder ++ [nameLead ++ rest] ∧ '/' ∉ rest.toList

variable {factory : Factory} {store : Store} {ad : ClassAd} {frontend : AuthenticatedFrontend}
  {client : String} {credentials : List Embedded} {place : Location}

/-- The writes of an accepted request are concerned with entries of its users
only. -/
theorem Accepted.isCredentialEntry (haccepted : Accepted factory ad frontend client credentials)
    (hplace : place ∈ runFootprint store.tree
      (writes factory store.directoryOf frontend client credentials)) :
    ∃ credential ∈ credentials, ∃ username,
      credential.username? factory.policy frontend.securityName = some username ∧
        IsCredentialEntry store username place := by
  obtain ⟨write, hwrite, hfootprint⟩ := hplace
  obtain ⟨deposit, hdeposit, hpath⟩ :=
    isCredentialPath_of_mem_depositWrites haccepted.usable hwrite
  obtain ⟨credential, hcredential, username, husername, rfl⟩ := mem_deposits_iff.1 hdeposit
  exact ⟨credential, hcredential, username, husername, exists_of_mem_footprint hpath hfootprint⟩

theorem Accepted.mem_runFootprint (haccepted : Accepted factory ad frontend client credentials)
    (hchanged : (process factory store ad).2.tree.nodes[place]? ≠ store.tree.nodes[place]?) :
    place ∈ runFootprint store.tree
      (writes factory store.directoryOf frontend client credentials) := by
  by_contra hplace
  apply hchanged
  rw [haccepted.tree_process store]
  exact (writeAll_agreesOutside _ _).elsewhere place hplace

/-- Whatever a request changes, whether it succeeds or not: the request is
trusted, and what is changed is an entry of the directory of a user that one of
its credentials stands for, named like a credential file. -/
theorem isCredentialEntry_of_changed (factory : Factory) (store : Store) (ad : ClassAd)
    (place : Location)
    (hchanged : (process factory store ad).2.tree.nodes[place]? ≠ store.tree.nodes[place]?) :
    ∃ key frontend identity, factory.key = some key ∧
      authenticate key ad factory.policy = .ok frontend ∧
      Trusted key ad factory.policy frontend identity ∧
      ∃ id ∈ ad.credentialIds, ∃ securityClass username,
        (ad.get? (ClassAd.securityClassKey id)).bind frontend.key.decryptText? =
          some securityClass ∧
        factory.policy.usernameOf? frontend.securityName securityClass = some username ∧
        IsCredentialEntry store username place := by
  rcases accepted_or_firstFault factory ad with
    ⟨frontend, client, credentials, haccepted⟩ | ⟨error, hfault⟩
  · obtain ⟨key, hkey, hauthenticate⟩ := haccepted.deciphered.admitted
    obtain ⟨identity, htrusted⟩ := authenticate_eq_ok_iff.1 hauthenticate
    obtain ⟨credential, hcredential, username, husername, hentry⟩ :=
      haccepted.isCredentialEntry (haccepted.mem_runFootprint hchanged)
    obtain ⟨hid, hread⟩ := haccepted.deciphered.read.read?_of_mem hcredential
    obtain ⟨-, -, hclass⟩ := Embedded.read?_eq_some_iff.1 hread
    exact ⟨key, frontend, identity, hkey, hauthenticate, htrusted, credential.id, hid,
      credential.securityClass, username, hclass, husername, hentry⟩
  · -- a fault is found before anything is changed
    exact absurd (congrArg (·.nodes[place]?) (hfault.process_eq store).2.1) hchanged

/-- An id that looks like a path stays a name in the directory of its user. -/
theorem isCredentialEntry_of_changed_climbing :
    ∃ username, IsCredentialEntry Store.trial username
      ["users", "credential_client_.dot,.dot,.slash,1"] := by
  obtain ⟨key, frontend, identity, -, -, -, id, -, securityClass, username, -, -, hentry⟩ :=
    isCredentialEntry_of_changed Trial.factory Store.trial
      (Trial.ad "client" [("../1", "proxy", "class")])
      ["users", "credential_client_.dot,.dot,.slash,1"] (by decide +kernel)
  exact ⟨username, hentry⟩

end CredentialIntake.Intake
