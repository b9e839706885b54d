import CredentialIntake.Proofs.FirstFaults

/-!
# What a successful request leaves

The report of a request lists every credential once, in the order of the ids,
as kept or as left out.  The files of the kept ones hold what was last written
to them in that order, raw form before compressed form, and no other file has
changed but backups and staging files of theirs.
-/

namespace CredentialIntake.Intake

open Store FileTree

/-- Sorts credentials, in their order, into those that are kept and those that
are left out, with the writes that keep them. -/
inductive Settles (directoryOf : String → Path) (policy : FrontendPolicy)
    (securityName client : String) :
    List Embedded → List PersistedCredential → List IntakeError → List FileWrite → Prop where
  | nil : Settles directoryOf policy securityName client [] [] [] []
  | kept {credential : Embedded} {username : String} {rest : List Embedded}
      {persisted : List PersistedCredential} {skipped : List IntakeError}
      {writes : List FileWrite} {raw : Path} :
      policy.usernameOf? securityName credential.securityClass = some username →
      raw = (directoryOf username).join
        ("credential_" ++ client ++ "_" ++ escapeId credential.id) →
      Settles directoryOf policy securityName client rest persisted skipped writes →
      Settles directoryOf policy securityName client (credential :: rest)
        (⟨credential.id, username, raw, raw.withSuffix "_compressed"⟩ :: persisted) skipped
        (⟨raw, credential.material⟩ ::
          ⟨raw.withSuffix "_compressed", compressedLine credential.material⟩ :: writes)
  | leftOut {credential : Embedded} {rest : List Embedded}
      {persisted : List PersistedCredential} {skipped : List IntakeError}
      {writes : List FileWrite} :
      policy.usernameOf? securityName credential.securityClass = none →
      Settles directoryOf policy securityName client rest persisted skipped writes →
      Settles directoryOf policy securityName client (credential :: rest) persisted
        (.mapping client credential.id credential.securityClass :: skipped) writes

variable {factory : Factory} {store : Store} {ad : ClassAd} {frontend : AuthenticatedFrontend}
  {client : String} {credentials : List Embedded} {report : Report}

private theorem settles_reportOf (directoryOf : String → Path) (policy : FrontendPolicy)
    (securityName client : String) (credentials : List Embedded) :
    Settles directoryOf policy securityName client credentials
      (reportOf directoryOf policy securityName client credentials).persisted
      (reportOf directoryOf policy securityName client credentials).skipped
      (depositWrites directoryOf (deposits policy securityName client credentials)) := by
  simp only [reportOf, deposits, depositWrites]
  induction credentials with
  | nil => exact .nil
  | cons credential rest ih =>
      cases husername : policy.usernameOf? securityName credential.securityClass with
      | none =>
          simp only [List.filterMap_cons, Embedded.persisted?, Embedded.skipped?,
            Embedded.deposit?, Embedded.username?, husername, Option.map_none]
          exact .leftOut husername ih
      | some username =>
          simp only [List.filterMap_cons, Embedded.persisted?, Embedded.skipped?,
            Embedded.deposit?, Embedded.username?, husername, Option.map_some,
            List.flatMap_cons]
          exact .kept husername rfl ih

/-- No file of a request is a backup or a staging file of another. -/
theorem siblingFree_writes
    (haccepted : Accepted factory ad frontend client credentials) (tree : FileTree)
    (directoryOf : String → Path) :
    SiblingFree tree (Accepted.writes factory directoryOf frontend client credentials) := by
  apply siblingFree_of_isCredentialPath
  intro write hwrite
  obtain ⟨deposit, -, hpath⟩ := isCredentialPath_of_mem_depositWrites haccepted.usable hwrite
  exact ⟨_, hpath⟩

/-- A successful request has settled all its credentials in the order of their
ids; each path it wrote holds what the last of its writes to that place brought,
and nothing has changed but these places and their siblings. -/
theorem settles_of_process_ok (factory : Factory) (store : Store) (ad : ClassAd)
    (report : Report) (hdone : (process factory store ad).1 = .ok report) :
    ∃ frontend credentials writes,
      Admitted factory ad frontend ∧
      ad.get? ClassAd.clientName = some report.client ∧
      report.securityName = frontend.securityName ∧
      ad.credentialIds.Pairwise (fun left right =>
        compare (ClassAd.securityClassKey left) (ClassAd.securityClassKey right) = .lt) ∧
      AllRead frontend ad ad.credentialIds credentials ∧
      Settles store.directoryOf factory.policy report.securityName report.client credentials
        report.persisted report.skipped writes ∧
      (∀ write ∈ writes, ∃ last, lastAimedAt? store.tree write.path writes = some last ∧
        (process factory store ad).2.tree.Holds write.path last.content) ∧
      AgreesOutside (runFootprint store.tree writes) store.tree
        (process factory store ad).2.tree := by
  rcases accepted_or_firstFault factory ad with
    ⟨frontend, client, credentials, haccepted⟩ | ⟨error, hfault⟩
  · obtain ⟨hrun, rfl⟩ := (haccepted.process_eq_ok_iff).1 hdone
    have hdeciphered := haccepted.deciphered
    refine ⟨frontend, credentials,
      Accepted.writes factory store.directoryOf frontend client credentials,
      hdeciphered.admitted, hdeciphered.named, rfl, ad.pairwise_credentialIds, hdeciphered.read,
      settles_reportOf _ _ _ _ _, ?_, ?_⟩
    · -- credentials may meet at one path, but never at a sibling of another
      intro write hwrite
      rw [haccepted.tree_process store]
      exact writeAll_holds_lastAimedAt hrun (siblingFree_writes haccepted _ _) hwrite
    · rw [haccepted.tree_process store]
      exact writeAll_agreesOutside
        (begun store factory.policy frontend.securityName client credentials) _
  · rw [(hfault.process_eq store).1] at hdone
    cases hdone

/-- Two credentials meet at one path, and a third has no user. -/
theorem settles_of_process_ok_meeting :
    ∃ frontend credentials writes, AllRead frontend
      (Trial.ad "client" [("1", "proxy", "class"), ("1_compressed", "token", "class"),
        ("2", "key", "none")]) ["1", "1_compressed", "2"] credentials ∧
      Settles Store.trial.directoryOf Trial.factory.policy "name" "client" credentials
        [⟨"1", "user", ⟨"users/credential_client_1"⟩, ⟨"users/credential_client_1_compressed"⟩⟩,
          ⟨"1_compressed", "user", ⟨"users/credential_client_1_compressed"⟩,
            ⟨"users/credential_client_1_compressed_compressed"⟩⟩]
        [.mapping "client" "2" "none"] writes := by
  have hids : (Trial.ad "client" [("1", "proxy", "class"), ("1_compressed", "token", "class"),
      ("2", "key", "none")]).credentialIds = ["1", "1_compressed", "2"] := by decide +kernel
  obtain ⟨frontend, credentials, writes, -, -, -, -, hread, hsettles, -⟩ :=
    settles_of_process_ok Trial.factory Store.trial
      (Trial.ad "client" [("1", "proxy", "class"), ("1_compressed", "token", "class"),
        ("2", "key", "none")])
      { client := "client"
        securityName := "name"
        persisted :=
          [⟨"1", "user", ⟨"users/credential_client_1"⟩,
              ⟨"users/credential_client_1_compressed"⟩⟩,
            ⟨"1_compressed", "user", ⟨"users/credential_client_1_compressed"⟩,
              ⟨"users/credential_client_1_compressed_compressed"⟩⟩]
        skipped := [.mapping "client" "2" "none"] } (by decide +kernel)
  rw [hids] at hread
  exact ⟨frontend, credentials, writes, hread, hsettles⟩

end CredentialIntake.Intake
