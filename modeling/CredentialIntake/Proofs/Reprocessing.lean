import CredentialIntake.Proofs.Holdings
import CredentialIntake.Proofs.Results

/-!
# Requests that come again

Once a request has been carried out, and no two of its files are the same, all
of them hold what it brings.  When it comes again, each of its writes therefore
finds its content in place: the report is the same, no file changes, and two
unchanged files are counted for each credential kept.
-/

namespace CredentialIntake.Intake

open Store FileTree

/-- The files a report names, two for each credential kept. -/
def Report.paths (report : Report) : List Path :=
  report.persisted.flatMap fun kept => [kept.files.raw, kept.files.compressed]

theorem Report.length_paths (report : Report) :
    report.paths.length = 2 * report.persisted.length := by
  rw [Report.paths]
  induction report.persisted with
  | nil => rfl
  | cons kept rest ih =>
      rw [List.flatMap_cons, List.length_append, ih, List.length_cons]
      simp only [List.length_cons, List.length_nil]
      omega

variable {factory : Factory} {store : Store} {ad : ClassAd} {frontend : AuthenticatedFrontend}
  {client : String} {credentials : List Embedded} {report : Report}

/-- The files of the report are the files written, in their order. -/
theorem path_map_writes (factory : Factory) (directoryOf : String → Path)
    (frontend : AuthenticatedFrontend) (client : String) (credentials : List Embedded) :
    (Accepted.writes factory directoryOf frontend client credentials).map (·.path) =
      (reportOf directoryOf factory.policy frontend.securityName client credentials).paths := by
  rw [Accepted.writes, depositWrites, List.map_flatMap, Report.paths, persisted_reportOf,
    List.flatMap_map]
  rfl

theorem directoryOf_process (haccepted : Accepted factory ad frontend client credentials)
    (store : Store) : (process factory store ad).2.directoryOf = store.directoryOf := by
  have hrun := directoryOf_writeAll
    (begun store factory.policy frontend.securityName client credentials)
    (Accepted.writes factory store.directoryOf frontend client credentials)
  rw [haccepted.process_eq store]
  generalize (begun store factory.policy frontend.securityName client credentials).writeAll
    (Accepted.writes factory store.directoryOf frontend client credentials) = ended at hrun ⊢
  obtain ⟨result, after⟩ := ended
  cases result <;> exact hrun

/-- A request that has been carried out, and comes again, changes nothing and
counts its files as unchanged. -/
theorem process_again (factory : Factory) (store : Store) (ad : ClassAd) (report : Report)
    (hdone : (process factory store ad).1 = .ok report)
    (hdistinct : report.paths.Pairwise fun left right =>
      store.tree.target? left ≠ store.tree.target? right) :
    (process factory (process factory store ad).2 ad).1 = .ok report ∧
      (process factory (process factory store ad).2 ad).2.tree =
        (process factory store ad).2.tree ∧
      (process factory (process factory store ad).2 ad).2.counters =
        { (process factory store ad).2.counters with
          unchanged :=
            (process factory store ad).2.counters.unchanged + 2 * report.persisted.length } := by
  rcases accepted_or_firstFault factory ad with
    ⟨frontend, client, credentials, haccepted⟩ | ⟨error, hfault⟩
  · obtain ⟨hrun, rfl⟩ := haccepted.process_eq_ok_iff.1 hdone
    have hwritten :
        ∀ write ∈ Accepted.writes factory store.directoryOf frontend client credentials,
          (process factory store ad).2.tree.Holds write.path write.content := by
      intro write hmem
      rw [haccepted.tree_process store]
      rw [← path_map_writes, List.pairwise_map] at hdistinct
      exact writeAll_holds_of_pairwise hrun (siblingFree_writes haccepted _ _) hdistinct hmem
    have hsame := directoryOf_process haccepted store
    generalize (process factory store ad).2 = done at hwritten hsame ⊢
    have hagain := writeAll_of_holds
      (begun done factory.policy frontend.securityName client credentials) hwritten
    have hlength : (Accepted.writes factory store.directoryOf frontend client credentials).length =
        2 * (reportOf store.directoryOf factory.policy frontend.securityName client
          credentials).persisted.length := by
      rw [← Report.length_paths, ← path_map_writes, List.length_map]
    rw [hlength] at hagain
    rw [haccepted.process_eq done, hsame]
    generalize (begun done factory.policy frontend.securityName client credentials).writeAll
      (Accepted.writes factory store.directoryOf frontend client credentials) = ended at hagain ⊢
    obtain ⟨result, after⟩ := ended
    obtain ⟨rfl, hafter⟩ := hagain
    exact ⟨rfl, congrArg Holdings.tree hafter, congrArg Holdings.counters hafter⟩
  · rw [(hfault.process_eq store).1] at hdone
    cases hdone

/-- One of the files is there with other bytes when the request comes first. -/
private def updatedStore : Store :=
  { Store.trial with
    tree := Store.trial.tree.insert ["users", "credential_client_1"]
      (.file ⟨0o640, Bytes.ofText "before"⟩) }

private def updatedAd : ClassAd :=
  Trial.ad "client" [("1", "proxy", "class"), ("2", "key", "class")]

private def updatedReport : Report where
  client := "client"
  securityName := "name"
  persisted :=
    [⟨"1", "user", ⟨"users/credential_client_1"⟩, ⟨"users/credential_client_1_compressed"⟩⟩,
      ⟨"2", "user", ⟨"users/credential_client_2"⟩, ⟨"users/credential_client_2_compressed"⟩⟩]
  skipped := []

/-- A file is replaced and three are created; again, all four are unchanged. -/
theorem process_again_updated :
    (process Trial.factory updatedStore updatedAd).1 = .ok updatedReport ∧
      updatedReport.paths.Pairwise (fun left right =>
        updatedStore.tree.target? left ≠ updatedStore.tree.target? right) ∧
      (process Trial.factory updatedStore updatedAd).2.counters = ⟨3, 1, 0, 0⟩ ∧
      (process Trial.factory (process Trial.factory updatedStore updatedAd).2 updatedAd).1 =
        .ok updatedReport ∧
      (process Trial.factory (process Trial.factory updatedStore updatedAd).2 updatedAd).2.tree =
        (process Trial.factory updatedStore updatedAd).2.tree ∧
      (process Trial.factory (process Trial.factory updatedStore updatedAd).2
        updatedAd).2.counters = ⟨3, 1, 4, 0⟩ := by
  have hdone : (process Trial.factory updatedStore updatedAd).1 = .ok updatedReport := by
    decide +kernel
  have hdistinct : updatedReport.paths.Pairwise fun left right =>
      updatedStore.tree.target? left ≠ updatedStore.tree.target? right := by decide +kernel
  have hcounters : (process Trial.factory updatedStore updatedAd).2.counters = ⟨3, 1, 0, 0⟩ := by
    decide +kernel
  obtain ⟨hreport, htree, hagain⟩ :=
    process_again Trial.factory updatedStore updatedAd updatedReport hdone hdistinct
  refine ⟨hdone, hdistinct, hcounters, hreport, htree, ?_⟩
  rw [hagain, hcounters]
  rfl

end CredentialIntake.Intake
