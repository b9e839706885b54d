import CredentialIntake.Proofs.ByteOrder
import CredentialIntake.Proofs.Reprocessing

/-!
# Every embedded credential, once

The ids of a request are what stands behind a fixed lead in the names of its
attributes.  Names behind one lead are ordered as the whole names are, and the
lead put before an id again gives the attribute it was found by.  So the security
class of a credential is there whenever it is looked up, also where one attribute
serves two ids in different parts, and the credentials are taken one after the
other: none is lost and none comes twice.
-/

namespace CredentialIntake

namespace ClassAd

theorem mem_credentialIds_iff_contains (ad : ClassAd) (id : String) :
    id ∈ ad.credentialIds ↔ ad.contains (securityClassKey id) = true := by
  rw [mem_credentialIds_iff, get?, contains, Std.ExtTreeMap.contains_eq_isSome_getElem?]

/-- The attributes of two ids are ordered as the ids. -/
theorem strictMono_securityClassKey : StrictMono securityClassKey := by
  intro left right hlt
  rw [String.lt_iff_toList_lt] at hlt ⊢
  rw [securityClassKey, securityClassKey, String.toList_append, String.toList_append]
  exact List.append_left_lt hlt

theorem pairwise_lt_credentialIds (ad : ClassAd) : ad.credentialIds.Pairwise (· < ·) :=
  ad.pairwise_credentialIds.imp fun hlt =>
    strictMono_securityClassKey.lt_iff_lt.1 (compare_lt_iff_lt.1 hlt)

end ClassAd

/-- The credential an error is about, if it is about one. -/
def IntakeError.credentialId? : IntakeError → Option String
  | .mapping _ id _ => some id
  | _ => none

namespace Intake

open Store

/-! ## Credentials in their turn -/

/-- The credential a disposition is of. -/
def Disposition.id? : Disposition → Option String
  | staged credential => some credential.id
  | skipped error => error.credentialId?

/-- Staging takes the credentials of the ids one after the other, each once, up to
the last or to a first one with a fault. -/
inductive TakesInTurn (policy : FrontendPolicy) (frontend : AuthenticatedFrontend) (ad : ClassAd)
    (client : String) : List String → Staging → Prop where
  | finished {ids : List String} {credentials : List Embedded} :
      AllRead frontend ad ids credentials →
      TakesInTurn policy frontend ad client ids
        ⟨credentials.map (·.disposition policy frontend.securityName client), none⟩
  | stopped {taken left : List String} {id : String} {credentials : List Embedded}
      {error : IntakeError} :
      AllRead frontend ad taken credentials → CredentialFault frontend ad id error →
      TakesInTurn policy frontend ad client (taken ++ id :: left)
        ⟨credentials.map (·.disposition policy frontend.securityName client), some error⟩

section Turns

variable {policy : FrontendPolicy} {frontend : AuthenticatedFrontend} {ad : ClassAd}
  {client : String} {ids : List String} {staging : Staging}

theorem takesInTurn_stageAll (policy : FrontendPolicy) (frontend : AuthenticatedFrontend)
    (client : String)
    (hannounced : ∀ id ∈ ids, (ad.get? (ClassAd.securityClassKey id)).isSome) :
    TakesInTurn policy frontend ad client ids (stageAll policy frontend ad client ids) := by
  rcases allRead_or_fault frontend ad hannounced with
    ⟨credentials, hread⟩ | ⟨taken, id, left, error, rfl, ⟨credentials, hread⟩, hfault⟩
  · rw [stageAll_of_allRead hread]
    exact .finished hread
  · rw [stageAll_of_fault policy client left hread hfault]
    exact .stopped hread hfault

theorem AllRead.map_id?_disposition {credentials : List Embedded}
    (hread : AllRead frontend ad ids credentials) (securityName : String) :
    (credentials.map (·.disposition policy securityName client)).map (·.id?) = ids.map some := by
  rw [← hread.map_id, List.map_map, List.map_map]
  apply List.map_congr_left
  intro credential hmem
  rw [Function.comp_apply, Embedded.disposition]
  cases credential.username? policy securityName <;> rfl

theorem TakesInTurn.sublist (hturns : TakesInTurn policy frontend ad client ids staging) :
    (staging.dispositions.map (·.id?)).Sublist (ids.map some) := by
  cases hturns with
  | finished hread => rw [hread.map_id?_disposition]
  | stopped hread hfault =>
    rw [hread.map_id?_disposition, List.map_append]
    exact List.sublist_append_left _ _

theorem TakesInTurn.all_of_no_fault (hturns : TakesInTurn policy frontend ad client ids staging)
    (hfault : staging.fault = none) : staging.dispositions.map (·.id?) = ids.map some := by
  cases hturns with
  | finished hread => exact hread.map_id?_disposition _
  | stopped => cases hfault

end Turns

/-! ## What is kept and what is left out -/

/-- The credentials a report tells of, the kept ones first. -/
def Report.concerned (report : Report) : List (Option String) :=
  report.persisted.map (fun kept => some kept.id) ++ report.skipped.map (·.credentialId?)

theorem sublist_skipped (dispositions : List Disposition) :
    ((dispositions.filterMap (·.skipped?)).map (·.credentialId?)).Sublist
      (dispositions.map (·.id?)) := by
  induction dispositions with
  | nil => exact .slnil
  | cons disposition rest ih =>
    cases disposition with
    | staged credential => exact ih.cons _
    | skipped error => exact ih.cons_cons _

/-- Each disposition goes to one of the two parts of a report. -/
theorem perm_staged_skipped (directoryOf : String → Path) (client : String)
    (dispositions : List Disposition) :
    ((Plan.persisted directoryOf client (dispositions.filterMap (·.staged?))).map
        (fun kept => some kept.id) ++
      (dispositions.filterMap (·.skipped?)).map (·.credentialId?)).Perm
        (dispositions.map (·.id?)) := by
  induction dispositions with
  | nil => exact .nil
  | cons disposition rest ih =>
    cases disposition with
    | staged credential => exact ih.cons _
    | skipped error => exact List.perm_middle.trans (ih.cons _)

section Requests

variable {factory : Factory} {directoryOf : String → Path} {store : Store} {ad : ClassAd}
  {report : Report} {writes : List FileWrite}

theorem takesInTurn_credentialIds (policy : FrontendPolicy) (frontend : AuthenticatedFrontend)
    (ad : ClassAd) (client : String) :
    TakesInTurn policy frontend ad client ad.credentialIds
      (stageAll policy frontend ad client ad.credentialIds) :=
  takesInTurn_stageAll policy frontend client fun _ hid => ClassAd.mem_credentialIds_iff.1 hid

theorem sublist_skipped_ofRequest (factory : Factory) (directoryOf : String → Path)
    (ad : ClassAd) :
    ((Plan.ofRequest factory directoryOf ad).skipped.map (·.credentialId?)).Sublist
      (ad.credentialIds.map some) := by
  have horigin := Plan.origin_ofRequest factory directoryOf ad
  generalize Plan.ofRequest factory directoryOf ad = plan at horigin ⊢
  cases horigin with
  | untrusted => exact List.nil_sublist _
  | unnamed => exact List.nil_sublist _
  | staged hadmitted hclient =>
    exact (sublist_skipped _).trans (takesInTurn_credentialIds _ _ ad _).sublist

/-- A plan that is let through is about all credentials, and writes the files of
those it keeps. -/
theorem settled_of_decision
    (hplan : (Plan.ofRequest factory directoryOf ad).decision = .ok (report, writes)) :
    report.concerned.Perm (ad.credentialIds.map some) ∧ writes.map (·.path) = report.paths := by
  have horigin := Plan.origin_ofRequest factory directoryOf ad
  generalize Plan.ofRequest factory directoryOf ad = plan at horigin hplan
  cases horigin with
  | untrusted => cases hplan
  | unnamed => cases hplan
  | @staged frontend client hadmitted hclient =>
    have hturns := takesInTurn_credentialIds factory.policy frontend ad client
    generalize stageAll factory.policy frontend ad client ad.credentialIds = staging
      at hturns hplan
    simp only [Plan.ofStaging] at hplan
    split at hplan
    · cases hplan
    next hfault =>
      split at hplan
      · obtain ⟨rfl, rfl⟩ := Prod.mk.inj (Except.ok.inj hplan)
        constructor
        · rw [← hturns.all_of_no_fault hfault]
          exact perm_staged_skipped directoryOf client staging.dispositions
        · rw [Plan.writes, List.map_flatMap, Report.paths, Plan.persisted, List.flatMap_map]
          rfl
      · cases hplan

/-- The report of a successful request is that of its plan. -/
theorem exists_decision_of_process_ok (hdone : (process factory store ad).1 = .ok report) :
    ∃ writes, (Plan.ofRequest factory store.directoryOf ad).decision = .ok (report, writes) := by
  cases hplan : (Plan.ofRequest factory store.directoryOf ad).decision with
  | error error =>
    rw [process_of_refused hplan] at hdone
    cases hdone
  | ok decided =>
    obtain ⟨planned, writes⟩ := decided
    cases hrun : (begin store (Plan.ofRequest factory store.directoryOf ad)).writeAll writes with
    | mk result after =>
      cases result with
      | ok done =>
        rw [process_of_written hplan hrun] at hdone
        cases hdone
        exact ⟨writes, rfl⟩
      | error error =>
        rw [process_of_stopped hplan hrun] at hdone
        cases hdone

/-- The report of a successful request is about all credentials. -/
theorem concerned_of_process_ok (hdone : (process factory store ad).1 = .ok report) :
    report.concerned.Perm (ad.credentialIds.map some) := by
  obtain ⟨writes, hplan⟩ := exists_decision_of_process_ok hdone
  exact (settled_of_decision hplan).1

/-- The only attributes a trusted request can be found to lack are its client name
and the material of a credential. -/
theorem missing_of_process {key : String}
    (hfailed : (process factory store ad).1 =
      .error (.malformedRequest (.missingAttribute key))) :
    ad.get? key = none ∧
      (key = ClassAd.clientName ∨ ∃ id ∈ ad.credentialIds, key = ClassAd.parameterKey id) := by
  rcases accepted_or_firstFault factory ad with
    ⟨frontend, client, credentials, haccepted⟩ | ⟨error, hfault⟩
  · obtain ⟨path, fault, herror⟩ := haccepted.eq_io hfailed
    cases herror
  · rw [(hfault.process_eq store).1] at hfailed
    obtain rfl := Except.error.inj hfailed
    cases hfault with
    | untrusted hkey hauthenticate =>
      obtain ⟨cause, herror⟩ := exists_cause_of_authenticate hauthenticate
      cases herror
    | unnamed hadmitted hclient => exact ⟨hclient, Or.inl rfl⟩
    | @credential frontend client id before after _ _ hadmitted hclient hids hread hfault =>
      cases hfault with
      | materialMissing hparameter =>
        have hid : id ∈ ad.credentialIds := by
          rw [hids]
          exact List.mem_append_right before List.mem_cons_self
        exact ⟨hparameter, Or.inr ⟨id, hid, rfl⟩⟩

end Requests

/-- No embedded credential of a request is lost or comes twice. -/
structure SettlesEachOnce (factory : Factory) (store : Store) (ad : ClassAd) : Prop where
  /-- Also a request that is given up has left out no credential twice. -/
  leftOut : ((Plan.ofRequest factory store.directoryOf ad).skipped.map
    (·.credentialId?)).Sublist (ad.credentialIds.map some)
  /-- Before the first write each credential is to be kept or left out, and each one
  to be kept is written to its two files, also if one of the writes fails. -/
  decided : ∀ report writes,
    (Plan.ofRequest factory store.directoryOf ad).decision = .ok (report, writes) →
      report.concerned.Perm (ad.credentialIds.map some) ∧ writes.map (·.path) = report.paths
  reported : ∀ report, (process factory store ad).1 = .ok report →
    report.concerned.Perm (ad.credentialIds.map some)
  /-- A trusted request is given up for lacking its client name or the material of a
  credential, never for a security class that is looked up.  That material can have
  the name of a security class as well, but of an id that is not announced. -/
  missing : ∀ key,
    (process factory store ad).1 = .error (.malformedRequest (.missingAttribute key)) →
      ad.get? key = none ∧
        (key = ClassAd.clientName ∨ ∃ id ∈ ad.credentialIds, key = ClassAd.parameterKey id)

/-- The ids of a request ascend in the order of their bytes and are those that a
security class attribute announces, whatever their form.  So the security class of
each is found, the credentials are taken in the order of the ids, and all that are
embedded are settled once. -/
theorem credentials_enumerated_exactly (ad : ClassAd) :
    ad.credentialIds.Pairwise (fun left right => Bytes.ofText left < Bytes.ofText right) ∧
    ad.credentialIds.Nodup ∧
    (∀ id, id ∈ ad.credentialIds ↔ ad.contains (ClassAd.securityClassKey id) = true) ∧
    (∀ id ∈ ad.credentialIds, ∃ ciphertext,
      requireAttribute ad (ClassAd.securityClassKey id) = .ok ciphertext) ∧
    (∀ policy frontend client, TakesInTurn policy frontend ad client ad.credentialIds
      (stageAll policy frontend ad client ad.credentialIds)) ∧
    ∀ factory store, SettlesEachOnce factory store ad := by
  have hascending := ad.pairwise_lt_credentialIds
  refine ⟨hascending.imp Bytes.ofText_lt_ofText, hascending.imp ne_of_lt,
    ad.mem_credentialIds_iff_contains, ?_, ?_, ?_⟩
  · intro id hid
    obtain ⟨ciphertext, hclass⟩ :=
      Option.isSome_iff_exists.1 (ClassAd.mem_credentialIds_iff.1 hid)
    exact ⟨ciphertext, by rw [requireAttribute, hclass]⟩
  · intro policy frontend client
    exact takesInTurn_credentialIds policy frontend ad client
  · intro factory store
    exact
      { leftOut := sublist_skipped_ofRequest factory store.directoryOf ad
        decided := fun report writes hplan => settled_of_decision hplan
        reported := fun report hdone => concerned_of_process_ok hdone
        missing := fun key hfailed => missing_of_process hfailed }

/-- Ids nested in one another: the material of the second is the security class of
the first, and that of the third the security name of the request. -/
def Trial.nestedAd : ClassAd :=
  Trial.ad "client" [("", "proxy", "class"), ("SecurityClass", "class", "none"),
    ("SecurityName", "name", "class")]

theorem credentials_enumerated_exactly_nested :
    ∃ report, (process Trial.factory Store.trial Trial.nestedAd).1 = .ok report ∧
      report.concerned.Perm [some "", some "SecurityClass", some "SecurityName"] := by
  have hids : Trial.nestedAd.credentialIds = ["", "SecurityClass", "SecurityName"] := by
    decide +kernel
  have hdone : (process Trial.factory Store.trial Trial.nestedAd).1 = .ok
      { client := "client"
        securityName := "name"
        persisted :=
          [⟨"", "user", ⟨"users/credential_client_"⟩, ⟨"users/credential_client__compressed"⟩⟩,
            ⟨"SecurityName", "user", ⟨"users/credential_client_SecurityName"⟩,
              ⟨"users/credential_client_SecurityName_compressed"⟩⟩]
        skipped := [.mapping "client" "SecurityClass" "none"] } := by decide +kernel
  obtain ⟨-, -, -, -, -, hsettles⟩ := credentials_enumerated_exactly Trial.nestedAd
  refine ⟨_, hdone, ?_⟩
  have hperm := (hsettles Trial.factory Store.trial).reported _ hdone
  rwa [hids] at hperm

end Intake

end CredentialIntake
