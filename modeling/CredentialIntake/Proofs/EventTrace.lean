import CredentialIntake.Proofs.FirstFaults
import CredentialIntake.Proofs.PoolResults
import CredentialIntake.Proofs.Warnings

/-!
# What is reported of requests and batches

A request reports the credentials it leaves out, then each file that was replaced
without a copy, and at its end, if it fails, that it was given up.  Faults pass
through many hands on their way, and skips may stand before a fault of a later
credential, but each is reported once.  A batch with one worker reports its
requests one after the other and the totals after that.
-/

namespace CredentialIntake.Intake

open Store

/-! ## Credentials left out -/

/-- The credentials that are looked at: those of the first ids, up to one that
does not decrypt. -/
def reached (frontend : AuthenticatedFrontend) (ad : ClassAd) (ids : List String) :
    List Embedded :=
  ((ids.map (Embedded.read? frontend ad)).takeWhile Option.isSome).reduceOption

/-- What a request leaves out before it stops or its files are written. -/
inductive LeavesOut (factory : Factory) (ad : ClassAd) : List IntakeError → Prop where
  | untrusted : (∀ frontend, ¬ Admitted factory ad frontend) → LeavesOut factory ad []
  | unnamed : ad.get? ClassAd.clientName = none → LeavesOut factory ad []
  | lookedAt {frontend : AuthenticatedFrontend} {client : String} :
      Admitted factory ad frontend → ad.get? ClassAd.clientName = some client →
      LeavesOut factory ad
        ((reached frontend ad ad.credentialIds).filterMap
          (·.skipped? factory.policy frontend.securityName client))

section Reached

variable {policy : FrontendPolicy} {frontend : AuthenticatedFrontend} {ad : ClassAd}
  {client id : String} {ids : List String}

theorem reached_cons_of_read {credential : Embedded}
    (hread : Embedded.read? frontend ad id = some credential) :
    reached frontend ad (id :: ids) = credential :: reached frontend ad ids := by
  rw [reached, List.map_cons, hread, List.takeWhile_cons_of_pos rfl,
    List.reduceOption_cons_of_some]
  rfl

theorem reached_cons_of_unread (hread : Embedded.read? frontend ad id = none) :
    reached frontend ad (id :: ids) = [] := by
  rw [reached, List.map_cons, hread, List.takeWhile_cons_of_neg (by simp)]
  rfl

theorem AllRead.reached_eq {credentials : List Embedded}
    (hread : AllRead frontend ad ids credentials) : reached frontend ad ids = credentials := by
  induction hread with
  | nil => rfl
  | cons hfirst hrest ih => rw [reached_cons_of_read hfirst, ih]

theorem dispositions_stageAll
    (hannounced : ∀ id ∈ ids, (ad.get? (ClassAd.securityClassKey id)).isSome) :
    (stageAll policy frontend ad client ids).dispositions =
      (reached frontend ad ids).map (·.disposition policy frontend.securityName client) := by
  induction ids with
  | nil => rfl
  | cons id rest ih =>
    rw [List.forall_mem_cons] at hannounced
    cases hread : Embedded.read? frontend ad id with
    | none =>
      obtain ⟨error, hfault⟩ := exists_fault_of_unreadable hannounced.1 hread
      rw [stageAll, stage_of_fault hfault, reached_cons_of_unread hread]
      rfl
    | some credential =>
      rw [stageAll, stage_of_read hread, reached_cons_of_read hread, List.map_cons,
        ← ih hannounced.2]

private theorem skipped?_disposition (credential : Embedded) (securityName : String) :
    (credential.disposition policy securityName client).skipped? =
      credential.skipped? policy securityName client := by
  rw [Embedded.disposition, Embedded.skipped?]
  cases credential.username? policy securityName <;> rfl

end Reached

theorem leavesOut_ofRequest (factory : Factory) (directoryOf : String → Path) (ad : ClassAd) :
    LeavesOut factory ad (Plan.ofRequest factory directoryOf ad).skipped := by
  have horigin := Plan.origin_ofRequest factory directoryOf ad
  generalize Plan.ofRequest factory directoryOf ad = plan at horigin ⊢
  cases horigin with
  | untrusted hrefused => exact .untrusted hrefused
  | unnamed hclient => exact .unnamed hclient
  | @staged frontend client hadmitted hclient =>
    have hdispositions :
        (stageAll factory.policy frontend ad client ad.credentialIds).dispositions =
          (reached frontend ad ad.credentialIds).map
            (·.disposition factory.policy frontend.securityName client) :=
      dispositions_stageAll fun id hid => ClassAd.mem_credentialIds_iff.1 hid
    rw [Plan.ofStaging, Staging.skipped, hdispositions, List.filterMap_map]
    simp only [Function.comp_def, skipped?_disposition]
    exact .lookedAt hadmitted hclient

/-! ## One request -/

/-- The writes a request attempts: none if it has a fault, and else those of the
credentials that have a user. -/
inductive Attempted (factory : Factory) (store : Store) (ad : ClassAd) : List Attempt → Prop where
  | refused {error : IntakeError} : FirstFault factory ad error → Attempted factory store ad []
  | accepted {frontend : AuthenticatedFrontend} {client : String} {credentials : List Embedded} :
      Accepted factory ad frontend client credentials →
      Attempted factory store ad
        (store.attempts (Accepted.writes factory store.directoryOf frontend client credentials))

/-- What is reported at the end of a request. -/
def closing (ad : ClassAd) : Except IntakeError Report → List Event
  | .ok _ => []
  | .error error => [.requestAborted (ad.get? ClassAd.clientName) error]

/-- What the processing of a request adds to the log. -/
def eventsOf (factory : Factory) (store : Store) (ad : ClassAd) : List Event :=
  (process factory store ad).2.log.drop store.log.length

section Requests

variable {factory : Factory} {store : Store} {ad : ClassAd}

theorem eventsOf_eq {events : List Event}
    (hlog : (process factory store ad).2.log = store.log ++ events) :
    eventsOf factory store ad = events := by
  rw [eventsOf, hlog, List.drop_left]

theorem FirstFault.log_process {error : IntakeError} (hfault : FirstFault factory ad error) :
    (process factory store ad).2.log =
      store.log ++ (Plan.ofRequest factory store.directoryOf ad).skipped.map .credentialSkipped ++
        closing ad (process factory store ad).1 := by
  rw [process_of_refused (hfault.decision_eq store.directoryOf)]
  rfl

theorem Accepted.log_process {frontend : AuthenticatedFrontend} {client : String}
    {credentials : List Embedded} (haccepted : Accepted factory ad frontend client credentials) :
    (process factory store ad).2.log =
      store.log ++
        (credentials.filterMap (·.skipped? factory.policy frontend.securityName client)).map
          .credentialSkipped ++
        (store.attempts (writes factory store.directoryOf frontend client
          credentials)).filterMap (·.warning?) ++
        closing ad (process factory store ad).1 := by
  have hrun := log_writeAll (begun store factory.policy frontend.securityName client credentials)
    (writes factory store.directoryOf frontend client credentials)
  have hholdings :
      (begun store factory.policy frontend.securityName client credentials).holdings =
        store.holdings := rfl
  rw [attempts_congr hholdings] at hrun
  rw [haccepted.process_eq store]
  cases hwrites : (begun store factory.policy frontend.securityName client credentials).writeAll
      (writes factory store.directoryOf frontend client credentials) with
  | mk result after =>
    rw [hwrites] at hrun
    cases result with
    | ok done => exact hrun.trans (List.append_nil _).symm
    | error error => exact congrArg (· ++ [.requestAborted (ad.get? ClassAd.clientName) error]) hrun

/-- The events of a request: the credentials left out, the warnings of its
writes, and its end. -/
theorem exists_log_process (factory : Factory) (store : Store) (ad : ClassAd) :
    ∃ skipped attempted, LeavesOut factory ad skipped ∧ Attempted factory store ad attempted ∧
      (process factory store ad).2.log =
        store.log ++ (skipped.map .credentialSkipped ++ attempted.filterMap (·.warning?) ++
          closing ad (process factory store ad).1) := by
  rcases accepted_or_firstFault factory ad with
    ⟨frontend, client, credentials, haccepted⟩ | ⟨error, hfault⟩
  · have hreached := haccepted.deciphered.read.reached_eq
    refine ⟨_, _, .lookedAt haccepted.deciphered.admitted haccepted.deciphered.named,
      .accepted haccepted, ?_⟩
    rw [hreached, haccepted.log_process]
    simp only [List.append_assoc]
  · refine ⟨_, [], leavesOut_ofRequest factory store.directoryOf ad, .refused hfault, ?_⟩
    rw [hfault.log_process]
    simp only [List.filterMap_nil, List.append_nil, List.append_assoc]

theorem log_process_eq (factory : Factory) (store : Store) (ad : ClassAd) :
    (process factory store ad).2.log = store.log ++ eventsOf factory store ad := by
  obtain ⟨skipped, attempted, -, -, hlog⟩ := exists_log_process factory store ad
  rw [eventsOf_eq hlog, hlog]

end Requests

/-! ### By level -/

/-- Each failure of a request is among its events once: a credential left out and
the fault of the request as an error, a file replaced without a copy as a warning. -/
structure ReportedOnce (ad : ClassAd) (result : Except IntakeError Report)
    (skipped : List IntakeError) (attempted : List Attempt) (events : List Event) : Prop where
  errors : (events.filter fun event => event.level = .error) =
    skipped.map .credentialSkipped ++ closing ad result
  warnings : (events.filter fun event => event.level = .warn) =
    attempted.filterMap (·.warning?)
  infos : (events.filter fun event => event.level = .info) = []
  /-- The last error names the client and the fault that the request is answered with. -/
  named : ∀ event ∈ closing ad result, ∃ error, result = .error error ∧
    event.message = "error processing globals classad from client " ++
      (ad.get? ClassAd.clientName).getD "<unknown>" ++ ": " ++ error.message

theorem filter_level_self {events : List Event} {level : Event.Level}
    (hlevel : ∀ event ∈ events, event.level = level) :
    (events.filter fun event => event.level = level) = events := by
  rw [List.filter_eq_self]
  intro event hevent
  exact decide_eq_true (hlevel event hevent)

theorem filter_level_other {events : List Event} {level other : Event.Level}
    (hlevel : ∀ event ∈ events, event.level = level) (hother : level ≠ other) :
    (events.filter fun event => event.level = other) = [] := by
  rw [List.filter_eq_nil_iff]
  intro event hevent
  rw [hlevel event hevent, decide_eq_true_iff]
  exact hother

theorem exists_of_mem_closing {ad : ClassAd} {result : Except IntakeError Report} {event : Event}
    (hmem : event ∈ closing ad result) :
    ∃ error, result = .error error ∧
      event = .requestAborted (ad.get? ClassAd.clientName) error := by
  cases result with
  | ok report => cases hmem
  | error error => exact ⟨error, rfl, List.mem_singleton.1 hmem⟩

theorem reportedOnce (ad : ClassAd) (result : Except IntakeError Report)
    (skipped : List IntakeError) (attempted : List Attempt) :
    ReportedOnce ad result skipped attempted
      (skipped.map .credentialSkipped ++ attempted.filterMap (·.warning?) ++
        closing ad result) := by
  have hskipped : ∀ event ∈ skipped.map Event.credentialSkipped, event.level = .error := by
    intro event hevent
    obtain ⟨error, -, rfl⟩ := List.mem_map.1 hevent
    rfl
  have hwarnings : ∀ event ∈ attempted.filterMap (·.warning?), event.level = .warn := by
    intro event hevent
    obtain ⟨attempt, -, hwarning⟩ := List.mem_filterMap.1 hevent
    exact level_of_warning? hwarning
  have hclosing : ∀ event ∈ closing ad result, event.level = .error := by
    intro event hevent
    obtain ⟨error, -, rfl⟩ := exists_of_mem_closing hevent
    rfl
  refine ⟨?_, ?_, ?_, ?_⟩
  · rw [List.filter_append, List.filter_append, filter_level_self hskipped,
      filter_level_other hwarnings (by decide), filter_level_self hclosing, List.append_nil]
  · rw [List.filter_append, List.filter_append, filter_level_other hskipped (by decide),
      filter_level_self hwarnings, filter_level_other hclosing (by decide), List.nil_append,
      List.append_nil]
  · rw [List.filter_append, List.filter_append, filter_level_other hskipped (by decide),
      filter_level_other hwarnings (by decide), filter_level_other hclosing (by decide)]
    rfl
  · intro event hevent
    obtain ⟨error, hresult, rfl⟩ := exists_of_mem_closing hevent
    exact ⟨error, hresult, rfl⟩

/-! ## Batches -/

/-- The requests of a batch, each with the store it is processed in, when one is
processed after the other. -/
def turns (factory : Factory) (store : Store) : List ClassAd → List (Store × ClassAd)
  | [] => []
  | ad :: rest => (store, ad) :: turns factory (process factory store ad).2 rest

/-- The results of requests processed one after the other. -/
def resultsOf (factory : Factory) (store : Store) (ads : List ClassAd) :
    List (Except IntakeError Report) :=
  (turns factory store ads).map fun turn => (process factory turn.1 turn.2).1

theorem processFrom_trace (factory : Factory) (index : Nat) (store : Store)
    (ads : List ClassAd) :
    (processFrom factory index store ads).1.map (·.result) = resultsOf factory store ads ∧
      (processFrom factory index store ads).2.log =
        store.log ++ (turns factory store ads).flatMap
          fun turn => eventsOf factory turn.1 turn.2 := by
  induction ads generalizing index store with
  | nil => exact ⟨rfl, (List.append_nil _).symm⟩
  | cons ad rest ih =>
    obtain ⟨hresults, hlog⟩ := ih (index + 1) (process factory store ad).2
    constructor
    · exact congrArg ((process factory store ad).1 :: ·) hresults
    · rw [turns, List.flatMap_cons, ← List.append_assoc, ← log_process_eq]
      exact hlog

/-- The summary counts these results. -/
structure Tallies (summary : Summary) (results : List (Except IntakeError Report)) : Prop where
  succeeded : summary.succeeded = results.countP (·.isOk)
  failed : summary.failed = results.countP (!·.isOk)
  persisted : summary.persisted =
    ((results.filterMap (·.toOption)).map fun report => report.persisted.length).sum

theorem tallies_ofOutcomes (outcomes : List Outcome) :
    Tallies (Summary.ofOutcomes outcomes) (outcomes.map (·.result)) := by
  have hperm : (Summary.ofOutcomes outcomes).outcomes.Perm outcomes := List.mergeSort_perm _ _
  have hsucceeded : (Summary.ofOutcomes outcomes).succeeded =
      (outcomes.map (·.result)).countP (·.isOk) := by
    rw [Summary.succeeded, hperm.countP_eq, List.countP_map]
    rfl
  refine ⟨hsucceeded, ?_, ?_⟩
  · have htotal := (Summary.ofOutcomes outcomes).succeeded_add_failed
    have hnot : (fun result : Except IntakeError Report => !result.isOk) =
        fun result => decide ¬ result.isOk = true := by
      funext result
      cases result.isOk <;> rfl
    have hlength : outcomes.length = (outcomes.map (·.result)).countP (·.isOk) +
        (outcomes.map (·.result)).countP (!·.isOk) := by
      rw [hnot, ← List.length_eq_countP_add_countP, List.length_map]
    rw [hsucceeded, hperm.length_eq] at htotal
    omega
  · rw [Summary.persisted_eq, ((hperm.filterMap _).map _).sum_eq, List.filterMap_map]
    rfl

theorem workersFor_one (requests : Nat) : workersFor requests 1 = 1 := by
  rw [workersFor]
  omega

/-- Each failure is reported once.  A request reports the credentials it leaves
out, the files it replaced without a copy, and, if it fails, that it was given up
and why; nothing else.  A batch with one worker reports its requests one after
the other and the totals of their results after that, and without a factory key
it reports that it was not begun. -/
theorem process_logs_each_failure_once (factory : Factory) (store : Store) :
    (∀ ad, ∃ skipped attempted, LeavesOut factory ad skipped ∧
      Attempted factory store ad attempted ∧
      (process factory store ad).2.log = store.log ++ eventsOf factory store ad ∧
      ReportedOnce ad (process factory store ad).1 skipped attempted
        (eventsOf factory store ad)) ∧
    (∀ ads, factory.key ≠ none → ∃ summary,
      (processBatch factory store ads 1).1 = .ok summary ∧
      Tallies summary (resultsOf factory store ads) ∧
      let last := Event.batchDone ads.length summary.succeeded summary.failed summary.persisted
      last.level = .info ∧
      (processBatch factory store ads 1).2.log =
        store.log ++ ((turns factory store ads).flatMap
          fun turn => eventsOf factory turn.1 turn.2) ++ [last]) ∧
    ∀ ads workers, factory.key = none →
      let error := IntakeError.configuration .missingFactoryKey
      let only := Event.batchRefused ads.length error
      only.level = .error ∧
      (processBatch factory store ads workers).1 = .error error ∧
      (processBatch factory store ads workers).2.log = store.log ++ [only] := by
  refine ⟨?_, ?_, ?_⟩
  · intro ad
    obtain ⟨skipped, attempted, hskipped, hattempted, hlog⟩ := exists_log_process factory store ad
    refine ⟨skipped, attempted, hskipped, hattempted, log_process_eq factory store ad, ?_⟩
    rw [eventsOf_eq hlog]
    exact reportedOnce ad _ skipped attempted
  · intro ads hkey
    obtain ⟨key, hfound⟩ := Option.ne_none_iff_exists'.1 hkey
    obtain ⟨hresults, hlog⟩ := processFrom_trace factory 0 store ads
    have htallies := tallies_ofOutcomes (processFrom factory 0 store ads).1
    rw [hresults] at htallies
    rw [processBatch, Factory.requireKey, hfound]
    simp only [workersFor_one, if_true]
    refine ⟨_, rfl, htallies, rfl, ?_⟩
    rw [report, hlog]
    rfl
  · intro ads workers hkey
    rw [processBatch, Factory.requireKey, hkey]
    exact ⟨rfl, rfl, rfl⟩

/-- The first credential has no user, and the second one does not decrypt. -/
example :
    eventsOf Trial.factory Store.trial
        (Trial.ad "client" [("1", "proxy", "none"), ("2", "", "class")]) =
      [.credentialSkipped (.mapping "client" "1" "none"),
        .requestAborted (some "client")
          (.authentication (.undecryptable "GlideinEncParam2"))] := by
  decide +kernel

end CredentialIntake.Intake
