import CredentialIntake.Proofs.Planning
import CredentialIntake.Proofs.PoolResults

/-!
# Batches

A batch comes to the same however many workers process it and however they take
turns: there is one outcome for each request, in the order of the requests, and
if no two credentials bring different bytes to one file then results, files and
counters are those of a single worker.
-/

namespace CredentialIntake.Intake

open Store

/-! ## A single worker -/

namespace Pool

variable (factory : Factory) (ads : List ClassAd)

/-- What is made of a request with its writes, once it is planned. -/
private def carriedOut (store : Store) (ad : ClassAd) (report : Report)
    (writes : List FileWrite) : Except IntakeError Report × Store :=
  match store.writeAll writes with
  | (.ok (), store) => (.ok report, store)
  | (.error error, store) => (.error error, abort store ad error)

private theorem carriedOut_cons_ok {store : Store} {write : FileWrite} {outcome : WriteOutcome}
    (hfirst : (store.writeFile write).1 = .ok outcome) (ad : ClassAd) (report : Report)
    (rest : List FileWrite) :
    carriedOut store ad report (write :: rest) =
      carriedOut (store.writeFile write).2 ad report rest := by
  rw [carriedOut, writeAll_cons_ok hfirst]
  rfl

private theorem carriedOut_cons_error {store : Store} {write : FileWrite} {error : IntakeError}
    (hfirst : (store.writeFile write).1 = .error error) (ad : ClassAd) (report : Report)
    (rest : List FileWrite) :
    carriedOut store ad report (write :: rest) =
      (.error error, abort (store.writeFile write).2 ad error) := by
  rw [carriedOut, writeAll_cons_error hfirst]

private theorem run_cons_of_step? {pool next : Pool} {number : Nat}
    (hstep : step? factory ads pool number = some next) (schedule : List Nat) :
    run factory ads pool (number :: schedule) = run factory ads next schedule := by
  rw [run, List.foldl_cons, hstep]
  rfl

/-- The only worker writes on, or gives its request up. -/
private theorem step?_carryOn_cons {store after : Store} {write : FileWrite}
    {result : Except IntakeError WriteOutcome} (hresult : store.writeFile write = (result, after))
    (next index : Nat) (ad : ClassAd) (report : Report) (rest : List FileWrite)
    (collected : List Outcome) :
    step? factory ads ⟨store, next, [carryOn index ad report (write :: rest)], collected⟩ 0 =
      some (match result with
        | .ok _ => ⟨after, next, [carryOn index ad report rest], collected⟩
        | .error error =>
          ⟨abort after ad error, next, [.finished ⟨index, .error error⟩], collected⟩) := by
  simp only [step?, carryOn, List.getElem?_cons_zero, Option.bind_eq_bind, Option.bind_some,
    hresult]
  cases result <;> rfl

private theorem exists_schedule_carryOn (store : Store) (next index : Nat) (ad : ClassAd)
    (report : Report) (pending : List FileWrite) (collected : List Outcome) :
    ∃ schedule, run factory ads ⟨store, next, [carryOn index ad report pending], collected⟩
        schedule =
      ⟨(carriedOut store ad report pending).2, next, [.idle],
        collected ++ [⟨index, (carriedOut store ad report pending).1⟩]⟩ := by
  induction pending generalizing store with
  | nil => exact ⟨[0], rfl⟩
  | cons write rest ih =>
      cases hresult : store.writeFile write with
      | mk result after =>
          have hfirst : (store.writeFile write).1 = result := by rw [hresult]
          have hafter : (store.writeFile write).2 = after := by rw [hresult]
          have hstep := step?_carryOn_cons factory ads hresult next index ad report rest collected
          cases result with
          | ok outcome =>
              obtain ⟨schedule, hschedule⟩ := ih after
              refine ⟨0 :: schedule, ?_⟩
              rw [run_cons_of_step? factory ads hstep, hschedule, carriedOut_cons_ok hfirst, hafter]
          | error error =>
              refine ⟨[0, 0], ?_⟩
              rw [run_cons_of_step? factory ads hstep, carriedOut_cons_error hfirst, hafter]
              rfl

private theorem process_eq (store : Store) (ad : ClassAd) :
    process factory store ad =
      match (Plan.ofRequest factory store.directoryOf ad).decision with
      | .error error =>
        (.error error, abort (begin store (Plan.ofRequest factory store.directoryOf ad)) ad error)
      | .ok (report, writes) =>
        carriedOut (begin store (Plan.ofRequest factory store.directoryOf ad)) ad report writes :=
  rfl

private theorem step?_idle (store : Store) {next : Nat} {ad : ClassAd}
    (had : ads[next]? = some ad) (collected : List Outcome) :
    step? factory ads ⟨store, next, [.idle], collected⟩ 0 =
      some ⟨(takeUp factory store next ad).1, next + 1, [(takeUp factory store next ad).2],
        collected⟩ := by
  simp only [step?, List.getElem?_cons_zero, Option.bind_eq_bind, Option.bind_some, had]
  rfl

/-- A single worker processes the next request. -/
private theorem exists_schedule_process (store : Store) {next : Nat} {ad : ClassAd}
    (had : ads[next]? = some ad) (collected : List Outcome) :
    ∃ schedule, run factory ads ⟨store, next, [.idle], collected⟩ schedule =
      ⟨(process factory store ad).2, next + 1, [.idle],
        collected ++ [⟨next, (process factory store ad).1⟩]⟩ := by
  have hstep := step?_idle factory ads store had collected
  rw [process_eq]
  rw [takeUp] at hstep
  cases hplan : (Plan.ofRequest factory store.directoryOf ad).decision with
  | error error =>
      rw [hplan] at hstep
      refine ⟨[0, 0], ?_⟩
      rw [run_cons_of_step? factory ads hstep]
      rfl
  | ok decided =>
      rw [hplan] at hstep
      obtain ⟨schedule, hschedule⟩ := exists_schedule_carryOn factory ads
        (begin store (Plan.ofRequest factory store.directoryOf ad)) (next + 1) next ad decided.1
        decided.2 collected
      refine ⟨0 :: schedule, ?_⟩
      rw [run_cons_of_step? factory ads hstep]
      exact hschedule

/-- A single worker processes the requests that are left one after the other. -/
private theorem exists_schedule_processFrom (store : Store) {next : Nat} {left : List ClassAd}
    (hleft : ads.drop next = left) (collected : List Outcome) :
    ∃ schedule, run factory ads ⟨store, next, [.idle], collected⟩ schedule =
      ⟨(processFrom factory next store left).2, next + left.length, [.idle],
        collected ++ (processFrom factory next store left).1⟩ := by
  induction left generalizing store next collected with
  | nil =>
      refine ⟨[], ?_⟩
      rw [processFrom, List.append_nil]
      rfl
  | cons ad rest ih =>
      have had : ads[next]? = some ad := by
        rw [← List.head?_drop, hleft, List.head?_cons]
      have hrest : ads.drop (next + 1) = rest := by
        rw [← List.tail_drop, hleft, List.tail_cons]
      obtain ⟨first, hfirst⟩ := exists_schedule_process factory ads store had collected
      obtain ⟨second, hsecond⟩ := ih (process factory store ad).2 hrest
        (collected ++ [⟨next, (process factory store ad).1⟩])
      refine ⟨first ++ second, ?_⟩
      rw [run_append, hfirst, hsecond]
      simp only [processFrom, List.length_cons, List.append_assoc, List.singleton_append,
        Nat.add_assoc, Nat.add_comm 1]

/-- Processing requests one after the other is a run of a pool with one worker. -/
theorem exists_schedule_eq_processFrom (store : Store) :
    ∃ schedule, run factory ads (start store 1) schedule =
      ⟨(processFrom factory 0 store ads).2, ads.length, [.idle],
        (processFrom factory 0 store ads).1⟩ := by
  obtain ⟨schedule, hschedule⟩ :=
    exists_schedule_processFrom factory ads store (List.drop_zero (l := ads)) []
  rw [Nat.zero_add] at hschedule
  exact ⟨schedule, hschedule⟩

end Pool

/-! ## All ways to process a batch -/

/-- A way to process a batch: without a key it is refused, and else the workers take
turns until all is done. -/
inductive BatchRun (factory : Factory) (store : Store) (ads : List ClassAd) (workers : Nat) :
    Except IntakeError Summary → Store → Prop where
  | refused {error : IntakeError} :
      factory.requireKey = .error error →
      BatchRun factory store ads workers (.error error)
        (store.report [.batchRefused ads.length error])
  | finished {key : FactoryKey} {schedule : List Nat} {pool : Pool} :
      factory.requireKey = .ok key →
      (Pool.start store (workersFor ads.length workers)).run factory ads schedule = pool →
      Pool.isDone ads pool = true →
      BatchRun factory store ads workers (.ok (Summary.ofOutcomes pool.collected))
        (pool.store.report [(Summary.ofOutcomes pool.collected).event ads.length])

theorem workersFor_pos (requests workers : Nat) : 0 < workersFor requests workers :=
  Nat.lt_of_lt_of_le Nat.zero_lt_one (Nat.le_max_left 1 _)

/-- The turns of the workers that a batch is processed with are one of the ways. -/
theorem batchRun_processBatch (factory : Factory) (store : Store) (ads : List ClassAd)
    (workers : Nat) :
    BatchRun factory store ads workers (processBatch factory store ads workers).1
      (processBatch factory store ads workers).2 := by
  rw [processBatch]
  cases hkey : factory.requireKey with
  | error error => exact .refused hkey
  | ok key =>
      by_cases halone : workersFor ads.length workers = 1
      · obtain ⟨schedule, hschedule⟩ := Pool.exists_schedule_eq_processFrom factory ads store
        rw [← halone] at hschedule
        simp only [if_pos halone]
        exact .finished hkey hschedule (by simp [Pool.isDone])
      · obtain ⟨rounds, hrounds, hlong, hturns⟩ :=
          Pool.inTurns_eq_flatten ads (workersFor ads.length workers)
        have hdone := Pool.isDone_run_rounds factory ads store
          (workersFor_pos ads.length workers) [] hturns hlong.ge
        rw [List.nil_append, ← hrounds] at hdone
        simp only [if_neg halone]
        exact .finished hkey rfl hdone

/-- What a summary tells of a batch. -/
structure Summary.Accounts (factory : Factory) (directoryOf : String → Path)
    (ads : List ClassAd) (summary : Summary) : Prop where
  indexes : summary.outcomes.map (·.index) = List.range ads.length
  outcomes : ∀ outcome ∈ summary.outcomes, outcome.Sound IsFileEnding factory directoryOf ads
  total : summary.succeeded + summary.failed = ads.length
  persisted : summary.persisted =
    ((summary.outcomes.filterMap fun outcome => outcome.result.toOption).map
      fun report => report.persisted.length).sum

/-- No two credentials of a batch bring different bytes to one file, and neither the
factory nor a user has a slash in its name. -/
structure FilesAgree (config : FactoryConfig) (factory : Factory) (store : Store)
    (ads : List ClassAd) : Prop where
  directory : store.directoryOf = config.credentialDir
  glidein : '/' ∉ config.glideinName.toList
  usernames : ∀ ad ∈ ads, ∀ report writes,
    (Plan.ofRequest factory store.directoryOf ad).decision = .ok (report, writes) →
      ∀ credential ∈ report.persisted, '/' ∉ credential.username.toList
  same_content : ∀ write ∈ batchWrites factory store.directoryOf ads,
    ∀ other ∈ batchWrites factory store.directoryOf ads, ∀ place,
      store.tree.target? write.path = some place → store.tree.target? other.path = some place →
        write.content = other.content

section Runs

variable {config : FactoryConfig} {factory : Factory} {store final : Store} {ads : List ClassAd}
  {workers : Nat} {result : Except IntakeError Summary}

private theorem isCredentialWrite_of_mem_batchWrites
    (hagree : FilesAgree config factory store ads) {write : FileWrite}
    (hmem : write ∈ batchWrites factory store.directoryOf ads) :
    IsCredentialWrite config write := by
  obtain ⟨ad, had, report, writes, hplan, hwrite⟩ := hmem
  have husernames := hagree.usernames ad had report writes hplan
  obtain ⟨client, staged, -, husable, hpersisted, rfl⟩ := exists_staged_of_decision hplan
  obtain ⟨credential, hcredential, hfile⟩ := List.mem_flatMap.1 hwrite
  have husername : '/' ∉ credential.username.toList := by
    apply husernames ⟨credential.id, credential.username, _⟩
    rw [hpersisted]
    exact List.mem_map_of_mem hcredential
  have hsafe : isSafeName client = true := by
    rw [Bool.or_eq_true, List.isEmpty_iff] at husable
    exact husable.resolve_left (List.ne_nil_of_mem hcredential)
  rw [filesOf, hagree.directory, credentialFiles_eq hsafe, writesFor, List.mem_cons,
    List.mem_singleton] at hfile
  rcases hfile with rfl | rfl
  · exact ⟨credential.username, _, husername, ⟨client, credential.id, hsafe, rfl⟩, rfl⟩
  · exact ⟨credential.username, _, husername,
      ⟨client, credential.id ++ compressedMark, hsafe, rfl⟩, rfl⟩

theorem FilesAgree.concordant (hagree : FilesAgree config factory store ads) :
    Concordant config store.tree (batchWrites factory store.directoryOf ads) where
  glidein := hagree.glidein
  placed := fun _ hmem => isCredentialWrite_of_mem_batchWrites hagree hmem
  same_content := hagree.same_content

/-- Without a key no request is looked at. -/
theorem BatchRun.eq_refused (hrun : BatchRun factory store ads workers result final)
    (hkey : factory.key = none) :
    result = .error (.configuration .missingFactoryKey) ∧
      final = store.report [.batchRefused ads.length (.configuration .missingFactoryKey)] := by
  have hmissing : factory.requireKey = .error (.configuration .missingFactoryKey) := by
    rw [Factory.requireKey, hkey]
  cases hrun with
  | refused herror =>
      obtain rfl := Except.error.inj (hmissing.symm.trans herror)
      exact ⟨rfl, rfl⟩
  | finished hpresent => cases hmissing.symm.trans hpresent

/-- With a key the summary accounts for every request. -/
theorem BatchRun.accounts (hrun : BatchRun factory store ads workers result final)
    {key : FactoryKey} (hkey : factory.key = some key) :
    ∃ summary, result = .ok summary ∧ summary.Accounts factory store.directoryOf ads := by
  have hpresent : factory.requireKey = .ok key := by
    rw [Factory.requireKey, hkey]
  cases hrun with
  | refused herror => cases hpresent.symm.trans herror
  | @finished _ schedule pool _ hpool hdone =>
      have hsound := Pool.sound_run factory ads store (workersFor ads.length workers) schedule
      rw [hpool] at hsound
      have hindexes := Summary.indexes_ofOutcomes (hsound.indexes hdone)
      have hlength : (Summary.ofOutcomes pool.collected).outcomes.length = ads.length := by
        rw [← List.length_map (f := fun outcome : Outcome => outcome.index), hindexes,
          List.length_range]
      exact ⟨_, rfl,
        { indexes := hindexes
          outcomes := fun outcome hmem => hsound.collected outcome (Summary.mem_ofOutcomes.1 hmem)
          total := (Summary.succeeded_add_failed _).trans hlength
          persisted := Summary.persisted_eq _ }⟩

/-- If the files agree, two ways come to the same, also with different numbers of
workers. -/
theorem BatchRun.agree (hagree : FilesAgree config factory store ads) {others : Nat}
    {answer : Except IntakeError Summary} {left : Store}
    (hrun : BatchRun factory store ads workers result final)
    (hother : BatchRun factory store ads others answer left) :
    result = answer ∧ final.tree = left.tree ∧ final.counters = left.counters := by
  cases hrun with
  | refused hmissing =>
      cases hother with
      | refused herror =>
          obtain rfl := Except.error.inj (hmissing.symm.trans herror)
          exact ⟨rfl, rfl, rfl⟩
      | finished hkey => cases hmissing.symm.trans hkey
  | finished hkey hpool hdone =>
      cases hother with
      | refused herror => cases hkey.symm.trans herror
      | finished _ hturns hended =>
          obtain rfl := hpool
          obtain rfl := hturns
          obtain ⟨hsummary, hholdings⟩ := Pool.runs_agree hagree.concordant hdone hended
          exact ⟨congrArg Except.ok hsummary, congrArg Holdings.tree hholdings,
            congrArg Holdings.counters hholdings⟩

end Runs

/-- A batch can always be brought to its end, whoever has had turns before, and
every way to process it comes to the same. -/
theorem batchRuns_agree (factory : Factory) (store : Store) (ads : List ClassAd)
    (workers : Nat) :
    BatchRun factory store ads workers (processBatch factory store ads workers).1
        (processBatch factory store ads workers).2 ∧
      (∀ (schedule : List Nat) (rounds : List (List Nat)),
        (∀ round ∈ rounds, ∀ number < workersFor ads.length workers, number ∈ round) →
        (ads.map Pool.stepsFor).sum ≤ rounds.length →
          Pool.isDone ads ((Pool.start store (workersFor ads.length workers)).run factory ads
            (schedule ++ rounds.flatten)) = true) ∧
      ∀ result final, BatchRun factory store ads workers result final →
        (factory.key = none →
          result = .error (.configuration .missingFactoryKey) ∧
            final = store.report
              [.batchRefused ads.length (.configuration .missingFactoryKey)]) ∧
        (∀ key, factory.key = some key → ∃ summary, result = .ok summary ∧
          summary.Accounts factory store.directoryOf ads) ∧
        (∀ config, FilesAgree config factory store ads →
          result = (processBatch factory store ads 1).1 ∧
            final.tree = (processBatch factory store ads 1).2.tree ∧
            final.counters = (processBatch factory store ads 1).2.counters) := by
  refine ⟨batchRun_processBatch factory store ads workers, ?_, ?_⟩
  · intro schedule rounds hrounds hlong
    exact Pool.isDone_run_rounds factory ads store (workersFor_pos ads.length workers) schedule
      hrounds hlong
  · intro result final hrun
    exact ⟨hrun.eq_refused, fun _ => hrun.accounts,
      fun _ hagree => hrun.agree hagree (batchRun_processBatch factory store ads 1)⟩

/-! ## Workers that overtake each other -/

private theorem tree_report (store : Store) (events : List Event) :
    (store.report events).tree = store.tree := rfl

private theorem counters_report (store : Store) (events : List Event) :
    (store.report events).counters = store.counters := rfl

namespace Trial

def config : FactoryConfig where
  proxiesDir := ⟨"proxies"⟩
  glideinName := "glidein"

/-- A store with a directory for the user of the trial factory. -/
def configuredStore : Store where
  directoryOf := config.credentialDir
  tree := ((FileTree.empty.insert ["proxies"] .directory).insert ["proxies", "user_user"]
    .directory).insert ["proxies", "user_user", "glidein_glidein"] .directory

/-- Two requests for the same credential with an empty one between them. -/
def batch : List ClassAd :=
  [ad "client" [("1", "proxy", "class")], ClassAd.ofList [], ad "client" [("1", "proxy", "class")]]

/-- Two workers that take turns unevenly. -/
def overtaken : Pool :=
  (Pool.start configuredStore 2).run factory batch [0, 1, 0, 1, 1, 1, 0, 1, 1, 0]

private theorem filesAgree : FilesAgree config factory configuredStore batch where
  directory := rfl
  glidein := by decide +kernel
  usernames := by
    intro ad had report writes hplan credential hcredential
    have hall : ∀ ad ∈ batch, ∀ credential ∈
        ((Plan.ofRequest factory configuredStore.directoryOf ad).decision.toOption.map
          fun decided => decided.1.persisted).getD [], '/' ∉ credential.username.toList := by
      decide +kernel
    apply hall ad had
    rwa [hplan]
  same_content := by
    intro write hwrite other hother place hplace hsame
    have hall : ∀ ad ∈ batch, ∀ write ∈ writesOf factory configuredStore.directoryOf ad,
        ∀ same ∈ batch, ∀ other ∈ writesOf factory configuredStore.directoryOf same,
          configuredStore.tree.target? write.path = configuredStore.tree.target? other.path →
            write.content = other.content := by
      decide +kernel
    obtain ⟨ad, had, hmem⟩ := mem_batchWrites_iff.1 hwrite
    obtain ⟨same, hother, hasked⟩ := mem_batchWrites_iff.1 hother
    exact hall ad had write hmem same hother other hasked (hplace.trans hsame.symm)

end Trial

/-- The second worker is done with two requests before the first is done with one. -/
theorem batchRuns_agree_overtaking :
    Trial.overtaken.collected.map (·.index) = [1, 2, 0] ∧
      Trial.overtaken.store.tree =
        (processBatch Trial.factory Trial.configuredStore Trial.batch 1).2.tree ∧
      Trial.overtaken.store.counters =
        (processBatch Trial.factory Trial.configuredStore Trial.batch 1).2.counters := by
  have hworkers : workersFor Trial.batch.length 2 = 2 := by decide
  have hpool : (Pool.start Trial.configuredStore (workersFor Trial.batch.length 2)).run
      Trial.factory Trial.batch [0, 1, 0, 1, 1, 1, 0, 1, 1, 0] = Trial.overtaken := by
    rw [hworkers, Trial.overtaken]
  have hdone : Pool.isDone Trial.batch Trial.overtaken = true := by decide +kernel
  obtain ⟨-, -, hruns⟩ := batchRuns_agree Trial.factory Trial.configuredStore Trial.batch 2
  obtain ⟨-, -, hagree⟩ := hruns _ _ (.finished rfl hpool hdone)
  obtain ⟨-, htree, hcounters⟩ := hagree Trial.config Trial.filesAgree
  rw [tree_report] at htree
  rw [counters_report] at hcounters
  exact ⟨by decide +kernel, htree, hcounters⟩

end CredentialIntake.Intake
