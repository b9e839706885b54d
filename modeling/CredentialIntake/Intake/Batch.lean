import CredentialIntake.Intake.Processing

/-!
# Batches

A batch of requests is processed by workers side by side. Each worker claims the
next request that nobody has claimed, carries it out, and hands its outcome in;
the outcomes are put in the order of the requests. A request that fails does not
stop the others. Without a factory key the batch is not begun.
-/

namespace CredentialIntake.Intake

/-- The outcome of one request of a batch. -/
structure Outcome where
  /-- The place of the request in the batch. -/
  index : Nat
  result : Except IntakeError Report

def Outcome.succeeded (outcome : Outcome) : Bool := outcome.result.isOk

/-- How many credentials of the request were kept. -/
def Outcome.persisted (outcome : Outcome) : Nat :=
  match outcome.result with
  | .ok report => report.persisted.length
  | .error _ => 0

/-- The outcomes of a batch. -/
structure Summary where
  outcomes : List Outcome

namespace Summary

def succeeded (summary : Summary) : Nat := summary.outcomes.countP (·.succeeded)

def failed (summary : Summary) : Nat := summary.outcomes.length - summary.succeeded

def persisted (summary : Summary) : Nat :=
  summary.outcomes.foldl (fun total outcome => total + outcome.persisted) 0

/-- The summary of outcomes that came in in any order. -/
def ofOutcomes (outcomes : List Outcome) : Summary :=
  ⟨outcomes.mergeSort fun left right => decide (left.index ≤ right.index)⟩

/-- What is reported at the end of a batch. -/
def event (summary : Summary) (requests : Nat) : Event :=
  .batchDone requests summary.succeeded summary.failed summary.persisted

end Summary

/-! ## One worker -/

/-- Processes requests one after the other, the first of them at place `index`. -/
def processFrom (factory : Factory) (index : Nat) (store : Store) :
    List ClassAd → List Outcome × Store
  | [] => ([], store)
  | ad :: rest =>
    let (result, store) := process factory store ad
    let (outcomes, store) := processFrom factory (index + 1) store rest
    (⟨index, result⟩ :: outcomes, store)

/-! ## Several workers -/

/-- What a worker is at. -/
inductive Worker where
  | idle
  /-- Files of a claimed request are still to be written. -/
  | carryingOut (index : Nat) (ad : ClassAd) (report : Report) (pending : List FileWrite)
  /-- A request is done, its outcome not handed in. -/
  | finished (outcome : Outcome)
  /-- There was nothing left to claim. -/
  | stopped

/-- The workers of a batch with what they share. -/
structure Pool where
  store : Store
  /-- The next request to claim. -/
  next : Nat
  workers : List Worker
  /-- The outcomes handed in so far, the first one first. -/
  collected : List Outcome

namespace Pool

def start (store : Store) (workers : Nat) : Pool where
  store
  next := 0
  workers := List.replicate workers .idle
  collected := []

/-- What a worker is at when the writes in `pending` are left of a request. -/
def carryOn (index : Nat) (ad : ClassAd) (report : Report) : List FileWrite → Worker
  | [] => .finished ⟨index, .ok report⟩
  | pending => .carryingOut index ad report pending

/-- A worker takes up a request it has claimed. -/
def takeUp (factory : Factory) (store : Store) (index : Nat) (ad : ClassAd) : Store × Worker :=
  let plan := Plan.ofRequest factory store.directoryOf ad
  let store := begin store plan
  match plan.decision with
  | .error error => (abort store ad error, .finished ⟨index, .error error⟩)
  | .ok (report, writes) => (store, carryOn index ad report writes)

/-- The next step of one worker: claiming a request, writing one file of the
request it has claimed, or handing an outcome in. A worker that has stopped takes
no step. -/
def step? (factory : Factory) (ads : List ClassAd) (pool : Pool) (number : Nat) :
    Option Pool := do
  let worker ← pool.workers[number]?
  match worker with
  | .idle =>
    match ads[pool.next]? with
    | none => return { pool with workers := pool.workers.set number .stopped }
    | some ad =>
      let (store, worker) := takeUp factory pool.store pool.next ad
      return { pool with store, next := pool.next + 1, workers := pool.workers.set number worker }
  | .carryingOut index ad report pending =>
    match pending with
    | [] =>
      return { pool with workers := pool.workers.set number (.finished ⟨index, .ok report⟩) }
    | write :: rest =>
      match pool.store.writeFile write with
      | (.ok _, store) =>
        return { pool with
          store
          workers := pool.workers.set number (carryOn index ad report rest) }
      | (.error error, store) =>
        return { pool with
          store := abort store ad error
          workers := pool.workers.set number (.finished ⟨index, .error error⟩) }
  | .finished outcome =>
    return { pool with
      workers := pool.workers.set number .idle
      collected := pool.collected ++ [outcome] }
  | .stopped => none

/-- Runs the workers in the order of a schedule; a turn that cannot be taken
passes. -/
def run (factory : Factory) (ads : List ClassAd) (pool : Pool) (schedule : List Nat) : Pool :=
  schedule.foldl (fun pool number => (step? factory ads pool number).getD pool) pool

/-- Every request has been processed and its outcome handed in. -/
def isDone (ads : List ClassAd) (pool : Pool) : Bool :=
  pool.next ≥ ads.length && pool.workers.all fun worker =>
    match worker with
    | .idle => true
    | .stopped => true
    | _ => false

/-- The most steps a request can take: claiming it, writing two files for each of
its credentials, and handing its outcome in. -/
def stepsFor (ad : ClassAd) : Nat := 2 + 2 * ad.credentialIds.length

/-- A schedule in which the workers take turns, long enough for all requests. -/
def inTurns (ads : List ClassAd) (workers : Nat) : List Nat :=
  ads.flatMap fun ad => (List.replicate (stepsFor ad) (List.range workers)).flatten

end Pool

/-- The number of workers put to work: at least one, at most one a request. -/
def workersFor (requests workers : Nat) : Nat := max 1 (min workers (max 1 requests))

/-- Processes a batch of requests. -/
def processBatch (factory : Factory) (store : Store) (ads : List ClassAd) (workers : Nat) :
    Except IntakeError Summary × Store :=
  match factory.requireKey with
  | .error error => (.error error, store.report [.batchRefused ads.length error])
  | .ok _ =>
    let workers := workersFor ads.length workers
    let (outcomes, store) :=
      if workers = 1 then processFrom factory 0 store ads
      else
        let pool := (Pool.start store workers).run factory ads (Pool.inTurns ads workers)
        (pool.collected, pool.store)
    let summary := Summary.ofOutcomes outcomes
    (.ok summary, store.report [summary.event ads.length])

end CredentialIntake.Intake
