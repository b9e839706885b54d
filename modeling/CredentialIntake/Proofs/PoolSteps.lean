import CredentialIntake.Intake.Batch
import CredentialIntake.Proofs.Holdings

/-!
# The steps of a pool of workers

A step of a pool is a step of one worker, and everything it can do to the pool
is said here once.  Whatever the order of the steps, each request is claimed
once, and what becomes of it is what became of its writes, one by one.
-/

namespace CredentialIntake.Intake

open Store

namespace Pool

/-! ## What a step does -/

/-- What the step of the worker with a number makes of a pool. -/
inductive Moves (factory : Factory) (ads : List ClassAd) (pool : Pool) : Nat → Pool → Prop where
  | stops {before after : List Worker} :
      pool.workers = before ++ .idle :: after → ads[pool.next]? = none →
      Moves factory ads pool before.length { pool with workers := before ++ .stopped :: after }
  | claims {before after : List Worker} {ad : ClassAd} :
      pool.workers = before ++ .idle :: after → ads[pool.next]? = some ad →
      Moves factory ads pool before.length
        { pool with
          store := (takeUp factory pool.store pool.next ad).1
          next := pool.next + 1
          workers := before ++ (takeUp factory pool.store pool.next ad).2 :: after }
  /-- Nothing was left to write. -/
  | concludes {before after : List Worker} {index : Nat} {ad : ClassAd} {report : Report} :
      pool.workers = before ++ .carryingOut index ad report [] :: after →
      Moves factory ads pool before.length
        { pool with workers := before ++ .finished ⟨index, .ok report⟩ :: after }
  | writes {before after : List Worker} {index : Nat} {ad : ClassAd} {report : Report}
      {write : FileWrite} {rest : List FileWrite} {outcome : WriteOutcome} :
      pool.workers = before ++ .carryingOut index ad report (write :: rest) :: after →
      (pool.store.writeFile write).1 = .ok outcome →
      Moves factory ads pool before.length
        { pool with
          store := (pool.store.writeFile write).2
          workers := before ++ carryOn index ad report rest :: after }
  | fails {before after : List Worker} {index : Nat} {ad : ClassAd} {report : Report}
      {write : FileWrite} {rest : List FileWrite} {error : IntakeError} :
      pool.workers = before ++ .carryingOut index ad report (write :: rest) :: after →
      (pool.store.writeFile write).1 = .error error →
      Moves factory ads pool before.length
        { pool with
          store := abort (pool.store.writeFile write).2 ad error
          workers := before ++ .finished ⟨index, .error error⟩ :: after }
  | handsIn {before after : List Worker} {outcome : Outcome} :
      pool.workers = before ++ .finished outcome :: after →
      Moves factory ads pool before.length
        { pool with
          workers := before ++ .idle :: after
          collected := pool.collected ++ [outcome] }

variable {factory : Factory} {ads : List ClassAd} {pool next : Pool} {number : Nat}

private theorem exists_split_of_getElem? {workers : List Worker} {worker : Worker}
    (hworker : workers[number]? = some worker) :
    ∃ before after, workers = before ++ worker :: after ∧ number = before.length := by
  obtain ⟨hlt, rfl⟩ := List.getElem?_eq_some_iff.1 hworker
  refine ⟨workers.take number, workers.drop (number + 1), ?_, ?_⟩
  · rw [List.getElem_cons_drop, List.take_append_drop]
  · rw [List.length_take, Nat.min_eq_left (Nat.le_of_lt hlt)]

/-- The request that is claimed next is the first of those nobody has claimed. -/
theorem drop_next {ad : ClassAd} (had : ads[pool.next]? = some ad) :
    ads.drop pool.next = ad :: ads.drop (pool.next + 1) := by
  rw [List.drop_eq_getElem?_toList_append, had, Option.toList_some, List.singleton_append]

private theorem set_split (before after : List Worker) (old fresh : Worker) :
    (before ++ old :: after).set before.length fresh = before ++ fresh :: after := by
  simp

/-- Every step is one of the moves. -/
theorem moves_of_step? (hstep : step? factory ads pool number = some next) :
    Moves factory ads pool number next := by
  obtain ⟨worker, hworker, hrest⟩ := Option.bind_eq_some_iff.1 hstep
  obtain ⟨before, after, hsplit, rfl⟩ := exists_split_of_getElem? hworker
  cases worker with
  | idle =>
      simp only [hsplit, set_split] at hrest
      cases had : ads[pool.next]? with
      | none =>
          rw [had] at hrest
          obtain rfl := Option.some.inj hrest
          exact .stops hsplit had
      | some ad =>
          rw [had] at hrest
          obtain rfl := Option.some.inj hrest
          exact .claims hsplit had
  | carryingOut index ad report pending =>
      cases pending with
      | nil =>
          simp only [hsplit, set_split] at hrest
          obtain rfl := Option.some.inj hrest
          exact .concludes hsplit
      | cons write rest =>
          simp only [hsplit, set_split] at hrest
          cases hresult : pool.store.writeFile write with
          | mk result store =>
              rw [hresult] at hrest
              have hfirst := congrArg Prod.fst hresult
              obtain rfl := congrArg Prod.snd hresult
              cases result with
              | ok outcome =>
                  obtain rfl := Option.some.inj hrest
                  exact .writes hsplit hfirst
              | error error =>
                  obtain rfl := Option.some.inj hrest
                  exact .fails hsplit hfirst
  | finished outcome =>
      simp only [hsplit, set_split] at hrest
      obtain rfl := Option.some.inj hrest
      exact .handsIn hsplit
  | stopped => cases hrest

/-- What holds at first and is kept by every move holds after every run. -/
theorem run_induction {motive : Pool → Prop} (hstart : motive pool)
    (hmove : ∀ pool number next, Moves factory ads pool number next → motive pool → motive next)
    (schedule : List Nat) : motive (run factory ads pool schedule) := by
  induction schedule generalizing pool with
  | nil => exact hstart
  | cons number rest ih =>
      rw [run, List.foldl_cons]
      apply ih
      cases hstep : step? factory ads pool number with
      | none => exact hstart
      | some next => exact hmove pool number next (moves_of_step? hstep) hstart

theorem run_append (factory : Factory) (ads : List ClassAd) (pool : Pool)
    (first second : List Nat) :
    run factory ads pool (first ++ second) =
      run factory ads (run factory ads pool first) second :=
  List.foldl_append

end Pool

/-! ## What becomes of a request -/

section Soundness

variable (Judged : FileWrite → Except IntakeError Unit → Prop)

/-- What writes made one by one come to, where `Judged` says how each can end: all
of them succeed, or the first that does not is the last to be made. -/
inductive Carried : List FileWrite → Except IntakeError Unit → Prop where
  | done : Carried [] (.ok ())
  | next {write : FileWrite} {rest : List FileWrite} {ending : Except IntakeError Unit} :
      Judged write (.ok ()) → Carried rest ending → Carried (write :: rest) ending
  | failed {write : FileWrite} {rest : List FileWrite} {error : IntakeError} :
      Judged write (.error error) → Carried (write :: rest) (.error error)

variable (factory : Factory) (directoryOf : String → Path)

/-- What a request results in: the error of its plan, or what its writes come to. -/
inductive Concludes (ad : ClassAd) : Except IntakeError Report → Prop where
  | refused {error : IntakeError} :
      (Plan.ofRequest factory directoryOf ad).decision = .error error →
      Concludes ad (.error error)
  | carried {report : Report} {writes : List FileWrite} {ending : Except IntakeError Unit} :
      (Plan.ofRequest factory directoryOf ad).decision = .ok (report, writes) →
      Carried Judged writes ending →
      Concludes ad (ending.map fun _ => report)

variable (ads : List ClassAd)

/-- The writes that the requests of a batch ask for. -/
def batchWrites : Set FileWrite :=
  {write | ∃ ad ∈ ads, ∃ report writes,
    (Plan.ofRequest factory directoryOf ad).decision = .ok (report, writes) ∧ write ∈ writes}

/-- An outcome is that of the request with its index. -/
def Outcome.Sound (outcome : Outcome) : Prop :=
  ∃ ad, ads[outcome.index]? = some ad ∧
    Concludes Judged factory directoryOf ad outcome.result

/-- The index of the request a worker is at. -/
def Worker.index? : Worker → Option Nat
  | idle => none
  | carryingOut index _ _ _ => some index
  | finished outcome => some outcome.index
  | stopped => none

/-- A worker is at a request of the batch, and what is left of the writes decides
what they all come to. -/
inductive Worker.Sound (next : Nat) : Worker → Prop where
  | idle : Worker.Sound next .idle
  | stopped : ads.length ≤ next → Worker.Sound next .stopped
  | carryingOut {index : Nat} {ad : ClassAd} {report : Report} {pending writes : List FileWrite} :
      ads[index]? = some ad →
      (Plan.ofRequest factory directoryOf ad).decision = .ok (report, writes) →
      pending ≠ [] → pending <:+ writes →
      (∀ ending, Carried Judged pending ending → Carried Judged writes ending) →
      Worker.Sound next (.carryingOut index ad report pending)
  | finished {outcome : Outcome} :
      outcome.Sound Judged factory directoryOf ads → Worker.Sound next (.finished outcome)

/-- Each request claimed is at one worker or has one outcome, and all of them are
carried out as they should be. -/
structure Pool.Sound (pool : Pool) : Prop where
  directory : pool.store.directoryOf = directoryOf
  bound : pool.next ≤ ads.length
  claimed : (pool.collected.map (·.index) ++ pool.workers.filterMap Worker.index?).Perm
    (List.range pool.next)
  workers : ∀ worker ∈ pool.workers, worker.Sound Judged factory directoryOf ads pool.next
  collected : ∀ outcome ∈ pool.collected, outcome.Sound Judged factory directoryOf ads

end Soundness

variable {Judged : FileWrite → Except IntakeError Unit → Prop} {factory : Factory}
  {directoryOf : String → Path} {ads : List ClassAd}

theorem Worker.Sound.mono {worker : Worker} {next later : Nat}
    (hsound : worker.Sound Judged factory directoryOf ads next) (hle : next ≤ later) :
    worker.Sound Judged factory directoryOf ads later := by
  cases hsound with
  | idle => exact .idle
  | stopped hlength => exact .stopped (Nat.le_trans hlength hle)
  | carryingOut had hplan hpending hsuffix hcarries =>
      exact .carryingOut had hplan hpending hsuffix hcarries
  | finished houtcome => exact .finished houtcome

namespace Pool

@[simp]
theorem index?_carryOn (index : Nat) (ad : ClassAd) (report : Report)
    (pending : List FileWrite) : (carryOn index ad report pending).index? = some index := by
  cases pending <;> rfl

/-- Taking a request up changes neither files nor counters. -/
theorem takeUp_store (factory : Factory) (store : Store) (index : Nat) (ad : ClassAd) :
    (takeUp factory store index ad).1.directoryOf = store.directoryOf ∧
      (takeUp factory store index ad).1.holdings = store.holdings := by
  rw [takeUp]
  cases (Plan.ofRequest factory store.directoryOf ad).decision with
  | error error => exact ⟨rfl, rfl⟩
  | ok decided => exact ⟨rfl, rfl⟩

@[simp]
theorem index?_takeUp (factory : Factory) (store : Store) (index : Nat) (ad : ClassAd) :
    (takeUp factory store index ad).2.index? = some index := by
  rw [takeUp]
  cases (Plan.ofRequest factory store.directoryOf ad).decision with
  | error error => rfl
  | ok decided => exact index?_carryOn index ad decided.1 decided.2

private theorem sound_carryOn {index next : Nat} {ad : ClassAd} {report : Report}
    {pending writes : List FileWrite} (had : ads[index]? = some ad)
    (hplan : (Plan.ofRequest factory directoryOf ad).decision = .ok (report, writes))
    (hsuffix : pending <:+ writes)
    (hcarries : ∀ ending, Carried Judged pending ending → Carried Judged writes ending) :
    (carryOn index ad report pending).Sound Judged factory directoryOf ads next := by
  cases pending with
  | nil => exact .finished ⟨ad, had, .carried hplan (hcarries _ .done)⟩
  | cons write rest =>
      exact .carryingOut had hplan (List.cons_ne_nil write rest) hsuffix hcarries

private theorem sound_takeUp {store : Store} {index next : Nat} {ad : ClassAd}
    (had : ads[index]? = some ad) (hdirectory : store.directoryOf = directoryOf) :
    (takeUp factory store index ad).2.Sound Judged factory directoryOf ads next := by
  rw [takeUp, hdirectory]
  cases hplan : (Plan.ofRequest factory directoryOf ad).decision with
  | error error => exact .finished ⟨ad, had, .refused hplan⟩
  | ok decided => exact sound_carryOn had hplan (List.suffix_refl _) fun _ hcarried => hcarried

/-- A worker that carries a request out writes what the batch asks for. -/
theorem mem_batchWrites {index next : Nat} {ad : ClassAd} {report : Report}
    {pending : List FileWrite}
    (hsound : (Worker.carryingOut index ad report pending).Sound Judged factory directoryOf ads
      next) {write : FileWrite} (hmem : write ∈ pending) :
    write ∈ batchWrites factory directoryOf ads := by
  cases hsound with
  | carryingOut had hplan _ hsuffix _ =>
      exact ⟨ad, List.mem_of_getElem? had, _, _, hplan, hsuffix.subset hmem⟩

/-- A worker that takes up a request adds its index to those of the others. -/
private theorem filterMap_perm_cons {before after : List Worker} {free taken : Worker} {index : Nat}
    (hfree : free.index? = none) (htaken : taken.index? = some index) :
    ((before ++ taken :: after).filterMap Worker.index?).Perm
      (index :: (before ++ free :: after).filterMap Worker.index?) := by
  simp only [List.filterMap_append, List.filterMap_cons, hfree, htaken]
  exact List.perm_middle

theorem sound_start {store : Store} (hdirectory : store.directoryOf = directoryOf)
    (workers : Nat) : (start store workers).Sound Judged factory directoryOf ads where
  directory := hdirectory
  bound := Nat.zero_le _
  claimed := by
    rw [start, List.filterMap_replicate_of_none rfl]
    exact List.Perm.refl _
  workers := by
    intro worker hworker
    obtain rfl := List.eq_of_mem_replicate hworker
    exact .idle
  collected := by simp [start]

/-! ## Moves of sound pools -/

section SoundMoves

variable {pool : Pool} {before after : List Worker}

theorem Sound.worker {worker : Worker} (hsound : pool.Sound Judged factory directoryOf ads)
    (hsplit : pool.workers = before ++ worker :: after) :
    worker.Sound Judged factory directoryOf ads pool.next :=
  hsound.workers worker (by simp [hsplit])

/-- A worker that carries a request out has something left to write. -/
theorem Sound.not_carriedOut {index : Nat} {ad : ClassAd} {report : Report}
    (hsound : pool.Sound Judged factory directoryOf ads) :
    pool.workers ≠ before ++ .carryingOut index ad report [] :: after := by
  intro hsplit
  cases hsound.worker hsplit with
  | carryingOut _ _ hpending => exact hpending rfl

/-- The next write of a worker is one that the batch asks for. -/
theorem Sound.mem_batchWrites_of_split {index : Nat} {ad : ClassAd} {report : Report}
    {write : FileWrite} {rest : List FileWrite}
    (hsound : pool.Sound Judged factory directoryOf ads)
    (hsplit : pool.workers = before ++ .carryingOut index ad report (write :: rest) :: after) :
    write ∈ batchWrites factory directoryOf ads :=
  mem_batchWrites (hsound.worker hsplit) List.mem_cons_self

/-- The workers of a sound pool are sound in a pool that has claimed more. -/
private theorem Sound.workers_replaced {old fresh : Worker} {later : Nat}
    (hsound : pool.Sound Judged factory directoryOf ads)
    (hsplit : pool.workers = before ++ old :: after) (hle : pool.next ≤ later)
    (hfresh : fresh.Sound Judged factory directoryOf ads later) :
    ∀ worker ∈ before ++ fresh :: after, worker.Sound Judged factory directoryOf ads later := by
  intro worker hworker
  rw [List.mem_append, List.mem_cons] at hworker
  rcases hworker with hbefore | rfl | hafter
  · exact (hsound.workers worker (by simp [hsplit, hbefore])).mono hle
  · exact hfresh
  · exact (hsound.workers worker (by simp [hsplit, hafter])).mono hle

/-- A worker that stays at its request keeps the pool sound. -/
private theorem Sound.replaced {old fresh : Worker} {store : Store}
    (hsound : pool.Sound Judged factory directoryOf ads)
    (hsplit : pool.workers = before ++ old :: after) (hsame : fresh.index? = old.index?)
    (hdirectory : store.directoryOf = pool.store.directoryOf)
    (hfresh : fresh.Sound Judged factory directoryOf ads pool.next) :
    Sound Judged factory directoryOf ads
      { pool with store, workers := before ++ fresh :: after } where
  directory := hdirectory.trans hsound.directory
  bound := hsound.bound
  claimed := by
    have hclaimed := hsound.claimed
    rw [hsplit] at hclaimed
    simpa only [List.filterMap_append, List.filterMap_cons, hsame] using hclaimed
  workers := hsound.workers_replaced hsplit (Nat.le_refl _) hfresh
  collected := hsound.collected

/-- A worker that takes a request up brings the next index with it. -/
private theorem Sound.claims {ad : ClassAd} (hsound : pool.Sound Judged factory directoryOf ads)
    (hsplit : pool.workers = before ++ .idle :: after) (had : ads[pool.next]? = some ad) :
    Sound Judged factory directoryOf ads
      { pool with
        store := (takeUp factory pool.store pool.next ad).1
        next := pool.next + 1
        workers := before ++ (takeUp factory pool.store pool.next ad).2 :: after } where
  directory := ((takeUp_store factory pool.store pool.next ad).1).trans hsound.directory
  bound := (List.getElem?_eq_some_iff.1 had).1
  claimed := by
    have hclaimed := hsound.claimed
    rw [hsplit] at hclaimed
    have htaken : ((before ++ (takeUp factory pool.store pool.next ad).2 ::
        after).filterMap Worker.index?).Perm
        (pool.next :: (before ++ .idle :: after).filterMap Worker.index?) :=
      filterMap_perm_cons rfl (index?_takeUp factory pool.store pool.next ad)
    rw [List.range_succ]
    apply (htaken.append_left _).trans
    apply List.perm_middle.trans
    exact (hclaimed.cons _).trans (List.perm_append_singleton _ _).symm
  workers := hsound.workers_replaced hsplit (Nat.le_succ _) (sound_takeUp had hsound.directory)
  collected := hsound.collected

/-- After a write there is one less to be carried out. -/
private theorem Sound.writes {index : Nat} {ad : ClassAd} {report : Report} {write : FileWrite}
    {rest : List FileWrite} (hsound : pool.Sound Judged factory directoryOf ads)
    (hsplit : pool.workers = before ++ .carryingOut index ad report (write :: rest) :: after)
    (hwrite : Judged write (.ok ())) :
    Sound Judged factory directoryOf ads
      { pool with
        store := (pool.store.writeFile write).2
        workers := before ++ carryOn index ad report rest :: after } := by
  cases hsound.worker hsplit with
  | carryingOut had hplan _ hsuffix hcarries =>
      apply hsound.replaced hsplit (index?_carryOn index ad report rest)
        (pool.store.directoryOf_writeFile write)
      exact sound_carryOn had hplan ((List.suffix_cons write rest).trans hsuffix)
        fun ending hcarried => hcarries ending (.next hwrite hcarried)

/-- A write that fails is the last one of its request. -/
private theorem Sound.fails {index : Nat} {ad : ClassAd} {report : Report} {write : FileWrite}
    {rest : List FileWrite} {error : IntakeError}
    (hsound : pool.Sound Judged factory directoryOf ads)
    (hsplit : pool.workers = before ++ .carryingOut index ad report (write :: rest) :: after)
    (hwrite : Judged write (.error error)) :
    Sound Judged factory directoryOf ads
      { pool with
        store := abort (pool.store.writeFile write).2 ad error
        workers := before ++ .finished ⟨index, .error error⟩ :: after } := by
  cases hsound.worker hsplit with
  | carryingOut had hplan _ _ hcarries =>
      have hfresh : Worker.Sound Judged factory directoryOf ads pool.next
          (.finished ⟨index, .error error⟩) :=
        .finished ⟨ad, had, .carried hplan (hcarries _ (.failed hwrite))⟩
      exact hsound.replaced hsplit rfl (pool.store.directoryOf_writeFile write) hfresh

/-- An outcome that is handed in takes the index of its worker along. -/
private theorem Sound.handsIn {outcome : Outcome}
    (hsound : pool.Sound Judged factory directoryOf ads)
    (hsplit : pool.workers = before ++ .finished outcome :: after) :
    Sound Judged factory directoryOf ads
      { pool with
        workers := before ++ .idle :: after
        collected := pool.collected ++ [outcome] } where
  directory := hsound.directory
  bound := hsound.bound
  claimed := by
    have hclaimed := hsound.claimed
    rw [hsplit] at hclaimed
    have hfreed : ((before ++ .finished outcome :: after).filterMap Worker.index?).Perm
        (outcome.index :: (before ++ .idle :: after).filterMap Worker.index?) :=
      filterMap_perm_cons rfl rfl
    rw [List.map_append, List.append_assoc]
    exact (hfreed.symm.append_left _).trans hclaimed
  workers := hsound.workers_replaced hsplit (Nat.le_refl _) .idle
  collected := by
    intro other hother
    rcases List.mem_append.1 hother with hearlier | hlast
    · exact hsound.collected other hearlier
    · cases hsound.worker hsplit with
      | finished houtcome => rwa [List.mem_singleton.1 hlast]

/-- A move keeps a pool sound, if a write it makes ends as writes can. -/
theorem Sound.move {next : Pool} {number : Nat}
    (hsound : pool.Sound Judged factory directoryOf ads)
    (hjudged : ∀ write ∈ batchWrites factory directoryOf ads,
      Judged write ((pool.store.writeFile write).1.map fun _ => ()))
    (hmoves : Moves factory ads pool number next) :
    next.Sound Judged factory directoryOf ads := by
  cases hmoves with
  | stops hsplit hnone =>
      exact hsound.replaced hsplit rfl rfl (.stopped (List.getElem?_eq_none_iff.1 hnone))
  | claims hsplit had => exact hsound.claims hsplit had
  | concludes hsplit => exact absurd hsplit hsound.not_carriedOut
  | @writes _ _ _ _ _ write _ _ hsplit hresult =>
      have hwrite := hjudged write (hsound.mem_batchWrites_of_split hsplit)
      rw [hresult] at hwrite
      exact hsound.writes hsplit hwrite
  | @fails _ _ _ _ _ write _ _ hsplit hresult =>
      have hwrite := hjudged write (hsound.mem_batchWrites_of_split hsplit)
      rw [hresult] at hwrite
      exact hsound.fails hsplit hwrite
  | handsIn hsplit => exact hsound.handsIn hsplit

end SoundMoves

end Pool

end CredentialIntake.Intake
