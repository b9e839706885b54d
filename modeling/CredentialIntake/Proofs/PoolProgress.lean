import CredentialIntake.Proofs.Planning
import CredentialIntake.Proofs.PoolSteps

/-!
# Pools get done

Every step of a pool but a worker's stopping brings it nearer to its end, and as
long as something is left to do some worker can do it.  So a pool is done once
all its workers have had enough turns, whoever had turns before and in between.
-/

namespace CredentialIntake.Intake

open Store

/-! ## What a request writes -/

private theorem length_stageAll_le (policy : FrontendPolicy) (frontend : AuthenticatedFrontend)
    (ad : ClassAd) (client : String) (ids : List String) :
    (stageAll policy frontend ad client ids).dispositions.length ≤ ids.length := by
  induction ids with
  | nil => exact Nat.le_refl _
  | cons id rest ih =>
      rw [stageAll]
      cases stage policy frontend ad client id with
      | error error => exact Nat.zero_le _
      | ok disposition => exact Nat.succ_le_succ ih

/-- A request that is let through writes the files of what is staged for it, under
a usable client name if there is anything. -/
theorem exists_staged_of_decision {factory : Factory} {directoryOf : String → Path}
    {ad : ClassAd} {report : Report} {writes : List FileWrite}
    (hplan : (Plan.ofRequest factory directoryOf ad).decision = .ok (report, writes)) :
    ∃ client staged, staged.length ≤ ad.credentialIds.length ∧
      (staged.isEmpty || isSafeName client) = true ∧
      report.persisted = Plan.persisted directoryOf client staged ∧
      writes = Plan.writes directoryOf client staged := by
  have horigin := Plan.origin_ofRequest factory directoryOf ad
  generalize Plan.ofRequest factory directoryOf ad = plan at horigin hplan
  cases horigin with
  | untrusted => cases hplan
  | unnamed => cases hplan
  | @staged frontend client hadmitted hclient =>
    simp only [Plan.ofStaging] at hplan
    split at hplan
    · cases hplan
    split at hplan
    next husable =>
      obtain ⟨rfl, rfl⟩ := Prod.mk.inj (Except.ok.inj hplan)
      refine ⟨client, _, ?_, husable, rfl, rfl⟩
      exact (List.length_filterMap_le _ _).trans
        (length_stageAll_le factory.policy frontend ad client ad.credentialIds)
    · cases hplan

private theorem length_writes (directoryOf : String → Path) (client : String)
    (staged : List Staged) :
    (Plan.writes directoryOf client staged).length = 2 * staged.length := by
  induction staged with
  | nil => rfl
  | cons credential rest ih =>
      rw [Plan.writes, List.flatMap_cons, List.length_append, ← Plan.writes, ih, writesFor]
      simp only [List.length_cons, List.length_nil]
      omega

/-- A request writes at most two files for each of its credentials. -/
theorem length_writes_le {factory : Factory} {directoryOf : String → Path} {ad : ClassAd}
    {report : Report} {writes : List FileWrite}
    (hplan : (Plan.ofRequest factory directoryOf ad).decision = .ok (report, writes)) :
    writes.length ≤ 2 * ad.credentialIds.length := by
  obtain ⟨client, staged, hlength, -, -, rfl⟩ := exists_staged_of_decision hplan
  rw [length_writes]
  exact Nat.mul_le_mul_left 2 hlength

/-! ## What is left to do -/

/-- How many steps a worker has to take before it is free. -/
def Worker.work : Worker → Nat
  | idle => 0
  | carryingOut _ _ _ pending => pending.length + 1
  | finished _ => 1
  | stopped => 0

namespace Worker

@[simp]
theorem work_idle : idle.work = 0 := rfl

@[simp]
theorem work_carryingOut (index : Nat) (ad : ClassAd) (report : Report)
    (pending : List FileWrite) : (carryingOut index ad report pending).work = pending.length + 1 :=
  rfl

@[simp]
theorem work_finished (outcome : Outcome) : (finished outcome).work = 1 := rfl

@[simp]
theorem work_stopped : stopped.work = 0 := rfl

end Worker

namespace Pool

/-- A bound on the steps that are left: those of the workers, and those of the
requests nobody has claimed. -/
def work (ads : List ClassAd) (pool : Pool) : Nat :=
  (pool.workers.map Worker.work).sum + ((ads.drop pool.next).map stepsFor).sum

theorem work_start (ads : List ClassAd) (store : Store) (workers : Nat) :
    (start store workers).work ads = (ads.map stepsFor).sum := by
  simp [work, start, Worker.work]

private theorem sum_work_split (before after : List Worker) (worker : Worker) :
    ((before ++ worker :: after).map Worker.work).sum =
      worker.work + ((before ++ after).map Worker.work).sum := by
  simp only [List.map_append, List.map_cons, List.sum_append, List.sum_cons]
  omega

private theorem work_carryOn_le (index : Nat) (ad : ClassAd) (report : Report)
    (pending : List FileWrite) :
    (carryOn index ad report pending).work ≤ pending.length + 1 := by
  cases pending with
  | nil => exact Nat.le_refl _
  | cons write rest => exact Nat.le_refl _

private theorem work_takeUp_lt (factory : Factory) (store : Store) (index : Nat) (ad : ClassAd) :
    (takeUp factory store index ad).2.work < stepsFor ad := by
  rw [takeUp]
  cases hplan : (Plan.ofRequest factory store.directoryOf ad).decision with
  | error error =>
      simp only [Worker.work, stepsFor]
      omega
  | ok decided =>
      have hcarries := work_carryOn_le index ad decided.1 decided.2
      have hwrites := length_writes_le hplan
      simp only [stepsFor]
      omega

variable {factory : Factory} {ads : List ClassAd} {directoryOf : String → Path} {pool next : Pool}
  {number : Nat}

/-- The soundness that does not depend on how writes end. -/
abbrev Ordered (factory : Factory) (directoryOf : String → Path) (ads : List ClassAd)
    (pool : Pool) : Prop :=
  pool.Sound (fun _ _ => True) factory directoryOf ads

theorem Ordered.move (hordered : pool.Ordered factory directoryOf ads)
    (hmoves : Moves factory ads pool number next) : next.Ordered factory directoryOf ads :=
  Sound.move hordered (fun _ _ => trivial) hmoves

/-- A worker stops that finds nothing to claim. -/
structure Stops (ads : List ClassAd) (pool : Pool) (number : Nat) (next : Pool) : Prop where
  nothing_left : ads.length ≤ pool.next
  idle : pool.workers[number]? = some .idle
  eq : next = { pool with workers := pool.workers.set number .stopped }
  work_eq : next.work ads = pool.work ads

/-- Every step but a worker's stopping leaves less to do. -/
theorem work_lt_or_stops (hordered : pool.Ordered factory directoryOf ads)
    (hmoves : Moves factory ads pool number next) :
    next.work ads < pool.work ads ∨ Stops ads pool number next := by
  cases hmoves with
  | @stops before after hsplit hnone =>
      right
      exact
        { nothing_left := List.getElem?_eq_none_iff.1 hnone
          idle := by simp [hsplit]
          eq := by simp [hsplit]
          work_eq := by
            simp only [work, hsplit, sum_work_split, Worker.work_idle, Worker.work_stopped] }
  | @claims before after ad hsplit had =>
      left
      have htaken := work_takeUp_lt factory pool.store pool.next ad
      simp only [work, hsplit, sum_work_split, drop_next had, List.map_cons, List.sum_cons,
        Worker.work_idle]
      omega
  | concludes hsplit => exact absurd hsplit (Sound.not_carriedOut hordered)
  | @writes before after index ad report write rest outcome hsplit hresult =>
      left
      have hcarries := work_carryOn_le index ad report rest
      simp only [work, hsplit, sum_work_split, Worker.work_carryingOut, List.length_cons]
      omega
  | fails hsplit hresult =>
      left
      simp only [work, hsplit, sum_work_split, Worker.work_carryingOut, Worker.work_finished,
        List.length_cons]
      omega
  | handsIn hsplit =>
      left
      simp only [work, hsplit, sum_work_split, Worker.work_idle, Worker.work_finished]
      omega

theorem Ordered.run (hordered : pool.Ordered factory directoryOf ads) (schedule : List Nat) :
    (pool.run factory ads schedule).Ordered factory directoryOf ads :=
  run_induction hordered (fun _ _ _ hmoves hkept => hkept.move hmoves) schedule

/-- No run adds anything to be done. -/
theorem work_run_le (hordered : pool.Ordered factory directoryOf ads) (schedule : List Nat) :
    (pool.run factory ads schedule).work ads ≤ pool.work ads := by
  induction schedule generalizing pool with
  | nil => exact Nat.le_refl _
  | cons number rest ih =>
      rw [run, List.foldl_cons]
      cases hstep : step? factory ads pool number with
      | none => exact ih hordered
      | some next =>
          have hmoves := moves_of_step? hstep
          have hrest := ih (hordered.move hmoves)
          rcases work_lt_or_stops hordered hmoves with hlt | hstops
          · exact hrest.trans (Nat.le_of_lt hlt)
          · exact hrest.trans hstops.work_eq.le

/-! ## Rounds -/

/-- The worker with the number is busy, or free while something can be claimed. -/
def CanWork (ads : List ClassAd) (pool : Pool) (number : Nat) : Prop :=
  ∃ worker, pool.workers[number]? = some worker ∧
    (0 < worker.work ∨ worker = .idle ∧ pool.next < ads.length)

private theorem exists_step_of_canWork (factory : Factory) (hcan : CanWork ads pool number) :
    ∃ next, step? factory ads pool number = some next := by
  obtain ⟨worker, hworker, hstate⟩ := hcan
  rw [← Option.isSome_iff_exists, step?, hworker]
  cases worker with
  | idle => cases ads[pool.next]? <;> rfl
  | carryingOut index ad report pending =>
      cases pending with
      | nil => rfl
      | cons write rest =>
          rcases hwrite : pool.store.writeFile write with ⟨outcome | error, store⟩ <;>
            simp [hwrite]
  | finished outcome => rfl
  | stopped => simp at hstate

/-- A worker that can work does, at its turn. -/
private theorem work_lt_of_turn (hordered : pool.Ordered factory directoryOf ads)
    (hcan : CanWork ads pool number) :
    ∃ next, step? factory ads pool number = some next ∧ next.work ads < pool.work ads := by
  obtain ⟨next, hstep⟩ := exists_step_of_canWork factory hcan
  refine ⟨next, hstep, ?_⟩
  rcases work_lt_or_stops hordered (moves_of_step? hstep) with hlt | hstops
  · exact hlt
  · obtain ⟨worker, hworker, hstate⟩ := hcan
    obtain rfl := Option.some.inj (hworker.symm.trans hstops.idle)
    rcases hstate with hbusy | ⟨-, hlt⟩
    · exact absurd hbusy (Nat.lt_irrefl 0)
    · exact absurd hstops.nothing_left (Nat.not_le.2 hlt)

/-- A worker that stops takes nothing from the others. -/
private theorem Stops.canWork {other : Nat} (hstops : Stops ads pool other next)
    (hcan : CanWork ads pool number) : CanWork ads next number := by
  obtain ⟨worker, hworker, hstate⟩ := hcan
  have hne : other ≠ number := by
    rintro rfl
    obtain rfl := Option.some.inj (hworker.symm.trans hstops.idle)
    rcases hstate with hbusy | ⟨-, hlt⟩
    · exact Nat.lt_irrefl 0 hbusy
    · exact absurd hstops.nothing_left (Nat.not_le.2 hlt)
  rw [hstops.eq]
  exact ⟨worker, by rw [List.getElem?_set_ne hne, hworker], hstate⟩

/-- Something gets done while a worker that can work has a turn. -/
theorem work_run_lt (hordered : pool.Ordered factory directoryOf ads)
    (hcan : CanWork ads pool number) {round : List Nat} (hturn : number ∈ round) :
    (pool.run factory ads round).work ads < pool.work ads := by
  induction round generalizing pool with
  | nil => cases hturn
  | cons first rest ih =>
      rw [run, List.foldl_cons]
      by_cases hfirst : first = number
      · subst hfirst
        obtain ⟨next, hstep, hlt⟩ := work_lt_of_turn hordered hcan
        rw [hstep]
        exact (work_run_le (hordered.move (moves_of_step? hstep)) rest).trans_lt hlt
      · have hlater : number ∈ rest := (List.mem_cons.1 hturn).resolve_left (Ne.symm hfirst)
        cases hstep : step? factory ads pool first with
        | none => exact ih hordered hcan hlater
        | some next =>
            have hmoves := moves_of_step? hstep
            have hnext := hordered.move hmoves
            rcases work_lt_or_stops hordered hmoves with hlt | hstops
            · exact (work_run_le hnext rest).trans_lt hlt
            · exact (ih hnext (hstops.canWork hcan) hlater).trans_le hstops.work_eq.le

/-- As long as something is left to do, some worker can work. -/
theorem exists_canWork (hordered : pool.Ordered factory directoryOf ads)
    (hworkers : 0 < pool.workers.length) (hwork : 0 < pool.work ads) :
    ∃ number < pool.workers.length, CanWork ads pool number := by
  by_cases hbusy : ∃ worker ∈ pool.workers, 0 < worker.work
  · obtain ⟨worker, hworker, hpositive⟩ := hbusy
    obtain ⟨number, hnumber, rfl⟩ := List.getElem_of_mem hworker
    exact ⟨number, hnumber, _, List.getElem?_eq_getElem hnumber, Or.inl hpositive⟩
  · -- nobody is busy, so something is left to claim, and nobody has stopped
    push Not at hbusy
    have hnone : (pool.workers.map Worker.work).sum = 0 := by
      apply List.sum_eq_zero
      intro count hcount
      obtain ⟨worker, hworker, rfl⟩ := List.mem_map.1 hcount
      exact Nat.le_zero.1 (hbusy worker hworker)
    have hleft : pool.next < ads.length := by
      by_contra hall
      rw [work, hnone, List.drop_of_length_le (Nat.not_lt.1 hall)] at hwork
      exact Nat.lt_irrefl 0 hwork
    have hmem := List.getElem_mem hworkers
    refine ⟨0, hworkers, _, List.getElem?_eq_getElem hworkers, Or.inr ⟨?_, hleft⟩⟩
    have hfree := hbusy _ hmem
    have hsound := hordered.workers _ hmem
    cases hfirst : pool.workers[0] with
    | idle => rfl
    | stopped =>
        rw [hfirst] at hsound
        cases hsound with
        | stopped hall => exact absurd hall (Nat.not_le.2 hleft)
    | carryingOut index ad report pending =>
        rw [hfirst] at hfree
        exact absurd hfree (Nat.not_succ_le_zero _)
    | finished outcome =>
        rw [hfirst] at hfree
        exact absurd hfree (Nat.not_succ_le_zero _)

theorem length_workers_run (factory : Factory) (ads : List ClassAd) (pool : Pool)
    (schedule : List Nat) :
    (pool.run factory ads schedule).workers.length = pool.workers.length := by
  refine run_induction (motive := fun later => later.workers.length = pool.workers.length) rfl ?_
    schedule
  intro middle number next hmoves hsame
  rw [← hsame]
  cases hmoves with
  | stops hsplit => simp [hsplit]
  | claims hsplit => simp [hsplit]
  | concludes hsplit => simp [hsplit]
  | writes hsplit => simp [hsplit]
  | fails hsplit => simp [hsplit]
  | handsIn hsplit => simp [hsplit]

/-- After as many rounds as there is work, each with a turn for every worker,
nothing is left to do. -/
theorem work_run_rounds {rounds : List (List Nat)}
    (hordered : pool.Ordered factory directoryOf ads) (hworkers : 0 < pool.workers.length)
    (hrounds : ∀ round ∈ rounds, ∀ number < pool.workers.length, number ∈ round)
    (hlong : pool.work ads ≤ rounds.length) :
    (pool.run factory ads rounds.flatten).work ads = 0 := by
  induction rounds generalizing pool with
  | nil => exact Nat.le_zero.1 hlong
  | cons round rest ih =>
      have hlength := length_workers_run factory ads pool round
      rw [List.flatten_cons, run_append]
      apply ih (hordered.run round)
      · rwa [hlength]
      · rw [hlength]
        exact fun other hother => hrounds other (List.mem_cons_of_mem round hother)
      · rcases Nat.eq_zero_or_pos (pool.work ads) with hzero | hpositive
        · have hle := work_run_le hordered round
          omega
        · obtain ⟨number, hnumber, hcan⟩ := exists_canWork hordered hworkers hpositive
          have hlt := work_run_lt hordered hcan (hrounds round List.mem_cons_self number hnumber)
          rw [List.length_cons] at hlong
          omega

theorem isDone_of_work_eq_zero (hnone : pool.work ads = 0) : isDone ads pool = true := by
  obtain ⟨hbusy, hleft⟩ := Nat.add_eq_zero_iff.1 hnone
  rw [isDone, Bool.and_eq_true, decide_eq_true_eq, List.all_eq_true]
  constructor
  · by_contra hlt
    obtain hlt := Nat.not_le.1 hlt
    rw [List.drop_eq_getElem_cons hlt, List.map_cons, List.sum_cons, stepsFor] at hleft
    omega
  · intro worker hworker
    have hfree : worker.work = 0 := by
      have hle := List.le_sum_of_mem (List.mem_map_of_mem hworker (f := Worker.work))
      omega
    cases worker with
    | idle => rfl
    | stopped => rfl
    | carryingOut index ad report pending => cases hfree
    | finished outcome => cases hfree

/-- A pool of at least one worker is done after enough rounds, whatever turns its
workers had before. -/
theorem isDone_run_rounds (factory : Factory) (ads : List ClassAd) (store : Store)
    {workers : Nat} (hworkers : 0 < workers) (schedule : List Nat) {rounds : List (List Nat)}
    (hrounds : ∀ round ∈ rounds, ∀ number < workers, number ∈ round)
    (hlong : (ads.map stepsFor).sum ≤ rounds.length) :
    isDone ads ((start store workers).run factory ads (schedule ++ rounds.flatten)) = true := by
  have hstart : (start store workers).Ordered factory store.directoryOf ads :=
    sound_start rfl workers
  have hlength : ((start store workers).run factory ads schedule).workers.length = workers := by
    rw [length_workers_run]
    exact List.length_replicate
  rw [run_append]
  apply isDone_of_work_eq_zero
  apply work_run_rounds (hstart.run schedule)
  · rwa [hlength]
  · rwa [hlength]
  · rw [← work_start ads store workers] at hlong
    exact (work_run_le hstart schedule).trans hlong

theorem inTurns_eq_flatten (ads : List ClassAd) (workers : Nat) :
    ∃ rounds, inTurns ads workers = List.flatten rounds ∧
      rounds.length = (ads.map stepsFor).sum ∧
      ∀ round ∈ rounds, ∀ number < workers, number ∈ round := by
  refine ⟨ads.flatMap fun ad => List.replicate (stepsFor ad) (List.range workers), ?_, ?_, ?_⟩
  · induction ads with
    | nil => rfl
    | cons ad rest ih =>
        rw [inTurns, List.flatMap_cons, List.flatMap_cons, List.flatten_append, ← ih, inTurns]
  · simp [List.length_flatMap]
  · intro round hround number hnumber
    obtain ⟨ad, -, hmem⟩ := List.mem_flatMap.1 hround
    rw [List.eq_of_mem_replicate hmem, List.mem_range]
    exact hnumber

end Pool

end CredentialIntake.Intake
