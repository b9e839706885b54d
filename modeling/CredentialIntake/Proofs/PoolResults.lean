import CredentialIntake.Proofs.PoolProgress
import CredentialIntake.Proofs.PoolTotals

/-!
# What a pool comes to

When all is done every request has one outcome, and the summary has the outcomes
in the order of the requests.  If the writes of the batch are concordant, the
outcomes, the files and the counters are settled before the first step, so all
runs come to the same.
-/

namespace CredentialIntake.Intake

open Store

/-! ## Outcomes in order -/

namespace Summary

theorem mem_ofOutcomes {outcomes : List Outcome} {outcome : Outcome} :
    outcome ∈ (ofOutcomes outcomes).outcomes ↔ outcome ∈ outcomes :=
  List.mem_mergeSort

/-- Outcomes of which each index occurs once are put in the order of the indexes. -/
theorem indexes_ofOutcomes {outcomes : List Outcome} {count : Nat}
    (hindexes : (outcomes.map (·.index)).Perm (List.range count)) :
    (ofOutcomes outcomes).outcomes.map (·.index) = List.range count := by
  have hperm : ((ofOutcomes outcomes).outcomes.map (·.index)).Perm (List.range count) :=
    ((List.mergeSort_perm outcomes _).map _).trans hindexes
  have hsorted : ((ofOutcomes outcomes).outcomes.map (·.index)).Pairwise (· ≤ ·) := by
    have hpairs := @List.pairwise_mergeSort Outcome
      (fun left right => decide (left.index ≤ right.index))
      (fun left middle right => by simpa using Nat.le_trans)
      (fun left right => by simpa using Nat.le_total left.index right.index) outcomes
    simpa only [ofOutcomes, List.pairwise_map, decide_eq_true_eq] using hpairs
  exact hperm.eq_of_pairwise (fun _ _ _ _ => Nat.le_antisymm) hsorted List.pairwise_le_range

theorem succeeded_add_failed (summary : Summary) :
    summary.succeeded + summary.failed = summary.outcomes.length :=
  Nat.add_sub_cancel' List.countP_le_length

/-- The credentials kept are those of the requests that succeeded. -/
theorem persisted_eq (summary : Summary) :
    summary.persisted =
      ((summary.outcomes.filterMap fun outcome => outcome.result.toOption).map
        fun report => report.persisted.length).sum := by
  have htotal : ∀ (outcomes : List Outcome) (total : Nat),
      outcomes.foldl (fun total outcome => total + outcome.persisted) total =
        total + ((outcomes.filterMap fun outcome => outcome.result.toOption).map
          fun report => report.persisted.length).sum := by
    intro outcomes
    induction outcomes with
    | nil => exact fun _ => rfl
    | cons outcome rest ih =>
        intro total
        obtain ⟨index, error | report⟩ := outcome
        · rw [List.foldl_cons, ih]
          rfl
        · rw [List.foldl_cons, ih, Nat.add_assoc]
          rfl
  exact (htotal summary.outcomes 0).trans (Nat.zero_add _)

end Summary

/-! ## When all is done -/

/-- A write ends well or with a fault of a file. -/
def IsFileEnding (_ : FileWrite) (result : Except IntakeError Unit) : Prop :=
  ∀ error, result = .error error → ∃ path fault, error = .io path fault

namespace Pool

variable {Judged : FileWrite → Except IntakeError Unit → Prop} {factory : Factory}
  {directoryOf : String → Path} {ads : List ClassAd} {pool : Pool}

/-- However the workers take turns, requests are claimed in order, each by one
worker, and come to what their writes come to. -/
theorem sound_run (factory : Factory) (ads : List ClassAd) (store : Store) (workers : Nat)
    (schedule : List Nat) :
    ((start store workers).run factory ads schedule).Sound IsFileEnding factory store.directoryOf
      ads := by
  refine run_induction (motive := fun later =>
    later.Sound IsFileEnding factory store.directoryOf ads) (sound_start rfl workers) ?_ schedule
  intro middle number next hmoves hsound
  apply hsound.move _ hmoves
  intro write _ error herror
  have heffect := middle.store.writeFile_effect write
  cases hresult : (middle.store.writeFile write).1 with
  | ok outcome =>
      rw [hresult] at herror
      cases herror
  | error fault =>
      rw [hresult] at heffect herror
      obtain rfl := Except.error.inj herror
      exact heffect.eq_io

theorem idle_or_stopped_of_isDone (hdone : isDone ads pool = true) {worker : Worker}
    (hworker : worker ∈ pool.workers) : worker = .idle ∨ worker = .stopped := by
  rw [isDone, Bool.and_eq_true, List.all_eq_true] at hdone
  have hfree := hdone.2 worker hworker
  cases worker with
  | idle => exact Or.inl rfl
  | stopped => exact Or.inr rfl
  | carryingOut index ad report pending => cases hfree
  | finished outcome => cases hfree

theorem length_le_next_of_isDone (hdone : isDone ads pool = true) : ads.length ≤ pool.next := by
  rw [isDone, Bool.and_eq_true, decide_eq_true_eq] at hdone
  exact hdone.1

/-- Every request has been processed once. -/
theorem Sound.indexes (hsound : pool.Sound Judged factory directoryOf ads)
    (hdone : isDone ads pool = true) :
    (pool.collected.map (·.index)).Perm (List.range ads.length) := by
  have hnext : pool.next = ads.length :=
    Nat.le_antisymm hsound.bound (length_le_next_of_isDone hdone)
  have hfree : pool.workers.filterMap Worker.index? = [] := by
    rw [List.filterMap_eq_nil_iff]
    intro worker hworker
    rcases idle_or_stopped_of_isDone hdone hworker with rfl | rfl <;> rfl
  have hclaimed := hsound.claimed
  rwa [hfree, List.append_nil, hnext] at hclaimed

theorem remaining_of_isDone {tree : FileTree} (hdone : isDone ads pool = true) :
    pool.remaining factory directoryOf ads tree = [] := by
  rw [remaining, List.drop_of_length_le (length_le_next_of_isDone hdone), List.flatMap_nil,
    List.append_nil, List.flatMap_eq_nil_iff]
  intro worker hworker
  rcases idle_or_stopped_of_isDone hdone hworker with rfl | rfl <;> rfl

end Pool

/-! ## Settled outcomes -/

section Settled

variable {tree : FileTree} {factory : Factory} {directoryOf : String → Path} {ads : List ClassAd}

private theorem carried_unique {writes : List FileWrite} {left right : Except IntakeError Unit}
    (hleft : Carried (EndsAsIn tree) writes left) (hright : Carried (EndsAsIn tree) writes right) :
    left = right := by
  induction hleft with
  | done =>
      cases hright
      rfl
  | next hwrites _ ih =>
      cases hright with
      | next _ hrest => exact ih hrest
      | failed hfails => cases hwrites.trans hfails.symm
  | failed hfails =>
      cases hright with
      | next hwrites _ => cases hfails.trans hwrites.symm
      | failed hother => exact hfails.trans hother.symm

private theorem concludes_unique {ad : ClassAd} {left right : Except IntakeError Report}
    (hleft : Concludes (EndsAsIn tree) factory directoryOf ad left)
    (hright : Concludes (EndsAsIn tree) factory directoryOf ad right) : left = right := by
  cases hleft with
  | refused hplan =>
      cases hright with
      | refused hother => exact congrArg Except.error (Except.error.inj (hplan.symm.trans hother))
      | carried hother => cases hplan.symm.trans hother
  | carried hplan hcarried =>
      cases hright with
      | refused hother => cases hplan.symm.trans hother
      | carried hother hending =>
          obtain ⟨rfl, rfl⟩ := Prod.mk.inj (Except.ok.inj (hplan.symm.trans hother))
          rw [carried_unique hcarried hending]

/-- Lists of outcomes with the same indexes are equal when writes have one way to
end. -/
private theorem outcomes_unique {left right : List Outcome}
    (hindexes : left.map (·.index) = right.map (·.index))
    (hleft : ∀ outcome ∈ left, outcome.Sound (EndsAsIn tree) factory directoryOf ads)
    (hright : ∀ outcome ∈ right, outcome.Sound (EndsAsIn tree) factory directoryOf ads) :
    left = right := by
  induction left generalizing right with
  | nil => exact (List.map_eq_nil_iff.1 hindexes.symm).symm
  | cons first rest ih =>
      cases right with
      | nil => cases hindexes
      | cons other later =>
          obtain ⟨hindex, hrest⟩ := List.cons.inj hindexes
          change first.index = other.index at hindex
          obtain ⟨ad, had, hconcludes⟩ := hleft first List.mem_cons_self
          obtain ⟨same, hsame, hother⟩ := hright other List.mem_cons_self
          rw [hindex] at had
          obtain rfl := Option.some.inj (had.symm.trans hsame)
          have hfirst : first = other := by
            cases first
            cases other
            exact congrArg₂ Outcome.mk hindex (concludes_unique hconcludes hother)
          rw [hfirst, ih hrest
            (fun outcome hmem => hleft outcome (List.mem_cons_of_mem first hmem))
            (fun outcome hmem => hright outcome (List.mem_cons_of_mem other hmem))]

end Settled

namespace Pool

variable {config : FactoryConfig} {factory : Factory} {ads : List ClassAd} {store : Store}

private theorem tallied_run
    (hconcordant : Concordant config store.tree (batchWrites factory store.directoryOf ads))
    (workers : Nat) (schedule : List Nat) :
    ((start store workers).run factory ads schedule).Tallied factory store.directoryOf ads
      store.holdings (finalHoldings factory store.directoryOf ads store.holdings) :=
  (tallied_start factory ads store workers).run hconcordant schedule

/-- If the writes are concordant, all pools that are done have the same outcomes and
leave the same behind, whatever the number of workers and their turns. -/
theorem runs_agree
    (hconcordant : Concordant config store.tree (batchWrites factory store.directoryOf ads))
    {workers others : Nat} {schedule turns : List Nat}
    (hdone : isDone ads ((start store workers).run factory ads schedule) = true)
    (hother : isDone ads ((start store others).run factory ads turns) = true) :
    Summary.ofOutcomes ((start store workers).run factory ads schedule).collected =
        Summary.ofOutcomes ((start store others).run factory ads turns).collected ∧
      ((start store workers).run factory ads schedule).store.holdings =
        ((start store others).run factory ads turns).store.holdings := by
  have hleft := tallied_run hconcordant workers schedule
  have hright := tallied_run hconcordant others turns
  constructor
  · have houtcomes := outcomes_unique
      ((Summary.indexes_ofOutcomes (hleft.sound.indexes hdone)).trans
        (Summary.indexes_ofOutcomes (hright.sound.indexes hother)).symm)
      (fun outcome hmem => hleft.sound.collected outcome (Summary.mem_ofOutcomes.1 hmem))
      (fun outcome hmem => hright.sound.collected outcome (Summary.mem_ofOutcomes.1 hmem))
    exact congrArg Summary.mk houtcomes
  · have hfinal := hleft.total.trans hright.total.symm
    rwa [remaining_of_isDone hdone, remaining_of_isDone hother] at hfinal

end Pool

end CredentialIntake.Intake
