import CredentialIntake.Proofs.CommutingWrites
import CredentialIntake.Proofs.PoolSteps

/-!
# What a pool of workers leaves behind

Among concordant writes every write ends as it would have at the start, so it is
known beforehand which writes a batch will make.  Making those that are left, in
any order, comes to the same at every point of a run: this total is what no step
changes, and what the files and the counters are in the end.
-/

namespace CredentialIntake.Intake

open Store
open FileTree

/-! ## The writes that will be made -/

/-- A write is judged by how it would end in a tree. -/
def EndsAsIn (tree : FileTree) (write : FileWrite) (result : Except IntakeError Unit) : Prop :=
  result = ending tree write

/-- Of writes made one by one in a tree, those up to the first that fails. -/
def tried (tree : FileTree) : List FileWrite → List FileWrite
  | [] => []
  | write :: rest =>
    write :: match ending tree write with
      | .ok () => tried tree rest
      | .error _ => []

theorem tried_cons_ok {tree : FileTree} {write : FileWrite} (hending : ending tree write = .ok ())
    (rest : List FileWrite) : tried tree (write :: rest) = write :: tried tree rest := by
  rw [tried, hending]

theorem tried_cons_error {tree : FileTree} {write : FileWrite} {error : IntakeError}
    (hending : ending tree write = .error error) (rest : List FileWrite) :
    tried tree (write :: rest) = [write] := by
  rw [tried, hending]

theorem mem_of_mem_tried {tree : FileTree} {write : FileWrite} {writes : List FileWrite}
    (hmem : write ∈ tried tree writes) : write ∈ writes := by
  induction writes with
  | nil => cases hmem
  | cons first rest ih =>
      rw [tried, List.mem_cons] at hmem
      rcases hmem with rfl | hlater
      · exact List.mem_cons_self
      · split at hlater
        · exact List.mem_cons_of_mem first (ih hlater)
        · cases hlater

/-- The writes a request asks for. -/
def writesOf (factory : Factory) (directoryOf : String → Path) (ad : ClassAd) : List FileWrite :=
  match (Plan.ofRequest factory directoryOf ad).decision with
  | .ok (_, writes) => writes
  | .error _ => []

theorem mem_batchWrites_iff {factory : Factory} {directoryOf : String → Path}
    {ads : List ClassAd} {write : FileWrite} :
    write ∈ batchWrites factory directoryOf ads ↔
      ∃ ad ∈ ads, write ∈ writesOf factory directoryOf ad := by
  constructor
  · rintro ⟨ad, had, report, writes, hplan, hmem⟩
    refine ⟨ad, had, ?_⟩
    rwa [writesOf, hplan]
  · rintro ⟨ad, had, hmem⟩
    rw [writesOf] at hmem
    split at hmem
    next report writes hplan => exact ⟨ad, had, report, writes, hplan, hmem⟩
    · cases hmem

/-- What a worker will still write. -/
def Worker.remaining (tree : FileTree) : Worker → List FileWrite
  | idle => []
  | carryingOut _ _ _ pending => tried tree pending
  | finished _ => []
  | stopped => []

namespace Worker

@[simp]
theorem remaining_idle (tree : FileTree) : idle.remaining tree = [] := rfl

@[simp]
theorem remaining_carryingOut (tree : FileTree) (index : Nat) (ad : ClassAd) (report : Report)
    (pending : List FileWrite) :
    (carryingOut index ad report pending).remaining tree = tried tree pending :=
  rfl

end Worker

namespace Pool

/-- What the workers will still write, and what is written for the requests nobody
has claimed. -/
def remaining (factory : Factory) (directoryOf : String → Path) (ads : List ClassAd)
    (tree : FileTree) (pool : Pool) : List FileWrite :=
  pool.workers.flatMap (·.remaining tree) ++
    (ads.drop pool.next).flatMap fun ad => tried tree (writesOf factory directoryOf ad)

variable {factory : Factory} {directoryOf : String → Path} {ads : List ClassAd}
  {tree : FileTree} {pool next : Pool} {number : Nat}

private theorem remaining_perm_of_split {before after : List Worker} {worker : Worker}
    (hsplit : pool.workers = before ++ worker :: after) :
    (pool.remaining factory directoryOf ads tree).Perm
      (worker.remaining tree ++ ((before ++ after).flatMap (·.remaining tree) ++
        (ads.drop pool.next).flatMap fun ad => tried tree (writesOf factory directoryOf ad))) := by
  rw [remaining, hsplit]
  simp only [List.flatMap_append, List.flatMap_cons, List.append_assoc]
  exact List.perm_append_comm_assoc _ _ _

@[simp]
theorem remaining_carryOn (tree : FileTree) (index : Nat) (ad : ClassAd) (report : Report)
    (pending : List FileWrite) :
    (carryOn index ad report pending).remaining tree = tried tree pending := by
  cases pending <;> rfl

theorem remaining_takeUp (factory : Factory) (store : Store) (index : Nat) (ad : ClassAd)
    (tree : FileTree) :
    (takeUp factory store index ad).2.remaining tree =
      tried tree (writesOf factory store.directoryOf ad) := by
  rw [takeUp, writesOf]
  cases (Plan.ofRequest factory store.directoryOf ad).decision with
  | error error => rfl
  | ok decided => exact remaining_carryOn tree index ad decided.1 decided.2

variable {Judged : FileWrite → Except IntakeError Unit → Prop}

/-- A worker that stays with the same files to write leaves the others theirs. -/
private theorem remaining_kept {before after : List Worker} {old fresh : Worker}
    (hsplit : pool.workers = before ++ old :: after)
    (hworkers : next.workers = before ++ fresh :: after) (hnext : next.next = pool.next)
    (hsame : old.remaining tree = fresh.remaining tree) :
    (pool.remaining factory directoryOf ads tree).Perm
      (next.remaining factory directoryOf ads tree) := by
  apply (remaining_perm_of_split hsplit).trans
  rw [hsame, ← hnext]
  exact (remaining_perm_of_split hworkers).symm

/-- A worker that writes the first of its files leaves the others theirs. -/
private theorem remaining_made {before after : List Worker} {old fresh : Worker}
    {write : FileWrite} (hsplit : pool.workers = before ++ old :: after)
    (hworkers : next.workers = before ++ fresh :: after) (hnext : next.next = pool.next)
    (hmade : old.remaining tree = write :: fresh.remaining tree) :
    (pool.remaining factory directoryOf ads tree).Perm
      (write :: next.remaining factory directoryOf ads tree) := by
  apply (remaining_perm_of_split hsplit).trans
  rw [hmade, List.cons_append, ← hnext]
  exact (remaining_perm_of_split hworkers).symm.cons write

/-- A worker that takes a request up has the files to write that were counted for it
before. -/
private theorem remaining_claimed {before after : List Worker} {ad : ClassAd}
    (hdirectory : pool.store.directoryOf = directoryOf)
    (hsplit : pool.workers = before ++ .idle :: after) (had : ads[pool.next]? = some ad)
    (hworkers : next.workers =
      before ++ (takeUp factory pool.store pool.next ad).2 :: after)
    (hnext : next.next = pool.next + 1) :
    (pool.remaining factory directoryOf ads tree).Perm
      (next.remaining factory directoryOf ads tree) := by
  have htaken := remaining_takeUp factory pool.store pool.next ad tree
  rw [hdirectory] at htaken
  simp only [remaining, hsplit, hworkers, hnext, drop_next had, List.flatMap_append,
    List.flatMap_cons, htaken, List.append_assoc, Worker.remaining_idle, List.nil_append]
  exact (List.perm_append_comm_assoc _ _ _).append_left _

/-- A move writes one of the files that were to be written, or none. -/
theorem remaining_of_moves (hsound : pool.Sound Judged factory directoryOf ads)
    (hendings : ∀ write ∈ batchWrites factory directoryOf ads,
      ending pool.store.tree write = ending tree write)
    (hmoves : Moves factory ads pool number next) :
    (next.store.holdings = pool.store.holdings ∧
        (pool.remaining factory directoryOf ads tree).Perm
          (next.remaining factory directoryOf ads tree)) ∨
      ∃ write ∈ batchWrites factory directoryOf ads,
        next.store.holdings = pool.store.holdings.perform write ∧
          (pool.remaining factory directoryOf ads tree).Perm
            (write :: next.remaining factory directoryOf ads tree) := by
  have hended : ∀ write ∈ batchWrites factory directoryOf ads,
      ((pool.store.writeFile write).1.map fun _ => ()) = ending tree write := by
    intro write hwrite
    rw [← hendings write hwrite, ending, fst_writeFile]
  cases hmoves with
  | stops hsplit hnone =>
      exact Or.inl ⟨rfl, remaining_kept hsplit rfl rfl rfl⟩
  | @claims before after ad hsplit had =>
      left
      exact ⟨(takeUp_store factory pool.store pool.next ad).2,
        remaining_claimed hsound.directory hsplit had rfl rfl⟩
  | concludes hsplit =>
      exact Or.inl ⟨rfl, remaining_kept hsplit rfl rfl rfl⟩
  | @writes before after index ad report write rest outcome hsplit hresult =>
      right
      have hwrite := hsound.mem_batchWrites_of_split hsplit
      have hending := hended write hwrite
      rw [hresult] at hending
      refine ⟨write, hwrite, holdings_writeFile pool.store write, ?_⟩
      refine remaining_made hsplit rfl rfl ?_
      rw [Worker.remaining_carryingOut, remaining_carryOn, tried_cons_ok hending.symm]
  | @fails before after index ad report write rest error hsplit hresult =>
      right
      have hwrite := hsound.mem_batchWrites_of_split hsplit
      have hending := hended write hwrite
      rw [hresult] at hending
      refine ⟨write, hwrite, holdings_writeFile pool.store write, ?_⟩
      exact remaining_made hsplit rfl rfl (tried_cons_error hending.symm rest)
  | handsIn hsplit =>
      exact Or.inl ⟨rfl, remaining_kept hsplit rfl rfl rfl⟩

/-! ## The total -/

/-- A pool on its way from `start` to `final`: every write ends as it would have
ended at the start, and making all that is left leads to `final`. -/
structure Tallied (factory : Factory) (directoryOf : String → Path) (ads : List ClassAd)
    (start final : Holdings) (pool : Pool) : Prop where
  sound : pool.Sound (EndsAsIn start.tree) factory directoryOf ads
  folders : SameFolders start.tree pool.store.tree
  endings : ∀ write ∈ batchWrites factory directoryOf ads,
    ending pool.store.tree write = ending start.tree write
  total : (pool.remaining factory directoryOf ads start.tree).foldl Holdings.perform
    pool.store.holdings = final

theorem mem_batchWrites_of_mem_remaining (hsound : pool.Sound Judged factory directoryOf ads)
    {write : FileWrite} (hmem : write ∈ pool.remaining factory directoryOf ads tree) :
    write ∈ batchWrites factory directoryOf ads := by
  rcases List.mem_append.1 hmem with hworkers | hunclaimed
  · obtain ⟨worker, hworker, hwrite⟩ := List.mem_flatMap.1 hworkers
    cases worker with
    | carryingOut index ad report pending =>
        exact mem_batchWrites (hsound.workers _ hworker) (mem_of_mem_tried hwrite)
    | idle => cases hwrite
    | finished outcome => cases hwrite
    | stopped => cases hwrite
  · obtain ⟨ad, had, hwrite⟩ := List.mem_flatMap.1 hunclaimed
    exact mem_batchWrites_iff.2 ⟨ad, List.mem_of_mem_drop had, mem_of_mem_tried hwrite⟩

theorem Tallied.move {config : FactoryConfig} {start final : Holdings}
    (hconcordant : Concordant config start.tree (batchWrites factory directoryOf ads))
    (htallied : pool.Tallied factory directoryOf ads start final)
    (hmoves : Moves factory ads pool number next) :
    next.Tallied factory directoryOf ads start final := by
  have hsound : next.Sound (EndsAsIn start.tree) factory directoryOf ads := by
    apply htallied.sound.move _ hmoves
    intro write hwrite
    rw [EndsAsIn, ← htallied.endings write hwrite, ending, fst_writeFile]
  have hmem : ∀ write ∈ pool.remaining factory directoryOf ads start.tree,
      write ∈ batchWrites factory directoryOf ads :=
    fun write => mem_batchWrites_of_mem_remaining htallied.sound
  rcases remaining_of_moves htallied.sound htallied.endings hmoves with
    ⟨hholdings, hperm⟩ | ⟨write, hwrite, hholdings, hperm⟩
  · have htree : next.store.tree = pool.store.tree := congrArg Holdings.tree hholdings
    refine ⟨hsound, htree ▸ htallied.folders, htree ▸ htallied.endings, ?_⟩
    rw [hholdings, ← htallied.total]
    exact (hconcordant.foldl_perform_perm hperm hmem htallied.folders).symm
  · have htree : next.store.tree = (pool.store.holdings.perform write).tree :=
      congrArg Holdings.tree hholdings
    refine ⟨hsound, ?_, ?_, ?_⟩
    · rw [htree]
      exact htallied.folders.trans (sameFolders_perform pool.store.holdings write)
    · intro other hother
      rw [htree, hconcordant.ending_perform hwrite hother htallied.folders]
      exact htallied.endings other hother
    · rw [hholdings, ← htallied.total, hconcordant.foldl_perform_perm hperm hmem htallied.folders,
        List.foldl_cons]

/-- What the files and counters are after all requests of a batch. -/
def finalHoldings (factory : Factory) (directoryOf : String → Path) (ads : List ClassAd)
    (start : Holdings) : Holdings :=
  (ads.flatMap fun ad => tried start.tree (writesOf factory directoryOf ad)).foldl
    Holdings.perform start

theorem tallied_start (factory : Factory) (ads : List ClassAd) (store : Store) (workers : Nat) :
    (start store workers).Tallied factory store.directoryOf ads store.holdings
      (finalHoldings factory store.directoryOf ads store.holdings) where
  sound := sound_start rfl workers
  folders := SameFolders.refl store.tree
  endings := fun _ _ => rfl
  total := by
    have hidle : (List.replicate workers Worker.idle).flatMap
        (fun worker => worker.remaining store.holdings.tree) = [] := by
      rw [List.flatMap_eq_nil_iff]
      intro worker hworker
      rw [List.eq_of_mem_replicate hworker]
      rfl
    simp only [remaining, start, hidle, List.nil_append, List.drop_zero, finalHoldings]

theorem Tallied.run {config : FactoryConfig} {start final : Holdings}
    (hconcordant : Concordant config start.tree (batchWrites factory directoryOf ads))
    (htallied : pool.Tallied factory directoryOf ads start final) (schedule : List Nat) :
    (pool.run factory ads schedule).Tallied factory directoryOf ads start final :=
  run_induction htallied (fun _ _ _ hmoves hkept => hkept.move hconcordant hmoves) schedule

end Pool

end CredentialIntake.Intake
