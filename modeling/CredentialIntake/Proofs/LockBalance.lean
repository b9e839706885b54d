import CredentialIntake.Proofs.LockShares
import CredentialIntake.Store.Writers
import Mathlib.Data.List.Perm.Basic

/-!
# Balanced lock tables

A lock table is balanced for some writers when each lock has as many shares as its
entry and the writers account for, and is held exactly if one writer holds it.
Whatever turn a writer takes, the table stays balanced.
-/

namespace CredentialIntake.Store

open LockTable

namespace WriterPhase

/-- Whether a writer holds a lock. -/
def holds (number : Nat) : WriterPhase → Bool
  | writing _ lock => lock = number
  | written _ lock => lock = number
  | _ => false

/-- The entry a writer relies on: that of its path, until the table is done with
it. -/
def reliance? : WriterPhase → Option (PathKey × Nat)
  | waiting write lock => some (write.path.components, lock)
  | writing write lock => some (write.path.components, lock)
  | written write lock => some (write.path.components, lock)
  | releasing write lock => some (write.path.components, lock)
  | _ => none

variable {phase : WriterPhase} {key : PathKey} {number : Nat}

theorem share?_of_reliance? (hentry : phase.reliance? = some (key, number)) :
    phase.share? = some number := by
  cases phase <;> simp_all [reliance?, share?]

theorem share?_of_holds (hholds : phase.holds number = true) : phase.share? = some number := by
  cases phase <;> simp_all [holds, share?]

theorem exists_of_holding? {write : FileWrite} (hholding : phase.holding? = some write) :
    ∃ number, phase.holds number = true ∧ phase.reliance? = some (write.path.components, number) := by
  cases phase <;> simp_all [holding?, holds, reliance?]

end WriterPhase

/-- How many writers have a share of a lock. -/
def sharers (phases : List WriterPhase) (number : Nat) : Nat :=
  phases.countP fun phase => phase.share? = some number

/-- How many writers hold a lock. -/
def holders (phases : List WriterPhase) (number : Nat) : Nat :=
  phases.countP (·.holds number)

section Counting

variable {phases others : List WriterPhase} {phase : WriterPhase} {number : Nat}

theorem sharers_cons : sharers (phase :: others) number =
    sharers others number + if phase.share? = some number then 1 else 0 := by
  simp [sharers, List.countP_cons]

theorem holders_cons : holders (phase :: others) number =
    holders others number + if phase.holds number then 1 else 0 := by
  simp [holders, List.countP_cons]

theorem holders_le_sharers (phases : List WriterPhase) (number : Nat) :
    holders phases number ≤ sharers phases number := by
  apply List.countP_mono_left
  intro phase _ hholds
  exact decide_eq_true (WriterPhase.share?_of_holds hholds)

theorem sharers_eq_zero_iff : sharers phases number = 0 ↔
    ∀ phase ∈ phases, phase.share? ≠ some number := by
  simp [sharers, List.countP_eq_zero]

theorem sharers_pos (hmem : phase ∈ phases) (hshare : phase.share? = some number) :
    0 < sharers phases number :=
  List.countP_pos_iff.2 ⟨phase, hmem, decide_eq_true hshare⟩

theorem holders_pos (hmem : phase ∈ phases) (hholds : phase.holds number = true) :
    0 < holders phases number :=
  List.countP_pos_iff.2 ⟨phase, hmem, hholds⟩

end Counting

/-- What a step of a writer makes of the lock table and of how far it has come. -/
inductive Turn (table : LockTable) : WriterPhase → LockTable → WriterPhase → Prop where
  | asks {write : FileWrite} :
      Turn table .idle (table.checkOut write.path.components).2
        (.waiting write (table.checkOut write.path.components).1)
  | takesHold {write : FileWrite} {lock : Nat} :
      table.isHeld lock = false →
      Turn table (.waiting write lock) (table.acquire lock) (.writing write lock)
  | writes {write : FileWrite} {lock : Nat} :
      Turn table (.writing write lock) table (.written write lock)
  | letsGo {write : FileWrite} {lock : Nat} :
      Turn table (.written write lock) (table.release lock) (.releasing write lock)
  | handsBack {write : FileWrite} {lock : Nat} :
      Turn table (.releasing write lock) (table.checkIn write.path.components lock)
        (.leaving write lock)
  | leaves {write : FileWrite} {lock : Nat} :
      Turn table (.leaving write lock) (table.giveUp lock) .idle

/-- The shares and the holders of all locks are those that entries and writers
account for. -/
structure Balanced (table : LockTable) (phases : List WriterPhase) : Prop where
  once : ∀ (key other : PathKey) (number : Nat), table.listed[key]? = some number →
    table.listed[other]? = some number → key = other
  relied : ∀ phase ∈ phases, ∀ (key : PathKey) (number : Nat), phase.reliance? = some (key, number) →
    table.listed[key]? = some number
  listed : ∀ (key : PathKey) (number : Nat), table.listed[key]? = some number →
    table.sharesIn number = sharers phases number + 1
  unlisted : ∀ number, (∀ key : PathKey, table.listed[key]? ≠ some number) →
    table.sharesIn number = sharers phases number
  held : ∀ number, (table.isHeld number).toNat = holders phases number
  fresh : ∀ number, table.next ≤ number → table.sharesIn number = 0

namespace Balanced

variable {table after : LockTable} {phase moved : WriterPhase} {phases others : List WriterPhase}
  {write : FileWrite} {lock number : Nat} {key : PathKey}

theorem perm (hbalanced : Balanced table phases) (hperm : phases.Perm others) :
    Balanced table others where
  once := hbalanced.once
  relied := fun phase hmem => hbalanced.relied phase (hperm.mem_iff.2 hmem)
  listed := fun key number hlisted => by
    rw [hbalanced.listed key number hlisted, sharers, sharers, hperm.countP_eq]
  unlisted := fun number hunlisted => by
    rw [hbalanced.unlisted number hunlisted, sharers, sharers, hperm.countP_eq]
  held := fun number => by rw [hbalanced.held number, holders, holders, hperm.countP_eq]
  fresh := hbalanced.fresh

theorem sharers_le_sharesIn (hbalanced : Balanced table phases) (number : Nat) :
    sharers phases number ≤ table.sharesIn number := by
  by_cases hlisted : ∃ key : PathKey, table.listed[key]? = some number
  · obtain ⟨key, hlisted⟩ := hlisted
    rw [hbalanced.listed key number hlisted]
    exact Nat.le_succ _
  · exact Nat.le_of_eq (hbalanced.unlisted number fun key hkey => hlisted ⟨key, hkey⟩).symm

theorem sharesIn_pos (hbalanced : Balanced table phases) (hmem : phase ∈ phases)
    (hshare : phase.share? = some number) : 0 < table.sharesIn number :=
  Nat.lt_of_lt_of_le (sharers_pos hmem hshare) (hbalanced.sharers_le_sharesIn number)

theorem lt_next_of_listed (hbalanced : Balanced table phases)
    (hlisted : table.listed[key]? = some number) : number < table.next := by
  by_contra hnext
  have hshares := hbalanced.listed key number hlisted
  rw [hbalanced.fresh number (Nat.le_of_not_lt hnext)] at hshares
  cases hshares

theorem holders_le_one (hbalanced : Balanced table phases) (number : Nat) :
    holders phases number ≤ 1 := by
  rw [← hbalanced.held number]
  exact Bool.toNat_le _

theorem lt_next_of_share (hbalanced : Balanced table phases) (hmem : phase ∈ phases)
    (hshare : phase.share? = some number) : number < table.next := by
  by_contra hnext
  have hpos := hbalanced.sharesIn_pos hmem hshare
  rw [hbalanced.fresh number (Nat.le_of_not_lt hnext)] at hpos
  cases hpos

/-! ### One turn -/

/-- A turn that leaves the entries alone keeps the balance if shares and holders
change with the writer. -/
private theorem of_same_entries (hbalanced : Balanced table (phase :: others))
    (hlisted : after.listed = table.listed) (hnext : after.next = table.next)
    (hentry : ∀ (key : PathKey) (number : Nat), moved.reliance? = some (key, number) →
      table.listed[key]? = some number)
    (hshare : ∀ number, moved.share? = some number → number < table.next)
    (hshares : ∀ number, after.sharesIn number + (if phase.share? = some number then 1 else 0) =
      table.sharesIn number + if moved.share? = some number then 1 else 0)
    (hheld : ∀ number, (after.isHeld number).toNat + (if phase.holds number then 1 else 0) =
      (table.isHeld number).toNat + if moved.holds number then 1 else 0) :
    Balanced after (moved :: others) where
  once := by
    rw [hlisted]
    exact hbalanced.once
  relied := by
    rw [hlisted]
    exact List.forall_mem_cons.2 ⟨hentry, (List.forall_mem_cons.1 hbalanced.relied).2⟩
  listed := by
    intro key number hkey
    rw [hlisted] at hkey
    have hbefore := hbalanced.listed key number hkey
    have hafter := hshares number
    rw [sharers_cons] at hbefore ⊢
    omega
  unlisted := by
    intro number hnone
    rw [hlisted] at hnone
    have hbefore := hbalanced.unlisted number hnone
    have hafter := hshares number
    rw [sharers_cons] at hbefore ⊢
    omega
  held := by
    intro number
    have hbefore := hbalanced.held number
    have hafter := hheld number
    rw [holders_cons] at hbefore ⊢
    omega
  fresh := by
    intro number hunused
    rw [hnext] at hunused
    have hbefore := hbalanced.fresh number hunused
    have hafter := hshares number
    rw [if_neg fun hmoved => Nat.not_lt.2 hunused (hshare number hmoved)] at hafter
    omega

private theorem asks_listed (hbalanced : Balanced table (.idle :: others))
    (hlisted : table.listed[write.path.components]? = some lock) :
    Balanced (table.put lock ⟨table.sharesIn lock + 1, table.isHeld lock⟩)
      (.waiting write lock :: others) := by
  refine hbalanced.of_same_entries rfl rfl ?_ ?_ ?_ ?_
  · rintro key number ⟨rfl⟩
    exact hlisted
  · rintro number ⟨rfl⟩
    exact hbalanced.lt_next_of_listed hlisted
  · intro number
    by_cases heq : lock = number <;> simp [heq, WriterPhase.share?]
  · intro number
    by_cases heq : lock = number <;> simp [heq, WriterPhase.holds]

/-- A number that has not been given out is that of no entry and of no share. -/
private theorem next_unused (hbalanced : Balanced table phases) :
    (∀ key : PathKey, table.listed[key]? ≠ some table.next) ∧ sharers phases table.next = 0 := by
  constructor
  · intro key hkey
    exact absurd (hbalanced.lt_next_of_listed hkey) (Nat.lt_irrefl _)
  · have hle := hbalanced.sharers_le_sharesIn table.next
    rwa [hbalanced.fresh table.next (Nat.le_refl _), Nat.le_zero] at hle

private theorem asks_unlisted (hbalanced : Balanced table (.idle :: others))
    (hunlisted : table.listed[write.path.components]? = none) :
    Balanced ((table.list write.path.components).put table.next ⟨2, false⟩)
      (.waiting write table.next :: others) where
  once := by
    obtain ⟨hnext, -⟩ := hbalanced.next_unused
    intro key other number hkey hother
    rw [listed_put, listed_list] at hkey hother
    split at hkey <;> split at hother
    · simp_all
    · cases hkey
      exact absurd hother (hnext other)
    · cases hother
      exact absurd hkey (hnext key)
    · exact hbalanced.once key other number hkey hother
  relied := by
    obtain ⟨-, hothers⟩ := List.forall_mem_cons.1 hbalanced.relied
    refine List.forall_mem_cons.2 ⟨?_, ?_⟩
    · rintro key number ⟨rfl⟩
      simp
    · intro phase hmem key number hentry
      exact listed_list_of_listed hunlisted (hothers phase hmem key number hentry)
  listed := by
    obtain ⟨hnext, hnone⟩ := hbalanced.next_unused
    intro key number hkey
    rw [listed_put, listed_list] at hkey
    split at hkey
    · cases hkey
      simp_all [sharers_cons, WriterPhase.share?]
    · have hne : table.next ≠ number := by
        rintro rfl
        exact hnext key hkey
      have hbefore := hbalanced.listed key number hkey
      simp_all [sharers_cons, WriterPhase.share?]
  unlisted := by
    intro number hnone
    have hne : table.next ≠ number := by
      rintro rfl
      exact hnone write.path.components (by simp)
    have hbefore := hbalanced.unlisted number fun key hkey =>
      hnone key (listed_list_of_listed hunlisted hkey)
    simp_all [sharers_cons, WriterPhase.share?]
  held := by
    obtain ⟨-, hnone⟩ := hbalanced.next_unused
    intro number
    have hbefore := hbalanced.held number
    have hle := holders_le_sharers others number
    simp only [holders_cons, sharers_cons, WriterPhase.holds, WriterPhase.share?, isHeld_put,
      isHeld_list] at hbefore hnone ⊢
    split <;> simp_all
  fresh := by
    intro number hnext
    rw [next_put, next_list] at hnext
    have hne : table.next ≠ number := Nat.ne_of_lt hnext
    rw [sharesIn_put, if_neg hne, sharesIn_list]
    exact hbalanced.fresh number (Nat.le_of_succ_le hnext)

private theorem asks (hbalanced : Balanced table (.idle :: others)) (write : FileWrite) :
    Balanced (table.checkOut write.path.components).2
      (.waiting write (table.checkOut write.path.components).1 :: others) := by
  cases hlisted : table.listed[write.path.components]? with
  | none =>
      rw [checkOut_of_unlisted hlisted]
      exact hbalanced.asks_unlisted hlisted
  | some lock =>
      have hshared : 0 < table.sharesIn lock := by
        rw [hbalanced.listed _ lock hlisted]
        exact Nat.succ_pos _
      rw [checkOut_of_listed hlisted hshared]
      exact hbalanced.asks_listed hlisted

private theorem takesHold (hbalanced : Balanced table (.waiting write lock :: others))
    (hfree : table.isHeld lock = false) :
    Balanced (table.acquire lock) (.writing write lock :: others) := by
  rw [acquire_eq_put (hbalanced.sharesIn_pos List.mem_cons_self rfl)]
  refine hbalanced.of_same_entries rfl rfl ?_ ?_ ?_ ?_
  · exact fun key number hentry => hbalanced.relied _ List.mem_cons_self key number hentry
  · exact fun number hshare => hbalanced.lt_next_of_share List.mem_cons_self hshare
  · intro number
    by_cases heq : lock = number <;> simp [heq, WriterPhase.share?]
  · intro number
    by_cases heq : lock = number
    · subst heq
      simp [WriterPhase.holds, hfree]
    · simp [heq, WriterPhase.holds]

private theorem writes (hbalanced : Balanced table (.writing write lock :: others)) :
    Balanced table (.written write lock :: others) :=
  hbalanced.of_same_entries rfl rfl
    (fun _ _ hentry => hbalanced.relied _ List.mem_cons_self _ _ hentry)
    (fun _ hshare => hbalanced.lt_next_of_share List.mem_cons_self hshare)
    (fun _ => rfl) fun _ => rfl

private theorem letsGo (hbalanced : Balanced table (.written write lock :: others)) :
    Balanced (table.release lock) (.releasing write lock :: others) := by
  rw [release_eq_put (hbalanced.sharesIn_pos List.mem_cons_self rfl)]
  refine hbalanced.of_same_entries rfl rfl ?_ ?_ ?_ ?_
  · exact fun key number hentry => hbalanced.relied _ List.mem_cons_self key number hentry
  · exact fun number hshare => hbalanced.lt_next_of_share List.mem_cons_self hshare
  · intro number
    by_cases heq : lock = number <;> simp [heq, WriterPhase.share?]
  · intro number
    by_cases heq : lock = number
    · subst heq
      have hheld : (table.isHeld lock).toNat = 1 := by
        apply Nat.le_antisymm (Bool.toNat_le _)
        rw [hbalanced.held lock]
        exact holders_pos List.mem_cons_self (by simp [WriterPhase.holds])
      simp [WriterPhase.holds, hheld]
    · simp [heq, WriterPhase.holds]

/-- With two shares in a lock, one for its entry and one for a writer, no other
writer has any. -/
private theorem unshared_of_two (hbalanced : Balanced table (phase :: others))
    (hlisted : table.listed[key]? = some lock) (hshare : phase.share? = some lock)
    (htwo : table.sharesIn lock = 2) : sharers others lock = 0 := by
  have hshares := hbalanced.listed key lock hlisted
  rw [sharers_cons, if_pos hshare, htwo] at hshares
  omega

private theorem handsBack_unshared (hbalanced : Balanced table (.releasing write lock :: others))
    (htwo : table.sharesIn lock = 2) :
    Balanced ((table.unlist write.path.components).put lock ⟨1, table.isHeld lock⟩)
      (.leaving write lock :: others) := by
  have hlisted := hbalanced.relied _ List.mem_cons_self write.path.components lock rfl
  have hnone := hbalanced.unshared_of_two hlisted rfl htwo
  have hlisted_of : ∀ (key : PathKey) (number : Nat),
      ((table.unlist write.path.components).put lock ⟨1, table.isHeld lock⟩).listed[key]? =
        some number → table.listed[key]? = some number ∧ lock ≠ number := by
    intro key number hkey
    rw [listed_put, listed_unlist] at hkey
    split at hkey
    · cases hkey
    next hne =>
      refine ⟨hkey, ?_⟩
      rintro rfl
      exact hne (hbalanced.once _ _ lock hlisted hkey)
  exact
    { once := fun key other number hkey hother =>
        hbalanced.once key other number (hlisted_of key number hkey).1
          (hlisted_of other number hother).1
      relied := by
        obtain ⟨-, hothers⟩ := List.forall_mem_cons.1 hbalanced.relied
        refine List.forall_mem_cons.2 ⟨by rintro key number ⟨⟩, ?_⟩
        intro phase hmem key number hentry
        have hkey := hothers phase hmem key number hentry
        rw [listed_put, listed_unlist, if_neg, hkey]
        -- no other writer relies on the entry, or it would have a share
        rintro rfl
        rw [hlisted] at hkey
        cases hkey
        exact sharers_eq_zero_iff.1 hnone phase hmem (WriterPhase.share?_of_reliance? hentry)
      listed := by
        intro key number hkey
        obtain ⟨hbefore, hne⟩ := hlisted_of key number hkey
        have hshares := hbalanced.listed key number hbefore
        simp_all [sharers_cons, WriterPhase.share?]
      unlisted := by
        intro number hunlisted
        by_cases heq : lock = number
        · subst heq
          simp [sharers_cons, WriterPhase.share?, hnone]
        · have hshares := hbalanced.unlisted number fun key hkey => hunlisted key (by
            rw [listed_put, listed_unlist, if_neg, hkey]
            rintro rfl
            rw [hlisted] at hkey
            exact heq (Option.some.inj hkey))
          simp_all [sharers_cons, WriterPhase.share?]
      held := by
        intro number
        have hbefore := hbalanced.held number
        simp only [holders_cons, WriterPhase.holds, isHeld_put, isHeld_unlist] at hbefore ⊢
        split <;> simp_all
      fresh := by
        intro number hnext
        have hlt := hbalanced.lt_next_of_listed hlisted
        have hne : lock ≠ number := Nat.ne_of_lt (Nat.lt_of_lt_of_le hlt hnext)
        rw [sharesIn_put, if_neg hne, sharesIn_unlist]
        exact hbalanced.fresh number hnext }

private theorem handsBack (hbalanced : Balanced table (.releasing write lock :: others)) :
    Balanced (table.checkIn write.path.components lock) (.leaving write lock :: others) := by
  have hlisted := hbalanced.relied _ List.mem_cons_self write.path.components lock rfl
  by_cases htwo : table.sharesIn lock = 2
  · rw [checkIn_of_unshared hlisted htwo]
    exact hbalanced.handsBack_unshared htwo
  · rw [checkIn_of_shared (hbalanced.sharesIn_pos List.mem_cons_self rfl) htwo]
    refine hbalanced.of_same_entries rfl rfl ?_ ?_ ?_ ?_
    · rintro key number ⟨⟩
    · exact fun number hshare => hbalanced.lt_next_of_share List.mem_cons_self hshare
    · exact fun number => rfl
    · exact fun number => rfl

private theorem leaves (hbalanced : Balanced table (.leaving write lock :: others)) :
    Balanced (table.giveUp lock) (.idle :: others) := by
  have hpos := hbalanced.sharesIn_pos List.mem_cons_self
    (rfl : (WriterPhase.leaving write lock).share? = some lock)
  rcases Nat.lt_or_eq_of_le (Nat.succ_le_of_lt hpos) with hshared | hlast
  · rw [giveUp_of_shared hshared]
    refine hbalanced.of_same_entries rfl rfl ?_ ?_ ?_ ?_
    · rintro key number ⟨⟩
    · rintro number ⟨⟩
    · intro number
      by_cases heq : lock = number
      · subst heq
        simpa [WriterPhase.share?] using Nat.sub_add_cancel hpos
      · simp [heq, WriterPhase.share?]
    · intro number
      by_cases heq : lock = number <;> simp [heq, WriterPhase.holds]
  · rw [giveUp_of_last hlast.symm]
    -- the last one to have a share is not holding the lock
    have hfree : (table.isHeld lock).toNat = 0 := by
      have hle := hbalanced.sharers_le_sharesIn lock
      have hholders := holders_le_sharers others lock
      rw [sharers_cons] at hle
      rw [hbalanced.held lock, holders_cons]
      simp only [WriterPhase.share?, WriterPhase.holds, if_true] at hle ⊢
      simp
      omega
    refine hbalanced.of_same_entries rfl rfl ?_ ?_ ?_ ?_
    · rintro key number ⟨⟩
    · rintro number ⟨⟩
    · intro number
      by_cases heq : lock = number
      · subst heq
        simp [WriterPhase.share?, ← hlast]
      · simp [heq, WriterPhase.share?]
    · intro number
      by_cases heq : lock = number
      · subst heq
        simp [WriterPhase.holds, hfree]
      · simp [heq, WriterPhase.holds]

/-- Every turn keeps the balance. -/
theorem turn (hbalanced : Balanced table (phase :: others)) (hturn : Turn table phase after moved) :
    Balanced after (moved :: others) := by
  cases hturn with
  | asks => exact hbalanced.asks _
  | takesHold hfree => exact hbalanced.takesHold hfree
  | writes => exact hbalanced.writes
  | letsGo => exact hbalanced.letsGo
  | handsBack => exact hbalanced.handsBack
  | leaves => exact hbalanced.leaves

/-! ## Entries -/

/-- Asking for a lock changes no entry, but makes the one of its path if there is none. -/
theorem listed_checkOut (hbalanced : Balanced table phases) (asked key : PathKey) :
    (table.checkOut asked).2.listed[key]? = table.listed[key]? ∨
      asked = key ∧ table.listed[key]? = none := by
  cases hasked : table.listed[asked]? with
  | some number =>
      have hshared : 0 < table.sharesIn number := by
        rw [hbalanced.listed _ number hasked]
        exact Nat.succ_pos _
      rw [checkOut_of_listed hasked hshared, listed_put]
      exact Or.inl rfl
  | none =>
      rw [checkOut_of_unlisted hasked, listed_put, listed_list]
      by_cases heq : asked = key
      · exact Or.inr ⟨heq, heq ▸ hasked⟩
      · exact Or.inl (if_neg heq)

/-- Handing a lock back strikes the entry of its path out if no other writer has a
share, and no other entry. -/
theorem listed_checkIn (hbalanced : Balanced table (.releasing write lock :: others))
    (key : PathKey) :
    (table.checkIn write.path.components lock).listed[key]? =
      if write.path.components = key ∧ sharers others lock = 0 then none
      else table.listed[key]? := by
  have hlisted := hbalanced.relied _ List.mem_cons_self write.path.components lock rfl
  have hshares := hbalanced.listed _ lock hlisted
  rw [sharers_cons, if_pos (show (WriterPhase.releasing write lock).share? = some lock from rfl)]
    at hshares
  by_cases htwo : table.sharesIn lock = 2
  · have hnone : sharers others lock = 0 := by omega
    rw [checkIn_of_unshared hlisted htwo, listed_put, listed_unlist]
    simp only [hnone, and_true]
  · have hsome : sharers others lock ≠ 0 := by omega
    rw [checkIn_of_shared (hbalanced.sharesIn_pos List.mem_cons_self rfl) htwo,
      if_neg fun hboth => hsome hboth.2]

/-- Only a turn of the one writer with a share strikes an entry out. -/
theorem sharers_eq_zero_of_struck (hbalanced : Balanced table (phase :: others))
    (hturn : Turn table phase after moved) (hlisted : table.listed[key]? = some lock)
    (hstruck : after.listed[key]? ≠ some lock) : sharers others lock = 0 := by
  cases hturn with
  | takesHold => exact absurd (by rw [listed_acquire, hlisted]) hstruck
  | writes => exact absurd hlisted hstruck
  | letsGo => exact absurd (by rw [listed_release, hlisted]) hstruck
  | leaves => exact absurd (by rw [listed_giveUp, hlisted]) hstruck
  | @asks write =>
      rcases hbalanced.listed_checkOut write.path.components key with hsame | ⟨-, hnone⟩
      · exact absurd (hsame.trans hlisted) hstruck
      · rw [hnone] at hlisted
        cases hlisted
  | @handsBack write asked =>
      rw [hbalanced.listed_checkIn key] at hstruck
      split at hstruck
      next hboth =>
        have hasked := hbalanced.relied _ List.mem_cons_self write.path.components asked rfl
        rw [hboth.1, hlisted] at hasked
        cases hasked
        exact hboth.2
      next => exact absurd hlisted hstruck

end Balanced

end CredentialIntake.Store
