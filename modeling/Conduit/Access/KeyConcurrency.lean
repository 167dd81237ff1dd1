import Conduit.Base.TSys
import Mathlib.Data.List.Nodup
import Mathlib.Logic.Function.Basic
import Mathlib.Tactic.Common

/-!
# Concurrency leases of an API key

`acquire_postgres_api_key_slot` for one key, run by any number of replicas.
Each statement of its transaction is an action, so that the statements of
others may come between any two: an advisory lock serializes the acquisitions
from its second statement on, while leases are released without it. The
database's `now()` is the start of the transaction, which may lie before the
lock is granted; the expiry of a new lease is set by the replica's own clock,
so any instant may come.
-/

namespace Conduit.Access.KeyConcurrency

open Base

structure Lease where
  leaseId : Nat
  requestKey : String
  expiresAt : Nat

/-- What an acquisition was called with, and when its transaction began. -/
structure Admission where
  startedAt : Nat
  requestKey : String
  limit : Nat

/-- How far an acquisition is; from `locked` to `counted` its transaction has
the lock. -/
inductive Phase
  | idle
  | begun (admission : Admission)
  | locked (admission : Admission)
  | cleaned (admission : Admission)
  | absent (admission : Admission)
  | counted (admission : Admission)
  | admitted (leaseId : Nat)
  | refused (current limit : Nat)
  | failed

namespace Phase

def admission? : Phase → Option Admission
  | begun t | locked t | cleaned t | absent t | counted t => some t
  | _ => none

def holds : Phase → Bool
  | locked _ | cleaned _ | absent _ | counted _ => true
  | _ => false

end Phase

structure Table where
  now : Nat := 0
  nextId : Nat := 0
  /-- The highest limit an acquisition was called with. -/
  highestLimit : Nat := 0
  leases : List Lease := []
  lock : Option Nat := none
  phases : Nat → Phase := fun _ => .idle

inductive Action
  | tick (elapsed : Nat)
  | begin (task : Nat) (requestKey : String) (limit : Nat)
  | statement (task : Nat) (expiresAt : Nat)
  | rollback (task : Nat)
  | release (leaseId : Nat)

/-- The leases that have not expired at that instant. -/
def live (instant : Nat) (leases : List Lease) : List Lease :=
  leases.filter fun lease => instant < lease.expiresAt

namespace Table

def setPhase (task : Nat) (phase : Phase) (s : Table) : Table :=
  { s with phases := Function.update s.phases task phase }

/-- The end of a transaction that has the lock. -/
def finish (task : Nat) (phase : Phase) (leases : List Lease) (s : Table) : Table :=
  { s with
    leases := leases
    lock := none
    phases := Function.update s.phases task phase }

/-- The next statement of a transaction: the lock, the removal of expired
leases, which others see at the commit, the lookup, the count, the insertion. -/
def statement (task expiresAt : Nat) (s : Table) : Table :=
  match s.phases task with
  | .begun t =>
      if s.lock.isNone then { s.setPhase task (.locked t) with lock := some task } else s
  | .locked t => s.setPhase task (.cleaned t)
  | .cleaned t =>
      match (live t.startedAt s.leases).find? fun lease => lease.requestKey = t.requestKey with
      | some existing => s.finish task (.admitted existing.leaseId) (live t.startedAt s.leases)
      | none => s.setPhase task (.absent t)
  | .absent t =>
      if t.limit ≤ (live t.startedAt s.leases).length then
        s.finish task (.refused (live t.startedAt s.leases).length t.limit) s.leases
      else s.setPhase task (.counted t)
  | .counted t =>
      { s.finish task (.admitted s.nextId)
          (live t.startedAt s.leases ++
            [{ leaseId := s.nextId
               requestKey := t.requestKey
               expiresAt := expiresAt }]) with
        nextId := s.nextId + 1 }
  | _ => s

def step (s : Table) : Action → Table
  | .tick elapsed => { s with now := s.now + elapsed }
  | .begin task requestKey limit =>
      if (s.phases task).admission?.isSome then s
      else
        { s.setPhase task (.begun ⟨s.now, requestKey, limit⟩) with
          highestLimit := max s.highestLimit limit }
  | .statement task expiresAt => s.statement task expiresAt
  | .rollback task =>
      if (s.phases task).holds then s.finish task .failed s.leases
      else if (s.phases task).admission?.isSome then s.setPhase task .failed
      else s
  | .release leaseId => { s with leases := s.leases.filter fun lease => lease.leaseId ≠ leaseId }

def system : TSys Table Action where
  init := {}
  step := step

end Table

/-! ## Live leases -/

theorem live_sublist (instant : Nat) (leases : List Lease) :
    (live instant leases).Sublist leases := List.filter_sublist

theorem live_live {instant later : Nat} (h : instant ≤ later) (leases : List Lease) :
    live later (live instant leases) = live later leases := by
  unfold live
  rw [List.filter_filter]
  refine List.filter_congr fun lease _ => ?_
  by_cases hlater : later < lease.expiresAt <;> simp [hlater]
  omega

theorem live_of_sublist {instant : Nat} {leases leases' : List Lease} (h : leases.Sublist leases') :
    (live instant leases).Sublist (live instant leases') := h.filter _

/-! ## The invariant -/

/-- Only the task with the lock is in its critical section, where what it has
read of the table stays true until it commits. -/
structure Guarded (s : Table) : Prop where
  holder : ∀ task, (s.phases task).holds = true ↔ s.lock = some task
  started : ∀ task t, (s.phases task).admission? = some t →
    t.startedAt ≤ s.now ∧ t.limit ≤ s.highestLimit
  absent : ∀ task t, s.phases task = .absent t ∨ s.phases task = .counted t →
    ∀ lease ∈ live t.startedAt s.leases, lease.requestKey ≠ t.requestKey
  counted : ∀ task t, s.phases task = .counted t → (live t.startedAt s.leases).length < t.limit
  bounded : ∀ instant, s.now ≤ instant → (live instant s.leases).length ≤ s.highestLimit
  distinct : (s.leases.map Lease.requestKey).Nodup

variable {s : Table} {task : Nat} {phase : Phase} {t : Admission}

/-- A phase outside the critical section that keeps its own bounds. -/
theorem Guarded.setPhase_outside (h : Guarded s) (hbefore : (s.phases task).holds = false)
    (hafter : phase.holds = false)
    (hadmission : ∀ t, phase.admission? = some t →
      t.startedAt ≤ s.now ∧ t.limit ≤ s.highestLimit) :
    Guarded (s.setPhase task phase) := by
  have hnot : ∀ t, phase ≠ .absent t ∧ phase ≠ .counted t := by
    intro t
    constructor <;> rintro rfl <;> simp [Phase.holds] at hafter
  refine ⟨?_, ?_, ?_, ?_, h.bounded, h.distinct⟩
  · intro other
    by_cases heq : other = task
    · subst heq
      have hlock := (h.holder other).not.mp (by simp [hbefore])
      simp [Table.setPhase, hafter, hlock]
    · simpa [Table.setPhase, heq] using h.holder other
  · intro other t' hother
    by_cases heq : other = task
    · subst heq
      exact hadmission t' (by simpa [Table.setPhase] using hother)
    · exact h.started other t' (by simpa [Table.setPhase, heq] using hother)
  · intro other t' hother
    by_cases heq : other = task
    · subst heq
      simp [Table.setPhase, hnot t'] at hother
    · exact h.absent other t' (by simpa [Table.setPhase, heq] using hother)
  · intro other t' hother
    by_cases heq : other = task
    · subst heq
      simp [Table.setPhase, hnot t'] at hother
    · exact h.counted other t' (by simpa [Table.setPhase, heq] using hother)

/-- The next statement inside the critical section. -/
theorem Guarded.setPhase_inside (h : Guarded s) (hbefore : (s.phases task).holds = true)
    (hafter : phase.holds = true)
    (hadmission : phase.admission? = (s.phases task).admission?)
    (habsent : ∀ t, phase = .absent t ∨ phase = .counted t →
      ∀ lease ∈ live t.startedAt s.leases, lease.requestKey ≠ t.requestKey)
    (hcounted : ∀ t, phase = .counted t → (live t.startedAt s.leases).length < t.limit) :
    Guarded (s.setPhase task phase) := by
  refine ⟨?_, ?_, ?_, ?_, h.bounded, h.distinct⟩
  · intro other
    by_cases heq : other = task
    · subst heq
      have hlock := (h.holder other).mp hbefore
      simp [Table.setPhase, hafter, hlock]
    · simpa [Table.setPhase, heq] using h.holder other
  · intro other t' hother
    by_cases heq : other = task
    · subst heq
      refine h.started other t' (hadmission ▸ ?_)
      simpa [Table.setPhase] using hother
    · exact h.started other t' (by simpa [Table.setPhase, heq] using hother)
  · intro other t' hother
    by_cases heq : other = task
    · subst heq
      exact habsent t' (by simpa [Table.setPhase] using hother)
    · exact h.absent other t' (by simpa [Table.setPhase, heq] using hother)
  · intro other t' hother
    by_cases heq : other = task
    · subst heq
      exact hcounted t' (by simpa [Table.setPhase] using hother)
    · exact h.counted other t' (by simpa [Table.setPhase, heq] using hother)

/-- A transaction that ends releases the lock; nobody else was inside. -/
theorem Guarded.finish {leases : List Lease} (h : Guarded s)
    (hbefore : (s.phases task).holds = true) (hafter : phase.admission? = none)
    (hbounded : ∀ instant, s.now ≤ instant → (live instant leases).length ≤ s.highestLimit)
    (hdistinct : (leases.map Lease.requestKey).Nodup) :
    Guarded (s.finish task phase leases) := by
  have hlock := (h.holder task).mp hbefore
  have hout : phase.holds = false := by
    cases phase <;> simp_all [Phase.admission?, Phase.holds]
  have hothers : ∀ other, other ≠ task → (s.phases other).holds = false := by
    intro other hne
    rw [Bool.eq_false_iff]
    intro hother
    have hsame := (h.holder other).mp hother
    rw [hlock, Option.some.injEq] at hsame
    exact hne hsame.symm
  have hnone : ∀ other, ((s.finish task phase leases).phases other).holds = false := by
    intro other
    by_cases heq : other = task
    · simp [Table.finish, heq, hout]
    · simp [Table.finish, heq, hothers other heq]
  refine ⟨?_, ?_, ?_, ?_, hbounded, hdistinct⟩
  · intro other
    simp only [hnone other, Bool.false_eq_true, false_iff]
    simp [Table.finish]
  · intro other t' hother
    by_cases heq : other = task
    · subst heq
      simp [Table.finish, hafter] at hother
    · exact h.started other t' (by simpa [Table.finish, heq] using hother)
  · intro other t' hother
    have hholds := hnone other
    rcases hother with hother | hother <;> simp [hother, Phase.holds] at hholds
  · intro other t' hother
    have hholds := hnone other
    simp [hother, Phase.holds] at hholds

/-- A lease of a table that only loses leases. -/
theorem Guarded.remove {leases : List Lease} (h : Guarded s) (hsub : leases.Sublist s.leases) :
    Guarded { s with leases := leases } where
  holder := h.holder
  started := h.started
  absent task t hphase lease hlease :=
    h.absent task t hphase lease ((live_of_sublist hsub).subset hlease)
  counted task t hphase :=
    Nat.lt_of_le_of_lt (live_of_sublist hsub).length_le (h.counted task t hphase)
  bounded instant hinstant :=
    Nat.le_trans (live_of_sublist hsub).length_le (h.bounded instant hinstant)
  distinct := h.distinct.sublist (hsub.map _)

theorem Guarded.tick (h : Guarded s) (elapsed : Nat) :
    Guarded { s with now := s.now + elapsed } where
  holder := h.holder
  started task t hphase := by
    obtain ⟨hstarted, hlimit⟩ := h.started task t hphase
    exact ⟨Nat.le_trans hstarted (Nat.le_add_right _ _), hlimit⟩
  absent := h.absent
  counted := h.counted
  bounded instant hinstant := h.bounded instant (Nat.le_trans (Nat.le_add_right _ _) hinstant)
  distinct := h.distinct

theorem Guarded.raise (h : Guarded s) (limit : Nat) :
    Guarded { s with highestLimit := max s.highestLimit limit } where
  holder := h.holder
  started task t hphase := by
    obtain ⟨hstarted, hlimit⟩ := h.started task t hphase
    exact ⟨hstarted, Nat.le_trans hlimit (Nat.le_max_left _ _)⟩
  absent := h.absent
  counted := h.counted
  bounded instant hinstant := Nat.le_trans (h.bounded instant hinstant) (Nat.le_max_left _ _)
  distinct := h.distinct

/-- The lock is granted to a transaction that waits for it. -/
theorem Guarded.acquire (h : Guarded s) (hphase : s.phases task = .begun t)
    (hlock : s.lock = none) :
    Guarded { s.setPhase task (.locked t) with lock := some task } := by
  have hnone : ∀ other, (s.phases other).holds = false := by
    intro other
    rw [Bool.eq_false_iff]
    intro hother
    have hsame := (h.holder other).mp hother
    simp [hlock] at hsame
  refine ⟨?_, ?_, ?_, ?_, h.bounded, h.distinct⟩
  · intro other
    by_cases heq : other = task
    · simp [Table.setPhase, heq, Phase.holds]
    · have hne : ¬ task = other := fun hsame => heq hsame.symm
      simp [Table.setPhase, heq, hnone other, hne]
  · intro other t' hother
    by_cases heq : other = task
    · subst heq
      refine h.started other t' ?_
      simpa [Table.setPhase, hphase, Phase.admission?] using hother
    · exact h.started other t' (by simpa [Table.setPhase, heq] using hother)
  · intro other t' hother
    by_cases heq : other = task
    · simp [Table.setPhase, heq] at hother
    · exact h.absent other t' (by simpa [Table.setPhase, heq] using hother)
  · intro other t' hother
    by_cases heq : other = task
    · simp [Table.setPhase, heq] at hother
    · exact h.counted other t' (by simpa [Table.setPhase, heq] using hother)

/-- The insertion, which the count has left room for. -/
theorem Guarded.insert (h : Guarded s) (hphase : s.phases task = .counted t) (lease : Lease)
    (hkey : lease.requestKey = t.requestKey) (phase : Phase)
    (hadmission : phase.admission? = none) :
    Guarded (s.finish task phase (live t.startedAt s.leases ++ [lease])) ∧
      (live s.now (live t.startedAt s.leases ++ [lease])).length ≤ t.limit := by
  obtain ⟨hstarted, hlimit⟩ := h.started task t (by simp [hphase, Phase.admission?])
  have hroom := h.counted task t hphase
  have hlength : ∀ instant, s.now ≤ instant →
      (live instant (live t.startedAt s.leases ++ [lease])).length ≤ t.limit := by
    intro instant hinstant
    have hlive : (live instant (live t.startedAt s.leases)).length ≤
        (live t.startedAt s.leases).length := (live_sublist _ _).length_le
    have hone : (live instant [lease]).length ≤ 1 := (live_sublist _ _).length_le
    have happend : live instant (live t.startedAt s.leases ++ [lease]) =
        live instant (live t.startedAt s.leases) ++ live instant [lease] := List.filter_append ..
    rw [happend, List.length_append]
    -- the count was taken at an earlier instant, so it covers all that are live now
    omega
  refine ⟨h.finish (by simp [hphase, Phase.holds]) hadmission ?_ ?_, hlength s.now (Nat.le_refl _)⟩
  · exact fun instant hinstant => Nat.le_trans (hlength instant hinstant) hlimit
  · rw [List.map_append, List.map_singleton, List.nodup_append]
    refine ⟨h.distinct.sublist ((live_sublist _ _).map _), List.nodup_singleton _, ?_⟩
    intro key hmem other hother
    obtain ⟨existing, hexisting, rfl⟩ := List.mem_map.mp hmem
    rw [List.mem_singleton.mp hother, hkey]
    exact h.absent task t (.inr hphase) existing hexisting

theorem Guarded.statement (h : Guarded s) (task expiresAt : Nat) :
    Guarded (s.statement task expiresAt) := by
  unfold Table.statement
  split
  · next t hphase =>
      split
      · next hlock => exact h.acquire hphase (by simpa using hlock)
      · exact h
  · next t hphase =>
      exact h.setPhase_inside (by simp [hphase, Phase.holds]) rfl
        (by simp [hphase, Phase.admission?]) (by simp) (by simp)
  · next t hphase =>
      obtain ⟨hstarted, -⟩ := h.started task t (by simp [hphase, Phase.admission?])
      have hholds : (s.phases task).holds = true := by simp [hphase, Phase.holds]
      split
      · next existing hfound =>
          refine h.finish hholds rfl ?_ (h.distinct.sublist ((live_sublist _ _).map _))
          intro instant hinstant
          rw [live_live (Nat.le_trans hstarted hinstant)]
          exact h.bounded instant hinstant
      · next hnone =>
          refine h.setPhase_inside hholds rfl (by simp [hphase, Phase.admission?]) ?_ (by simp)
          intro t' hother lease hlease
          obtain rfl : t = t' := by simpa using hother
          simpa using List.find?_eq_none.mp hnone lease hlease
  · next t hphase =>
      have hholds : (s.phases task).holds = true := by simp [hphase, Phase.holds]
      split
      · exact h.finish hholds rfl h.bounded h.distinct
      · next hroom =>
          refine h.setPhase_inside hholds rfl (by simp [hphase, Phase.admission?]) ?_ ?_
          · intro t' hother
            obtain rfl : t = t' := by simpa using hother
            exact h.absent task t (.inl hphase)
          · intro t' hother
            obtain rfl : t = t' := by simpa using hother
            omega
  · next t hphase =>
      obtain ⟨hguarded, -⟩ := h.insert hphase
        { leaseId := s.nextId
          requestKey := t.requestKey
          expiresAt := expiresAt } rfl (.admitted s.nextId) rfl
      exact ⟨hguarded.holder, hguarded.started, hguarded.absent, hguarded.counted, hguarded.bounded,
        hguarded.distinct⟩
  · exact h

theorem Guarded.step (h : Guarded s) (action : Action) : Guarded (s.step action) := by
  cases action with
  | tick elapsed => exact h.tick elapsed
  | begin task requestKey limit =>
      simp only [Table.step]
      split
      · exact h
      · next hidle =>
          have hout : (s.phases task).holds = false := by
            cases hphase : s.phases task <;> simp_all [Phase.admission?, Phase.holds]
          refine (h.raise limit).setPhase_outside hout rfl ?_
          intro t hadmission
          obtain rfl : (⟨s.now, requestKey, limit⟩ : Admission) = t := by
            simpa [Phase.admission?] using hadmission
          exact ⟨Nat.le_refl _, Nat.le_max_right _ _⟩
  | statement task expiresAt => exact h.statement task expiresAt
  | rollback task =>
      simp only [Table.step]
      split
      · next hholds => exact h.finish hholds rfl h.bounded h.distinct
      · next hholds =>
          split
          · exact h.setPhase_outside (by simpa using hholds) rfl (by simp [Phase.admission?])
          · exact h
  | release leaseId => exact h.remove List.filter_sublist

theorem guarded : Table.system.Inductive Guarded where
  init := by
    refine ⟨?_, ?_, ?_, ?_, ?_, List.nodup_nil⟩ <;>
      simp [Table.system, Phase.holds, Phase.admission?, live]
  step _ action h := h.step action

/-- However the acquisitions of all replicas, the releases and the clock come
between each other: at no instant are more leases live than the highest limit
that was asked for, and no more than its own limit right after an acquisition;
no request has two leases; and the lock is taken only inside a transaction. -/
theorem leases_within_limit :
    Table.system.Invariant fun s =>
      (live s.now s.leases).length ≤ s.highestLimit ∧
      (∀ task t expiresAt, s.phases task = .counted t →
        (live s.now (s.statement task expiresAt).leases).length ≤ t.limit) ∧
      (s.leases.map Lease.requestKey).Nodup ∧
      ∀ task, s.lock = some task ↔ (s.phases task).holds = true := by
  refine guarded.invariant.mono ?_
  intro s h
  refine ⟨h.bounded s.now (Nat.le_refl _), ?_, h.distinct, fun task => (h.holder task).symm⟩
  intro task t expiresAt hphase
  have hinserted := h.insert hphase
    { leaseId := s.nextId
      requestKey := t.requestKey
      expiresAt := expiresAt } rfl (.admitted s.nextId) rfl
  simpa [Table.statement, hphase, Table.finish] using hinserted.2

end Conduit.Access.KeyConcurrency
