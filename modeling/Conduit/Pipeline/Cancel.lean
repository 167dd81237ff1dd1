import Conduit.Base.TSys
import Mathlib.Logic.Function.Iterate
import Mathlib.Tactic.Common

/-!
# Cancel tokens

A token and its ancestors, level 0 being the token itself, with any number of
tasks that cancel some of them and one task that waits in `cancelled`. Every
atomic operation is an action of its own, so that the others may come between
any two of them: `cancel` first flips the flag and then, if it was the first to
do so, announces the change; `cancelled` subscribes to a level, reads the flags
from there up, and only then waits and turns to the parent.
-/

namespace Conduit.Pipeline.Cancel

open Base

/-! ## Tokens -/

/-- Where the waiting task is: before it subscribes to a level, before it reads
a flag for that level, waiting on all of them, or returned. -/
inductive Waiter
  | subscribing (level : Nat)
  | reading (level flag : Nat)
  | waiting
  | returned
deriving DecidableEq

structure Tokens where
  /-- `canceled`, by level. -/
  canceled : Nat → Bool := fun _ => false
  /-- Whether the change was announced. -/
  changed : Nat → Bool := fun _ => false
  /-- How many calls of `cancel` returned `true`. -/
  flips : Nat → Nat := fun _ => 0
  /-- What a subscription had been told when it was made. -/
  seen : Nat → Bool := fun _ => false
  waiter : Waiter := .subscribing 0

inductive Action
  | flip (level : Nat)
  | announce (level : Nat)
  | advance
  | wake (level : Nat)

namespace Tokens

/-- `swap` in `cancel`. -/
def flip (level : Nat) (s : Tokens) : Tokens :=
  { s with
    canceled := Function.update s.canceled level true
    flips := Function.update s.flips level
      (s.flips level + if s.canceled level then 0 else 1) }

/-- `send_replace` in `cancel`, by the call that flipped the flag. -/
def announce (level : Nat) (s : Tokens) : Tokens :=
  { s with changed := Function.update s.changed level (s.changed level || s.canceled level) }

/-- The next operation of the waiting task, on a chain of `levels` tokens. -/
def advance (levels : Nat) (s : Tokens) : Tokens :=
  match s.waiter with
  | .subscribing level =>
      { s with
        seen := Function.update s.seen level (s.changed level)
        waiter := .reading level level }
  | .reading level flag =>
      if s.canceled flag then { s with waiter := .returned }
      else if flag + 1 < levels then { s with waiter := .reading level (flag + 1) }
      else if level + 1 < levels then { s with waiter := .subscribing (level + 1) }
      else { s with waiter := .waiting }
  | .waiting => s
  | .returned => s

/-- The levels whose subscription is being waited on. -/
def awaits (levels : Nat) (s : Tokens) (level : Nat) : Bool :=
  match s.waiter with
  | .subscribing next => level < next
  | .reading next _ => level < next
  | .waiting => level < levels
  | .returned => false

/-- A change that was announced after the subscription ends the wait; `select!`
may look at the levels in any order. -/
def wake (levels level : Nat) (s : Tokens) : Tokens :=
  if s.awaits levels level && s.changed level && !s.seen level then
    { s with waiter := .returned }
  else s

def step (levels : Nat) (s : Tokens) : Action → Tokens
  | .flip level => s.flip level
  | .announce level => s.announce level
  | .advance => s.advance levels
  | .wake level => s.wake levels level

/-- A token with that many ancestors. -/
def system (ancestors : Nat) : TSys Tokens Action where
  init := {}
  step := step (ancestors + 1)

/-! ## The invariant -/

/-- A subscription that came after the announcement is noticed by the read of
the flag that follows, so none of these is waited on. -/
structure Fresh (levels : Nat) (s : Tokens) : Prop where
  announced : ∀ level, s.changed level = true → s.canceled level = true
  told : ∀ level, s.seen level = true → s.canceled level = true
  once : ∀ level, s.flips level = if s.canceled level then 1 else 0
  subscribing : ∀ level, s.waiter = .subscribing level → level < levels
  reading : ∀ level flag, s.waiter = .reading level flag →
    level ≤ flag ∧ flag < levels ∧ (level < flag → s.seen level = false)
  unseen : ∀ level, s.awaits levels level = true → s.seen level = false
  returned : s.waiter = .returned → ∃ level, level < levels ∧ s.canceled level = true

variable {levels : Nat} {s : Tokens}

theorem Fresh.flip (h : Fresh levels s) (level : Nat) : Fresh levels (s.flip level) := by
  have hstill : ∀ other, s.canceled other = true → (s.flip level).canceled other = true := by
    intro other hother
    by_cases heq : other = level <;> simp [Tokens.flip, heq, hother]
  refine ⟨fun other hother => hstill other (h.announced other hother),
    fun other hother => hstill other (h.told other hother), ?_, h.subscribing, h.reading, h.unseen,
      ?_⟩
  · intro other
    by_cases heq : other = level
    · subst heq
      have honce := h.once other
      cases hcanceled : s.canceled other <;> simp_all [Tokens.flip]
    · simpa [Tokens.flip, heq] using h.once other
  · intro hreturned
    obtain ⟨other, hlt, hother⟩ := h.returned hreturned
    exact ⟨other, hlt, hstill other hother⟩

theorem Fresh.announce (h : Fresh levels s) (level : Nat) : Fresh levels (s.announce level) := by
  refine ⟨?_, h.told, h.once, h.subscribing, h.reading, h.unseen, h.returned⟩
  intro other hother
  by_cases heq : other = level
  · subst heq
    simp only [Tokens.announce, Function.update_self, Bool.or_eq_true] at hother
    rcases hother with hother | hother
    · exact h.announced other hother
    · exact hother
  · exact h.announced other (by simpa [Tokens.announce, heq] using hother)

theorem Fresh.wake (h : Fresh levels s) (level : Nat) : Fresh levels (s.wake levels level) := by
  unfold Tokens.wake
  split
  · next hready =>
      simp only [Bool.and_eq_true, Bool.not_eq_true'] at hready
      obtain ⟨⟨hawaits, hchanged⟩, -⟩ := hready
      refine ⟨h.announced, h.told, h.once, by simp, by simp, by simp [awaits], fun _ => ?_⟩
      refine ⟨level, ?_, h.announced level hchanged⟩
      -- only levels of the chain are waited on
      cases hwaiter : s.waiter with
      | subscribing next =>
          have hnext := h.subscribing next hwaiter
          simp [awaits, hwaiter] at hawaits
          omega
      | reading next flag =>
          obtain ⟨hle, hlt, -⟩ := h.reading next flag hwaiter
          simp [awaits, hwaiter] at hawaits
          omega
      | waiting => simpa [awaits, hwaiter] using hawaits
      | returned => simp [awaits, hwaiter] at hawaits
  · exact h

theorem Fresh.advance (h : Fresh levels s) : Fresh levels (s.advance levels) := by
  cases hwaiter : s.waiter with
  | subscribing level =>
      have hlevel := h.subscribing level hwaiter
      simp only [Tokens.advance, hwaiter]
      refine ⟨h.announced, ?_, h.once, by simp, ?_, ?_, by simp⟩
      · intro other hother
        by_cases heq : other = level
        · subst heq
          exact h.announced other (by simpa using hother)
        · exact h.told other (by simpa [heq] using hother)
      · intro level' flag hreading
        simp only [Waiter.reading.injEq] at hreading
        obtain ⟨rfl, rfl⟩ := hreading
        exact ⟨Nat.le_refl _, hlevel, fun hlt => absurd hlt (Nat.lt_irrefl _)⟩
      · intro other hother
        have hlt : other < level := by simpa [awaits] using hother
        have hne : other ≠ level := by omega
        simpa [hne] using h.unseen other (by simpa [awaits, hwaiter] using hlt)
  | reading level flag =>
      obtain ⟨hle, hlt, hpast⟩ := h.reading level flag hwaiter
      simp only [Tokens.advance, hwaiter]
      split
      · next hcanceled =>
          exact ⟨h.announced, h.told, h.once, by simp, by simp, by simp [awaits],
            fun _ => ⟨flag, hlt, hcanceled⟩⟩
      · next hcanceled =>
          -- the flag of the level itself was read first
          have hunseen : s.seen level = false := by
            by_cases heq : level = flag
            · subst heq
              exact Bool.eq_false_iff.mpr fun hseen => hcanceled (h.told level hseen)
            · exact hpast (by omega)
          have hbelow : ∀ other, other ≤ level → s.seen other = false := by
            intro other hother
            by_cases heq : other = level
            · exact heq ▸ hunseen
            · exact h.unseen other (by simp [awaits, hwaiter]; omega)
          split
          · next hnext =>
              refine ⟨h.announced, h.told, h.once, by simp, ?_, ?_, by simp⟩
              · intro level' flag' hreading
                simp only [Waiter.reading.injEq] at hreading
                obtain ⟨rfl, rfl⟩ := hreading
                exact ⟨by omega, hnext, fun _ => hunseen⟩
              · intro other hother
                exact hbelow other (by simp [awaits] at hother; omega)
          · next hlast =>
              split
              · next hparent =>
                  refine ⟨h.announced, h.told, h.once, by simpa using hparent, by simp, ?_, by simp⟩
                  intro other hother
                  exact hbelow other (by simp [awaits] at hother; omega)
              · next htop =>
                  refine ⟨h.announced, h.told, h.once, by simp, by simp, ?_, by simp⟩
                  intro other hother
                  exact hbelow other (by simp [awaits] at hother; omega)
  | waiting =>
      simp only [Tokens.advance, hwaiter]
      exact h
  | returned =>
      simp only [Tokens.advance, hwaiter]
      exact h

theorem fresh (ancestors : Nat) : (system ancestors).Inductive (Fresh (ancestors + 1)) where
  init := by
    refine ⟨by simp [system], by simp [system], by simp [system], ?_, by simp [system],
      by simp [system], by simp [system]⟩
    intro level hlevel
    simp [system] at hlevel
    omega
  step s action h := by
    cases action with
    | flip level => exact h.flip level
    | announce level => exact h.announce level
    | advance => exact h.advance
    | wake level => exact h.wake level

/-! ## Waiting ends -/

/-- How many operations the waiting task still has at most. -/
def left (levels : Nat) : Waiter → Nat
  | .subscribing level => (levels - level) * (levels + 2)
  | .reading level flag => (levels - (level + 1)) * (levels + 2) + (levels - flag) + 1
  | .waiting => 0
  | .returned => 0

theorem advance_left (h : Fresh levels s) (hwaiting : s.waiter ≠ .waiting)
    (hreturned : s.waiter ≠ .returned) :
    left levels (s.advance levels).waiter < left levels s.waiter := by
  cases hwaiter : s.waiter with
  | subscribing level =>
      have hlevel := h.subscribing level hwaiter
      have hsplit : (levels - level) * (levels + 2) =
          (levels - (level + 1)) * (levels + 2) + (levels + 2) := by
        rw [← Nat.succ_mul]
        congr 1
        omega
      simp only [advance, hwaiter, left, hsplit]
      omega
  | reading level flag =>
      obtain ⟨hle, hlt, -⟩ := h.reading level flag hwaiter
      simp only [advance, hwaiter]
      split
      · simp [left]
      · split
        · simp only [left]
          omega
        · split
          · simp only [left]
            omega
          · simp [left]
  | waiting => exact absurd hwaiter hwaiting
  | returned => exact absurd hwaiter hreturned

theorem advance_changed (s : Tokens) : (s.advance levels).changed = s.changed := by
  unfold advance
  split
  · rfl
  · split
    · rfl
    · split
      · rfl
      · split <;> rfl
  · rfl
  · rfl

/-- On its own, the task comes to wait or returns. -/
theorem settles (ancestors : Nat) : ∀ (n : Nat) (s : Tokens), Fresh (ancestors + 1) s →
    left (ancestors + 1) s.waiter ≤ n → ∃ settled : Tokens,
      settled = (system ancestors).run s (List.replicate n .advance) ∧
        Fresh (ancestors + 1) settled ∧ settled.changed = s.changed ∧
          (settled.waiter = .waiting ∨ settled.waiter = .returned) := by
  intro n
  induction n with
  | zero =>
      intro s h hleft
      refine ⟨s, rfl, h, rfl, ?_⟩
      by_contra hne
      obtain ⟨hwaiting, hreturned⟩ := not_or.mp hne
      have hless := advance_left h hwaiting hreturned
      omega
  | succ n ih =>
      intro s h hleft
      have hnext : left (ancestors + 1) (s.advance (ancestors + 1)).waiter ≤ n := by
        by_cases hwaiting : s.waiter = .waiting
        · simp [advance, hwaiting, left]
        · by_cases hreturned : s.waiter = .returned
          · simp [advance, hreturned, left]
          · have hless := advance_left h hwaiting hreturned
            omega
      obtain ⟨settled, hrun, hfresh, hchanged, hwaiter⟩ := ih _ h.advance hnext
      exact ⟨settled, hrun, hfresh, hchanged.trans (advance_changed s), hwaiter⟩

/-- However the calls of `cancel` and the waiting task come between each other:
exactly the first call on a token returns `true`; `cancelled` returns only if
the token or an ancestor is canceled; and once a cancellation of one of them
has been announced, the task returns on its own, so no wake-up is lost. -/
theorem no_lost_cancellation (ancestors : Nat) :
    (system ancestors).Invariant fun s =>
      (∀ level, s.flips level = if s.canceled level then 1 else 0) ∧
      (s.waiter = .returned → ∃ level ≤ ancestors, s.canceled level = true) ∧
      ∀ level ≤ ancestors, s.changed level = true → ∃ n,
        ((system ancestors).run s (List.replicate n .advance ++ [.wake level])).waiter =
          .returned := by
  refine (fresh ancestors).invariant.mono ?_
  intro s h
  refine ⟨h.once, ?_, ?_⟩
  · intro hreturned
    obtain ⟨level, hlt, hcanceled⟩ := h.returned hreturned
    exact ⟨level, by omega, hcanceled⟩
  · intro level hlevel hchanged
    obtain ⟨settled, hrun, hfresh, hsame, hwaiter⟩ :=
      settles ancestors (left (ancestors + 1) s.waiter) s h (Nat.le_refl _)
    refine ⟨left (ancestors + 1) s.waiter, ?_⟩
    rw [TSys.run_append, ← hrun]
    show (settled.wake (ancestors + 1) level).waiter = .returned
    rcases hwaiter with hwaiting | hreturned
    · -- the subscription of that level came before the announcement
      have hawaits : settled.awaits (ancestors + 1) level = true := by
        simp [awaits, hwaiting]
        omega
      have hunseen := hfresh.unseen level hawaits
      rw [← hsame] at hchanged
      simp [wake, hawaits, hunseen, hchanged]
    · simp [wake, awaits, hreturned]

end Tokens

end Conduit.Pipeline.Cancel
