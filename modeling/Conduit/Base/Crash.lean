import Mathlib.Data.List.Basic

/-!
# Programs that may crash

A program changes a state in elementary steps, and a crash may come before any
of them: it is given as the number of steps that are still made. What the
program does in between is not a step of its own. `Safe t Q C s` says that `t`
from `s` ends in `Q` or crashes in `C`, however many steps it makes; there is
one rule for each way a program is put together. A step needs `C` where it
starts, since that is where it may not happen any more.
-/

namespace Base

/-- How a program ends; `left` are the steps that are left before the crash. -/
inductive Ending (S α : Type)
  | returned (a : α) (s : S) (left : Option Nat)
  | crashed (s : S)

def Ending.state {S α : Type} : Ending S α → S
  | .returned _ s _ => s
  | .crashed s => s

/-- A program over the states `S`; no number of steps means no crash. -/
def Crashing (S α : Type) := S → Option Nat → Ending S α

namespace Crashing

variable {S α β : Type}

instance : Monad (Crashing S) where
  pure a := fun s left => .returned a s left
  bind t k := fun s left =>
    match t s left with
    | .returned a s' left' => k a s' left'
    | .crashed s' => .crashed s'

/-- One step, unless the crash comes first. -/
def step (f : S → S) : Crashing S Unit := fun s left =>
  match left with
  | none => .returned () (f s) none
  | some 0 => .crashed s
  | some (left + 1) => .returned () (f s) (some left)

/-- A change that no crash can fall on, such as one of the program's memory. -/
def modify (f : S → S) : Crashing S Unit := fun s left => .returned () (f s) left

def observe (f : S → α) : Crashing S α := fun s left => .returned (f s) s left

/-! ## Execution -/

theorem pure_apply (a : α) (s : S) (left : Option Nat) :
    (Pure.pure a : Crashing S α) s left = .returned a s left := rfl

theorem bind_apply (t : Crashing S α) (k : α → Crashing S β) (s : S) (left : Option Nat) :
    (t >>= k) s left = match t s left with
      | .returned a s' left' => k a s' left'
      | .crashed s' => .crashed s' := rfl

theorem step_none (f : S → S) (s : S) : step f s none = .returned () (f s) none := rfl

theorem step_zero (f : S → S) (s : S) : step f s (some 0) = .crashed s := rfl

theorem step_succ (f : S → S) (s : S) (left : Nat) :
    step f s (some (left + 1)) = .returned () (f s) (some left) := rfl

theorem modify_apply (f : S → S) (s : S) (left : Option Nat) :
    modify f s left = .returned () (f s) left := rfl

theorem observe_apply (f : S → α) (s : S) (left : Option Nat) :
    observe f s left = .returned (f s) s left := rfl

/-! ## Safety -/

/-- Without a crash to come there is none, and none to come afterwards. -/
def Safe (t : Crashing S α) (Q : α → S → Prop) (C : S → Prop) (s : S) : Prop :=
  ∀ left : Option Nat,
    match t s left with
    | .returned a s' left' => Q a s' ∧ (left = none → left' = none)
    | .crashed s' => C s' ∧ left ≠ none

variable {t : Crashing S α} {Q : α → S → Prop} {C : S → Prop} {s : S}

theorem Safe.pure {a : α} (h : Q a s) : Safe (Pure.pure a) Q C s := fun _ => ⟨h, id⟩

theorem Safe.bind {k : α → Crashing S β} {R : β → S → Prop} (ht : Safe t Q C s)
    (hk : ∀ (a : α) (s' : S), Q a s' → Safe (k a) R C s') : Safe (t >>= k) R C s := by
  intro left
  have hleft := ht left
  show match (match t s left with
    | .returned a s' left' => k a s' left'
    | .crashed s' => .crashed s') with
    | .returned b s' left' => R b s' ∧ (left = none → left' = none)
    | .crashed s' => C s' ∧ left ≠ none
  cases hend : t s left with
  | crashed s' =>
      rw [hend] at hleft
      exact hleft
  | returned a s' left' =>
      rw [hend] at hleft
      have hrest := hk a s' hleft.1 left'
      dsimp only
      cases hend' : k a s' left' with
      | crashed s'' =>
          rw [hend'] at hrest
          exact ⟨hrest.1, fun hnone => hrest.2 (hleft.2 hnone)⟩
      | returned b s'' left'' =>
          rw [hend'] at hrest
          exact ⟨hrest.1, fun hnone => hrest.2 (hleft.2 hnone)⟩

theorem Safe.mono {Q' : α → S → Prop} (h : Safe t Q C s) (himp : ∀ (a : α) (s' : S), Q a s' → Q' a s') :
    Safe t Q' C s := by
  intro left
  have hleft := h left
  cases hend : t s left with
  | returned a s' left' =>
      rw [hend] at hleft
      exact ⟨himp a s' hleft.1, hleft.2⟩
  | crashed s' =>
      rw [hend] at hleft
      exact hleft

theorem Safe.step {f : S → S} {Q : Unit → S → Prop} (hcrash : C s) (h : Q () (f s)) :
    Safe (step f) Q C s := by
  intro left
  match left with
  | none => exact ⟨h, id⟩
  | some 0 => exact ⟨hcrash, Option.some_ne_none 0⟩
  | some (left + 1) => exact ⟨h, fun hnone => absurd hnone (Option.some_ne_none _)⟩

theorem Safe.modify {f : S → S} {Q : Unit → S → Prop} (h : Q () (f s)) : Safe (modify f) Q C s :=
  fun _ => ⟨h, id⟩

/-! ## Sequences -/

/-- A step and what comes after it. -/
theorem Safe.step_bind {f : S → S} {k : Unit → Crashing S β} {R : β → S → Prop} (hcrash : C s)
    (hk : Safe (k ()) R C (f s)) : Safe (Crashing.step f >>= k) R C s :=
  (Safe.step (Q := fun _ s' => s' = f s) hcrash rfl).bind fun _ _ heq => heq ▸ hk

theorem Safe.modify_bind {f : S → S} {k : Unit → Crashing S β} {R : β → S → Prop}
    (hk : Safe (k ()) R C (f s)) : Safe (Crashing.modify f >>= k) R C s := fun left => hk left

theorem Safe.observe_bind {f : S → α} {k : α → Crashing S β} {R : β → S → Prop}
    (hk : Safe (k (f s)) R C s) : Safe (Crashing.observe f >>= k) R C s := fun left => hk left

/-! ## Endings -/

theorem Safe.complete (h : Safe t Q C s) : ∃ (a : α) (s' : S), t s none = .returned a s' none ∧ Q a s' := by
  have hleft := h none
  cases hend : t s none with
  | returned a s' left' =>
      rw [hend] at hleft
      obtain ⟨hq, hnone⟩ := hleft
      rw [hnone rfl]
      exact ⟨a, s', rfl, hq⟩
  | crashed s' =>
      rw [hend] at hleft
      exact absurd rfl hleft.2

/-- What holds wherever the program is. -/
theorem Safe.throughout (h : Safe t Q C s) (hend : ∀ (a : α) (s' : S), Q a s' → C s')
    (left : Option Nat) : C (t s left).state := by
  have hleft := h left
  cases hfinal : t s left with
  | returned a s' left' =>
      rw [hfinal] at hleft
      exact hend a s' hleft.1
  | crashed s' =>
      rw [hfinal] at hleft
      exact hleft.1

/-! ## Kept properties -/

/-- `t` keeps `P` at each of its steps. -/
def Keeps (P : S → Prop) (t : Crashing S α) : Prop :=
  ∀ s : S, P s → Safe t (fun _ s' => P s') P s

namespace Keeps

variable {P : S → Prop} {f : S → S}

theorem pure (a : α) : Keeps P (Pure.pure a : Crashing S α) := fun _ hs => Safe.pure hs

theorem bind {k : α → Crashing S β} (ht : Keeps P t) (hk : ∀ a : α, Keeps P (k a)) :
    Keeps P (t >>= k) := fun s hs => (ht s hs).bind fun a s' hs' => hk a s' hs'

theorem step (h : ∀ s : S, P s → P (f s)) : Keeps P (step f) := fun s hs => Safe.step hs (h s hs)

theorem modify (h : ∀ s : S, P s → P (f s)) : Keeps P (modify f) := fun s hs => Safe.modify (h s hs)

theorem observe (f : S → α) : Keeps P (observe f) := fun _ hs _ => ⟨hs, id⟩

theorem ite {c : Prop} [Decidable c] {u : Crashing S α} (ht : Keeps P t) (hu : Keeps P u) :
    Keeps P (if c then t else u) := by
  split
  · exact ht
  · exact hu

theorem state (h : Keeps P t) (hs : P s) (left : Option Nat) : P (t s left).state :=
  (h s hs).throughout (fun _ _ hend => hend) left

end Keeps

end Crashing

end Base
