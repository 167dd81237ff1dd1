import Mathlib.Data.Option.Basic

/-!
# Two iterations in lockstep

An iteration goes from state to state until it is over, and every state shows
something. Two iterations that are driven by the same inputs and that can tell
their successors apart by what these show, show the same exactly if they take
the same step in every state the first one gets to.
-/

namespace Base.Lockstep

variable {σ ι β : Type}

/-- What is shown by the first `n` states. -/
def shown (view : σ → β) (next : σ → ι → Option σ) : Option σ → (Nat → ι) → Nat → List β
  | some s, inputs, n + 1 =>
      view s :: shown view next (next s (inputs 0)) (fun k => inputs (k + 1)) n
  | _, _, _ => []

/-- The state after `n` steps, unless the iteration is over by then. -/
def stateAt (next : σ → ι → Option σ) : Option σ → (Nat → ι) → Nat → Option σ
  | none, _, _ => none
  | some s, _, 0 => some s
  | some s, inputs, n + 1 => stateAt next (next s (inputs 0)) (fun k => inputs (k + 1)) n

/-- Successors of a state that show the same are the same. -/
def Told (view : σ → β) (next next' : σ → ι → Option σ) : Prop :=
  ∀ (s : σ) (input : ι), (next s input).map view = (next' s input).map view →
    next s input = next' s input

variable {view : σ → β} {next next' : σ → ι → Option σ}

@[simp] theorem shown_none (inputs : Nat → ι) (n : Nat) : shown view next none inputs n = [] := by
  cases n <;> rfl

@[simp] theorem shown_zero (s : Option σ) (inputs : Nat → ι) : shown view next s inputs 0 = [] := by
  cases s <;> rfl

theorem shown_succ (s : σ) (inputs : Nat → ι) (n : Nat) :
    shown view next (some s) inputs (n + 1) =
      view s :: shown view next (next s (inputs 0)) (fun k => inputs (k + 1)) n := rfl

theorem shown_one (s : Option σ) (inputs : Nat → ι) :
    shown view next s inputs 1 = (s.map view).toList := by
  cases s with
  | none => rfl
  | some s => rw [shown_succ, shown_zero]; rfl

/-- What the steps preserve holds wherever the iteration gets to. -/
theorem stateAt_invariant {P : σ → Prop} (hstep : ∀ s input s', P s → next s input = some s' → P s')
    (n : Nat) {s : Option σ} {inputs : Nat → ι} (h : ∀ s' ∈ s, P s') {state : σ}
    (hstate : stateAt next s inputs n = some state) : P state := by
  induction n generalizing s inputs with
  | zero =>
      cases s with
      | none => cases hstate
      | some s => exact Option.some.inj hstate ▸ h s rfl
  | succ n ih =>
      cases s with
      | none => cases hstate
      | some s => exact ih (fun s' hs' => hstep s (inputs 0) s' (h s rfl) hs') hstate

/-- The first step is taken alike. -/
theorem next_eq_of_shown (told : Told view next next') {s : σ} {inputs : Nat → ι}
    (h : ∀ n, shown view next (some s) inputs n = shown view next' (some s) inputs n) :
    next s (inputs 0) = next' s (inputs 0) := by
  have htwo := h 2
  rw [shown_succ, shown_succ, shown_one, shown_one] at htwo
  refine told s (inputs 0) ?_
  cases hnext : (next s (inputs 0)).map view <;> cases hnext' : (next' s (inputs 0)).map view <;>
    simp_all

theorem shown_tail {s : σ} {inputs : Nat → ι}
    (h : ∀ n, shown view next (some s) inputs n = shown view next' (some s) inputs n) (n : Nat) :
    shown view next (next s (inputs 0)) (fun k => inputs (k + 1)) n =
      shown view next' (next' s (inputs 0)) (fun k => inputs (k + 1)) n :=
  (List.cons.inj (h (n + 1))).2

/-- The same is shown exactly if every step is taken alike. -/
theorem shown_eq_iff (told : Told view next next') (s : Option σ) (inputs : Nat → ι) :
    (∀ n, shown view next s inputs n = shown view next' s inputs n) ↔
      ∀ n state, stateAt next s inputs n = some state →
        next state (inputs n) = next' state (inputs n) := by
  constructor
  · intro h n
    induction n generalizing s inputs with
    | zero =>
        intro state hstate
        cases s with
        | none => cases hstate
        | some s =>
            obtain rfl := Option.some.inj hstate
            exact next_eq_of_shown told h
    | succ n ih =>
        intro state hstate
        cases s with
        | none => cases hstate
        | some s =>
            have htail := shown_tail h
            rw [← next_eq_of_shown told h] at htail
            exact ih _ _ htail state hstate
  · intro h n
    induction n generalizing s inputs with
    | zero => rw [shown_zero, shown_zero]
    | succ n ih =>
        cases s with
        | none => rw [shown_none, shown_none]
        | some s =>
            rw [shown_succ, shown_succ, ← h 0 s rfl]
            exact congrArg _ (ih _ _ fun k state hstate => h (k + 1) state hstate)

end Base.Lockstep
