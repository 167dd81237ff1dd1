import Mathlib.Data.List.Basic

/-!
# Transition systems and their runs

A system is an initial state and a total step function over a set of
actions; an action that does not apply leaves the state alone. Three
notions of "always" are needed over such a system:

* `Invariant` — a predicate holds in every reachable state; `Inductive`
  is its proof rule;
* `Along` — a predicate on (state, action) pairs holds at every step of one
  run, which is how an assumption on a schedule is stated;
* `Inductive.run` — an inductive predicate holds at the end of every run
  from any state where it holds.
-/

namespace Base

/-- A deterministic labelled transition system. -/
structure TSys (State Action : Type) where
  init : State
  step : State → Action → State

namespace TSys

variable {State Action : Type} (m : TSys State Action)

/-- The state after a list of actions. -/
def run (s : State) (as : List Action) : State := as.foldl m.step s

@[simp] theorem run_nil (s : State) : m.run s [] = s := rfl

@[simp] theorem run_cons (s : State) (a : Action) (as : List Action) :
    m.run s (a :: as) = m.run (m.step s a) as := rfl

theorem run_append (s : State) (as bs : List Action) :
    m.run s (as ++ bs) = m.run (m.run s as) bs := List.foldl_append

/-- A state is reachable when some run from the initial state ends in it. -/
def Reachable (s : State) : Prop := ∃ as, m.run m.init as = s

theorem Reachable.init : m.Reachable m.init := ⟨[], rfl⟩

variable {m} in
theorem Reachable.step {s : State} (h : m.Reachable s) (a : Action) :
    m.Reachable (m.step s a) := by
  obtain ⟨as, rfl⟩ := h
  exact ⟨as ++ [a], by rw [run_append]; rfl⟩

/-- `P` holds in every reachable state. -/
def Invariant (P : State → Prop) : Prop := ∀ s, m.Reachable s → P s

/-- `P` holds initially and every step preserves it. -/
structure Inductive (P : State → Prop) : Prop where
  init : P m.init
  step : ∀ s a, P s → P (m.step s a)

variable {m} {P Q : State → Prop}

theorem Inductive.run (h : m.Inductive P) (as : List Action) :
    ∀ s, P s → P (m.run s as) := by
  induction as with
  | nil => exact fun _ hs => hs
  | cons a as ih => exact fun s hs => ih (m.step s a) (h.step s a hs)

theorem Inductive.invariant (h : m.Inductive P) : m.Invariant P := by
  rintro s ⟨as, rfl⟩
  exact h.run as m.init h.init

/-- A predicate that is inductive only in the states of a known invariant. -/
theorem Inductive.relative (h : m.Inductive P) (hinit : Q m.init)
    (hstep : ∀ s a, P s → Q s → Q (m.step s a)) : m.Inductive (fun s => P s ∧ Q s) where
  init := ⟨h.init, hinit⟩
  step s a hs := ⟨h.step s a hs.1, hstep s a hs.1 hs.2⟩

theorem Invariant.mono (h : m.Invariant P) (himp : ∀ s, P s → Q s) : m.Invariant Q :=
  fun s hs => himp s (h s hs)

/-! ## Conditions along a run -/

variable (m) in
/-- `C` holds of every (state, action) pair met by the run from `s`. -/
def Along (C : State → Action → Prop) : State → List Action → Prop
  | _, [] => True
  | s, a :: as => C s a ∧ Along C (m.step s a) as

variable {C D : State → Action → Prop}

/-- The invariant rule under a condition on the schedule. -/
theorem Along.run (hstep : ∀ s a, P s → C s a → P (m.step s a)) (as : List Action) :
    ∀ s, P s → m.Along C s as → P (m.run s as) := by
  induction as with
  | nil => exact fun _ hs _ => hs
  | cons a as ih => exact fun s hs h => ih (m.step s a) (hstep s a hs h.1) h.2

/-- A condition on the schedule that keeps an invariant in which it implies another. -/
theorem Along.imp (hstep : ∀ s a, P s → C s a → P (m.step s a))
    (himp : ∀ s a, P s → C s a → D s a) (as : List Action) :
    ∀ s, P s → m.Along C s as → m.Along D s as := by
  induction as with
  | nil => exact fun _ _ _ => trivial
  | cons a as ih =>
      exact fun s hs h => ⟨himp s a hs h.1, ih (m.step s a) (hstep s a hs h.1) h.2⟩

theorem along_append {as bs : List Action} {s : State} :
    m.Along C s (as ++ bs) ↔ m.Along C s as ∧ m.Along C (m.run s as) bs := by
  induction as generalizing s with
  | nil => exact (and_iff_right trivial).symm
  | cons a as ih => exact (and_congr_right fun _ => ih).trans and_assoc.symm

theorem Along.of_append {as bs : List Action} {s : State} (h : m.Along C s (as ++ bs)) :
    m.Along C s as := (along_append.mp h).1

/-- A condition that the actions meet in every state. -/
theorem along_of_forall {as : List Action} (h : ∀ a ∈ as, ∀ s : State, C s a) :
    ∀ s : State, m.Along C s as := by
  induction as with
  | nil => exact fun _ => trivial
  | cons a as ih =>
      exact fun s => ⟨h a List.mem_cons_self s, ih (fun b hb => h b (List.mem_cons_of_mem a hb)) _⟩

/-- Two conditions that agree in the states of an inductive predicate hold
along the same runs. -/
theorem Inductive.along_iff (h : m.Inductive P) (hiff : ∀ s a, P s → (C s a ↔ D s a))
    (as : List Action) : ∀ s, P s → (m.Along C s as ↔ m.Along D s as) := by
  induction as with
  | nil => exact fun _ _ => Iff.rfl
  | cons a as ih =>
      intro s hs
      exact and_congr (hiff s a hs) (ih (m.step s a) (h.step s a hs))

/-- When a condition on a step is exactly that the step preserves `P`, the
runs along which it holds are the ones in which `P` holds throughout. -/
theorem Inductive.throughout_iff (h : m.Inductive Q) (hinit : P m.init)
    (hstep : ∀ s a, Q s → P s → (P (m.step s a) ↔ C s a)) (as : List Action) :
    (∀ bs : List Action, bs <+: as → P (m.run m.init bs)) ↔ m.Along C m.init as := by
  have key : ∀ s, Q s → P s →
      ((∀ bs : List Action, bs <+: as → P (m.run s bs)) ↔ m.Along C s as) := by
    induction as with
    | nil =>
        intro s _ hs
        refine ⟨fun _ => trivial, ?_⟩
        intro _ bs hbs
        rw [List.prefix_nil.mp hbs]
        exact hs
    | cons a as ih =>
        intro s hq hs
        constructor
        · intro hall
          have hnext : P (m.step s a) := hall [a] (List.cons_prefix_cons.mpr ⟨rfl, List.nil_prefix⟩)
          refine ⟨(hstep s a hq hs).mp hnext, (ih (m.step s a) (h.step s a hq) hnext).mp ?_⟩
          intro bs hbs
          exact hall (a :: bs) (List.cons_prefix_cons.mpr ⟨rfl, hbs⟩)
        · rintro ⟨hc, hlater⟩ bs hbs
          cases bs with
          | nil => exact hs
          | cons b bs =>
              obtain ⟨rfl, hbs'⟩ := List.cons_prefix_cons.mp hbs
              have hnext := (hstep s b hq hs).mpr hc
              exact (ih (m.step s b) (h.step s b hq) hnext).mpr hlater bs hbs'
  exact key m.init h.init hinit

end TSys

end Base
