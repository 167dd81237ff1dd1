import Conduit.Base.TSys
import Mathlib.Data.List.Induction

/-!
# What happened before

The states of a run so far, and the rule for invariants that refer to them: a
fact about a state of the past stays a fact, whatever the run does next.
-/

namespace Base.TSys

variable {State Action : Type} (m : TSys State Action)

/-- A state that the run of `as` has been in. -/
def Past (as : List Action) (s : State) : Prop := ∃ bs, bs <+: as ∧ m.run m.init bs = s

theorem past_run {as bs : List Action} (h : bs <+: as) : m.Past as (m.run m.init bs) :=
  ⟨bs, h, rfl⟩

/-- An invariant of a run that may name the states of that run: the step rule
gets that the state before and the one after are among them. -/
theorem run_past {as : List Action} {P : State → Prop} (hinit : P m.init)
    (hstep : ∀ (s : State) (a : Action), m.Past as s → m.Past as (m.step s a) → P s →
      P (m.step s a)) : P (m.run m.init as) := by
  have key : ∀ bs : List Action, bs <+: as → P (m.run m.init bs) := by
    intro bs
    induction bs using List.reverseRecOn with
    | nil => exact fun _ => hinit
    | append_singleton bs a ih =>
        intro h
        have hbefore : bs <+: as := (List.prefix_append bs [a]).trans h
        have hafter := m.past_run h
        rw [run_append, run_cons, run_nil] at hafter ⊢
        exact hstep _ a (m.past_run hbefore) hafter (ih hbefore)
  exact key as List.prefix_rfl

end Base.TSys
