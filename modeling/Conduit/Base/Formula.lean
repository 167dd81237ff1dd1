import Mathlib.Data.List.Basic

/-!
# And/or trees

A tree of conjunctions and disjunctions over atoms. Its meaning depends on the
meaning of its atoms only. `run` is the usual evaluator: a loop over the
children that stops at the first one that decides.
-/

namespace Base

inductive Formula (α : Type)
  | atom (a : α)
  | all (children : List (Formula α))
  | any (children : List (Formula α))

namespace Formula

variable {α : Type}

mutual

def Holds (leaf : α → Prop) : Formula α → Prop
  | atom a => leaf a
  | all children => HoldsAll leaf children
  | any children => HoldsAny leaf children

def HoldsAll (leaf : α → Prop) : List (Formula α) → Prop
  | [] => True
  | f :: fs => Holds leaf f ∧ HoldsAll leaf fs

def HoldsAny (leaf : α → Prop) : List (Formula α) → Prop
  | [] => False
  | f :: fs => Holds leaf f ∨ HoldsAny leaf fs

end

mutual

def atoms : Formula α → List α
  | atom a => [a]
  | all children => atomsOf children
  | any children => atomsOf children

def atomsOf : List (Formula α) → List α
  | [] => []
  | f :: fs => atoms f ++ atomsOf fs

end

mutual

def run (leaf : α → Bool) : Formula α → Bool
  | atom a => leaf a
  | all children => runUntil leaf false children
  | any children => runUntil leaf true children

/-- The loop: the first child with the deciding value ends it. -/
def runUntil (leaf : α → Bool) (deciding : Bool) : List (Formula α) → Bool
  | [] => !deciding
  | f :: fs => if run leaf f = deciding then deciding else runUntil leaf deciding fs

end

/-! ## The evaluator decides the meaning -/

mutual

theorem run_iff (leaf : α → Bool) :
    ∀ f : Formula α, f.run leaf = true ↔ f.Holds fun a => leaf a = true
  | atom a => by
      unfold run Holds
      exact Iff.rfl
  | all children => by
      unfold run Holds
      exact (runUntil_iff leaf children).1
  | any children => by
      unfold run Holds
      exact (runUntil_iff leaf children).2

theorem runUntil_iff (leaf : α → Bool) : ∀ fs : List (Formula α),
    (runUntil leaf false fs = true ↔ HoldsAll (fun a => leaf a = true) fs) ∧
      (runUntil leaf true fs = true ↔ HoldsAny (fun a => leaf a = true) fs)
  | [] => by
      unfold runUntil HoldsAll HoldsAny
      simp
  | f :: fs => by
      have hhead := run_iff leaf f
      obtain ⟨hall, hany⟩ := runUntil_iff leaf fs
      unfold runUntil HoldsAll HoldsAny
      rw [← hhead, ← hall, ← hany]
      constructor
      · cases f.run leaf <;> simp
      · cases f.run leaf <;> simp

end

/-! ## Only the atoms matter -/

mutual

theorem holds_congr {leaf leaf' : α → Prop} : ∀ f : Formula α,
    (∀ a ∈ f.atoms, leaf a ↔ leaf' a) → (f.Holds leaf ↔ f.Holds leaf')
  | atom a, h => by
      unfold Holds
      exact h a (by unfold atoms; exact List.mem_singleton_self a)
  | all children, h => by
      unfold Holds
      exact (holdsOf_congr children fun a ha => h a (by unfold atoms; exact ha)).1
  | any children, h => by
      unfold Holds
      exact (holdsOf_congr children fun a ha => h a (by unfold atoms; exact ha)).2

theorem holdsOf_congr {leaf leaf' : α → Prop} : ∀ fs : List (Formula α),
    (∀ a ∈ atomsOf fs, leaf a ↔ leaf' a) →
      (HoldsAll leaf fs ↔ HoldsAll leaf' fs) ∧ (HoldsAny leaf fs ↔ HoldsAny leaf' fs)
  | [], _ => by
      unfold HoldsAll HoldsAny
      exact ⟨Iff.rfl, Iff.rfl⟩
  | f :: fs, h => by
      have hhead := holds_congr f fun a ha =>
        h a (by unfold atomsOf; exact List.mem_append_left _ ha)
      obtain ⟨hall, hany⟩ := holdsOf_congr fs fun a ha =>
        h a (by unfold atomsOf; exact List.mem_append_right _ ha)
      unfold HoldsAll HoldsAny
      exact ⟨and_congr hhead hall, or_congr hhead hany⟩

end

end Formula

end Base
