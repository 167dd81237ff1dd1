import Mathlib.Data.List.Sublists

/-!
# Sieves

A sieve takes a list through stages. Each stage keeps part of what it is given,
in order, and says what it rejected and why. What every stage guarantees of the
kept elements holds of the survivors of the whole sieve, and a survivor was an
element from the start. A sieve `Accounts` for its elements when each is kept or
rejected once, as a verdict on it says; stages that account for theirs compose.
-/

namespace Base

/-- The parts of a list, taken out by kind, are a permutation of it. -/
theorem filterMap_or_perm {α β : Type} {f g : α → Option β} {l : List α}
    (h : ∀ a ∈ l, f a = none ∨ g a = none) :
    (l.filterMap f ++ l.filterMap g).Perm (l.filterMap fun a => (f a).or (g a)) := by
  induction l with
  | nil => exact List.Perm.nil
  | cons a l ih =>
      have hrest := ih fun b hb => h b (List.mem_cons_of_mem _ hb)
      rcases h a List.mem_cons_self with hf | hg
      · cases hg : g a with
        | none => simpa [List.filterMap_cons, hf, hg] using hrest
        | some b =>
            simp only [List.filterMap_cons, hf, hg, Option.none_or]
            exact List.perm_middle.trans (hrest.cons b)
      · cases hf : f a with
        | none => simpa [List.filterMap_cons, hf, hg] using hrest
        | some b =>
            simp only [List.filterMap_cons, hf, hg, Option.some_or, List.cons_append]
            exact hrest.cons b

/-- What a stage kept and its reasons for the rest. -/
structure Sieved (α ρ : Type) where
  kept : List α
  rejected : List ρ

namespace Sieved

variable {α ρ : Type}

/-- The stage that keeps everything. -/
def all (elements : List α) : Sieved α ρ := ⟨elements, []⟩

/-- The stage that keeps what passes a test. -/
def byTest (test : α → Bool) (reason : α → ρ) (elements : List α) : Sieved α ρ where
  kept := elements.filter test
  rejected := (elements.filter fun a => !test a).map reason

/-- The next stage, over what was kept. -/
def andThen (sieved : Sieved α ρ) (stage : List α → Sieved α ρ) : Sieved α ρ where
  kept := (stage sieved.kept).kept
  rejected := sieved.rejected ++ (stage sieved.kept).rejected

@[simp] theorem kept_all (elements : List α) : (all elements : Sieved α ρ).kept = elements := rfl

@[simp] theorem kept_byTest (test : α → Bool) (reason : α → ρ) (elements : List α) :
    (byTest test reason elements).kept = elements.filter test := rfl

@[simp] theorem kept_andThen (sieved : Sieved α ρ) (stage : List α → Sieved α ρ) :
    (sieved.andThen stage).kept = (stage sieved.kept).kept := rfl

/-- A stage that invents nothing. -/
def Narrowing (stage : List α → Sieved α ρ) : Prop :=
  ∀ elements : List α, (stage elements).kept.Sublist elements

theorem narrowing_all : Narrowing (all : List α → Sieved α ρ) := fun _ => List.Sublist.refl _

theorem narrowing_byTest (test : α → Bool) (reason : α → ρ) : Narrowing (byTest test reason) :=
  fun _ => List.filter_sublist

theorem Narrowing.andThen {first second : List α → Sieved α ρ} (hfirst : Narrowing first)
    (hsecond : Narrowing second) : Narrowing fun elements => (first elements).andThen second := by
  intro elements
  rw [kept_andThen]
  exact (hsecond _).trans (hfirst elements)

/-- A choice between two stages, made on the elements. -/
theorem Narrowing.ite {first second : List α → Sieved α ρ} (choice : List α → Prop)
    [DecidablePred choice] (hfirst : Narrowing first) (hsecond : Narrowing second) :
    Narrowing fun elements => if choice elements then first elements else second elements := by
  intro elements
  by_cases h : choice elements
  · simpa only [if_pos h] using hfirst elements
  · simpa only [if_neg h] using hsecond elements

theorem Narrowing.mem {stage : List α → Sieved α ρ} (h : Narrowing stage) {elements : List α}
    {a : α} (ha : a ∈ (stage elements).kept) : a ∈ elements := (h elements).subset ha

/-- A stage that keeps a lone element keeps just that. -/
theorem Narrowing.eq_singleton {stage : List α → Sieved α ρ} (h : Narrowing stage) {a : α}
    (ha : a ∈ (stage [a]).kept) : (stage [a]).kept = [a] := by
  rcases List.sublist_singleton.mp (h [a]) with hnil | hone
  · exact absurd ha (by simp [hnil])
  · exact hone

/-! ## Accounts -/

/-- The elements without a verdict are kept in order, and each of the others is rejected
once, for what its verdict says. -/
structure Accounts {β : Type} (tag : ρ → β) (verdict : α → Option β) (elements : List α)
    (sieved : Sieved α ρ) : Prop where
  kept : sieved.kept = elements.filter fun a => (verdict a).isNone
  rejected : (sieved.rejected.map tag).Perm (elements.filterMap verdict)

section Accounts

variable {β : Type} {tag : ρ → β} {elements : List α}

theorem accounts_all : Accounts tag (fun _ => none) elements (all elements : Sieved α ρ) where
  kept := by simp
  rejected := by simp [all]

theorem accounts_byTest (test : α → Bool) (reason : α → ρ) :
    Accounts tag (fun a => if test a then none else some (tag (reason a))) elements
      (byTest test reason elements) where
  kept := by
    rw [kept_byTest]
    refine List.filter_congr fun a _ => ?_
    cases test a <;> rfl
  rejected := by
    unfold byTest
    induction elements with
    | nil => exact List.Perm.nil
    | cons a elements ih =>
        cases h : test a with
        | true => simpa [h] using ih
        | false => simpa [h] using ih

/-- The first verdict that there is decides. -/
theorem Accounts.andThen {first second : α → Option β} {sieved : Sieved α ρ}
    {stage : List α → Sieved α ρ} (hfirst : Accounts tag first elements sieved)
    (hsecond : Accounts tag second sieved.kept (stage sieved.kept)) :
    Accounts tag (fun a => (first a).or (second a)) elements (sieved.andThen stage) where
  kept := by
    rw [kept_andThen, hsecond.kept, hfirst.kept, List.filter_filter]
    refine List.filter_congr fun a _ => ?_
    cases first a <;> cases second a <;> rfl
  rejected := by
    unfold Sieved.andThen
    rw [List.map_append]
    -- the second stage sees only what has no verdict yet
    have hlater : (sieved.kept.filterMap second).Perm
        (elements.filterMap fun a => if (first a).isNone then second a else none) := by
      rw [hfirst.kept, List.filterMap_filter]
    have hdisjoint : ∀ a ∈ elements, first a = none ∨
        (if (first a).isNone then second a else none) = none := by
      intro a _
      cases first a <;> simp
    refine (hfirst.rejected.append (hsecond.rejected.trans hlater)).trans
      ((filterMap_or_perm hdisjoint).trans (List.Perm.of_eq (List.filterMap_congr fun a _ => ?_)))
    cases first a <;> rfl

end Accounts

end Sieved

end Base
