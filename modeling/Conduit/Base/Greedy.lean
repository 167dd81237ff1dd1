import Mathlib.Order.Monotone.Basic

/-!
# Least-load selection

Items carry a key, keys are counted, and the load of an item is a monotone
function of its key's count. A selection that always picks an item of least
load keeps the counts `Balanced`: take one selection back from any item and
its load is at most the load of every other item. Nothing is assumed about
ties, and a count may stick at a maximum as long as it never jumps.
-/

namespace Base

/-- Items with counted keys and a load depending on the count. -/
structure Loads (α κ β : Type) where
  key : α → κ
  load : α → Nat → β

namespace Loads

variable {α κ β : Type} [Preorder β] (L : Loads α κ β)

/-- The load of an item under given counts. -/
def loadOf (count : κ → Nat) (a : α) : β := L.load a (count (L.key a))

/-- `s` is an item of least load. -/
def Least (items : List α) (count : κ → Nat) (s : α) : Prop :=
  s ∈ items ∧ ∀ a ∈ items, L.loadOf count s ≤ L.loadOf count a

/-- No item is ahead of another by more than one selection. -/
def Balanced (items : List α) (count : κ → Nat) : Prop :=
  ∀ a ∈ items, ∀ b ∈ items, L.load a (count (L.key a) - 1) ≤ L.loadOf count b

/-- `count'` is `count` after a selection of key `k`. -/
structure Selected (count count' : κ → Nat) (k : κ) : Prop where
  grows : ∀ j, count j ≤ count' j
  byOne : count' k ≤ count k + 1
  others : ∀ j, j ≠ k → count' j = count j

variable {L} {items : List α} {count count' : κ → Nat}

/-- Zero counts are balanced when an unselected item has the same load
everywhere. -/
theorem Balanced.initial (hzero : ∀ a ∈ items, ∀ b ∈ items, L.load a 0 ≤ L.load b 0) :
    L.Balanced items fun _ => 0 :=
  fun a ha b hb => hzero a ha b hb

/-- A selection of least load keeps the balance. -/
theorem Balanced.select [DecidableEq κ] (h : L.Balanced items count)
    (hmono : ∀ a ∈ items, Monotone (L.load a))
    (hkey : ∀ a ∈ items, ∀ b ∈ items, L.key a = L.key b → L.load a = L.load b)
    {s : α} (hs : L.Least items count s) (hsel : Selected count count' (L.key s)) :
    L.Balanced items count' := by
  intro a ha b hb
  have hb' : L.loadOf count b ≤ L.loadOf count' b := hmono b hb (hsel.grows _)
  by_cases hk : L.key a = L.key s
  · -- the selected key: one selection back is its load before the selection
    calc L.load a (count' (L.key a) - 1)
        ≤ L.load a (count (L.key s)) := by
          refine hmono a ha ?_
          rw [hk]
          exact Nat.sub_le_of_le_add hsel.byOne
      _ = L.loadOf count s := by rw [hkey a ha s hs.1 hk]; rfl
      _ ≤ L.loadOf count b := hs.2 b hb
      _ ≤ L.loadOf count' b := hb'
  · calc L.load a (count' (L.key a) - 1)
        = L.load a (count (L.key a) - 1) := by rw [hsel.others _ hk]
      _ ≤ L.loadOf count b := h a ha b hb
      _ ≤ L.loadOf count' b := hb'

end Loads

end Base
