import Mathlib.Data.List.Basic

/-!
# Streaks at the start of a list

How many elements in a row, from the start of a list, have a property; the
list is a history with the newest element first.
-/

namespace Base

variable {α : Type} {p q : α → Bool} {l : List α}

/-- The length of the longest start of a list with the property. -/
def streak (p : α → Bool) (l : List α) : Nat := (l.takeWhile p).length

@[simp] theorem streak_nil : streak p [] = 0 := rfl

theorem streak_cons (a : α) (l : List α) :
    streak p (a :: l) = if p a = true then streak p l + 1 else 0 := by
  unfold streak
  rw [List.takeWhile_cons]
  split <;> rfl

theorem streak_map {β : Type} (f : β → α) (l : List β) :
    streak p (l.map f) = streak (fun b => p (f b)) l := by
  unfold streak
  rw [List.takeWhile_map, List.length_map]
  rfl

theorem streak_le_length (p : α → Bool) (l : List α) : streak p l ≤ l.length :=
  (List.takeWhile_prefix p).length_le

theorem le_streak {k : Nat} : k ≤ streak p l ↔ (l.take k).length = k ∧ ∀ a ∈ l.take k, p a = true := by
  induction l generalizing k with
  | nil => cases k <;> simp
  | cons a l ih =>
      rw [streak_cons]
      cases k with
      | zero => simp
      | succ k =>
          by_cases ha : p a = true
          · rw [if_pos ha, Nat.add_le_add_iff_right, ih]
            simp [ha]
          · rw [if_neg ha]
            simp [ha]

/-- Elements that are filtered out after the first `k` do not matter. -/
theorem take_filter {k : Nat} (h : ∀ a ∈ l.take k, q a = true) : (l.filter q).take k = l.take k := by
  induction l generalizing k with
  | nil => rfl
  | cons a l ih =>
      cases k with
      | zero => rfl
      | succ k =>
          rw [List.take_succ_cons] at h ⊢
          rw [List.filter_cons_of_pos (h a List.mem_cons_self), List.take_succ_cons,
            ih fun b hb => h b (List.mem_cons_of_mem a hb)]

end Base
