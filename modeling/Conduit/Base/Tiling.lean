import Mathlib

/-!
# Boundaries that tile a line

Boundaries, one for each integer, cut a linear order into half-open cells. The
index of a point is the one cell it lies in, so cells neither overlap nor
leave a gap, and a run of consecutive cells is one half-open interval.
-/

namespace Base

/-- Boundaries, and the cell of each point. -/
structure Tiling (α : Type) [LinearOrder α] where
  start : Int → α
  index : α → Int
  start_le : ∀ t : α, start (index t) ≤ t
  lt_start : ∀ t : α, t < start (index t + 1)
  increasing : ∀ k : Int, start k < start (k + 1)

namespace Tiling

variable {α : Type} [LinearOrder α] (tiling : Tiling α)

theorem start_strictMono : StrictMono tiling.start := strictMono_int_of_lt_succ tiling.increasing

/-- A point before a boundary has a smaller index, and conversely. -/
theorem index_lt_iff {t : α} {k : Int} : tiling.index t < k ↔ t < tiling.start k := by
  constructor
  · intro h
    exact (tiling.lt_start t).trans_le (tiling.start_strictMono.monotone h)
  · intro h
    exact tiling.start_strictMono.lt_iff_lt.mp ((tiling.start_le t).trans_lt h)

theorem le_index_iff {t : α} {k : Int} : k ≤ tiling.index t ↔ tiling.start k ≤ t := by
  rw [← not_lt, ← not_lt, index_lt_iff]

/-- The cell is the only one that holds the point. -/
theorem index_eq_iff {t : α} {k : Int} :
    tiling.index t = k ↔ tiling.start k ≤ t ∧ t < tiling.start (k + 1) := by
  rw [← le_index_iff, ← index_lt_iff]
  omega

theorem index_start (k : Int) : tiling.index (tiling.start k) = k :=
  tiling.index_eq_iff.mpr ⟨le_rfl, tiling.increasing k⟩

/-- Consecutive cells are one interval. -/
theorem run_iff {t : α} {k : Int} {n : Nat} :
    (tiling.start (k - n) ≤ t ∧ t < tiling.start (k + 1)) ↔ ∃ i ≤ n, tiling.index t = k - i := by
  rw [← le_index_iff, ← index_lt_iff]
  constructor
  · rintro ⟨hlow, hhigh⟩
    exact ⟨(k - tiling.index t).toNat, by omega, by omega⟩
  · rintro ⟨i, hi, hindex⟩
    omega

end Tiling

/-! ## Tilings of the integers -/

/-- Every integer is a cell. -/
def Tiling.units : Tiling Int where
  start k := k
  index t := t
  start_le := Int.le_refl
  lt_start := Int.lt_succ
  increasing := Int.lt_succ

/-- The same cells, counted in a finer unit. -/
def Tiling.refine (tiling : Tiling Int) (unit : Int) (hunit : 0 < unit) : Tiling Int where
  start k := tiling.start k * unit
  index t := tiling.index (t / unit)
  start_le _ := (Int.le_ediv_iff_mul_le hunit).mp (tiling.start_le _)
  lt_start _ := (Int.ediv_lt_iff_lt_mul hunit).mp (tiling.lt_start _)
  increasing k := (Int.mul_lt_mul_right hunit).mpr (tiling.increasing k)

/-- The same cells, seen from a clock that runs `ahead`. -/
def Tiling.ahead (tiling : Tiling Int) (ahead : Int) : Tiling Int where
  start k := tiling.start k - ahead
  index t := tiling.index (t + ahead)
  start_le _ := sub_le_iff_le_add.mpr (tiling.start_le _)
  lt_start _ := lt_sub_iff_add_lt.mpr (tiling.lt_start _)
  increasing k := Int.sub_lt_sub_right (tiling.increasing k) ahead

end Base
