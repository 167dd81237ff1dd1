import Mathlib

/-!
# 64-bit signed arithmetic over `Int`

Amounts are `Int`s; the operations of the code that clamp or check are
written out: `satAdd` and `satSub` clamp to the range, `toI64` checks it.
-/

namespace Base

def i64Min : Int := -9223372036854775808

def i64Max : Int := 9223372036854775807

/-- The value, if an `i64` holds it. -/
def toI64 (n : Int) : Option Int := if i64Min ≤ n ∧ n ≤ i64Max then some n else none

def clampI64 (n : Int) : Int := max i64Min (min n i64Max)

/-- `i64::saturating_add`. -/
def satAdd (a b : Int) : Int := clampI64 (a + b)

/-- `i64::saturating_sub`. -/
def satSub (a b : Int) : Int := clampI64 (a - b)

theorem toI64_eq_some {n m : Int} (h : toI64 n = some m) : m = n ∧ i64Min ≤ n ∧ n ≤ i64Max := by
  unfold toI64 at h
  split at h
  · next hrange => exact ⟨(Option.some.inj h).symm, hrange⟩
  · exact absurd h (by simp)

theorem clampI64_eq {n : Int} (hmin : i64Min ≤ n) (hmax : n ≤ i64Max) : clampI64 n = n := by
  unfold clampI64
  omega

theorem clampI64_le_max (n : Int) : clampI64 n ≤ i64Max := by
  unfold clampI64 i64Min i64Max
  omega

theorem clampI64_le {n : Int} (h : i64Min ≤ n) : clampI64 n ≤ n := by
  unfold clampI64
  omega

/-- A saturating sum of nonnegative terms never exceeds the sum. -/
theorem foldl_satAdd_le (l : List Int) (h : ∀ n ∈ l, 0 ≤ n) :
    ∀ acc : Int, 0 ≤ acc → 0 ≤ l.foldl satAdd acc ∧ l.foldl satAdd acc ≤ acc + l.sum := by
  induction l with
  | nil =>
      intro acc hacc
      simp [hacc]
  | cons n l ih =>
      intro acc hacc
      have hn := h n List.mem_cons_self
      have hsat : 0 ≤ satAdd acc n ∧ satAdd acc n ≤ acc + n := by
        unfold satAdd clampI64 i64Min i64Max
        omega
      have hrest := ih (fun m hm => h m (List.mem_cons_of_mem n hm)) (satAdd acc n) hsat.1
      simp only [List.foldl_cons, List.sum_cons]
      omega

end Base
