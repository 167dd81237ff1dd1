import Mathlib

/-!
# Smooth weighted round robin

`Picked s w k n`: in `k` rounds the members of `s` were picked `n` times each,
every round picking a member of the largest credit. The credit of `i` is what
its weight earned less what its picks cost, `k * w i - W * n i` for the total
weight `W`.

The credits sum to zero and stay above `-W`. When `W` divides `k` every credit
is a multiple of `W`, so none is negative and all are zero; in between the
lower bound on the others bounds a credit from above.
-/

namespace Base.SmoothRoundRobin

variable {ι : Type} [DecidableEq ι] (s : Finset ι) (w : ι → ℤ)

/-- What `i` has earned less what its picks cost. -/
def credit (k : ℕ) (n : ι → ℕ) (i : ι) : ℤ := k * w i - (∑ j ∈ s, w j) * n i

/-- The counts after `k` rounds, each of which picks a member of largest
credit, its weight of this round included. -/
inductive Picked : ℕ → (ι → ℕ) → Prop
  | start : Picked 0 fun _ => 0
  | pick {k : ℕ} {n : ι → ℕ} {i : ι} : Picked k n → i ∈ s →
      (∀ j ∈ s, credit s w k n j + w j ≤ credit s w k n i + w i) →
        Picked (k + 1) (Function.update n i (n i + 1))

variable {s w}

/-- A round adds the weight and takes the total from the one picked. -/
theorem credit_pick (k : ℕ) (n : ι → ℕ) (i j : ι) :
    credit s w (k + 1) (Function.update n i (n i + 1)) j =
      credit s w k n j + w j - if j = i then ∑ l ∈ s, w l else 0 := by
  unfold credit
  by_cases h : j = i
  · subst h
    rw [Function.update_self, if_pos rfl]
    push_cast
    ring
  · rw [Function.update_of_ne h, if_neg h]
    push_cast
    ring

theorem Picked.sum_count {k : ℕ} {n : ι → ℕ} (h : Picked s w k n) : ∑ i ∈ s, n i = k := by
  induction h with
  | start => simp
  | @pick k n i _ hmem _ ih =>
      rw [Finset.sum_update_of_mem hmem, ← ih, ← Finset.add_sum_erase s n hmem,
        Finset.sdiff_singleton_eq_erase]
      omega

theorem Picked.sum_credit {k : ℕ} {n : ι → ℕ} (h : Picked s w k n) :
    ∑ i ∈ s, credit s w k n i = 0 := by
  unfold credit
  rw [Finset.sum_sub_distrib, ← Finset.mul_sum, ← Finset.mul_sum, ← Nat.cast_sum, h.sum_count]
  ring

/-- No credit falls to minus the total weight: the member picked has a positive
one, since the credits with the weights of the round sum to the total. -/
theorem Picked.lt_credit {k : ℕ} {n : ι → ℕ} (h : Picked s w k n) (hw : ∀ i ∈ s, 0 < w i)
    {i : ι} (hi : i ∈ s) : -(∑ j ∈ s, w j) < credit s w k n i := by
  have htotal : 0 < ∑ j ∈ s, w j := Finset.sum_pos hw ⟨i, hi⟩
  induction h generalizing i with
  | start =>
      unfold credit
      simpa using htotal
  | @pick k n l hrun hmem hmax ih =>
      rw [credit_pick]
      by_cases h : i = l
      · rw [if_pos h, h]
        have hpositive : 0 < credit s w k n l + w l := by
          by_contra hle
          have hsum : ∑ j ∈ s, (credit s w k n j + w j) ≤ 0 :=
            Finset.sum_nonpos fun j hj => (hmax j hj).trans (not_lt.mp hle)
          rw [Finset.sum_add_distrib, hrun.sum_credit] at hsum
          omega
        omega
      · rw [if_neg h]
        have hbelow := ih hi
        have hweight := hw i hi
        omega

/-- After a multiple of the total weight every credit is zero. -/
theorem Picked.credit_eq_zero {k : ℕ} {n : ι → ℕ} (h : Picked s w k n) (hw : ∀ i ∈ s, 0 < w i)
    (hk : (∑ j ∈ s, w j) ∣ (k : ℤ)) {i : ι} (hi : i ∈ s) : credit s w k n i = 0 := by
  have hnonneg : ∀ j ∈ s, 0 ≤ credit s w k n j := by
    intro j hj
    have htotal : 0 < ∑ j ∈ s, w j := Finset.sum_pos hw ⟨j, hj⟩
    obtain ⟨m, hm⟩ := hk
    have hlt := h.lt_credit hw hj
    have hmultiple : credit s w k n j = (∑ j ∈ s, w j) * (m * w j - n j) := by
      unfold credit
      rw [hm]
      ring
    rw [hmultiple] at hlt ⊢
    have hfactor : -1 < m * w j - (n j : ℤ) := by
      by_contra hle
      have hstep := mul_le_mul_of_nonneg_left (not_lt.mp hle) htotal.le
      linarith
    exact mul_nonneg htotal.le (by omega)
  exact (Finset.sum_eq_zero_iff_of_nonneg hnonneg).mp h.sum_credit i hi

/-- A credit is what the others owe. -/
theorem Picked.credit_lt {k : ℕ} {n : ι → ℕ} (h : Picked s w k n) (hw : ∀ i ∈ s, 0 < w i)
    {i : ι} (hi : i ∈ s) :
    credit s w k n i < max 1 ((s.card : ℤ) - 1) * ∑ j ∈ s, w j := by
  have htotal : 0 < ∑ j ∈ s, w j := Finset.sum_pos hw ⟨i, hi⟩
  have hothers : credit s w k n i = ∑ j ∈ s.erase i, -credit s w k n j := by
    have hsum := h.sum_credit
    rw [← Finset.add_sum_erase s _ hi] at hsum
    rw [Finset.sum_neg_distrib]
    omega
  rw [hothers]
  by_cases hempty : s.erase i = ∅
  · rw [hempty, Finset.sum_empty]
    exact mul_pos (lt_max_of_lt_left one_pos) htotal
  · have hcard : ((s.erase i).card : ℤ) = (s.card : ℤ) - 1 := by
      rw [Finset.card_erase_of_mem hi, Nat.cast_sub (Finset.card_pos.mpr ⟨i, hi⟩), Nat.cast_one]
    have hlt : ∑ j ∈ s.erase i, -credit s w k n j < ∑ _j ∈ s.erase i, ∑ j ∈ s, w j := by
      refine Finset.sum_lt_sum_of_nonempty (Finset.nonempty_iff_ne_empty.mpr hempty) fun j hj => ?_
      have hbelow := h.lt_credit hw (Finset.mem_of_mem_erase hj)
      omega
    rw [Finset.sum_const, nsmul_eq_mul, hcard] at hlt
    exact hlt.trans_le (mul_le_mul_of_nonneg_right (le_max_right _ _) htotal.le)

end Base.SmoothRoundRobin
