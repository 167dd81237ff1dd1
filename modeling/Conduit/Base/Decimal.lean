import Mathlib

/-!
# Fixed-precision decimals

A decimal is a mantissa of 96 bits over at most 28 places. An operation
computes the exact result and rounds it, or fails where it does not fit.
`Arithmetic` says of rounding what a user relies on: a value that is a decimal
needs none, and rounding keeps the order.
-/

namespace Base

/-- A mantissa below `2 ^ 96` over at most 28 places. -/
def IsDecimal (x : ℚ) : Prop :=
  ∃ (mantissa : ℤ) (scale : ℕ), |mantissa| < 2 ^ 96 ∧ scale ≤ 28 ∧ x = mantissa / 10 ^ scale

abbrev Decimal := { x : ℚ // IsDecimal x }

theorem isDecimal_int {n : ℤ} (h : |n| < 2 ^ 96) : IsDecimal n :=
  ⟨n, 0, h, by omega, by simp⟩

theorem isDecimal_one : IsDecimal 1 := ⟨1, 0, by norm_num, by omega, by norm_num⟩

/-- An integer over some places. -/
theorem isDecimal_div {n : ℤ} {scale : ℕ} (h : |n| < 2 ^ 96) (hscale : scale ≤ 28) :
    IsDecimal (n / 10 ^ scale) :=
  ⟨n, scale, h, hscale, rfl⟩

/-- Over 28 places there is nothing between zero and the last place. -/
theorem not_isDecimal_of_lt {x : ℚ} (hpos : 0 < x) (hsmall : x < 1 / 10 ^ 28) : ¬ IsDecimal x := by
  rintro ⟨mantissa, scale, -, hscale, rfl⟩
  have hpow : (0 : ℚ) < 10 ^ scale := by positivity
  have hmantissa : 0 < mantissa := by
    have := (div_pos_iff_of_pos_right hpow).mp hpos
    exact_mod_cast this
  have hone : (1 : ℚ) ≤ mantissa := by exact_mod_cast hmantissa
  have hle : (10 : ℚ) ^ scale ≤ 10 ^ 28 := pow_le_pow_right₀ (by norm_num) hscale
  have : (1 : ℚ) / 10 ^ 28 ≤ mantissa / 10 ^ scale := div_le_div₀ (by linarith) hone hpow hle
  linarith

namespace Decimal

instance : Zero Decimal := ⟨⟨0, 0, 0, by norm_num, by omega, by simp⟩⟩

@[simp] theorem coe_zero : ((0 : Decimal) : ℚ) = 0 := rfl

structure Arithmetic where
  /-- The decimal an exact result is rounded to, none where it overflows. -/
  round : ℚ → Option Decimal
  round_exact : ∀ x : Decimal, round x = some x
  round_mono : ∀ {x y : ℚ} {a b : Decimal}, x ≤ y → round x = some a → round y = some b → a ≤ b

namespace Arithmetic

variable (A : Arithmetic)

def add (a b : Decimal) : Option Decimal := A.round (a + b)

def mul (a b : Decimal) : Option Decimal := A.round (a * b)

def div (a b : Decimal) : Option Decimal := A.round (a / b)

/-- The values added up in order. -/
def sumFrom (total : Decimal) (values : List Decimal) : Option Decimal :=
  values.foldlM A.add total

theorem round_of_isDecimal {x : ℚ} (h : IsDecimal x) : A.round x = some ⟨x, h⟩ :=
  A.round_exact ⟨x, h⟩

theorem add_zero (a : Decimal) : A.add a 0 = some a := by
  unfold add
  rw [coe_zero, Rat.add_zero]
  exact A.round_exact a

theorem mul_zero (a : Decimal) : A.mul a 0 = some 0 := by
  unfold mul
  rw [coe_zero, Rat.mul_zero]
  exact A.round_exact 0

theorem add_mono {a a' b b' c c' : Decimal} (ha : a ≤ a') (hb : b ≤ b') (h : A.add a b = some c)
    (h' : A.add a' b' = some c') : c ≤ c' :=
  A.round_mono (add_le_add ha hb) h h'

open Classical in
/-- The next decimal below, none above the largest one. -/
noncomputable def truncate (x : ℚ) : Option Decimal :=
  if h : (∃ a : Decimal, IsGreatest { b : Decimal | (b : ℚ) ≤ x } a) ∧ ∃ b : Decimal, x ≤ (b : ℚ)
  then some h.1.choose else none

theorem truncate_of_isGreatest {x : ℚ} {a : Decimal}
    (ha : IsGreatest { b : Decimal | (b : ℚ) ≤ x } a) (hfits : ∃ b : Decimal, x ≤ (b : ℚ)) :
    truncate x = some a := by
  have h : (∃ a : Decimal, IsGreatest { b : Decimal | (b : ℚ) ≤ x } a) ∧
      ∃ b : Decimal, x ≤ (b : ℚ) := ⟨⟨a, ha⟩, hfits⟩
  unfold truncate
  rw [dif_pos h]
  exact congrArg some (h.1.choose_spec.unique ha)

/-- Rounding down. -/
noncomputable def truncating : Arithmetic where
  round := truncate
  round_exact x :=
    truncate_of_isGreatest ⟨le_refl (x : ℚ), fun b hb => hb⟩ ⟨x, le_refl (x : ℚ)⟩
  round_mono := fun {x y a b} hxy ha hb => by
    unfold truncate at ha hb
    rw [Option.dite_none_right_eq_some] at ha hb
    obtain ⟨hx, hxa⟩ := ha
    obtain ⟨hy, hyb⟩ := hb
    rw [← Option.some.inj hxa, ← Option.some.inj hyb]
    exact hy.1.choose_spec.2 (le_trans hx.1.choose_spec.1 hxy)

end Arithmetic

end Decimal

end Base
