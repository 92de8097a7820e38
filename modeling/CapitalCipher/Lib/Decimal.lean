/-
Decimal rounding, half to even, over exact rationals.

  • `abs_round_sub_le`: rounding to `d` digits moves a value by at most half a unit of the last
    digit.
  • `round_nonneg`: it never makes a nonnegative value negative.
  • `round_mono`: it keeps order.
-/
import Mathlib.Tactic
import Mathlib.Data.Rat.Floor

namespace Lib.Decimal

/-- the nearest integer, ties to the even one -/
def nearest (t : ℚ) : ℤ :=
  if t - ⌊t⌋ < 1 / 2 then ⌊t⌋
  else if 1 / 2 < t - ⌊t⌋ then ⌊t⌋ + 1
  else if ⌊t⌋ % 2 = 0 then ⌊t⌋ else ⌊t⌋ + 1

/-- `x` to `digits` decimal digits -/
def round (x : ℚ) (digits : ℕ) : ℚ := nearest (x * 10 ^ digits) / 10 ^ digits

theorem abs_nearest_sub_le (t : ℚ) : |(nearest t : ℚ) - t| ≤ 1 / 2 := by
  have h0 : (⌊t⌋ : ℚ) ≤ t := Int.floor_le t
  have h1 : t < ⌊t⌋ + 1 := Int.lt_floor_add_one t
  unfold nearest
  split_ifs with ha hb hc <;> rw [abs_le] <;> push_cast <;> constructor <;> linarith

theorem nearest_intCast (z : ℤ) : nearest z = z := by
  simp [nearest]

/-- a value of `d` digits is its own rounding -/
theorem round_int_div (z : ℤ) (d : ℕ) : round (z / 10 ^ d) d = z / 10 ^ d := by
  have hpos : (0 : ℚ) < 10 ^ d := by positivity
  rw [round, div_mul_cancel₀ _ hpos.ne', nearest_intCast]

theorem nearest_nonneg {t : ℚ} (h : 0 ≤ t) : 0 ≤ nearest t := by
  have h0 : 0 ≤ ⌊t⌋ := Int.floor_nonneg.2 h
  unfold nearest
  split_ifs <;> omega

theorem nearest_mono {s t : ℚ} (h : s ≤ t) : nearest s ≤ nearest t := by
  have hs := Int.floor_le s
  have ht := Int.floor_le t
  rcases (Int.floor_mono h).lt_or_eq with hlt | heq
  · -- the values lie in different unit intervals
    have hsle : nearest s ≤ ⌊s⌋ + 1 := by
      unfold nearest
      split_ifs <;> omega
    have htge : ⌊t⌋ ≤ nearest t := by
      unfold nearest
      split_ifs <;> omega
    omega
  · unfold nearest
    rw [heq]
    split_ifs <;> first | omega | (exfalso; linarith)

theorem round_mono {x y : ℚ} (h : x ≤ y) (d : ℕ) : round x d ≤ round y d := by
  have hpos : (0 : ℚ) < 10 ^ d := by positivity
  refine div_le_div_of_nonneg_right ?_ hpos.le
  exact_mod_cast nearest_mono (mul_le_mul_of_nonneg_right h hpos.le)

theorem abs_round_sub_le (x : ℚ) (d : ℕ) : |round x d - x| ≤ 1 / 2 / 10 ^ d := by
  have hpos : (0 : ℚ) < 10 ^ d := by positivity
  have hx : round x d - x = ((nearest (x * 10 ^ d) : ℚ) - x * 10 ^ d) / 10 ^ d := by
    rw [round, sub_div, mul_div_cancel_right₀ _ hpos.ne']
  rw [hx, abs_div, abs_of_pos hpos]
  exact div_le_div_of_nonneg_right (abs_nearest_sub_le _) hpos.le

theorem round_nonneg {x : ℚ} (h : 0 ≤ x) (d : ℕ) : 0 ≤ round x d := by
  have hpos : (0 : ℚ) < 10 ^ d := by positivity
  refine div_nonneg ?_ hpos.le
  exact_mod_cast nearest_nonneg (mul_nonneg h hpos.le)

/-- a bound on the rounded value bounds the value itself, up to half a unit -/
theorem le_of_round_le {x y : ℚ} {d : ℕ} (h : round x d ≤ y) : x ≤ y + 1 / 2 / 10 ^ d := by
  have := (abs_le.1 (abs_round_sub_le x d)).1
  linarith

example : round (1005 / 1000) 2 = 1 := by decide +kernel

end Lib.Decimal
