/-
Roots, logarithms and decimal texts of rationals, to a precision beyond that of a float.

A root keeps twenty digits beyond those of its argument, a logarithm sixty binary places, and a text
shows no number beyond the range of a float.

  • `sqrt_sq_le`, `lt_sqrt_succ_sq`: a root is exact to its last digit.
  • `sqrt_pos`: the root of a positive number is positive.
  • `length_fixed_le`: a text with six places has at most 320 characters.
-/
import CapitalCipher.Lib.Decimal
import Mathlib.Data.Nat.Sqrt

namespace Lib.Numeric

/-! ## roots -/

/-- the digits kept beyond those of the argument -/
def rootScale : ℕ := 10 ^ 20

/-- the square root of a number that is not negative -/
def sqrt (q : ℚ) : ℚ := Nat.sqrt (q.num.toNat * q.den * rootScale ^ 2) / (q.den * rootScale)

theorem sqrt_nonneg (q : ℚ) : 0 ≤ sqrt q := by
  unfold sqrt
  positivity

theorem eq_div {q : ℚ} (h : 0 ≤ q) :
    q = (q.num.toNat * q.den * rootScale ^ 2 : ℕ) / ((q.den : ℚ) * rootScale) ^ 2 := by
  have hden : (q.den : ℚ) ≠ 0 := by exact_mod_cast q.den_ne_zero
  have hscale : (rootScale : ℚ) ≠ 0 := by norm_num [rootScale]
  have hnum : ((q.num.toNat : ℤ) : ℚ) = q.num := by
    rw [Int.toNat_of_nonneg (Rat.num_nonneg.2 h)]
  have hq : q = (q.num.toNat : ℚ) / q.den := by
    rw [← Int.cast_natCast (q.num.toNat), hnum, Rat.num_div_den]
  conv_lhs => rw [hq]
  push_cast
  field_simp

theorem sqrt_sq_le {q : ℚ} (h : 0 ≤ q) : sqrt q ^ 2 ≤ q := by
  conv_rhs => rw [eq_div h]
  rw [sqrt, div_pow]
  refine div_le_div_of_nonneg_right ?_ (by positivity)
  exact_mod_cast Nat.sqrt_le' _

/-- one more unit of the last digit is too much -/
theorem lt_sqrt_succ_sq {q : ℚ} (h : 0 ≤ q) : q < (sqrt q + 1 / (q.den * rootScale)) ^ 2 := by
  have hden : (0 : ℚ) < q.den := by exact_mod_cast q.den_pos
  have hscale : (0 : ℚ) < rootScale := by norm_num [rootScale]
  conv_lhs => rw [eq_div h]
  rw [sqrt, ← add_div, div_pow]
  refine div_lt_div_of_pos_right ?_ (by positivity)
  exact_mod_cast Nat.lt_succ_sqrt' _

theorem sqrt_pos {q : ℚ} (h : 0 < q) : 0 < sqrt q := by
  have hden : (0 : ℚ) < q.den := by exact_mod_cast q.den_pos
  have hscale : (0 : ℚ) < rootScale := by norm_num [rootScale]
  have hnat : 0 < q.num.toNat * q.den * rootScale ^ 2 := by
    have hnum : 0 < q.num.toNat := by
      have := Rat.num_pos.2 h
      omega
    have := q.den_pos
    unfold rootScale
    positivity
  refine div_pos ?_ (by positivity)
  exact_mod_cast Nat.sqrt_pos.2 hnat

/-! ## binary logarithms -/

/-- the binary places of the logarithm of a number from 1 to 2, itself in units of `2 ^ 64` -/
def fractionBits : ℕ → ℕ → ℕ → ℕ
  | 0, _, bits => bits
  | fuel + 1, m, bits =>
    let square := m * m / 2 ^ 64
    if 2 ^ 65 ≤ square then fractionBits fuel (square / 2) (2 * bits + 1)
    else fractionBits fuel square (2 * bits)

/-- the exponent of the greatest power of two below a positive number -/
def exponent (q : ℚ) : ℤ :=
  let e := (Nat.log2 q.num.toNat : ℤ) - Nat.log2 q.den
  if q < 2 ^ e then e - 1 else e

/-- the logarithm of a positive number -/
def log2 (q : ℚ) : ℚ :=
  let m := ⌊q / 2 ^ exponent q * 2 ^ 64⌋.toNat
  exponent q + fractionBits 60 m 0 / 2 ^ 60

/-! ## texts -/

/-- no float is beyond this -/
def floatBound : ℕ := 2 ^ 1024

/-- it has 309 digits before its point -/
theorem floatBound_lt : floatBound < 10 ^ 309 := by decide +kernel

/-- a number with zeros before it -/
def padded (digits n : ℕ) : String :=
  String.ofList (List.replicate (digits - (toString n).length) '0') ++ toString n

/-- a number with a fixed count of decimal places -/
def fixed (digits : ℕ) (q : ℚ) : String :=
  let units := (Decimal.nearest (min |q| floatBound * 10 ^ digits)).toNat
  (if q < 0 then "-" else "") ++ toString (units / 10 ^ digits) ++ "." ++
    padded digits (units % 10 ^ digits)

theorem length_toString_le {digits n : ℕ} (hpos : 0 < digits) (h : n < 10 ^ digits) :
    (toString n).length ≤ digits := (Nat.length_repr_le_iff hpos).2 h

theorem length_padded_le {digits n : ℕ} (hpos : 0 < digits) (h : n < 10 ^ digits) :
    (padded digits n).length ≤ digits := by
  have hlen := length_toString_le hpos h
  rw [padded, String.length_append, String.length_ofList, List.length_replicate]
  omega

theorem length_fixed_le {digits : ℕ} (hpos : 0 < digits) (hdigits : digits ≤ 6) (q : ℚ) :
    (fixed digits q).length ≤ 320 := by
  have hbound : Decimal.nearest (min |q| floatBound * 10 ^ digits) ≤ floatBound * 10 ^ digits := by
    have hmono : min |q| floatBound * 10 ^ digits ≤ ((floatBound * 10 ^ digits : ℤ) : ℚ) := by
      push_cast
      exact mul_le_mul_of_nonneg_right (min_le_right _ _) (by positivity)
    have := Decimal.nearest_mono hmono
    rwa [Decimal.nearest_intCast] at this
  have hunits : (Decimal.nearest (min |q| floatBound * 10 ^ digits)).toNat / 10 ^ digits <
      10 ^ 309 := by
    have hpow : 0 < 10 ^ digits := by positivity
    have hle : (Decimal.nearest (min |q| floatBound * 10 ^ digits)).toNat ≤
        floatBound * 10 ^ digits := by
      rw [Int.toNat_le]
      exact_mod_cast hbound
    calc (Decimal.nearest (min |q| floatBound * 10 ^ digits)).toNat / 10 ^ digits
        ≤ floatBound * 10 ^ digits / 10 ^ digits := Nat.div_le_div_right hle
      _ = floatBound := Nat.mul_div_cancel _ hpow
      _ < 10 ^ 309 := floatBound_lt
  have hwhole : (toString ((Decimal.nearest (min |q| floatBound * 10 ^ digits)).toNat /
      10 ^ digits)).length ≤ 309 := length_toString_le (by omega) hunits
  have hplaces : (padded digits ((Decimal.nearest (min |q| floatBound * 10 ^ digits)).toNat %
      10 ^ digits)).length ≤ digits := length_padded_le hpos (Nat.mod_lt _ (by positivity))
  have hsign : (if q < 0 then "-" else "").length ≤ 1 := by
    split_ifs <;> decide
  have hpoint : (".").length = 1 := by decide
  rw [fixed, String.length_append, String.length_append, String.length_append, hpoint]
  omega

example : fixed 3 (-(1 / 1000)) = "-0.001" ∧ sqrt (1 / 4) = 1 / 2 ∧ log2 (1 / 8) = -3 := by
  decide +kernel

end Lib.Numeric
