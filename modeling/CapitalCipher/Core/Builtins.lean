/-
Python's built-in functions and operators that can raise, in exact arithmetic, and when they return.

  • `divide_returns`, `fromEnd_returns`, `entry_returns`: quotients and entries of lists.
  • `mean_returns`, `pstdev_returns`, `largest_returns`, `smallest_returns`: what needs one value at
    least.
  • `truncate_nonneg`, `truncate_le`: bounds of `int`.
-/
import CapitalCipher.Lib.Numeric
import CapitalCipher.Lib.Returns
import CapitalCipher.Schemas.Common

namespace CapitalCipher

open Lib

namespace Builtins

variable {α β : Type}

/-- the value, or the exception of the name -/
def orRaise (name : String) (x : Option α) : Except Error α := x.elim (.error ⟨.transport, name⟩) .ok

/-- `x / y` -/
def divide (x y : ℚ) : Except Error ℚ :=
  if y = 0 then .error ⟨.transport, "ZeroDivisionError"⟩ else .ok (x / y)

/-- `x / y if y > 0 else default` -/
def divideIfPos (x y default : ℚ) : Except Error ℚ := if 0 < y then divide x y else .ok default

/-- `xs[i]` -/
def entry (xs : List α) (i : ℕ) : Except Error α := orRaise "IndexError" xs[i]?

/-- `xs[-n]`, for `n` other than 0 -/
def fromEnd (xs : List α) (n : ℕ) : Except Error α := entry xs.reverse (n - 1)

/-- `assert x is not None` -/
def assertSome (x : Option α) : Except Error α := orRaise "AssertionError" x

/-- `x or default`, where nothing and 0 are false -/
def orDefault (x : Option ℚ) (default : ℚ) : ℚ :=
  x.elim default fun value => if value = 0 then default else value

/-- `int(x)` -/
def truncate (x : ℚ) : ℤ := if 0 ≤ x then ⌊x⌋ else ⌈x⌉

/-- `math.sqrt(x)` -/
def sqrt (x : ℚ) : Except Error ℚ :=
  if x < 0 then .error ⟨.transport, "ValueError"⟩ else .ok (Numeric.sqrt x)

/-- `math.log2(x)` -/
def log2 (x : ℚ) : Except Error ℚ :=
  if x ≤ 0 then .error ⟨.transport, "ValueError"⟩ else .ok (Numeric.log2 x)

/-- `statistics.fmean(values)` -/
def mean (values : List ℚ) : Except Error ℚ :=
  if values = [] then .error ⟨.transport, "StatisticsError"⟩ else .ok (fmean values)

/-- the mean of the squared deviations -/
def variance (values : List ℚ) : ℚ := fmean (values.map fun value => (value - fmean values) ^ 2)

/-- `statistics.pstdev(values)` -/
def pstdev (values : List ℚ) : Except Error ℚ :=
  if values = [] then .error ⟨.transport, "StatisticsError"⟩
  else .ok (Numeric.sqrt (variance values))

/-- `max(values)` -/
def largest (values : List ℚ) : Except Error ℚ := orRaise "ValueError" values.max?

/-- `min(values)` -/
def smallest (values : List ℚ) : Except Error ℚ := orRaise "ValueError" values.min?

/-! ## When they return -/

variable {x y : ℚ} {values : List ℚ} {xs : List α}

theorem divide_returns (hy : y ≠ 0) : Returns (divide x y) (· = x / y) := by
  rw [divide, if_neg hy]
  exact .ok rfl

theorem divideIfPos_returns {default : ℚ} : Returns (divideIfPos x y default) fun _ => True := by
  apply Returns.ite
  · intro hpos
    exact (divide_returns hpos.ne').any
  · intro _
    exact .ok trivial

theorem entry_returns {i : ℕ} (h : i < xs.length) : Returns (entry xs i) (· ∈ xs) := by
  rw [entry, List.getElem?_eq_getElem h]
  exact .ok (List.getElem_mem h)

theorem fromEnd_returns {n : ℕ} (hpos : 0 < n) (h : n ≤ xs.length) :
    Returns (fromEnd xs n) (· ∈ xs) := by
  have hlen : n - 1 < xs.reverse.length := by
    rw [List.length_reverse]
    omega
  exact (entry_returns hlen).imp fun a ha => List.mem_reverse.1 ha

theorem assertSome_returns {o : Option α} (h : o ≠ none) :
    Returns (assertSome o) (o = some ·) := by
  obtain ⟨a, rfl⟩ := Option.ne_none_iff_exists'.1 h
  exact .ok rfl

theorem assertSome_none : assertSome (none : Option α) = .error ⟨.transport, "AssertionError"⟩ := rfl

theorem sqrt_returns (h : 0 ≤ x) : Returns (sqrt x) (0 ≤ ·) := by
  rw [sqrt, if_neg (not_lt.2 h)]
  exact .ok (Numeric.sqrt_nonneg x)

theorem log2_returns (h : 0 < x) : Returns (log2 x) fun _ => True := by
  rw [log2, if_neg (not_le.2 h)]
  exact .ok trivial

theorem mean_returns (h : values ≠ []) : Returns (mean values) (· = fmean values) := by
  rw [mean, if_neg h]
  exact .ok rfl

theorem pstdev_returns (h : values ≠ []) : Returns (pstdev values) (0 ≤ ·) := by
  rw [pstdev, if_neg h]
  exact .ok (Numeric.sqrt_nonneg _)

theorem largest_returns (h : values ≠ []) :
    Returns (largest values) fun m => m ∈ values ∧ ∀ v ∈ values, v ≤ m := by
  obtain ⟨m, hm⟩ := Option.isSome_iff_exists.1 (List.isSome_max?_of_ne_nil h)
  rw [largest, hm]
  exact .ok (List.max?_eq_some_iff.1 hm)

theorem smallest_returns (h : values ≠ []) :
    Returns (smallest values) fun m => m ∈ values ∧ ∀ v ∈ values, m ≤ v := by
  obtain ⟨m, hm⟩ := Option.isSome_iff_exists.1 (List.isSome_min?_of_ne_nil h)
  rw [smallest, hm]
  exact .ok (List.min?_eq_some_iff.1 hm)

/-! ## Bounds -/

theorem fmean_nonneg (h : ∀ v ∈ values, 0 ≤ v) : 0 ≤ fmean values :=
  div_nonneg (List.sum_nonneg h) (Nat.cast_nonneg _)

/-- a default other than 0 keeps the value off 0 -/
theorem orDefault_ne_zero {o : Option ℚ} (hy : y ≠ 0) : orDefault o y ≠ 0 := by
  cases o with
  | none => exact hy
  | some value =>
    unfold orDefault
    dsimp only [Option.elim]
    split_ifs with hzero
    · exact hy
    · exact hzero

theorem truncate_nonneg (h : 0 ≤ x) : 0 ≤ truncate x := by
  rw [truncate, if_pos h]
  exact Int.floor_nonneg.2 h

theorem truncate_le {n : ℕ} (h : x ≤ n) : truncate x ≤ n := by
  unfold truncate
  split_ifs
  · exact_mod_cast (Int.floor_le x).trans h
  · exact Int.ceil_le.2 (by exact_mod_cast h)

example : truncate (-7 / 2) = -3 ∧ fromEnd [1, 2, 3] 2 = .ok 2 := by decide +kernel

end Builtins

end CapitalCipher
