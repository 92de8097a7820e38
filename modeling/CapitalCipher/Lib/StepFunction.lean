/-
Step functions read off a list of timed rows: at every instant the last row at or before it is in
force.

  • `inForce_append`: the row in force between one row's time and the next one's.
  • `inForce_eq_none`: nothing is in force before the first row.
  • `inForce_takeWhile`: rows that only come later make no difference.
  • `IntegralIs`: an integral over an interval together with its existence; over the pieces of a step
    function it is a sum.
-/
import Mathlib.Data.List.TakeWhile
import Mathlib.MeasureTheory.Integral.IntervalIntegral.Basic

namespace Lib

open MeasureTheory

variable {α : Type} (time : α → ℝ)

/-- the last row at or before an instant, of rows in order of time -/
noncomputable def inForce (rows : List α) (t : ℝ) : Option α :=
  (rows.takeWhile fun a => time a ≤ t).getLast?

variable {time}

theorem inForce_append {before rest : List α} {current : α} {t : ℝ}
    (hbefore : ∀ a ∈ before ++ [current], time a ≤ t) (hrest : ∀ a ∈ rest.head?, t < time a) :
    inForce time (before ++ current :: rest) t = some current := by
  have hsplit : before ++ current :: rest = (before ++ [current]) ++ rest := by simp
  have hstop : rest.takeWhile (fun a => decide (time a ≤ t)) = [] := by
    cases rest with
    | nil => rfl
    | cons a rest =>
      have ha : t < time a := hrest a rfl
      rw [List.takeWhile_cons_of_neg (by simpa using ha)]
  rw [inForce, hsplit, List.takeWhile_append_of_pos fun a ha => by simpa using hbefore a ha, hstop,
    List.append_nil, List.getLast?_concat]

/-- nothing is in force before the first row -/
theorem inForce_eq_none {rows : List α} {t : ℝ} :
    inForce time rows t = none ↔ ∀ a ∈ rows.head?, t < time a := by
  cases rows with
  | nil => exact iff_of_true rfl fun a ha => by cases ha
  | cons a rows =>
    rw [inForce, List.getLast?_eq_none_iff]
    by_cases ha : time a ≤ t
    · rw [List.takeWhile_cons_of_pos (by simpa using ha)]
      refine iff_of_false (List.cons_ne_nil _ _) fun h => ?_
      exact absurd (h a rfl) (not_lt.2 ha)
    · rw [List.takeWhile_cons_of_neg (by simpa using ha)]
      refine iff_of_true rfl fun x hx => ?_
      cases hx
      exact not_le.1 ha

/-- rows that only come later make no difference -/
theorem inForce_takeWhile {rows : List α} {p : α → Bool} {t : ℝ}
    (h : ∀ a ∈ rows, time a ≤ t → p a = true) :
    inForce time (rows.takeWhile p) t = inForce time rows t := by
  rw [inForce, inForce, List.takeWhile_takeWhile]
  congr 1
  induction rows with
  | nil => rfl
  | cons a rows ih =>
    have hrest := ih fun x hx => h x (List.mem_cons_of_mem a hx)
    by_cases ha : time a ≤ t
    · have hp := h a List.mem_cons_self ha
      rw [List.takeWhile_cons_of_pos (by simp [ha, hp]), List.takeWhile_cons_of_pos (by simp [ha]),
        hrest]
    · rw [List.takeWhile_cons_of_neg (by simp [ha]), List.takeWhile_cons_of_neg (by simp [ha])]

/-! ## Integrals -/

/-- the integral exists and has this value -/
structure IntegralIs (f : ℝ → ℝ) (a b x : ℝ) : Prop where
  integrable : IntervalIntegrable f volume a b
  value : ∫ t in a..b, f t = x

/-- a function that is constant between the ends -/
theorem IntegralIs.of_constant {f : ℝ → ℝ} {a b c : ℝ} (hle : a ≤ b)
    (h : ∀ t, a < t → t < b → f t = c) : IntegralIs f a b ((b - a) * c) := by
  have heq : Set.EqOn (fun _ => c) f (Set.Ioo a b) := fun t ht => (h t ht.1 ht.2).symm
  constructor
  · have hconst : IntegrableOn (fun _ => c) (Set.Ioo a b) := integrableOn_const measure_Ioo_lt_top.ne
    exact (intervalIntegrable_iff_integrableOn_Ioo_of_le hle).2 (hconst.congr_fun heq measurableSet_Ioo)
  · rw [← intervalIntegral.integral_congr_Ioo_of_le hle heq, intervalIntegral.integral_const, smul_eq_mul]

theorem IntegralIs.append {f : ℝ → ℝ} {a b c x y : ℝ} (h : IntegralIs f a b x)
    (h' : IntegralIs f b c y) : IntegralIs f a c (x + y) := by
  refine ⟨h.integrable.trans h'.integrable, ?_⟩
  rw [← intervalIntegral.integral_add_adjacent_intervals h.integrable h'.integrable, h.value, h'.value]

theorem IntegralIs.empty (f : ℝ → ℝ) (a : ℝ) : IntegralIs f a a 0 :=
  ⟨IntervalIntegrable.refl, intervalIntegral.integral_same⟩

theorem IntegralIs.unique {f : ℝ → ℝ} {a b x y : ℝ} (h : IntegralIs f a b x) (h' : IntegralIs f a b y) :
    x = y := h.value.symm.trans h'.value

/-- functions that agree between the ends -/
theorem IntegralIs.congr {f g : ℝ → ℝ} {a b x y : ℝ} (hle : a ≤ b) (h : IntegralIs f a b x)
    (h' : IntegralIs g a b y) (heq : ∀ t, a < t → t < b → f t = g t) : x = y := by
  rw [← h.value, ← h'.value]
  exact intervalIntegral.integral_congr_Ioo_of_le hle fun t ht => heq t ht.1 ht.2

end Lib
