/-
Drawdowns of a curve of balances: at every point, how far the balance lies below the highest one so
far, as a percentage of it.

  • `IsDrawdown`: the drawdown at one point of the curve.
  • `isGreatest_drawdown_concat`: one more point updates the peak and the greatest drawdown the way a
    running computation does.
  • `abs_sum_sub_sum_le`: a sum of approximations.
-/
import Mathlib.Tactic

namespace Lib

/-! ## Peaks -/

section Peak

variable {K : Type} [LinearOrder K]

theorem isGreatest_singleton (b : K) : IsGreatest {y | y ∈ [b]} b := by
  refine ⟨by simp, fun y hy => ?_⟩
  exact (List.mem_singleton.1 hy).le

/-- the peak of a curve with one more point -/
theorem isGreatest_concat {curve : List K} {peak : K} (h : IsGreatest {y | y ∈ curve} peak) (b : K) :
    IsGreatest {y | y ∈ curve ++ [b]} (max peak b) := by
  constructor
  · rcases max_choice peak b with hmax | hmax <;> rw [hmax]
    · exact List.mem_append_left _ h.1
    · simp
  · intro y hy
    rcases List.mem_append.1 hy with hy | hy
    · exact (h.2 hy).trans (le_max_left _ _)
    · rw [List.mem_singleton.1 hy]
      exact le_max_right _ _

end Peak

/-! ## Drawdowns -/

variable {K : Type} [Field K] [LinearOrder K]

/-- the drawdown at one point of the curve, below the peak of the curve up to it -/
def IsDrawdown (curve : List K) (x : K) : Prop :=
  ∃ before balance after peak, curve = before ++ balance :: after ∧
    IsGreatest {y | y ∈ before ++ [balance]} peak ∧ x = (peak - balance) / peak * 100

/-- the drawdowns of a curve with one more point: the old ones, and the one at that point -/
theorem isDrawdown_concat {curve : List K} {peak : K} (h : IsGreatest {y | y ∈ curve} peak)
    (b x : K) : IsDrawdown (curve ++ [b]) x ↔
      IsDrawdown curve x ∨ x = (max peak b - b) / max peak b * 100 := by
  constructor
  · rintro ⟨before, balance, after, p, hc, hp, rfl⟩
    rcases List.eq_nil_or_concat after with rfl | ⟨after, last, rfl⟩
    · obtain ⟨rfl, hb⟩ := List.append_inj' hc rfl
      cases hb
      rw [hp.unique (isGreatest_concat h b)]
      exact .inr rfl
    · have hsplit : curve ++ [b] = (before ++ balance :: after) ++ [last] := by
        rw [hc]
        simp
      obtain ⟨rfl, -⟩ := List.append_inj' hsplit rfl
      exact .inl ⟨before, balance, after, p, rfl, hp, rfl⟩
  · rintro (⟨before, balance, after, p, rfl, hp, rfl⟩ | rfl)
    · exact ⟨before, balance, after ++ [b], p, by simp, hp, rfl⟩
    · exact ⟨curve, b, [], max peak b, rfl, isGreatest_concat h b, rfl⟩

/-- a curve of one point has not fallen -/
theorem isGreatest_drawdown_singleton (b : K) : IsGreatest {x | IsDrawdown [b] x} 0 := by
  have hzero : (b - b) / b * 100 = 0 := by simp
  constructor
  · exact ⟨[], b, [], b, rfl, isGreatest_singleton b, hzero.symm⟩
  · rintro x ⟨before, balance, after, p, hc, hp, rfl⟩
    have hlen := congrArg List.length hc
    simp only [List.length_append, List.length_cons, List.length_nil] at hlen
    obtain rfl : before = [] := List.eq_nil_of_length_eq_zero (by omega)
    cases hc
    rw [hp.unique (isGreatest_singleton b), hzero]

/-- one more point: the greatest drawdown is the old one or the one at that point -/
theorem isGreatest_drawdown_concat {curve : List K} {peak greatest : K}
    (hp : IsGreatest {y | y ∈ curve} peak) (hd : IsGreatest {x | IsDrawdown curve x} greatest)
    (b : K) : IsGreatest {x | IsDrawdown (curve ++ [b]) x}
      (max greatest ((max peak b - b) / max peak b * 100)) := by
  constructor
  · apply (isDrawdown_concat hp b _).2
    rcases max_choice greatest ((max peak b - b) / max peak b * 100) with hmax | hmax <;> rw [hmax]
    · exact .inl hd.1
    · exact .inr rfl
  · intro x hx
    rcases (isDrawdown_concat hp b x).1 hx with hx | rfl
    · exact (hd.2 hx).trans (le_max_left _ _)
    · exact le_max_right _ _

/-- sums of approximations drift apart by no more than the sum of the errors -/
theorem abs_sum_sub_sum_le [IsStrictOrderedRing K] {α : Type} {f g : α → K} {c : K} (l : List α)
    (h : ∀ a ∈ l, |f a - g a| ≤ c) : |(l.map f).sum - (l.map g).sum| ≤ l.length * c := by
  induction l with
  | nil => simp
  | cons a l ih =>
    have hhead := h a List.mem_cons_self
    have htail := ih fun x hx => h x (List.mem_cons_of_mem a hx)
    have hsplit : ((a :: l).map f).sum - ((a :: l).map g).sum =
        (f a - g a) + ((l.map f).sum - (l.map g).sum) := by
      simp only [List.map_cons, List.sum_cons]
      ring
    calc |((a :: l).map f).sum - ((a :: l).map g).sum|
        ≤ |f a - g a| + |(l.map f).sum - (l.map g).sum| := by
          rw [hsplit]
          exact abs_add_le _ _
      _ ≤ c + l.length * c := add_le_add hhead htail
      _ = (a :: l).length * c := by
          push_cast [List.length_cons]
          ring

end Lib
