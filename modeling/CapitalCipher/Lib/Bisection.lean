/-
Bisection: halving an interval a fixed number of times, keeping the lower half when a test refuses the
middle and the upper half when it admits it. The test need not be monotone.

  • `bisect_mem`: the result stays in the interval, and is admitted unless it is the lower end.
  • `le_bisect_iff`: the result reaches a threshold exactly when, halving towards the threshold, some
    middle at or above it is admitted, and so is every earlier middle below it.
-/
import Mathlib.Tactic

namespace Lib

variable {α : Type} [Field α] [LinearOrder α]

/-- the lower end after `n` halvings of `[low, high]` -/
def bisect (admits : α → Bool) : ℕ → α → α → α
  | 0, low, _ => low
  | n + 1, low, high =>
    if admits ((low + high) / 2) then bisect admits n ((low + high) / 2) high
    else bisect admits n low ((low + high) / 2)

namespace Bisection

/-- the middle of the part of `[low, high]` that holds `t`, after `k` halvings -/
def middle (t : α) : ℕ → α → α → α
  | 0, low, high => (low + high) / 2
  | k + 1, low, high =>
    if (low + high) / 2 < t then middle t k ((low + high) / 2) high
    else middle t k low ((low + high) / 2)

/-- halving towards `t` meets an admitted middle at or above it, past admitted ones only -/
def Reaches (admits : α → Bool) (t : α) (n : ℕ) (low high : α) : Prop :=
  ∃ k < n, t ≤ middle t k low high ∧ admits (middle t k low high) = true ∧
    ∀ j < k, middle t j low high < t → admits (middle t j low high) = true

variable [IsStrictOrderedRing α] {admits : α → Bool} {low high t : α}

theorem bisect_mem (admits : α → Bool) (n : ℕ) (h : low ≤ high) :
    low ≤ bisect admits n low high ∧ bisect admits n low high ≤ high ∧
      (bisect admits n low high = low ∨ admits (bisect admits n low high) = true) := by
  induction n generalizing low high with
  | zero => exact ⟨le_rfl, h, .inl rfl⟩
  | succ n ih =>
    have hlow : low ≤ (low + high) / 2 := by linarith
    have hhigh : (low + high) / 2 ≤ high := by linarith
    simp only [bisect]
    split_ifs with hm
    · obtain ⟨h1, h2, h3⟩ := ih hhigh
      refine ⟨hlow.trans h1, h2, ?_⟩
      rcases h3 with h3 | h3
      · exact .inr (by rw [h3]; exact hm)
      · exact .inr h3
    · obtain ⟨h1, h2, h3⟩ := ih hlow
      exact ⟨h1, h2.trans hhigh, h3⟩

/-- **Reach.** The result is at least `t` exactly when halving towards `t` finds it so -/
theorem le_bisect_iff (n : ℕ) (hlow : low < t) (hhigh : t ≤ high) :
    t ≤ bisect admits n low high ↔ Reaches admits t n low high := by
  induction n generalizing low high with
  | zero => simp [bisect, Reaches, hlow]
  | succ n ih =>
    have hmid : low ≤ (low + high) / 2 ∧ (low + high) / 2 ≤ high := by
      constructor <;> linarith
    by_cases ht : t ≤ (low + high) / 2
    · -- the threshold lies in the lower half
      have hshift : ∀ k, middle t (k + 1) low high = middle t k low ((low + high) / 2) := by
        intro k
        rw [middle, if_neg (not_lt.2 ht)]
      cases hm : admits ((low + high) / 2) with
      | true =>
        simp only [bisect, hm, if_true]
        constructor
        · intro _
          exact ⟨0, by omega, ht, hm, fun j hj => absurd hj (Nat.not_lt_zero j)⟩
        · intro _
          exact ht.trans (bisect_mem admits n hmid.2).1
      | false =>
        simp only [bisect, hm, Bool.false_eq_true, if_false]
        rw [ih hlow ht]
        constructor
        · rintro ⟨k, hk, hle, hadm, hbelow⟩
          refine ⟨k + 1, by omega, by rwa [hshift], by rwa [hshift], fun j hj hlt => ?_⟩
          cases j with
          | zero => exact absurd ht (not_le.2 hlt)
          | succ j =>
            rw [hshift] at hlt ⊢
            exact hbelow j (by omega) hlt
        · rintro ⟨k, hk, hle, hadm, hbelow⟩
          cases k with
          | zero => simp [middle, hm] at hadm
          | succ k =>
            rw [hshift] at hle hadm
            refine ⟨k, by omega, hle, hadm, fun j hj hlt => ?_⟩
            have := hbelow (j + 1) (by omega)
            rw [hshift] at this
            exact this hlt
    · -- the threshold lies in the upper half, which only an admitted middle opens
      have ht := not_le.1 ht
      have hshift : ∀ k, middle t (k + 1) low high = middle t k ((low + high) / 2) high := by
        intro k
        rw [middle, if_pos ht]
      cases hm : admits ((low + high) / 2) with
      | true =>
        simp only [bisect, hm, if_true]
        rw [ih ht hhigh]
        constructor
        · rintro ⟨k, hk, hle, hadm, hbelow⟩
          refine ⟨k + 1, by omega, by rwa [hshift], by rwa [hshift], fun j hj hlt => ?_⟩
          cases j with
          | zero => exact hm
          | succ j =>
            rw [hshift] at hlt ⊢
            exact hbelow j (by omega) hlt
        · rintro ⟨k, hk, hle, hadm, hbelow⟩
          cases k with
          | zero => exact absurd ht (not_lt.2 hle)
          | succ k =>
            rw [hshift] at hle hadm
            refine ⟨k, by omega, hle, hadm, fun j hj hlt => ?_⟩
            have := hbelow (j + 1) (by omega)
            rw [hshift] at this
            exact this hlt
      | false =>
        simp only [bisect, hm, Bool.false_eq_true, if_false]
        constructor
        · intro hle
          have := (bisect_mem admits n hmid.1).2.1
          exact absurd (hle.trans this) (not_le.2 ht)
        · rintro ⟨k, hk, hle, hadm, hbelow⟩
          cases k with
          | zero => exact absurd ht (not_lt.2 hle)
          | succ k =>
            have := hbelow 0 (by omega) ht
            simp only [middle] at this
            rw [hm] at this
            cases this

end Bisection

end Lib
