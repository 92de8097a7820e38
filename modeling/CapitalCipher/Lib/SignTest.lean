/-
The one-sided sign test: how many of the `2 ^ n` patterns of wins and losses have at least so many
wins, and that its p-value is super-uniform.

  • `card_wins_ge`: the patterns with at least `k` wins are counted by the upper binomial tail.
  • `upperTail_anti`: more wins, a smaller tail.
  • `card_tail_le`: the patterns whose own tail is at most a bound are at most that many.
-/
import Mathlib.Tactic
import Mathlib.Data.Fintype.Powerset
import Mathlib.Data.Fintype.BigOperators

namespace Lib.SignTest

variable {n : ℕ}

/-- how many patterns of `n` have at least `k` wins, by binomial coefficients -/
def upperTail (n k : ℕ) : ℕ := ∑ j ∈ Finset.Icc k n, n.choose j

theorem upperTail_anti {k k' : ℕ} (h : k ≤ k') : upperTail n k' ≤ upperTail n k :=
  Finset.sum_le_sum_of_subset (Finset.Icc_subset_Icc_left h)

/-- the folds a pattern wins -/
def winners (w : Fin n → Bool) : Finset (Fin n) := Finset.univ.filter fun i => w i = true

def wins (w : Fin n → Bool) : ℕ := (winners w).card

theorem wins_le (w : Fin n → Bool) : wins w ≤ n := by
  have hle := Finset.card_le_univ (winners w)
  rwa [Fintype.card_fin] at hle

/-- a pattern is the set of what it wins -/
theorem winners_bijective : Function.Bijective (winners (n := n)) := by
  constructor
  · intro v w h
    funext i
    have hi : i ∈ winners v ↔ i ∈ winners w := by rw [h]
    simp only [winners, Finset.mem_filter, Finset.mem_univ, true_and] at hi
    exact Bool.eq_iff_iff.2 hi
  · intro s
    refine ⟨fun i => decide (i ∈ s), ?_⟩
    ext i
    simp [winners]

theorem card_wins_eq (k : ℕ) :
    (Finset.univ.filter fun w : Fin n → Bool => wins w = k).card = n.choose k := by
  have hcard : (Finset.univ.filter fun w : Fin n → Bool => wins w = k).card =
      (Finset.powersetCard k (Finset.univ : Finset (Fin n))).card := by
    refine Finset.card_bijective winners winners_bijective fun w => ?_
    rw [Finset.mem_filter, Finset.mem_powersetCard]
    exact ⟨fun h => ⟨Finset.subset_univ _, h.2⟩, fun h => ⟨Finset.mem_univ w, h.2⟩⟩
  rw [hcard, Finset.card_powersetCard, Finset.card_univ, Fintype.card_fin]

/-- **Upper tail.** It counts the patterns with at least `k` wins. -/
theorem card_wins_ge (k : ℕ) :
    (Finset.univ.filter fun w : Fin n → Bool => k ≤ wins w).card = upperTail n k := by
  have hmaps : ∀ w ∈ Finset.univ.filter (fun w : Fin n → Bool => k ≤ wins w),
      wins w ∈ Finset.Icc k n := by
    intro w hw
    exact Finset.mem_Icc.2 ⟨(Finset.mem_filter.1 hw).2, wins_le w⟩
  rw [Finset.card_eq_sum_card_fiberwise hmaps, upperTail]
  apply Finset.sum_congr rfl
  intro j hj
  rw [← card_wins_eq j, Finset.filter_filter]
  congr 1
  apply Finset.filter_congr
  intro w _
  constructor
  · exact fun h => h.2
  · intro h
    exact ⟨h ▸ (Finset.mem_Icc.1 hj).1, h⟩

/-- **Super-uniformity.** At most `b` patterns have an upper tail of at most `b`. -/
theorem card_tail_le (b : ℕ) :
    (Finset.univ.filter fun w : Fin n → Bool => upperTail n (wins w) ≤ b).card ≤ b := by
  rcases (Finset.univ.filter fun w : Fin n → Bool => upperTail n (wins w) ≤ b).eq_empty_or_nonempty
    with hnone | hsome
  · rw [hnone]
    exact Nat.zero_le _
  · -- among these patterns, one with the fewest wins: its tail counts them all
    obtain ⟨v, hv, hleast⟩ := Finset.exists_min_image _ wins hsome
    have hsub : (Finset.univ.filter fun w : Fin n → Bool => upperTail n (wins w) ≤ b) ⊆
        Finset.univ.filter fun w : Fin n → Bool => wins v ≤ wins w := by
      intro w hw
      exact Finset.mem_filter.2 ⟨Finset.mem_univ w, hleast w hw⟩
    calc (Finset.univ.filter fun w : Fin n → Bool => upperTail n (wins w) ≤ b).card
        ≤ (Finset.univ.filter fun w : Fin n → Bool => wins v ≤ wins w).card :=
          Finset.card_le_card hsub
      _ = upperTail n (wins v) := card_wins_ge _
      _ ≤ b := (Finset.mem_filter.1 hv).2

theorem card_patterns : Fintype.card (Fin n → Bool) = 2 ^ n := by simp

end Lib.SignTest
