/-
Order statistics of a list, with ties: the entry of a rank, the mean of the entries from one on, and
how both move with the list.

  • `succ_le_countP_ranked`, `ranked_le`: the entry of rank `i` is the least one that `i + 1` entries
    do not exceed.
  • `ranked_mono`: larger entries have larger ranks.
  • `tailMean_mul`, `countP_mul`: a positive factor goes through.
  • `ranked_perm`, `tailMean_perm`: the order of the entries is irrelevant.
-/
import Mathlib.Tactic
import Mathlib.Data.List.Sort

namespace Lib.Quantile

/-! ## ranks -/

section Rank

variable {α : Type} [LinearOrder α] {l : List α} {i : ℕ} {d : α}

theorem succ_le_countP_of_pairwise (hs : l.Pairwise (· ≤ ·)) (hi : i < l.length) :
    i + 1 ≤ l.countP fun x => x ≤ l[i] := by
  have htake : ∀ x ∈ l.take (i + 1), x ≤ l[i] := by
    intro x hx
    obtain ⟨j, hj, rfl⟩ := List.mem_take_iff_getElem.1 hx
    rcases Nat.lt_or_ge j i with hlt | hge
    · exact List.pairwise_iff_getElem.1 hs j i _ hi hlt
    · have hji : j = i := by omega
      subst hji
      exact le_rfl
  have hall : (l.take (i + 1)).countP (fun x => x ≤ l[i]) = (l.take (i + 1)).length := by
    rw [List.countP_eq_length]
    simpa using htake
  have hle := (List.take_sublist (i + 1) l).countP_le (p := fun x => decide (x ≤ l[i]))
  rw [hall, List.length_take] at hle
  omega

theorem getElem_le_of_succ_le_countP (hs : l.Pairwise (· ≤ ·)) (hi : i < l.length) {w : α}
    (hw : i + 1 ≤ l.countP fun x => x ≤ w) : l[i] ≤ w := by
  by_contra hlt
  -- the entries from `i` on are all beyond `w`
  have hdrop : (l.drop i).countP (fun x => x ≤ w) = 0 := by
    rw [List.countP_eq_zero]
    intro x hx
    obtain ⟨j, hj, rfl⟩ := List.mem_drop_iff_getElem.1 hx
    have hle : l[i] ≤ l[i + j] := by
      rcases Nat.eq_zero_or_pos j with rfl | hpos
      · exact le_rfl
      · exact List.pairwise_iff_getElem.1 hs i (i + j) hi _ (by omega)
    simpa using (not_le.1 hlt).trans_le hle
  have htake := List.countP_le_length (p := fun x => x ≤ w) (l := l.take i)
  rw [← List.take_append_drop i l, List.countP_append, hdrop] at hw
  rw [List.length_take] at htake
  omega

/-- the entry of rank `i`, counted from 0, in increasing order -/
def ranked (l : List α) (i : ℕ) (d : α) : α := (l.insertionSort (· ≤ ·)).getD i d

theorem ranked_eq (hi : i < l.length) :
    ∃ h : i < (l.insertionSort (· ≤ ·)).length, ranked l i d = (l.insertionSort (· ≤ ·))[i] := by
  have h : i < (l.insertionSort (· ≤ ·)).length := by rwa [List.length_insertionSort]
  refine ⟨h, ?_⟩
  rw [ranked, List.getD_eq_getElem?_getD, List.getElem?_eq_getElem h, Option.getD_some]

theorem ranked_mem (hi : i < l.length) : ranked l i d ∈ l := by
  obtain ⟨h, heq⟩ := ranked_eq (d := d) hi
  rw [heq]
  exact (List.perm_insertionSort _ l).mem_iff.1 (List.getElem_mem _)

theorem succ_le_countP_ranked (hi : i < l.length) :
    i + 1 ≤ l.countP fun x => x ≤ ranked l i d := by
  obtain ⟨h, heq⟩ := ranked_eq (d := d) hi
  rw [heq, ← (List.perm_insertionSort (· ≤ ·) l).countP_eq]
  exact succ_le_countP_of_pairwise (List.pairwise_insertionSort _ l) h

theorem ranked_le (hi : i < l.length) {w : α} (hw : i + 1 ≤ l.countP fun x => x ≤ w) :
    ranked l i d ≤ w := by
  obtain ⟨h, heq⟩ := ranked_eq (d := d) hi
  rw [heq]
  rw [← (List.perm_insertionSort (· ≤ ·) l).countP_eq] at hw
  exact getElem_le_of_succ_le_countP (List.pairwise_insertionSort _ l) h hw

/-- entries that are pointwise no smaller have ranks that are no smaller -/
theorem ranked_mono {l' : List α} (h : List.Forall₂ (· ≤ ·) l l') (i : ℕ) (d : α) :
    ranked l i d ≤ ranked l' i d := by
  have hcount : ∀ w : α, l'.countP (fun x => x ≤ w) ≤ l.countP fun x => x ≤ w := by
    intro w
    induction h with
    | nil => exact le_rfl
    | cons hab _ ih =>
      rw [List.countP_cons, List.countP_cons]
      refine add_le_add ih ?_
      simp only [decide_eq_true_eq]
      split_ifs with hb ha
      · exact le_rfl
      · exact absurd (hab.trans hb) ha
      · exact Nat.zero_le _
      · exact le_rfl
  by_cases hi : i < l.length
  · have hi' : i < l'.length := h.length_eq ▸ hi
    exact ranked_le hi ((succ_le_countP_ranked hi').trans (hcount _))
  · have hout : ∀ m : List α, ¬ i < m.length → ranked m i d = d := by
      intro m hm
      have hnone : (m.insertionSort (· ≤ ·)).length ≤ i := by
        rw [List.length_insertionSort]
        exact not_lt.1 hm
      rw [ranked, List.getD_eq_getElem?_getD, List.getElem?_eq_none hnone, Option.getD_none]
    rw [hout l hi, hout l' (h.length_eq ▸ hi)]

theorem insertionSort_perm {l' : List α} (h : l.Perm l') :
    l.insertionSort (· ≤ ·) = l'.insertionSort (· ≤ ·) :=
  ((List.perm_insertionSort _ l).trans (h.trans (List.perm_insertionSort _ l').symm)).eq_of_pairwise
    (fun _ _ _ _ => le_antisymm) (List.pairwise_insertionSort _ l) (List.pairwise_insertionSort _ l')

theorem ranked_perm {l' : List α} (h : l.Perm l') : ranked l i d = ranked l' i d := by
  rw [ranked, ranked, insertionSort_perm h]

end Rank

/-! ## the mean of a tail -/

section Tail

variable {α : Type} [Field α] [LinearOrder α] {l : List α} {v : α}

/-- the entries at or beyond a value -/
def tail (l : List α) (v : α) : List α := l.filter fun x => v ≤ x

/-- their mean -/
def tailMean (l : List α) (v : α) : α := (tail l v).sum / (tail l v).length

theorem tailMean_perm {l' : List α} (h : l.Perm l') : tailMean l v = tailMean l' v := by
  have htail : (tail l v).Perm (tail l' v) := h.filter _
  rw [tailMean, tailMean, htail.sum_eq, htail.length_eq]

variable [IsStrictOrderedRing α]

theorem le_tailMean (hv : v ∈ l) : v ≤ tailMean l v := by
  have hmem : v ∈ tail l v := List.mem_filter.2 ⟨hv, by simp⟩
  have hlength : (0 : α) < (tail l v).length := Nat.cast_pos.2 (List.length_pos_of_mem hmem)
  have hsum : (tail l v).length • v ≤ (tail l v).sum :=
    List.card_nsmul_le_sum _ _ fun x hx => by simpa using (List.mem_filter.1 hx).2
  rw [tailMean, le_div_iff₀ hlength, mul_comm]
  rwa [nsmul_eq_mul] at hsum

variable {k : α}

theorem tail_mul (hk : 0 < k) : tail (l.map (k * ·)) (k * v) = (tail l v).map (k * ·) := by
  rw [tail, tail, List.filter_map]
  congr 1
  apply List.filter_congr
  intro x _
  simp [mul_le_mul_iff_right₀ hk]

theorem tailMean_mul (hk : 0 < k) : tailMean (l.map (k * ·)) (k * v) = k * tailMean l v := by
  rw [tailMean, tail_mul hk, List.sum_map_mul_left, List.length_map, List.map_id', mul_div_assoc,
    tailMean]

theorem countP_mul (hk : 0 < k) :
    (l.map (k * ·)).countP (fun x => x ≤ k * v) = l.countP fun x => x ≤ v := by
  rw [List.countP_map]
  apply List.countP_congr
  intro x _
  simp [mul_le_mul_iff_right₀ hk]

end Tail

end Lib.Quantile
