/-
Logs read back in key order: rows kept in any order and sorted by a key when they are read.

  • `sortedBy_congr`: the order the rows are kept in does not matter, as long as no key repeats.
  • `sortedBy_cons`: where a new row lands.
-/
import Mathlib.Tactic
import Mathlib.Data.List.Sort

namespace Lib

variable {α β K : Type} [LinearOrder K] (key : α → K)

/-- the rows in the order of their keys -/
def sortedBy (rows : List α) : List α := rows.insertionSort fun a b => key a ≤ key b

@[simp] theorem mem_sortedBy {rows : List α} {a : α} : a ∈ sortedBy key rows ↔ a ∈ rows :=
  List.mem_insertionSort _

theorem sortedBy_perm (rows : List α) : (sortedBy key rows).Perm rows :=
  List.perm_insertionSort _ _

theorem pairwise_sortedBy (rows : List α) :
    (sortedBy key rows).Pairwise fun a b => key a ≤ key b := by
  have htot : Std.Total fun a b : α => key a ≤ key b := ⟨fun a b => le_total (key a) (key b)⟩
  have htrans : IsTrans α fun a b => key a ≤ key b := ⟨fun _ _ _ h h' => le_trans h h'⟩
  exact List.pairwise_insertionSort _ rows

variable {key}

theorem sortedBy_congr {rows rows' : List α} (hnd : (rows.map key).Nodup)
    (h : rows.Perm rows') : sortedBy key rows = sortedBy key rows' := by
  have hperm := ((sortedBy_perm key rows).trans h).trans (sortedBy_perm key rows').symm
  refine List.Perm.eq_of_pairwise ?_ (pairwise_sortedBy key rows) (pairwise_sortedBy key rows') hperm
  intro a b ha hb hab hba
  have ha' : a ∈ rows := (mem_sortedBy key).1 ha
  have hb' : b ∈ rows := h.mem_iff.2 ((mem_sortedBy key).1 hb)
  exact List.inj_on_of_nodup_map hnd ha' hb' (le_antisymm hab hba)

/-- a new row lands between the rows with smaller keys and the others -/
theorem sortedBy_cons (key : α → K) (a : α) (rows : List α) :
    ∃ before after, sortedBy key rows = before ++ after ∧
      sortedBy key (a :: rows) = before ++ a :: after ∧ ∀ b ∈ after, key a ≤ key b := by
  refine ⟨(sortedBy key rows).takeWhile fun b => ¬ key a ≤ key b,
    (sortedBy key rows).dropWhile fun b => ¬ key a ≤ key b,
    (List.takeWhile_append_dropWhile).symm, List.orderedInsert_eq_take_drop _ a _, ?_⟩
  have hp := (pairwise_sortedBy key rows).sublist
    (List.dropWhile_sublist fun b => ¬ key a ≤ key b)
  intro b hb
  cases hd : (sortedBy key rows).dropWhile fun b => ¬ key a ≤ key b with
  | nil =>
    rw [hd] at hb
    exact absurd hb List.not_mem_nil
  | cons c rest =>
    have hc : key a ≤ key c := by
      have := List.head_dropWhile_not (fun b => decide ¬ key a ≤ key b)
        (l := sortedBy key rows) (by rw [hd]; exact List.cons_ne_nil c rest)
      simpa only [hd, List.head_cons, decide_eq_false_iff_not, not_not] using this
    rw [hd] at hb hp
    rcases List.mem_cons.1 hb with rfl | hb
    · exact hc
    · exact le_trans hc (List.rel_of_pairwise_cons hp hb)

end Lib
