/-
Journals: numbered events that alternate between opening and closing, and what a bounded query of
the newest rows still shows of them.

  • `Alternates.snoc`, `Alternates.last`: the next event, and what the last one says of the length.
  • `mem_take_sortedBy`: a row with fewer than `n` rows before it is among the first `n`.
  • `getLast?_newest`: the newest rows end in the last of the rows that satisfy a test, when those are
    kept in the order of their keys.
-/
import CapitalCipher.Lib.SortedLog

namespace Lib

variable {α K : Type}

/-! ## alternation -/

/-- the events are numbered from one, and every other one opens, the first included -/
def Alternates (number : α → ℕ) (opens : α → Prop) (l : List α) : Prop :=
  ∀ i a, l[i]? = some a → number a = i + 1 ∧ (opens a ↔ i % 2 = 0)

section Alternates

variable {number : α → ℕ} {opens : α → Prop} {l : List α} {a : α}

theorem alternates_nil : Alternates number opens [] := by
  intro i a h
  simp at h

theorem Alternates.snoc (h : Alternates number opens l) (hnumber : number a = l.length + 1)
    (hopens : opens a ↔ l.length % 2 = 0) : Alternates number opens (l ++ [a]) := by
  intro i b hb
  rcases lt_trichotomy i l.length with hi | rfl | hi
  · rw [List.getElem?_append_left hi] at hb
    exact h i b hb
  · rw [List.getElem?_append_right le_rfl, Nat.sub_self] at hb
    rw [← Option.some.inj hb]
    exact ⟨hnumber, hopens⟩
  · rw [List.getElem?_eq_none (by simpa using hi)] at hb
    exact absurd hb (by simp)

theorem Alternates.number_le (h : Alternates number opens l) (ha : a ∈ l) :
    number a ≤ l.length := by
  obtain ⟨i, hi, rfl⟩ := List.mem_iff_getElem.1 ha
  have hnumber := (h i l[i] (List.getElem?_eq_getElem hi)).1
  omega

/-- the last event carries the length, and opens exactly when it is odd -/
theorem Alternates.last (h : Alternates number opens l) (ha : l.getLast? = some a) :
    number a = l.length ∧ (opens a ↔ l.length % 2 = 1) := by
  rw [List.getLast?_eq_getElem?] at ha
  have hlt : l.length - 1 < l.length := (List.getElem?_eq_some_iff.1 ha).1
  obtain ⟨hnumber, hopens⟩ := h _ _ ha
  refine ⟨by omega, hopens.trans ?_⟩
  omega

end Alternates

/-! ## the newest rows -/

variable [LinearOrder K] {key : α → K} {rows : List α} {p : α → Bool} {n : ℕ} {a : α}

/-- a row with fewer than `n` rows before it is among the first `n` -/
theorem mem_take_sortedBy (ha : a ∈ rows) (hnd : (rows.map key).Nodup)
    (hn : (rows.countP fun x => decide (key x < key a)) < n) : a ∈ (sortedBy key rows).take n := by
  have hmem : a ∈ sortedBy key rows := (mem_sortedBy key).2 ha
  rw [← List.take_append_drop n (sortedBy key rows), List.mem_append] at hmem
  rcases hmem with hmem | hdrop
  · exact hmem
  -- past the first `n` rows, each of them comes before it
  · exfalso
    have hlen : ((sortedBy key rows).take n).length = n := by
      rw [List.length_take, min_eq_left]
      by_contra hlt
      rw [List.drop_eq_nil_of_le (by omega)] at hdrop
      exact absurd hdrop List.not_mem_nil
    have hsorted := pairwise_sortedBy key rows
    have hnd' : ((sortedBy key rows).map key).Nodup :=
      ((sortedBy_perm key rows).map key).nodup_iff.2 hnd
    rw [← List.take_append_drop n (sortedBy key rows)] at hsorted hnd'
    have hbefore : ∀ x ∈ (sortedBy key rows).take n, key x < key a := by
      intro x hx
      refine lt_of_le_of_ne ((List.pairwise_append.1 hsorted).2.2 x hx a hdrop) fun he => ?_
      rw [List.map_append] at hnd'
      exact (List.disjoint_of_nodup_append hnd') (List.mem_map_of_mem hx)
        (he ▸ List.mem_map_of_mem hdrop)
    have hcount : ((sortedBy key rows).take n).countP (fun x => decide (key x < key a)) = n := by
      rw [List.countP_eq_length.2 fun x hx => decide_eq_true (hbefore x hx), hlen]
    have hle : ((sortedBy key rows).take n).countP (fun x => decide (key x < key a)) ≤
        (sortedBy key rows).countP fun x => decide (key x < key a) :=
      (List.take_sublist n (sortedBy key rows)).countP_le
    rw [hcount, (sortedBy_perm key rows).countP_eq] at hle
    omega

/-- rows kept from the last key to the first are found in reverse -/
theorem filter_sortedBy (hnd : (rows.map key).Nodup)
    (hord : (rows.filter p).Pairwise fun a b => key b < key a) :
    (sortedBy key rows).filter p = (rows.filter p).reverse := by
  have hperm : ((sortedBy key rows).filter p).Perm (rows.filter p).reverse :=
    ((sortedBy_perm key rows).filter p).trans (List.reverse_perm _).symm
  refine List.Perm.eq_of_pairwise ?_ ((pairwise_sortedBy key rows).filter p)
    (List.pairwise_reverse.2 (hord.imp le_of_lt)) hperm
  intro x y hx hy hxy hyx
  have hx' : x ∈ rows := (mem_sortedBy key).1 (List.mem_of_mem_filter hx)
  have hy' : y ∈ rows := List.mem_of_mem_filter (List.mem_reverse.1 hy)
  exact List.inj_on_of_nodup_map hnd hx' hy' (le_antisymm hxy hyx)

/-- the first `n` rows, from the last to the first, end in the last of the rows of a test -/
theorem getLast?_newest (hnd : (rows.map key).Nodup)
    (hord : (rows.filter p).Pairwise fun a b => key b < key a)
    (hn : ∀ a, (rows.filter p).getLast? = some a →
      (rows.countP fun x => decide (key x < key a)) < n) :
    (((sortedBy key rows).take n).reverse.filter p).getLast? = (rows.filter p).getLast? := by
  have hinitial : (((sortedBy key rows).take n).filter p) <+: (rows.filter p).reverse := by
    rw [← filter_sortedBy hnd hord]
    exact (List.take_prefix n _).filter p
  rw [List.filter_reverse, List.getLast?_reverse]
  cases hlast : (rows.filter p).getLast? with
  | none =>
    rw [List.getLast?_eq_none_iff] at hlast
    rw [hlast, List.reverse_nil, List.prefix_nil] at hinitial
    rw [hinitial]
    rfl
  | some a =>
    have hmem := List.mem_of_getLast? hlast
    have hnewest := mem_take_sortedBy (List.mem_of_mem_filter hmem) hnd (hn a hlast)
    have hfound : a ∈ ((sortedBy key rows).take n).filter p :=
      List.mem_filter.2 ⟨hnewest, List.of_mem_filter hmem⟩
    obtain ⟨rest, hrest⟩ := hinitial
    cases hf : ((sortedBy key rows).take n).filter p with
    | nil =>
      rw [hf] at hfound
      exact absurd hfound List.not_mem_nil
    | cons b bs =>
      rw [hf] at hrest
      rw [← List.head?_reverse, ← hrest] at hlast
      exact hlast

end Lib
