/-
The first row of a query: among the rows that meet a condition, one with the least key.

A stable sort followed by a search finds the earliest such row; a database without a tie-break may
return any of them.

  • `find?_insertionSort`: the sorted search finds `least?`.
  • `tied_head?`: `least?` is the first of the tied rows; `mem_tied`: they meet the condition.
  • `tied_map_fixed`: rows that do not meet the condition may change.
  • `tied_eq_nil`: none is found exactly when no row meets the condition.
-/
import Mathlib.Tactic

namespace Lib

variable {α κ : Type} [LinearOrder κ] (p : α → Bool) (key : α → κ)

/-- the earliest element with the least key, among those that meet `p` -/
def least? : List α → Option α
  | [] => none
  | a :: l =>
    if p a then
      match least? l with
      | some b => if key a ≤ key b then some a else some b
      | none => some a
    else least? l

/-- the elements that tie with the least one -/
def tied (l : List α) : List α :=
  match least? p key l with
  | none => []
  | some a => l.filter fun b => p b && decide (key b = key a)

variable {p key}

theorem find?_orderedInsert {a : α} {s : List α} (hs : s.Pairwise fun x y => key x ≤ key y) :
    (s.orderedInsert (fun x y => key x ≤ key y) a).find? p =
      if p a then
        match s.find? p with
        | some b => if key a ≤ key b then some a else some b
        | none => some a
      else s.find? p := by
  induction s with
  | nil => cases h : p a <;> simp [h]
  | cons b s ih =>
    rw [List.pairwise_cons] at hs
    by_cases hab : key a ≤ key b
    · rw [List.orderedInsert_cons, if_pos hab]
      cases ha : p a with
      | false => simp [ha]
      | true =>
        rw [List.find?_cons_of_pos ha, if_pos rfl]
        cases hc : (b :: s).find? p with
        | none => rfl
        | some c =>
          have hbc : key b ≤ key c := by
            rcases List.mem_cons.1 (List.mem_of_find?_eq_some hc) with rfl | hmem
            · exact le_rfl
            · exact hs.1 c hmem
          dsimp only
          rw [if_pos (hab.trans hbc)]
    · rw [List.orderedInsert_cons, if_neg hab]
      cases hb : p b with
      | true =>
        rw [List.find?_cons_of_pos hb, List.find?_cons_of_pos hb]
        simp only [if_neg hab]
        split_ifs <;> rfl
      | false =>
        have hb' : ¬ p b = true := by simp [hb]
        rw [List.find?_cons_of_neg hb', List.find?_cons_of_neg hb', ih hs.2]

/-- a stable sort and a search find the least element -/
theorem find?_insertionSort (l : List α) :
    (l.insertionSort fun x y => key x ≤ key y).find? p = least? p key l := by
  induction l with
  | nil => rfl
  | cons a l ih =>
    have hsorted : (l.insertionSort fun x y => key x ≤ key y).Pairwise fun x y => key x ≤ key y :=
      List.pairwise_insertionSort (fun x y => key x ≤ key y) l
    rw [List.insertionSort_cons, find?_orderedInsert hsorted, ih, least?]

theorem least?_some {l : List α} {a : α} (h : least? p key l = some a) : a ∈ l ∧ p a = true := by
  induction l with
  | nil => cases h
  | cons b l ih =>
    rw [least?] at h
    split_ifs at h with hb
    · cases hl : least? p key l with
      | none =>
        rw [hl] at h
        cases h
        exact ⟨by simp, hb⟩
      | some c =>
        rw [hl] at h
        dsimp only at h
        split_ifs at h with hbc
        · cases h
          exact ⟨by simp, hb⟩
        · cases h
          exact ⟨List.mem_cons_of_mem b (ih hl).1, (ih hl).2⟩
    · exact ⟨List.mem_cons_of_mem b (ih h).1, (ih h).2⟩

theorem mem_tied {l : List α} {b : α} (h : b ∈ tied p key l) : b ∈ l ∧ p b = true := by
  unfold tied at h
  split at h
  · cases h
  · rw [List.mem_filter, Bool.and_eq_true] at h
    exact ⟨h.1, h.2.1⟩

theorem least?_eq_none {l : List α} : least? p key l = none ↔ ∀ a ∈ l, ¬ p a = true := by
  induction l with
  | nil => simp [least?]
  | cons a l ih =>
    rw [least?, List.forall_mem_cons, ← ih]
    by_cases ha : p a = true
    · simp only [ha, if_true, not_true_eq_false, false_and, iff_false]
      split
      · split_ifs <;> simp
      · simp
    · simp [ha]

/-- the least element comes first among those it ties with -/
theorem tied_head? (l : List α) : (tied p key l).head? = least? p key l := by
  induction l with
  | nil => rfl
  | cons a l ih =>
    unfold tied at ih ⊢
    rw [least?]
    cases ha : p a with
    | false =>
      simp only [Bool.false_eq_true, if_false]
      cases hl : least? p key l with
      | none => rfl
      | some b =>
        rw [hl] at ih
        simpa [ha] using ih
    | true =>
      simp only [if_true]
      cases hl : least? p key l with
      | none => simp [ha]
      | some b =>
        rw [hl] at ih
        dsimp only at ih ⊢
        by_cases hab : key a ≤ key b
        · rw [if_pos hab]
          simp [ha]
        · rw [if_neg hab]
          have hne : key a ≠ key b := fun h => hab h.le
          simpa [ha, hne] using ih

theorem tied_eq_nil {l : List α} : tied p key l = [] ↔ ∀ a ∈ l, ¬ p a = true := by
  rw [← List.head?_eq_none_iff, tied_head?, least?_eq_none]

theorem least?_congr {p' : α → Bool} {key' : α → κ} {l : List α} (hp : ∀ a ∈ l, p a = p' a)
    (h : ∀ a ∈ l, p a = true → key a = key' a) : least? p key l = least? p' key' l := by
  induction l with
  | nil => rfl
  | cons a l ih =>
    rw [least?, least?, ← hp a (by simp), ih (fun b hb => hp b (List.mem_cons_of_mem a hb))
      fun b hb => h b (List.mem_cons_of_mem a hb)]
    by_cases ha : p a = true
    · rw [if_pos ha, if_pos ha]
      cases hl : least? p' key' l with
      | none => rfl
      | some b =>
        obtain ⟨hb, hpb⟩ := least?_some hl
        rw [← hp b (List.mem_cons_of_mem a hb)] at hpb
        dsimp only
        rw [h a (by simp) ha, h b (List.mem_cons_of_mem a hb) hpb]
    · rw [if_neg ha, if_neg ha]

/-- only the condition, and the keys of the elements that meet it, matter -/
theorem tied_congr {p' : α → Bool} {key' : α → κ} {l : List α} (hp : ∀ a ∈ l, p a = p' a)
    (h : ∀ a ∈ l, p a = true → key a = key' a) : tied p key l = tied p' key' l := by
  unfold tied
  rw [least?_congr hp h]
  cases hl : least? p' key' l with
  | none => rfl
  | some a =>
    obtain ⟨ha, hpa⟩ := least?_some hl
    rw [← hp a ha] at hpa
    refine List.filter_congr fun b hb => ?_
    cases hpb : p b with
    | false => rw [← hp b hb, hpb]; rfl
    | true => rw [← hp b hb, hpb, h a ha hpa, h b hb hpb]

theorem least?_map {β : Type} (f : β → α) (l : List β) :
    least? p key (l.map f) = (least? (p ∘ f) (key ∘ f) l).map f := by
  induction l with
  | nil => rfl
  | cons a l ih =>
    rw [List.map_cons, least?, least?, ih]
    simp only [Function.comp_apply]
    cases p (f a) with
    | false => rfl
    | true =>
      simp only [if_true]
      cases least? (p ∘ f) (key ∘ f) l with
      | none => rfl
      | some b =>
        simp only [Option.map_some]
        split_ifs <;> rfl

theorem tied_map {β : Type} (f : β → α) (l : List β) :
    tied p key (l.map f) = (tied (p ∘ f) (key ∘ f) l).map f := by
  unfold tied
  rw [least?_map]
  cases least? (p ∘ f) (key ∘ f) l with
  | none => rfl
  | some a => simp [List.filter_map, Function.comp_def]

/-- a map that leaves the elements that meet the condition alone, and makes no other meet it -/
theorem tied_map_fixed {f : α → α} {l : List α} (hp : ∀ a ∈ l, p (f a) = p a)
    (hf : ∀ a ∈ l, p a = true → f a = a) : tied p key (l.map f) = tied p key l := by
  have hkey : tied (p ∘ f) (key ∘ f) l = tied p key l := by
    refine tied_congr hp fun a ha hpa => ?_
    rw [Function.comp_apply, hf a ha (by rw [← hp a ha]; exact hpa)]
  rw [tied_map, hkey]
  conv_rhs => rw [← List.map_id (tied p key l)]
  refine List.map_congr_left fun a ha => ?_
  obtain ⟨hmem, hpa⟩ := mem_tied ha
  exact hf a hmem hpa

end Lib
