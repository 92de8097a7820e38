/-
A queue with room for `n` items: an item that finds no room pushes the oldest one out, so the queue
always holds the newest `n` of all that was ever put into it.

  • `append_newest`, `extend_newest`: the queue against its history.
  • `recent_filter`: of a history in the order of time, what is held and not older than a cutoff is an
    end of that history, and whether an item belongs to it depends on the items after it.
  • `sum_drop_eq_iff`: two ends of a history weigh the same exactly when what only one has weighs
    nothing.
-/
import Mathlib.Tactic

namespace Lib.BoundedQueue

variable {α β : Type}

/-- the newest `n` items -/
def newest (n : ℕ) (items : List α) : List α := items.drop (items.length - n)

/-- the queue after one more item -/
def append (n : ℕ) (queue : List α) (item : α) : List α := newest n (queue ++ [item])

/-- the queue after more items, one after the other -/
def extend (n : ℕ) (queue items : List α) : List α := items.foldl (append n) queue

@[simp] theorem newest_nil (n : ℕ) : newest n ([] : List α) = [] := by simp [newest]

theorem newest_eq_self {n : ℕ} {items : List α} (h : items.length ≤ n) : newest n items = items := by
  rw [newest, Nat.sub_eq_zero_of_le h, List.drop_zero]

theorem newest_cons (n : ℕ) (item : α) (items : List α) :
    newest n (item :: items) = if items.length < n then item :: items else newest n items := by
  split_ifs with h
  · exact newest_eq_self (by simpa using h)
  · have hlen : (item :: items).length - n = items.length - n + 1 := by
      rw [List.length_cons]
      omega
    rw [newest, hlen, List.drop_succ_cons, newest]

theorem newest_map (n : ℕ) (f : α → β) (items : List α) :
    newest n (items.map f) = (newest n items).map f := by
  rw [newest, newest, List.length_map, List.map_drop]

theorem length_newest (n : ℕ) (items : List α) : (newest n items).length = min n items.length := by
  rw [newest, List.length_drop]
  omega

theorem newest_append_singleton (n : ℕ) (history : List α) (item : α) :
    newest (n + 1) (history ++ [item]) = newest n history ++ [item] := by
  have hlen : (history ++ [item]).length - (n + 1) = history.length - n := by
    rw [List.length_append, List.length_singleton]
    omega
  rw [newest, hlen, List.drop_append_of_le_length (Nat.sub_le _ _), newest]

theorem newest_newest (n : ℕ) (history : List α) : newest n (newest (n + 1) history) =
    newest n history := by
  rw [newest, newest, newest, List.length_drop, List.drop_drop]
  congr 1
  omega

theorem append_newest (n : ℕ) (history : List α) (item : α) :
    append n (newest n history) item = newest n (history ++ [item]) := by
  cases n with
  | zero => simp [append, newest]
  | succ n => rw [append, newest_append_singleton, newest_newest, newest_append_singleton]

theorem extend_newest (n : ℕ) (history items : List α) :
    extend n (newest n history) items = newest n (history ++ items) := by
  induction items generalizing history with
  | nil => simp [extend]
  | cons item items ih =>
    rw [extend, List.foldl_cons, append_newest]
    have := ih (history ++ [item])
    rwa [extend, List.append_assoc, List.singleton_append] at this

/-! ## what is recent -/

section Recent

variable {τ : Type} [LinearOrder τ]

/-- what the queue holds and is not older than the cutoff -/
def recent (n : ℕ) (cutoff : τ) (time : α → τ) (history : List α) : List α :=
  (newest n history).filter fun item => decide (cutoff ≤ time item)

/-- what is recent of the listed items is an end of the history: an item belongs to it when fewer
than `n` listed ones follow and it is not older than the cutoff -/
theorem recent_filter (n : ℕ) (cutoff : τ) (time : α → τ) (listed : α → Bool) {history : List α}
    (hsorted : (history.filter listed).Pairwise fun a b => time a ≤ time b) :
    ∃ k, recent n cutoff time (history.filter listed) = (history.drop k).filter listed ∧
      ∀ before item after, history = before ++ item :: after → listed item = true →
        (k ≤ before.length ↔ after.countP listed < n ∧ cutoff ≤ time item) := by
  induction history with
  | nil => exact ⟨0, by simp [recent], by simp⟩
  | cons head rest ih =>
    by_cases hlisted : listed head = true
    · rw [List.filter_cons_of_pos hlisted] at hsorted ⊢
      rw [List.pairwise_cons] at hsorted
      obtain ⟨k, hk, hsplit⟩ := ih hsorted.2
      by_cases hin : rest.countP listed < n ∧ cutoff ≤ time head
      · -- the head is recent, so everything is
        refine ⟨0, ?_, ?_⟩
        · have hlen : (rest.filter listed).length < n := by
            rw [← List.countP_eq_length_filter]
            exact hin.1
          rw [recent, newest_cons, if_pos hlen, List.drop_zero, List.filter_cons_of_pos hlisted,
            List.filter_eq_self]
          intro item hitem
          rcases List.mem_cons.1 hitem with rfl | hitem
          · exact decide_eq_true hin.2
          · exact decide_eq_true (hin.2.trans (hsorted.1 item hitem))
        · intro before item after heq hitem
          refine iff_of_true (Nat.zero_le _) ?_
          cases before with
          | nil =>
            obtain ⟨rfl, rfl⟩ := List.cons_eq_cons.1 heq
            exact hin
          | cons b before =>
            obtain ⟨rfl, rfl⟩ := List.cons_eq_cons.1 heq
            refine ⟨?_, hin.2.trans (hsorted.1 item ?_)⟩
            · have hlt := hin.1
              have hsum : (before ++ item :: after).countP listed =
                  before.countP listed + (item :: after).countP listed := List.countP_append
              have hcons := List.countP_cons_of_pos (l := after) hitem
              change (before ++ item :: after).countP listed < n at hlt
              omega
            · exact List.mem_filter.2 ⟨by simp, hitem⟩
      · refine ⟨k + 1, ?_, ?_⟩
        · rw [List.drop_succ_cons, ← hk, recent, recent, newest_cons]
          split_ifs with hlen
          · rw [← List.countP_eq_length_filter] at hlen
            have hold : ¬ cutoff ≤ time head := fun h => hin ⟨hlen, h⟩
            rw [List.filter_cons_of_neg (by simpa using hold), newest_eq_self]
            rw [← List.countP_eq_length_filter]
            exact hlen.le
          · rfl
        · intro before item after heq hitem
          cases before with
          | nil =>
            obtain ⟨rfl, rfl⟩ := List.cons_eq_cons.1 heq
            exact iff_of_false (by simp) hin
          | cons b before =>
            obtain ⟨rfl, hrest⟩ := List.cons_eq_cons.1 heq
            rw [← hsplit before item after hrest hitem, List.length_cons, Nat.add_le_add_iff_right]
    · rw [List.filter_cons_of_neg hlisted] at hsorted ⊢
      obtain ⟨k, hk, hsplit⟩ := ih hsorted
      refine ⟨k + 1, by rw [hk, List.drop_succ_cons], ?_⟩
      intro before item after heq hitem
      cases before with
      | nil =>
        obtain ⟨rfl, -⟩ := List.cons_eq_cons.1 heq
        exact absurd hitem hlisted
      | cons b before =>
        obtain ⟨rfl, hrest⟩ := List.cons_eq_cons.1 heq
        rw [← hsplit before item after hrest hitem, List.length_cons, Nat.add_le_add_iff_right]

/-- the same when every item is listed -/
theorem recent_eq_drop (n : ℕ) (cutoff : τ) (time : α → τ) {history : List α}
    (hsorted : history.Pairwise fun a b => time a ≤ time b) :
    ∃ k, recent n cutoff time history = history.drop k ∧
      ∀ before item after, history = before ++ item :: after →
        (k ≤ before.length ↔ after.length < n ∧ cutoff ≤ time item) := by
  have hall : (history.filter fun _ => true).Pairwise fun a b => time a ≤ time b := by
    simpa using hsorted
  obtain ⟨k, hk, hsplit⟩ := recent_filter n cutoff time (fun _ => true) hall
  refine ⟨k, by simpa using hk, fun before item after heq => ?_⟩
  simpa using hsplit before item after heq rfl

end Recent

/-! ## what two ends of a history weigh -/

theorem drop_eq_append (items : List α) {i j : ℕ} (h : i ≤ j) :
    items.drop i = (items.drop i).take (j - i) ++ items.drop j := by
  have := List.take_append_drop (j - i) (items.drop i)
  rw [List.drop_drop, Nat.add_sub_cancel' h] at this
  exact this.symm

theorem sum_drop_le (weight : α → ℕ) (items : List α) {i j : ℕ} (h : i ≤ j) :
    ((items.drop j).map weight).sum ≤ ((items.drop i).map weight).sum := by
  rw [drop_eq_append items h, List.map_append, List.sum_append]
  exact Nat.le_add_left _ _

theorem mem_take_drop_iff {items : List α} {i j : ℕ} {item : α} :
    item ∈ (items.drop i).take (j - i) ↔
      ∃ before after, items = before ++ item :: after ∧ i ≤ before.length ∧ before.length < j := by
  rw [List.mem_iff_getElem]
  constructor
  · rintro ⟨k, hk, rfl⟩
    rw [List.length_take, List.length_drop] at hk
    refine ⟨items.take (i + k), items.drop (i + k + 1), ?_, ?_, ?_⟩
    · rw [List.getElem_take, List.getElem_drop, List.cons_getElem_drop_succ, List.take_append_drop]
    · rw [List.length_take]
      omega
    · rw [List.length_take]
      omega
  · rintro ⟨before, after, rfl, hi, hj⟩
    refine ⟨before.length - i, ?_, ?_⟩
    · rw [List.length_take, List.length_drop, List.length_append, List.length_cons]
      omega
    · rw [List.getElem_take, List.getElem_drop]
      simp [Nat.add_sub_cancel' hi]

theorem sum_drop_eq_iff (weight : α → ℕ) (items : List α) {i j : ℕ} (h : i ≤ j) :
    ((items.drop i).map weight).sum = ((items.drop j).map weight).sum ↔
      ∀ before item after, items = before ++ item :: after → i ≤ before.length →
        before.length < j → weight item = 0 := by
  rw [drop_eq_append items h, List.map_append, List.sum_append, Nat.add_eq_right,
    List.sum_eq_zero_iff]
  constructor
  · intro hzero before item after heq hi hj
    exact hzero _ (List.mem_map.2 ⟨item, mem_take_drop_iff.2 ⟨before, after, heq, hi, hj⟩, rfl⟩)
  · intro hzero w hw
    obtain ⟨item, hitem, rfl⟩ := List.mem_map.1 hw
    obtain ⟨before, after, heq, hi, hj⟩ := mem_take_drop_iff.1 hitem
    exact hzero before item after heq hi hj

example : extend 3 [] [1, 2, 3, 4, 5] = [3, 4, 5] := by decide

end Lib.BoundedQueue
