/-
Records of a history: the items whose key is above the keys of all items before them.

A history lists its latest item first; its records are listed in the order they were set.

  • `records_strict`: the keys of the records increase.
  • `le_last_record`: no key of the history is above the key of the latest record.
  • `record_iff`: an item sets a record exactly when its key is above that of the latest record.
-/
import Mathlib.Tactic

namespace Lib

variable {α K : Type} [LinearOrder K] (key : α → K)

def records : List α → List α
  | [] => []
  | a :: older => if ∀ b ∈ older, key b < key a then records older ++ [a] else records older

variable {key}

theorem mem_of_mem_records {history : List α} {a : α} (h : a ∈ records key history) : a ∈ history := by
  induction history with
  | nil => exact h
  | cons b older ih =>
    rw [records] at h
    split_ifs at h
    · rcases List.mem_append.1 h with h | h
      · exact List.mem_cons_of_mem b (ih h)
      · rw [List.mem_singleton.1 h]
        exact List.mem_cons_self
    · exact List.mem_cons_of_mem b (ih h)

theorem records_strict (history : List α) :
    (records key history).Pairwise fun a b => key a < key b := by
  induction history with
  | nil => exact List.Pairwise.nil
  | cons b older ih =>
    rw [records]
    split_ifs with hrecord
    · apply List.pairwise_append.2
      refine ⟨ih, List.pairwise_singleton _ _, fun a ha c hc => ?_⟩
      rw [List.mem_singleton.1 hc]
      exact hrecord a (mem_of_mem_records ha)
    · exact ih

/-- the latest record is the top of the history -/
theorem le_last_record {history : List α} {last : α} (h : (records key history).getLast? = some last) :
    ∀ b ∈ history, key b ≤ key last := by
  induction history generalizing last with
  | nil => simp
  | cons b older ih =>
    intro c hc
    rw [records] at h
    split_ifs at h with hrecord
    · rw [List.getLast?_append_of_ne_nil _ (List.cons_ne_nil b [])] at h
      obtain rfl : b = last := by simpa using h
      rcases List.mem_cons.1 hc with rfl | hc
      · exact le_refl _
      · exact (hrecord c hc).le
    · rcases List.mem_cons.1 hc with rfl | hc
      · push Not at hrecord
        obtain ⟨d, hd, hle⟩ := hrecord
        exact hle.trans (ih h d hd)
      · exact ih h c hc

theorem records_eq_nil {history : List α} : records key history = [] ↔ history = [] := by
  refine ⟨fun h => ?_, fun h => by rw [h, records]⟩
  induction history with
  | nil => rfl
  | cons b older ih =>
    rw [records] at h
    split_ifs at h with hrecord
    · simp at h
    · rw [ih h] at hrecord
      simp at hrecord

theorem record_iff {history : List α} {last : α} (h : (records key history).getLast? = some last)
    (a : α) : (∀ b ∈ history, key b < key a) ↔ key last < key a := by
  refine ⟨fun hall => ?_, fun hlt b hb => (le_last_record h b hb).trans_lt hlt⟩
  exact hall last (mem_of_mem_records (List.mem_of_getLast? h))

end Lib
