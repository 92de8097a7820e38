/-
Neighbours: the pairs of elements that stand next to each other in a list.

  • `exists_neighbours_around`: a value a list steps over lies between two neighbours.
  • `neighbours_lt`: neighbours of a strictly sorted list are in order.
-/
import Mathlib.Tactic

namespace Lib

variable {α : Type}

/-- `zip(l, l[1:])` -/
def neighbours (l : List α) : List (α × α) := l.zip l.tail

@[simp] theorem neighbours_nil : neighbours ([] : List α) = [] := rfl

@[simp] theorem neighbours_singleton (a : α) : neighbours [a] = [] := rfl

@[simp] theorem neighbours_cons_cons (a b : α) (l : List α) :
    neighbours (a :: b :: l) = (a, b) :: neighbours (b :: l) := rfl

theorem mem_of_mem_neighbours {l : List α} {p : α × α} (h : p ∈ neighbours l) :
    p.1 ∈ l ∧ p.2 ∈ l := by
  obtain ⟨a, b⟩ := p
  have hz := List.of_mem_zip h
  exact ⟨hz.1, List.mem_of_mem_tail hz.2⟩

variable [LinearOrder α]

/-- a list that starts below `t`, ends above it and never stops at it steps over it -/
theorem exists_neighbours_around {a : α} {l : List α} {t : α} (ha : a < t) (ht : t ∉ a :: l)
    (hl : ∃ z ∈ a :: l, t < z) : ∃ p ∈ neighbours (a :: l), p.1 < t ∧ t < p.2 := by
  induction l generalizing a with
  | nil =>
    obtain ⟨z, hz, htz⟩ := hl
    rw [List.mem_singleton] at hz
    exact absurd (hz ▸ htz) (not_lt.2 ha.le)
  | cons b l ih =>
    rcases lt_trichotomy b t with hb | hb | hb
    · have hl' : ∃ z ∈ b :: l, t < z := by
        obtain ⟨z, hz, htz⟩ := hl
        rcases List.mem_cons.1 hz with rfl | hz
        · exact absurd htz (not_lt.2 ha.le)
        · exact ⟨z, hz, htz⟩
      obtain ⟨p, hp, h⟩ := ih hb (fun h => ht (List.mem_cons_of_mem a h)) hl'
      exact ⟨p, by simp [hp], h⟩
    · exact absurd (by simp [hb]) ht
    · exact ⟨(a, b), by simp, ha, hb⟩

theorem neighbours_lt {l : List α} (h : l.Pairwise (· < ·)) {p : α × α} (hp : p ∈ neighbours l) :
    p.1 < p.2 := by
  induction l with
  | nil => simp at hp
  | cons a l ih =>
    rw [List.pairwise_cons] at h
    cases l with
    | nil => simp at hp
    | cons b l =>
      rw [neighbours_cons_cons, List.mem_cons] at hp
      rcases hp with rfl | hp
      · exact h.1 b (by simp)
      · exact ih h.2 hp

end Lib
