/-
A FIFO lock over numbered tasks: the queue of those who asked for it, its head the holder.

Tasks stand in a list at their own numbers; `holds` says which of them are inside.

  • `Exclusive`: whoever is inside is the head, so at most one task is.
  • `Exclusive.arrive`, `Exclusive.move`, `Exclusive.leave`: a task comes, goes on, and lets go.
-/
import Mathlib.Tactic

namespace Lib

variable {T : Type} {holds : T → Prop} {lock : List ℕ} {tasks : List T}

/-- only the head of the queue is inside -/
def Exclusive (holds : T → Prop) (lock : List ℕ) (tasks : List T) : Prop :=
  ∀ i t, tasks[i]? = some t → holds t → lock.head? = some i

namespace Exclusive

theorem unique (h : Exclusive holds lock tasks) {i j : ℕ} {t u : T} (ht : tasks[i]? = some t)
    (hu : tasks[j]? = some u) (hti : holds t) (huj : holds u) : i = j :=
  Option.some.inj ((h i t ht hti).symm.trans (h j u hu huj))

/-- a task outside the lock -/
theorem append (h : Exclusive holds lock tasks) {t : T} (ht : ¬ holds t) :
    Exclusive holds lock (tasks ++ [t]) := by
  intro i u hu hholds
  rcases lt_or_ge i tasks.length with hi | hi
  · rw [List.getElem?_append_left hi] at hu
    exact h i u hu hholds
  · rw [List.getElem?_append_right hi] at hu
    rw [List.mem_singleton.1 (List.mem_of_getElem? hu)] at hholds
    exact absurd hholds ht

/-- a task that asks for the lock, and is inside at once if it was free -/
theorem arrive (h : Exclusive holds lock tasks) {t : T} (ht : holds t → lock = []) :
    Exclusive holds (lock ++ [tasks.length]) (tasks ++ [t]) := by
  intro i u hu hholds
  rcases lt_or_ge i tasks.length with hi | hi
  · rw [List.getElem?_append_left hi] at hu
    have hhead := h i u hu hholds
    rw [List.head?_append, hhead]
    rfl
  · rw [List.getElem?_append_right hi] at hu
    have hlt := (List.getElem?_eq_some_iff.1 hu).1
    have hzero : i = tasks.length := by simp at hlt; omega
    rw [List.mem_singleton.1 (List.mem_of_getElem? hu)] at hholds
    rw [ht hholds, hzero]
    rfl

/-- a task goes on, inside only if it is the head -/
theorem move (h : Exclusive holds lock tasks) {i : ℕ} {t : T}
    (ht : holds t → lock.head? = some i) : Exclusive holds lock (tasks.set i t) := by
  intro j u hu hholds
  rw [List.getElem?_set] at hu
  split_ifs at hu with hij hlen
  · cases hu
    rw [← hij]
    exact ht hholds
  · exact h j u hu hholds

/-- a task lets go -/
theorem leave (h : Exclusive holds lock tasks) {i : ℕ} {t t' : T} (ht : tasks[i]? = some t)
    (hin : holds t) (hout : ¬ holds t') : Exclusive holds lock.tail (tasks.set i t') := by
  intro j u hu hholds
  rw [List.getElem?_set] at hu
  split_ifs at hu with hij hlen
  · cases hu
    exact absurd hholds hout
  · exact absurd (h.unique ht hu hin hholds) hij

end Exclusive

end Lib
