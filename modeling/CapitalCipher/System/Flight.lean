/-
What the tasks of a process hold in flight: replies that were received and not acted on yet.

  • `flight`: what a measure `f` of replies finds among the tasks of a process.
  • `flight_segment`: a segment takes its own reply out of flight and puts nothing in.
  • `flight_replied`, `perm_replied`: a reply enters the flight of its own process.
  • `flight_crash`: a crash loses the flight of its process.
-/
import CapitalCipher.System.Steps

namespace CapitalCipher

open Lib Coro World

variable {cfg : Config} {α : Type}

/-- what a task of the process holds -/
def Task.holds (f : Trigger → Option α) (node : ℕ) (t : Task) : Option α :=
  if t.node = node then
    match t.state with
    | .replied q r _ => f (.reply q r)
    | _ => none
  else none

def flight (f : Trigger → Option α) (w : World) (node : ℕ) : List α :=
  w.tasks.filterMap (Task.holds f node)

theorem mem_flight {f : Trigger → Option α} {w : World} {n : ℕ} {a : α} :
    a ∈ flight f w n ↔ ∃ t ∈ w.tasks, t.holds f n = some a := List.mem_filterMap

theorem holds_node {f : Trigger → Option α} {n : ℕ} {t : Task} {a : α} (h : t.holds f n = some a) :
    t.node = n := by
  unfold Task.holds at h
  split_ifs at h with hn
  exact hn

@[simp] theorem holds_ne {f : Trigger → Option α} {n : ℕ} {t : Task} (h : t.node ≠ n) :
    t.holds f n = none := if_neg h

@[simp] theorem holds_replied {f : Trigger → Option α} {n g : ℕ} {q : Request}
    {r : Except Error q.Reply} {k : Except Error q.Reply → Program Unit} :
    (⟨n, .replied q r k, g⟩ : Task).holds f n = f (.reply q r) := if_pos rfl

@[simp] theorem holds_waiting {f : Trigger → Option α} {n n' g : ℕ} {q : Request}
    {k : Except Error q.Reply → Program Unit} :
    (⟨n', .waiting q k, g⟩ : Task).holds f n = none := by
  unfold Task.holds
  split_ifs <;> rfl

@[simp] theorem holds_paused {f : Trigger → Option α} {w : World} {n n' g : ℕ}
    {p : Paused Memory Error Request.Reply Unit} : (w.paused n' g p).holds f n = none := by
  unfold Task.holds World.paused
  cases p <;> split_ifs <;> rfl

variable {f : Trigger → Option α} {w w' : World} {pre old post : List Task} {node g n : ℕ}

theorem Begins.holds {op : Op} {c : Trigger} (h : Begins w op old node g c) (hf : f .start = none) :
    old.filterMap (Task.holds f node) = (f c).toList ∧
      (n ≠ node → old.filterMap (Task.holds f n) = []) := by
  cases h with
  | start => exact ⟨by rw [hf]; rfl, fun _ => rfl⟩
  | resume hi =>
    constructor
    · rw [List.filterMap_cons, holds_replied]
      cases f _ <;> rfl
    · intro hn
      rw [List.filterMap_cons, holds_ne (Ne.symm hn)]
      rfl

/-- a segment acts on its own reply -/
theorem flight_segment {op : Op} {c : Trigger} {p : Paused Memory Error Request.Reply Unit}
    (hb : Begins w op old node g c) (ht : w.tasks = pre ++ old ++ post)
    (ht' : w'.tasks = pre ++ w.paused node g p :: post) (hf : f .start = none) :
    (∃ before after, flight f w node = before ++ ((f c).toList ++ after) ∧
      flight f w' node = before ++ after) ∧ ∀ n ≠ node, flight f w' n = flight f w n := by
  refine ⟨⟨pre.filterMap (Task.holds f node), post.filterMap (Task.holds f node), ?_, ?_⟩, ?_⟩
  · rw [flight, ht, List.filterMap_append, List.filterMap_append, (hb.holds (n := node) hf).1,
      List.append_assoc]
  · simp [flight, ht']
  · intro n hn
    rw [flight, flight, ht, ht', List.filterMap_append, List.filterMap_append,
      List.filterMap_append, (hb.holds hf).2 hn]
    simp

/-- a reply enters the flight of its process -/
theorem flight_replied {q : Request} {r : Except Error q.Reply}
    {k : Except Error q.Reply → Program Unit}
    (ht : w.tasks = pre ++ [⟨node, .waiting q k, g⟩] ++ post)
    (ht' : w'.tasks = pre ++ ⟨node, .replied q r k, g⟩ :: post) :
    (∃ before after, flight f w node = before ++ after ∧
      flight f w' node = before ++ ((f (.reply q r)).toList ++ after)) ∧
      ∀ n ≠ node, flight f w' n = flight f w n := by
  refine ⟨⟨pre.filterMap (Task.holds f node), post.filterMap (Task.holds f node), ?_, ?_⟩, ?_⟩
  · simp [flight, ht]
  · rw [flight, ht', List.filterMap_append, List.filterMap_cons, holds_replied]
    cases f _ <;> rfl
  · intro n hn
    have hne : (⟨node, .replied q r k, g⟩ : Task).holds f n = none := holds_ne (Ne.symm hn)
    simp [flight, ht, ht', hne]

/-- what is in memory and in flight gains the reply -/
theorem perm_replied {q : Request} {r : Except Error q.Reply}
    {k : Except Error q.Reply → Program Unit} (memory : ℕ → List α)
    (ht : w.tasks = pre ++ [⟨node, .waiting q k, g⟩] ++ post)
    (ht' : w'.tasks = pre ++ ⟨node, .replied q r k, g⟩ :: post) :
    (memory node ++ flight f w' node).Perm
        ((f (.reply q r)).toList ++ (memory node ++ flight f w node)) ∧
      ∀ n ≠ node, memory n ++ flight f w' n = memory n ++ flight f w n := by
  obtain ⟨⟨before, after, hold, hnew⟩, hother⟩ := flight_replied ht ht' (f := f)
  constructor
  · rw [hold, hnew, ← List.append_assoc _ before, ← List.append_assoc _ before]
    exact List.perm_append_comm_assoc _ _ _
  · intro n hn
    rw [hother n hn]

theorem killed_node {t : Task} : (Task.killed node t).node = t.node := by
  unfold Task.killed
  split
  · rfl
  · split_ifs <;> rfl

theorem killed_holds {t : Task} :
    (Task.killed node t).holds f n = if n = node then none else t.holds f n := by
  unfold Task.killed Task.holds
  rcases t with ⟨n', q | ⟨q, r, k⟩ | r, g⟩ <;> dsimp only <;> split_ifs <;> simp_all

/-- a crash loses the flight of its process -/
theorem flight_crash (ht' : w'.tasks = w.tasks.map (Task.killed node)) (n : ℕ) :
    flight f w' n = if n = node then [] else flight f w n := by
  rw [flight, ht', List.filterMap_map]
  have hcomp : (Task.holds f n ∘ Task.killed node) =
      fun t => if n = node then none else t.holds f n := funext fun t => killed_holds
  rw [hcomp]
  split_ifs
  · simp
  · rfl

end CapitalCipher
