/-
Total correctness of computations in `Except`: a computation returns, and its value has a property.

  • `Returns.bind`, `Returns.imp`, `Returns.map`: the rules of sequence and consequence.
  • `Returns.mapM`: a map whose every step returns.
-/
import CapitalCipher.Lib.Result

namespace Lib

variable {E α β : Type}

/-- the computation returns a value with the property -/
def Returns (x : Except E α) (P : α → Prop) : Prop := ∃ a, x = .ok a ∧ P a

namespace Returns

variable {x : Except E α} {f : α → Except E β} {P Q : α → Prop} {R : β → Prop} {a : α}

theorem ok (h : P a) : Returns (.ok a : Except E α) P := ⟨a, rfl, h⟩

theorem imp (h : Returns x P) (hpq : ∀ a, P a → Q a) : Returns x Q := by
  obtain ⟨a, ha, hp⟩ := h
  exact ⟨a, ha, hpq a hp⟩

theorem bind (h : Returns x P) (hf : ∀ a, P a → Returns (f a) R) : Returns (x >>= f) R := by
  obtain ⟨a, rfl, hp⟩ := h
  exact hf a hp

theorem map {g : α → β} (h : Returns x P) (hg : ∀ a, P a → R (g a)) : Returns (x.map g) R := by
  obtain ⟨a, rfl, hp⟩ := h
  exact ⟨g a, rfl, hg a hp⟩

/-- one branch or the other -/
theorem ite {p : Prop} [Decidable p] {y : Except E α} (hpos : p → Returns x P)
    (hneg : ¬ p → Returns y P) : Returns (if p then x else y) P := by
  split_ifs with h
  · exact hpos h
  · exact hneg h

theorem mapM {l : List α} {S : α → β → Prop} (h : ∀ a ∈ l, Returns (f a) (S a)) :
    Returns (l.mapM f) fun bs => List.Forall₂ S l bs := Result.mapM_exists h

/-- any value will do -/
theorem any (h : Returns x P) : Returns x fun _ => True := h.imp fun _ _ => trivial

end Returns

end Lib
