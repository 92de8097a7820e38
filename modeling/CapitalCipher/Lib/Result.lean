/-
Results: inverting what a computation in `Except` did when it succeeded.

  • `bind_ok`: both steps of a sequence succeeded.
  • `mapM_ok`, `mapM_exists`: a map whose every step succeeds; `mapM_forall₂`: one that succeeded.
  • `forall₂_mem`: where a result comes from; `pairwise_of_forall₂`: an order the results inherit.
-/
import Mathlib.Tactic

namespace Lib.Result

variable {E α β : Type}

theorem bind_ok {x : Except E α} {f : α → Except E β} {b : β} :
    (x >>= f) = .ok b ↔ ∃ a, x = .ok a ∧ f a = .ok b := by
  cases x with
  | error e => simp [bind, Except.bind]
  | ok a => simp [bind, Except.bind]

theorem pure_ok {a b : α} : (pure a : Except E α) = .ok b ↔ a = b := by
  simp [pure, Except.pure]

theorem mapM_ok {f : α → Except E β} {g : α → β} {l : List α} (h : ∀ a ∈ l, f a = .ok (g a)) :
    l.mapM f = .ok (l.map g) := by
  induction l with
  | nil => rfl
  | cons a l ih =>
    rw [List.mapM_cons, h a (by simp), ih fun b hb => h b (List.mem_cons_of_mem a hb)]
    rfl

/-- what a map that succeeded did, item by item -/
theorem mapM_forall₂ {f : α → Except E β} {l : List α} {bs : List β} (h : l.mapM f = .ok bs) :
    List.Forall₂ (fun a b => f a = .ok b) l bs := by
  induction l generalizing bs with
  | nil =>
    rw [List.mapM_nil] at h
    rw [← pure_ok.1 h]
    exact .nil
  | cons a l ih =>
    rw [List.mapM_cons] at h
    obtain ⟨b, hb, hrest⟩ := bind_ok.1 h
    obtain ⟨bs', hbs, hcons⟩ := bind_ok.1 hrest
    rw [← pure_ok.1 hcons]
    exact .cons hb (ih hbs)

/-- a map whose every step succeeds with a related result -/
theorem mapM_exists {f : α → Except E β} {R : α → β → Prop} {l : List α}
    (h : ∀ a ∈ l, ∃ b, f a = .ok b ∧ R a b) : ∃ bs, l.mapM f = .ok bs ∧ List.Forall₂ R l bs := by
  induction l with
  | nil => exact ⟨[], rfl, .nil⟩
  | cons a l ih =>
    obtain ⟨b, hb, hR⟩ := h a List.mem_cons_self
    obtain ⟨bs, hbs, hall⟩ := ih fun x hx => h x (List.mem_cons_of_mem a hx)
    refine ⟨b :: bs, ?_, .cons hR hall⟩
    rw [List.mapM_cons, hb, hbs]
    rfl

theorem forall₂_mem {R : α → β → Prop} {l : List α} {bs : List β} (h : List.Forall₂ R l bs) {b : β}
    (hb : b ∈ bs) : ∃ a ∈ l, R a b := by
  induction h with
  | nil => exact absurd hb List.not_mem_nil
  | cons hab _ ih =>
    rcases List.mem_cons.1 hb with rfl | hb
    · exact ⟨_, List.mem_cons_self, hab⟩
    · obtain ⟨a, ha, hR⟩ := ih hb
      exact ⟨a, List.mem_cons_of_mem _ ha, hR⟩

/-- results of ordered items are ordered -/
theorem pairwise_of_forall₂ {R : α → β → Prop} {S : α → α → Prop} {T : β → β → Prop}
    (hST : ∀ a a' b b', R a b → R a' b' → S a a' → T b b') {l : List α} {bs : List β}
    (h : List.Forall₂ R l bs) (hs : l.Pairwise S) : bs.Pairwise T := by
  induction h with
  | nil => exact .nil
  | cons hab hall ih =>
    obtain ⟨hhead, htail⟩ := List.pairwise_cons.1 hs
    refine List.pairwise_cons.2 ⟨fun b' hb' => ?_, ih htail⟩
    obtain ⟨a', ha', hR⟩ := forall₂_mem hall hb'
    exact hST _ _ _ _ hab hR (hhead a' ha')

end Lib.Result
