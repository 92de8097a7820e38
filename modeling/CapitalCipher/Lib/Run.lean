/-
Runs of a total step function: what holds at first and is kept by every step holds after any run.

  • `run_inv`: the invariant rule; `run_rel`: what each step keeps of the state before it.
  • `Along`: every operation of a run meets a condition in the state it is applied to.
  • `along_congr`: conditions that agree where an invariant holds are met by the same runs.
  • `prefix_iff`: what each step keeps exactly when it meets a condition holds in every state of a run
    exactly when all its steps meet the condition.
  • `along_inv`: the invariant rule for runs that meet a condition; `along_append`: a run in two parts;
    `along_mem`: each operation is one of the list; `along_imp`: a weaker condition.
-/
import Mathlib.Tactic

namespace Lib

variable {W Op : Type} (step : W → Op → W)

/-- the state after a list of operations -/
def run (w : W) (ops : List Op) : W := ops.foldl step w

/-- every operation meets `C` in the state it is applied to -/
def Along (C : W → Op → Prop) : W → List Op → Prop
  | _, [] => True
  | w, op :: ops => C w op ∧ Along C (step w op) ops

instance Along.decidable {C : W → Op → Prop} [∀ w op, Decidable (C w op)] :
    (w : W) → (ops : List Op) → Decidable (Along step C w ops)
  | _, [] => inferInstanceAs (Decidable True)
  | w, op :: ops =>
    have := Along.decidable (C := C) (step w op) ops
    inferInstanceAs (Decidable (C w op ∧ Along step C (step w op) ops))

variable {step}

@[simp] theorem run_nil (w : W) : run step w [] = w := rfl

@[simp] theorem run_cons (w : W) (op : Op) (ops : List Op) :
    run step w (op :: ops) = run step (step w op) ops := rfl

theorem run_append (w : W) (ops ops' : List Op) :
    run step w (ops ++ ops') = run step (run step w ops) ops' := List.foldl_append

theorem run_inv {P : W → Prop} (hstep : ∀ w op, P w → P (step w op)) {w : W} (h : P w)
    (ops : List Op) : P (run step w ops) := by
  induction ops generalizing w with
  | nil => exact h
  | cons op ops ih => exact ih (hstep w op h)

theorem run_rel {P : W → Prop} {R : W → W → Prop} [IsPreorder W R]
    (hinv : ∀ w op, P w → P (step w op)) (hstep : ∀ w op, P w → R w (step w op)) {w : W} (h : P w)
    (ops : List Op) : R w (run step w ops) := by
  induction ops generalizing w with
  | nil => exact refl_of R w
  | cons op ops ih => exact trans_of R (hstep w op h) (ih (hinv w op h))

theorem along_inv {C : W → Op → Prop} {P : W → Prop}
    (hstep : ∀ w op, C w op → P w → P (step w op)) {w : W} (h : P w) {ops : List Op}
    (hc : Along step C w ops) : P (run step w ops) := by
  induction ops generalizing w with
  | nil => exact h
  | cons op ops ih => exact ih (hstep w op hc.1 h) hc.2

/-- conditions that agree where an invariant holds are met by the same runs -/
theorem along_congr {C D : W → Op → Prop} {P : W → Prop}
    (hinv : ∀ w op, P w → P (step w op)) (hcd : ∀ w op, P w → (C w op ↔ D w op)) {w : W} (h : P w)
    (ops : List Op) : Along step C w ops ↔ Along step D w ops := by
  induction ops generalizing w with
  | nil => exact Iff.rfl
  | cons op ops ih => exact and_congr (hcd w op h) (ih (hinv w op h))

/-- a property that each step keeps exactly when it meets `C` -/
theorem prefix_iff {C : W → Op → Prop} {P : W → Prop} (hstep : ∀ w op, P w → (P (step w op) ↔ C w op))
    {w : W} (h : P w) (ops : List Op) :
    (∀ pre, pre <+: ops → P (run step w pre)) ↔ Along step C w ops := by
  induction ops generalizing w with
  | nil =>
    refine iff_of_true (fun pre hpre => ?_) trivial
    rw [List.prefix_nil.1 hpre]
    exact h
  | cons op ops ih =>
    constructor
    · intro hall
      have hnext : P (step w op) := hall [op] ⟨ops, rfl⟩
      refine ⟨(hstep w op h).1 hnext, (ih hnext).1 fun pre hpre => ?_⟩
      exact hall (op :: pre) (List.cons_prefix_cons.2 ⟨rfl, hpre⟩)
    · rintro ⟨hc, hrest⟩ pre hpre
      have hnext := (hstep w op h).2 hc
      cases pre with
      | nil => exact h
      | cons op' pre =>
        obtain ⟨heq, hshort⟩ := List.cons_prefix_cons.1 hpre
        rw [heq]
        exact (ih hnext).2 hrest pre hshort

theorem along_imp {C D : W → Op → Prop} (hcd : ∀ w op, C w op → D w op) {w : W} {ops : List Op}
    (h : Along step C w ops) : Along step D w ops := by
  induction ops generalizing w with
  | nil => trivial
  | cons op ops ih => exact ⟨hcd w op h.1, ih h.2⟩

theorem along_append {C : W → Op → Prop} {w : W} {ops ops' : List Op} :
    Along step C w (ops ++ ops') ↔ Along step C w ops ∧ Along step C (run step w ops) ops' := by
  induction ops generalizing w with
  | nil => simp [Along]
  | cons op ops ih => simp only [List.cons_append, Along, run_cons, ih, and_assoc]

theorem along_mem {C : W → Op → Prop} {w : W} {ops : List Op} (h : Along step C w ops) :
    Along step (fun w op => C w op ∧ op ∈ ops) w ops := by
  suffices hsub : ∀ (l : List Op) (w : W), l ⊆ ops → Along step C w l →
      Along step (fun w op => C w op ∧ op ∈ ops) w l from hsub ops w (List.Subset.refl _) h
  intro l
  induction l with
  | nil => exact fun _ _ _ => trivial
  | cons op l ih =>
    intro w hl hw
    exact ⟨⟨hw.1, hl List.mem_cons_self⟩,
      ih (step w op) (fun _ hop => hl (List.mem_cons_of_mem op hop)) hw.2⟩

end Lib
