/-
Transactions: programs over a store that either commit a new store or fail and leave the old one.

A transaction is a state monad over `Except`, so an exception loses every write made before it:
rollback is the type. The lemmas invert a commit step by step; nothing here depends on what the
store holds.

  • `bind_ok`, `require_ok`, `wrap_ok`: what a committed sequence, guard or rewrapped block did.
  • `Keeps`: a relation between the store found and the store left, kept by every commit. Sequences,
    loops and rewrapped blocks keep what their parts keep, when the relation is a preorder.
-/
import Mathlib.Tactic

namespace Lib

/-- a transaction over the store `S` that may raise `E` -/
abbrev Tx (S E : Type) := StateT S (Except E)

namespace Tx

variable {S E α β : Type}

/-- raise `e` unless `c` -/
def require (c : Prop) [Decidable c] (e : E) : Tx S E Unit := if c then pure () else throw e

/-- rewrite the exception a block leaves with -/
def wrap (f : E → E) (x : Tx S E α) : Tx S E α := fun s =>
  match x.run s with
  | .ok r => .ok r
  | .error e => .error (f e)

/-- replace one component of the store by a write that may be refused -/
def write {T V : Type} (get : S → T) (put : S → T → S) (err : V → E)
    (op : T → Except V T) : Tx S E Unit := fun s =>
  match op (get s) with
  | .ok t => .ok ((), put s t)
  | .error v => .error (err v)

/-- the answer, and the store that is left: a raised exception rolls back -/
def commit (x : Tx S E α) (s : S) : Except E α × S :=
  match x.run s with
  | .ok (a, t) => (.ok a, t)
  | .error e => (.error e, s)

/-- run `f` on every item, in order -/
def forEach {ι : Type} : List ι → (ι → Tx S E Unit) → Tx S E Unit
  | [], _ => pure ()
  | i :: l, f => do
    f i
    forEach l f

theorem bind_ok {x : Tx S E α} {f : α → Tx S E β} {s : S} {r : β × S} :
    (x >>= f).run s = .ok r ↔ ∃ a s', x.run s = .ok (a, s') ∧ (f a).run s' = .ok r := by
  rw [StateT.run_bind]
  cases hx : x.run s with
  | error e => simp [bind, Except.bind]
  | ok p =>
    obtain ⟨a, s'⟩ := p
    constructor
    · intro h
      exact ⟨a, s', rfl, h⟩
    · rintro ⟨a', s'', he, h⟩
      cases he
      exact h

theorem pure_ok {a : α} {s : S} {r : α × S} :
    (pure a : Tx S E α).run s = .ok r ↔ r = (a, s) := by
  rw [StateT.run_pure]
  exact ⟨fun h => (Except.ok.inj h).symm, fun h => h ▸ rfl⟩

theorem throw_ok {e : E} {s : S} {r : α × S} :
    (throw e : Tx S E α).run s = .ok r ↔ False := by
  constructor
  · intro h
    cases h
  · exact False.elim

theorem get_ok {s : S} {r : S × S} : (get : Tx S E S).run s = .ok r ↔ r = (s, s) := by
  rw [StateT.run_get]
  exact ⟨fun h => (Except.ok.inj h).symm, fun h => h ▸ rfl⟩

theorem require_ok {c : Prop} [Decidable c] {e : E} {s : S} {r : Unit × S} :
    (require c e : Tx S E Unit).run s = .ok r ↔ c ∧ r = ((), s) := by
  unfold require
  split_ifs with h
  · rw [pure_ok]
    exact ⟨fun hr => ⟨h, hr⟩, fun hr => hr.2⟩
  · rw [throw_ok]
    exact ⟨False.elim, fun hr => h hr.1⟩

theorem wrap_ok {f : E → E} {x : Tx S E α} {s : S} {r : α × S} :
    (wrap f x).run s = .ok r ↔ x.run s = .ok r := by
  have hw : (wrap f x).run s = match x.run s with
    | .ok r => .ok r
    | .error e => .error (f e) := rfl
  rw [hw]
  cases x.run s <;> simp

theorem write_ok {T V : Type} {get : S → T} {put : S → T → S} {err : V → E}
    {op : T → Except V T} {s : S} {r : Unit × S} :
    (write get put err op).run s = .ok r ↔ ∃ t, op (get s) = .ok t ∧ r = ((), put s t) := by
  have hw : (write get put err op).run s = match op (get s) with
    | .ok t => .ok ((), put s t)
    | .error v => .error (err v) := rfl
  rw [hw]
  cases op (get s) with
  | error v => simp
  | ok t => simp [eq_comm]

theorem commit_of_ok {x : Tx S E α} {s t : S} {a : α} (h : x.run s = .ok (a, t)) :
    commit x s = (.ok a, t) := by
  rw [commit, h]

theorem commit_of_not_ok {x : Tx S E α} {s : S} (h : ∀ r, x.run s ≠ .ok r) :
    (commit x s).2 = s ∧ (commit x s).1.toOption = none := by
  unfold commit
  cases hx : x.run s with
  | error e => exact ⟨rfl, rfl⟩
  | ok r => exact absurd hx (h r)

/-- what an answer says about the run -/
theorem commit_ok {x : Tx S E α} {s t : S} {a : α} :
    commit x s = (.ok a, t) ↔ x.run s = .ok (a, t) := by
  unfold commit
  cases hx : x.run s with
  | error e => simp
  | ok r => simp [Prod.ext_iff]

/-- a loop whose every step succeeds and keeps an invariant succeeds -/
theorem forEach_isOk {ι : Type} {I : S → Prop} {l : List ι} {f : ι → Tx S E Unit}
    (h : ∀ i ∈ l, ∀ s, I s → ∃ t, (f i).run s = .ok ((), t) ∧ I t) {s : S} (hs : I s) :
    ∃ t, (forEach l f).run s = .ok ((), t) ∧ I t := by
  induction l generalizing s with
  | nil => exact ⟨s, rfl, hs⟩
  | cons i l ih =>
    obtain ⟨t, ht, hit⟩ := h i (by simp) s hs
    obtain ⟨u, hu, hiu⟩ := ih (fun j hj => h j (List.mem_cons_of_mem _ hj)) hit
    exact ⟨u, bind_ok.2 ⟨(), t, ht, hu⟩, hiu⟩

/-! ## What every commit keeps -/

/-- every commit relates the store it found to the store it leaves -/
def Keeps (P : S → S → Prop) (x : Tx S E α) : Prop :=
  ∀ s a t, x.run s = .ok (a, t) → P s t

/-- and so does every call, committed or rolled back -/
theorem Keeps.commit {P : S → S → Prop} [IsPreorder S P] {x : Tx S E α} (hx : Keeps P x) (s : S) :
    P s (Tx.commit x s).2 := by
  unfold Tx.commit
  cases hr : x.run s with
  | error e => exact refl_of P s
  | ok r => exact hx s r.1 r.2 hr

/-- an invariant of the store, as a relation that a commit keeps -/
def Preserving (I : S → Prop) (s t : S) : Prop := I s → I t

instance (I : S → Prop) : IsPreorder S (Preserving I) where
  refl _ := id
  trans _ _ _ h h' := h' ∘ h

namespace Keeps

variable {P : S → S → Prop}

theorem throw {e : E} : Keeps P (throw e : Tx S E α) := fun _ _ _ h => (throw_ok.1 h).elim

theorem wrap {f : E → E} {x : Tx S E α} (hx : Keeps P x) : Keeps P (wrap f x) :=
  fun s a t h => hx s a t (wrap_ok.1 h)

theorem write {T V : Type} {g : S → T} {put : S → T → S} {err : V → E} {op : T → Except V T}
    (h : ∀ s t, op (g s) = .ok t → P s (put s t)) :
    Keeps P (write g put err op : Tx S E Unit) := by
  intro s a s' hs
  obtain ⟨t, ht, he⟩ := write_ok.1 hs
  cases he
  exact h s t ht

/-- a weaker relation is kept too -/
theorem imp {P' : S → S → Prop} {x : Tx S E α} (hx : Keeps P x) (h : ∀ s t, P s t → P' s t) :
    Keeps P' x := fun s a t hs => h s t (hx s a t hs)

variable [IsPreorder S P]

theorem pure {a : α} : Keeps P (pure a : Tx S E α) := by
  intro s b t h
  cases pure_ok.1 h
  exact refl_of P s

theorem get : Keeps P (get : Tx S E S) := by
  intro s b t h
  cases get_ok.1 h
  exact refl_of P s

theorem require {c : Prop} [Decidable c] {e : E} : Keeps P (require c e : Tx S E Unit) := by
  intro s b t h
  cases (require_ok.1 h).2
  exact refl_of P s

theorem bind {x : Tx S E α} {f : α → Tx S E β} (hx : Keeps P x) (hf : ∀ a, Keeps P (f a)) :
    Keeps P (x >>= f) := by
  intro s b t h
  obtain ⟨a, s', h1, h2⟩ := bind_ok.1 h
  exact trans_of P (hx s a s' h1) (hf a s' b t h2)

theorem forEach {ι : Type} {l : List ι} {f : ι → Tx S E Unit} (hf : ∀ i ∈ l, Keeps P (f i)) :
    Keeps P (forEach l f) := by
  induction l with
  | nil => exact pure
  | cons i l ih =>
    exact bind (hf i (by simp)) fun _ => ih fun j hj => hf j (List.mem_cons_of_mem _ hj)

end Keeps

end Tx

end Lib
