/-
Coroutines that run one after the other: while one runs, nothing else changes the memory.

  • `Alone`: whatever it is replied, a task that runs alone ends as a postcondition says;
    compositional like `Safe`, and it speaks of `runAlone` (`Alone.runAlone`).
  • `Sequential`: the memories a history of such tasks reaches, with `Sequential.inv` as its
    induction: what every task keeps holds throughout.
-/
import CapitalCipher.Lib.Coroutine

namespace Lib

namespace Coro

variable {M E D : Type} {Q : Type} {R : Q → Type} {α β : Type}

/-- whatever it is replied, the task ends as `post` says when nothing else runs -/
def Alone : Coro M E R α → M → (Except E α → M → Prop) → Prop
  | ret a, m, post => post (.ok a) m
  | raise e, m, post => post (.error e) m
  | get k, m, post => Alone (k m) m post
  | put m' k, _, post => Alone k m' post
  | await _ k, m, post => ∀ r, Alone (k r) m post

variable {m : M} {post : Except E α → M → Prop}

@[simp] theorem alone_ret {a : α} : Alone (ret a : Coro M E R α) m post ↔ post (.ok a) m := Iff.rfl
@[simp] theorem alone_raise {e : E} :
    Alone (raise e : Coro M E R α) m post ↔ post (.error e) m := Iff.rfl
@[simp] theorem alone_get {k : M → Coro M E R α} :
    Alone (get k) m post ↔ Alone (k m) m post := Iff.rfl
@[simp] theorem alone_put {m' : M} {k : Coro M E R α} :
    Alone (put m' k) m post ↔ Alone k m' post := Iff.rfl
@[simp] theorem alone_await {q : Q} {k : Except E (R q) → Coro M E R α} :
    Alone (await q k) m post ↔ ∀ r, Alone (k r) m post := Iff.rfl

@[simp] theorem alone_leave {r : Except E α} :
    Alone (leave r : Coro M E R α) m post ↔ post r m := by
  cases r <;> rfl

@[simp] theorem alone_call {q : Q} {post : Except E (R q) → M → Prop} :
    Alone (call q) m post ↔ ∀ r, post r m := by
  simp [call]

@[simp] theorem alone_modify {f : M → M} {post : Except E Unit → M → Prop} :
    Alone (modify f : Coro M E R Unit) m post ↔ post (.ok ()) (f m) := Iff.rfl

/-- a weaker end is met by the same task -/
theorem Alone.imp {p : Coro M E R α} {post' : Except E α → M → Prop} (h : Alone p m post)
    (himp : ∀ r m, post r m → post' r m) : Alone p m post' := by
  induction p generalizing m with
  | ret a => exact himp _ _ h
  | raise e => exact himp _ _ h
  | get k ih => exact ih m h
  | put m' k ih => exact ih h
  | await q k ih => exact fun r => ih r (h r)

/-- every task ends -/
theorem alone_true (p : Coro M E R α) (m : M) : Alone p m fun _ _ => True := by
  induction p generalizing m with
  | ret a => trivial
  | raise e => trivial
  | get k ih => exact ih m m
  | put m' k ih => exact ih m'
  | await q k ih => exact fun r => ih r m

/-- a block, then what follows it; an exception of the block passes what follows by -/
theorem Alone.bind {p : Coro M E R α} {f : α → Coro M E R β} {mid : Except E α → M → Prop}
    {post : Except E β → M → Prop} (h : Alone p m mid)
    (hok : ∀ a m, mid (.ok a) m → Alone (f a) m post)
    (herror : ∀ e m, mid (.error e) m → post (.error e) m) : Alone (p.bind f) m post := by
  induction p generalizing m with
  | ret a => exact hok a m h
  | raise e => exact herror e m h
  | get k ih => exact ih m h
  | put m' k ih => exact ih h
  | await q k ih => exact fun r => ih r (h r)

theorem alone_attempt {p : Coro M E R α} {post : Except E (Except E α) → M → Prop} :
    Alone p.attempt m post ↔ Alone p m fun r => post (.ok r) := by
  induction p generalizing m with
  | ret a => rfl
  | raise e => rfl
  | get k ih => exact ih m
  | put m' k ih => exact ih
  | await q k ih => exact forall_congr' fun r => ih r

/-- what holds of a task that runs alone holds of its run, whoever replies -/
theorem Alone.runAlone {p : Coro M E R α} (h : Alone p m post)
    (answer : (q : Q) → D → Except E (R q) × D) (d : D) :
    post (p.runAlone answer m d).1 (p.runAlone answer m d).2.1 := by
  induction p generalizing m d with
  | ret a => exact h
  | raise e => exact h
  | get k ih => exact ih m h d
  | put m' k ih => exact ih h d
  | await q k ih => exact ih _ (h _) _

/-! ## Keeping a property -/

/-- the task leaves the memory with `I` whether it returns or raises -/
def Retains (I : M → Prop) (p : Coro M E R α) : Prop :=
  ∀ m, I m → Alone p m fun _ m => I m

namespace Retains

variable {I : M → Prop}

theorem ret (a : α) : Retains I (.ret a : Coro M E R α) := fun _ h => h

theorem raise (e : E) : Retains I (.raise e : Coro M E R α) := fun _ h => h

theorem leave (r : Except E α) : Retains I (.leave r : Coro M E R α) :=
  fun _ h => alone_leave.2 h

theorem call (q : Q) : Retains I (.call q : Coro M E R (R q)) := fun _ h => alone_call.2 fun _ => h

theorem modify {f : M → M} (hf : ∀ m, I m → I (f m)) :
    Retains I (.modify f : Coro M E R Unit) := fun m h => alone_modify.2 (hf m h)

theorem bind {p : Coro M E R α} {f : α → Coro M E R β} (hp : Retains I p)
    (hf : ∀ a, Retains I (f a)) : Retains I (p.bind f) := by
  intro m hm
  exact (hp m hm).bind (fun a m' hm' => hf a m' hm') fun e m' hm' => hm'

theorem leave_bind {r : Except E α} {f : α → Coro M E R β} (hf : ∀ a, r = .ok a → Retains I (f a)) :
    Retains I ((Coro.leave r).bind f) := by
  cases r with
  | ok a => exact hf a rfl
  | error e => exact Retains.raise e

theorem read {k : M → Coro M E R α} (hk : ∀ m, Retains I (k m)) :
    Retains I (Coro.read.bind k) := fun m hm => hk m m hm

theorem handle {p : Coro M E R α} {f : E → Coro M E R α} (hp : Retains I p)
    (hf : ∀ e, Retains I (f e)) : Retains I (p.handle f) := by
  apply Retains.bind
  · exact fun m hm => alone_attempt.2 (hp m hm)
  · intro r
    cases r with
    | ok a => exact Retains.ret a
    | error e => exact hf e

end Retains

/-! ## Histories -/

variable {Op : Type}

/-- the memories a sequential history reaches: tasks run one after the other, whatever they are
replied, and between two of them others change the memory as `other` allows -/
inductive Sequential (task : Op → Coro M E R α) (other : M → M → Prop) (m₀ : M) : M → Prop
  | start : Sequential task other m₀ m₀
  | other {m₁ m₂ : M} :
    Sequential task other m₀ m₁ → other m₁ m₂ → Sequential task other m₀ m₂
  | run {m₁ : M} {D : Type} (op : Op) (answer : (q : Q) → D → Except E (R q) × D) (d : D) :
    Sequential task other m₀ m₁ →
      Sequential task other m₀ ((task op).runAlone answer m₁ d).2.1

/-- what every task keeps holds throughout a history -/
theorem Sequential.inv {task : Op → Coro M E R α} {other : M → M → Prop} {m₀ m : M} {I : M → Prop}
    (h : Sequential task other m₀ m) (hstart : I m₀) (hother : ∀ m m', I m → other m m' → I m')
    (htask : ∀ op, Retains I (task op)) : I m := by
  induction h with
  | start => exact hstart
  | other _ hmm' ih => exact hother _ _ ih hmm'
  | run op answer d _ ih => exact (htask op _ ih).runAlone answer d

end Coro

end Lib
