/-
Coroutines: tasks that share one memory and give up control only where they await.

A `Coro` reads and writes the memory `M`, raises, or awaits the reply to a request `q`, whose type
depends on `q`. Between two awaits a task runs alone (`settle`), which is the scheduling rule of a
single-threaded event loop; at an await anything may happen to the memory before the reply.

  • `Contract`, `Safe`: rely and guarantee. Whatever it is replied and whatever memory it finds after
    an await, as long as both are as relied on, each segment of the task does what the contract allows
    one that started with that reply. It is compositional: `safe_bind`, `safe_handle`, `safe_call`.
  • `Stays`: tasks that keep a property of segments, closed under the same constructs.
  • `Safe.settle`: what a safe task does in one segment, which is all a scheduler needs to know.
  • `Only`: a bound on the requests a task may issue, whatever it is replied.
  • `runAlone`: the same task with every request answered at once and no other task in between.
-/
import Mathlib.Tactic

namespace Lib

/-- a task over the memory `M` that may raise `E` and awaits `R q` for a request `q` -/
inductive Coro (M E : Type) {Q : Type} (R : Q → Type) (α : Type) : Type where
  | ret (a : α)
  | raise (e : E)
  | get (k : M → Coro M E R α)
  | put (m : M) (k : Coro M E R α)
  | await (q : Q) (k : Except E (R q) → Coro M E R α)

/-- what a segment started from: the task's start, or the reply to a request -/
inductive Cause (E : Type) {Q : Type} (R : Q → Type) : Type where
  | start
  | reply (q : Q) (r : Except E (R q))

/-- where a segment ended: at a request, or with the task's result -/
inductive Paused (M E : Type) {Q : Type} (R : Q → Type) (α : Type) : Type where
  | done (r : Except E α)
  | waiting (q : Q) (k : Except E (R q) → Coro M E R α)

namespace Coro

variable {M E D : Type} {Q : Type} {R : Q → Type} {α β : Type}

/-- sequencing -/
def bind : Coro M E R α → (α → Coro M E R β) → Coro M E R β
  | ret a, f => f a
  | raise e, _ => raise e
  | get k, f => get fun m => bind (k m) f
  | put m k, f => put m (bind k f)
  | await q k, f => await q fun r => bind (k r) f

instance : Monad (Coro M E R) where
  pure := ret
  bind := bind

/-- run a block and hand its outcome, exception included, to what follows -/
def attempt : Coro M E R α → Coro M E R (Except E α)
  | ret a => ret (.ok a)
  | raise e => ret (.error e)
  | get k => get fun m => attempt (k m)
  | put m k => put m (attempt k)
  | await q k => await q fun r => attempt (k r)

/-- leave with an outcome -/
def leave : Except E α → Coro M E R α
  | .ok a => ret a
  | .error e => raise e

/-- await the reply to `q`, raising the exception it may be -/
def call (q : Q) : Coro M E R (R q) := await q leave

/-- `try: p except Exception as e: h e` -/
def handle (p : Coro M E R α) (h : E → Coro M E R α) : Coro M E R α :=
  p.attempt.bind fun
    | .ok a => ret a
    | .error e => h e

/-- `try: p finally: f` -/
def ensure (p : Coro M E R α) (f : Coro M E R Unit) : Coro M E R α :=
  p.attempt.bind fun r => f.bind fun _ => leave r

/-- the memory now -/
def read : Coro M E R M := get ret

/-- change the memory -/
def modify (f : M → M) : Coro M E R Unit := get fun m => put (f m) (ret ())

/-- one segment: run until the task awaits or ends -/
def settle : Coro M E R α → M → M × Paused M E R α
  | ret a, m => (m, .done (.ok a))
  | raise e, m => (m, .done (.error e))
  | get k, m => settle (k m) m
  | put m k, _ => settle k m
  | await q k, m => (m, .waiting q k)

/-- the whole task with no other task in between, requests answered by `answer` -/
def runAlone (answer : (q : Q) → D → Except E (R q) × D) :
    Coro M E R α → M → D → Except E α × M × D
  | ret a, m, d => (.ok a, m, d)
  | raise e, m, d => (.error e, m, d)
  | get k, m, d => runAlone answer (k m) m d
  | put m k, _, d => runAlone answer k m d
  | await q k, m, d => runAlone answer (k (answer q d).1) m (answer q d).2

@[simp] theorem pure_eq (a : α) : (pure a : Coro M E R α) = ret a := rfl
@[simp] theorem bind_eq (p : Coro M E R α) (f : α → Coro M E R β) : p >>= f = p.bind f := rfl
@[simp] theorem ret_bind (a : α) (f : α → Coro M E R β) : (ret a).bind f = f a := rfl
@[simp] theorem raise_bind (e : E) (f : α → Coro M E R β) :
    (raise e : Coro M E R α).bind f = raise e := rfl
@[simp] theorem get_bind (k : M → Coro M E R α) (f : α → Coro M E R β) :
    (get k).bind f = get fun m => (k m).bind f := rfl
@[simp] theorem put_bind (m : M) (k : Coro M E R α) (f : α → Coro M E R β) :
    (put m k).bind f = put m (k.bind f) := rfl
@[simp] theorem await_bind (q : Q) (k : Except E (R q) → Coro M E R α) (f : α → Coro M E R β) :
    (await q k).bind f = await q fun r => (k r).bind f := rfl
@[simp] theorem read_bind (f : M → Coro M E R β) : read.bind f = get f := rfl
@[simp] theorem modify_bind (g : M → M) (f : Unit → Coro M E R β) :
    (modify g).bind f = get fun m => put (g m) (f ()) := rfl
@[simp] theorem leave_ok (a : α) : (leave (.ok a) : Coro M E R α) = ret a := rfl
@[simp] theorem leave_error (e : E) : (leave (.error e) : Coro M E R α) = raise e := rfl

/-! ## Segments -/

/-- a rely-guarantee contract for the tasks over one memory -/
structure Contract (M E : Type) {Q : Type} (R : Q → Type) where
  /-- what the environment promises about the replies -/
  rely : (q : Q) → Except E (R q) → Prop
  /-- what a task finds in the memory after each await, and leaves there before the next -/
  inv : M → Prop
  /-- what a segment may do: its cause, the memory it found and left, and what it asks next -/
  ends : Cause E R → M → M → Option Q → Prop

/-- whatever it is replied, each segment of the task meets the contract and it ends as `post` says -/
def Safe (C : Contract M E R) : Coro M E R α → Cause E R → M → M →
    (Except E α → Cause E R → M → M → Prop) → Prop
  | ret a, c, m₀, m, post => post (.ok a) c m₀ m
  | raise e, c, m₀, m, post => post (.error e) c m₀ m
  | get k, c, m₀, m, post => Safe C (k m) c m₀ m post
  | put m' k, c, m₀, _, post => Safe C k c m₀ m' post
  | await q k, c, m₀, m, post =>
    (C.inv m ∧ C.ends c m₀ m (some q)) ∧
      ∀ r m₁, C.rely q r → C.inv m₁ → Safe C (k r) (.reply q r) m₁ m₁ post

variable {C : Contract M E R} {c : Cause E R} {m₀ m : M}
  {post : Except E α → Cause E R → M → M → Prop}

@[simp] theorem safe_ret {a : α} : Safe C (ret a) c m₀ m post ↔ post (.ok a) c m₀ m := Iff.rfl
@[simp] theorem safe_raise {e : E} :
    Safe C (raise e) c m₀ m post ↔ post (.error e) c m₀ m := Iff.rfl
@[simp] theorem safe_get {k : M → Coro M E R α} :
    Safe C (get k) c m₀ m post ↔ Safe C (k m) c m₀ m post := Iff.rfl
@[simp] theorem safe_put {m' : M} {k : Coro M E R α} :
    Safe C (put m' k) c m₀ m post ↔ Safe C k c m₀ m' post := Iff.rfl
@[simp] theorem safe_await {q : Q} {k : Except E (R q) → Coro M E R α} :
    Safe C (await q k) c m₀ m post ↔ (C.inv m ∧ C.ends c m₀ m (some q)) ∧
      ∀ r m₁, C.rely q r → C.inv m₁ → Safe C (k r) (.reply q r) m₁ m₁ post := Iff.rfl

@[simp] theorem safe_leave {r : Except E α} :
    Safe C (leave r) c m₀ m post ↔ post r c m₀ m := by
  cases r <;> rfl

@[simp] theorem safe_read {post : Except E M → Cause E R → M → M → Prop} :
    Safe C read c m₀ m post ↔ post (.ok m) c m₀ m := Iff.rfl

@[simp] theorem safe_modify {f : M → M} {post : Except E Unit → Cause E R → M → M → Prop} :
    Safe C (modify f) c m₀ m post ↔ post (.ok ()) c m₀ (f m) := Iff.rfl

theorem safe_call {q : Q} {post : Except E (R q) → Cause E R → M → M → Prop} :
    Safe C (call q) c m₀ m post ↔ (C.inv m ∧ C.ends c m₀ m (some q)) ∧
      ∀ r m₁, C.rely q r → C.inv m₁ → post r (.reply q r) m₁ m₁ := by
  simp [call]

theorem safe_bind {p : Coro M E R α} {f : α → Coro M E R β}
    {post : Except E β → Cause E R → M → M → Prop} :
    Safe C (p.bind f) c m₀ m post ↔ Safe C p c m₀ m fun r c m₀ m =>
      match r with
      | .ok a => Safe C (f a) c m₀ m post
      | .error e => post (.error e) c m₀ m := by
  induction p generalizing c m₀ m with
  | ret a => rfl
  | raise e => rfl
  | get k ih => exact ih m
  | put m' k ih => exact ih
  | await q k ih =>
    refine and_congr Iff.rfl (forall_congr' fun r => forall_congr' fun m₁ => ?_)
    exact forall_congr' fun _ => forall_congr' fun _ => ih r

theorem safe_attempt {p : Coro M E R α} {post : Except E (Except E α) → Cause E R → M → M → Prop} :
    Safe C p.attempt c m₀ m post ↔ Safe C p c m₀ m fun r => post (.ok r) := by
  induction p generalizing c m₀ m with
  | ret a => rfl
  | raise e => rfl
  | get k ih => exact ih m
  | put m' k ih => exact ih
  | await q k ih =>
    refine and_congr Iff.rfl (forall_congr' fun r => forall_congr' fun m₁ => ?_)
    exact forall_congr' fun _ => forall_congr' fun _ => ih r

/-- a weaker end is met by the same task -/
theorem Safe.imp {p : Coro M E R α} {post' : Except E α → Cause E R → M → M → Prop}
    (h : Safe C p c m₀ m post) (himp : ∀ r c m₀ m, post r c m₀ m → post' r c m₀ m) :
    Safe C p c m₀ m post' := by
  induction p generalizing c m₀ m with
  | ret a => exact himp _ _ _ _ h
  | raise e => exact himp _ _ _ _ h
  | get k ih => exact ih m h
  | put m' k ih => exact ih h
  | await q k ih => exact ⟨h.1, fun r m₁ hr hm => ih r (h.2 r m₁ hr hm)⟩

theorem safe_handle {p : Coro M E R α} {h : E → Coro M E R α} :
    Safe C (p.handle h) c m₀ m post ↔ Safe C p c m₀ m fun r c m₀ m =>
      match r with
      | .ok a => post (.ok a) c m₀ m
      | .error e => Safe C (h e) c m₀ m post := by
  rw [handle, safe_bind, safe_attempt]
  constructor <;> refine fun hs => hs.imp fun r c m₀ m hr => ?_ <;> cases r <;> exact hr

theorem safe_ensure {p : Coro M E R α} {f : Coro M E R Unit} :
    Safe C (p.ensure f) c m₀ m post ↔ Safe C p c m₀ m fun r c m₀ m =>
      Safe C f c m₀ m fun u c m₀ m =>
        match u with
        | .ok _ => post r c m₀ m
        | .error e => post (.error e) c m₀ m := by
  rw [ensure, safe_bind, safe_attempt]
  constructor <;> refine fun hs => hs.imp fun r c m₀ m hr => ?_
  · refine (safe_bind.1 hr).imp fun u c m₀ m hu => ?_
    cases u with
    | ok a => exact safe_leave.1 hu
    | error e => exact hu
  · refine safe_bind.2 (hr.imp fun u c m₀ m hu => ?_)
    cases u with
    | ok a => exact safe_leave.2 hu
    | error e => exact hu

/-- what a safe task does in one segment -/
theorem Safe.settle {p : Coro M E R α} (h : Safe C p c m₀ m post) :
    match p.settle m with
    | (m', .done r) => post r c m₀ m'
    | (m', .waiting q k) => (C.inv m' ∧ C.ends c m₀ m' (some q)) ∧
      ∀ r m₁, C.rely q r → C.inv m₁ → Safe C (k r) (.reply q r) m₁ m₁ post := by
  induction p generalizing m with
  | ret a => exact h
  | raise e => exact h
  | get k ih => exact ih m h
  | put m' k ih => exact ih h
  | await q k _ => exact h

/-! ## Properties that tasks keep -/

/-- from segments that satisfy `I` to segments that do, whatever is awaited in between -/
structure Stays (C : Contract M E R) (I : Cause E R → M → M → Prop) (p : Coro M E R α) : Prop where
  safe : ∀ {c m₀ m}, I c m₀ m → Safe C p c m₀ m fun _ c m₀ m => I c m₀ m

namespace Stays

variable {I : Cause E R → M → M → Prop}

theorem ret (a : α) : Stays C I (.ret a) := ⟨fun h => h⟩

theorem raise (e : E) : Stays C I (.raise e : Coro M E R α) := ⟨fun h => h⟩

theorem leave (r : Except E α) : Stays C I (.leave r) := ⟨fun h => safe_leave.2 h⟩

theorem bind {p : Coro M E R α} {f : α → Coro M E R β} (hp : Stays C I p)
    (hf : ∀ a, Stays C I (f a)) : Stays C I (p.bind f) := by
  refine ⟨fun h => safe_bind.2 ((hp.safe h).imp fun r c m₀ m hr => ?_)⟩
  cases r with
  | ok a => exact (hf a).safe hr
  | error e => exact hr

theorem get {k : M → Coro M E R α} (hk : ∀ m, Stays C I (k m)) : Stays C I (.get k) :=
  ⟨fun h => (hk _).safe h⟩

theorem read {k : M → Coro M E R α} (hk : ∀ m, Stays C I (k m)) :
    Stays C I (Coro.read.bind k) := get hk

theorem handle {p : Coro M E R α} {f : E → Coro M E R α} (hp : Stays C I p)
    (hf : ∀ e, Stays C I (f e)) : Stays C I (p.handle f) := by
  refine ⟨fun h => safe_handle.2 ((hp.safe h).imp fun r c m₀ m hr => ?_)⟩
  cases r with
  | ok a => exact hr
  | error e => exact (hf e).safe hr

theorem attempt {p : Coro M E R α} (hp : Stays C I p) : Stays C I p.attempt :=
  ⟨fun h => safe_attempt.2 ((hp.safe h).imp fun _ _ _ _ hr => hr)⟩

end Stays

/-! ## Tasks that await nothing -/

/-- nothing may be awaited -/
def sealed : Contract M E R := ⟨fun _ _ => True, fun _ => True, fun _ _ _ next => next = none⟩

/-- a task that awaits nothing ends in its first segment -/
theorem Safe.ended {p : Coro M E R α} (h : Safe sealed p c m₀ m post) :
    ∃ r m', p.settle m = (m', .done r) ∧ post r c m₀ m' := by
  have hs := h.settle
  generalize hp : p.settle m = s at hs
  obtain ⟨m', r | ⟨q, k⟩⟩ := s
  · exact ⟨r, m', rfl, hs⟩
  · cases hs.1.2

/-! ## What a task may ask -/

/-- every request the task may issue satisfies `P` -/
def Only (P : Q → Prop) : Coro M E R α → Prop
  | ret _ => True
  | raise _ => True
  | get k => ∀ m, Only P (k m)
  | put _ k => Only P k
  | await q k => P q ∧ ∀ r, Only P (k r)

section Only

variable {P : Q → Prop}

@[simp] theorem only_ret {a : α} : (ret a : Coro M E R α).Only P ↔ True := Iff.rfl
@[simp] theorem only_raise {e : E} : (raise e : Coro M E R α).Only P ↔ True := Iff.rfl
@[simp] theorem only_get {k : M → Coro M E R α} : (get k).Only P ↔ ∀ m, (k m).Only P := Iff.rfl
@[simp] theorem only_put {m : M} {k : Coro M E R α} : (put m k).Only P ↔ k.Only P := Iff.rfl
@[simp] theorem only_await {q : Q} {k : Except E (R q) → Coro M E R α} :
    (await q k).Only P ↔ P q ∧ ∀ r, (k r).Only P := Iff.rfl
@[simp] theorem only_read : (read : Coro M E R M).Only P ↔ True := by simp [read]
@[simp] theorem only_modify {f : M → M} : (modify f : Coro M E R Unit).Only P ↔ True := by
  simp [modify]

@[simp] theorem only_leave {r : Except E α} : (leave r : Coro M E R α).Only P ↔ True := by
  cases r <;> simp

@[simp] theorem only_call {q : Q} : (call q : Coro M E R (R q)).Only P ↔ P q := by simp [call]

theorem Only.bind {p : Coro M E R α} {f : α → Coro M E R β} (hp : p.Only P)
    (hf : ∀ a, (f a).Only P) : (p.bind f).Only P := by
  induction p with
  | ret a => exact hf a
  | raise e => trivial
  | get k ih => exact fun m => ih m (hp m)
  | put m k ih => exact ih hp
  | await q k ih => exact ⟨hp.1, fun r => ih r (hp.2 r)⟩

theorem Only.read {f : M → Coro M E R β} (hf : ∀ m, (f m).Only P) :
    ((read : Coro M E R M).bind f).Only P := hf

theorem Only.modify {g : M → M} {f : Unit → Coro M E R β} (hf : (f ()).Only P) :
    ((modify g).bind f).Only P := fun _ => hf

theorem Only.leave {r : Except E α} {f : α → Coro M E R β} (hf : ∀ a, (f a).Only P) :
    ((leave r).bind f).Only P := .bind (only_leave.2 trivial) hf

theorem Only.call {q : Q} {f : R q → Coro M E R β} (hq : P q) (hf : ∀ a, (f a).Only P) :
    ((call q : Coro M E R (R q)).bind f).Only P := .bind (only_call.2 hq) hf

theorem Only.attempt {p : Coro M E R α} (hp : p.Only P) : p.attempt.Only P := by
  induction p with
  | ret a => trivial
  | raise e => trivial
  | get k ih => exact fun m => ih m (hp m)
  | put m k ih => exact ih hp
  | await q k ih => exact ⟨hp.1, fun r => ih r (hp.2 r)⟩

theorem Only.handle {p : Coro M E R α} {h : E → Coro M E R α} (hp : p.Only P)
    (hh : ∀ e, (h e).Only P) : (p.handle h).Only P := by
  refine hp.attempt.bind fun r => ?_
  cases r with
  | ok a => trivial
  | error e => exact hh e

theorem Only.ensure {p : Coro M E R α} {f : Coro M E R Unit} (hp : p.Only P) (hf : f.Only P) :
    (p.ensure f).Only P :=
  hp.attempt.bind fun _ => hf.bind fun _ => only_leave.2 trivial

/-- what is asked where a segment stops -/
theorem Only.settle {p : Coro M E R α} (h : p.Only P) (m : M) :
    match (p.settle m).2 with
    | .done _ => True
    | .waiting q k => P q ∧ ∀ r, (k r).Only P := by
  induction p generalizing m with
  | ret a => trivial
  | raise e => trivial
  | get k ih => exact ih m (h m) m
  | put m' k ih => exact ih h m'
  | await q k _ => exact h

end Only

/-! ## Running alone -/

variable (answer : (q : Q) → D → Except E (R q) × D)

theorem runAlone_bind (p : Coro M E R α) (f : α → Coro M E R β) (m : M) (d : D) :
    (p.bind f).runAlone answer m d =
      match p.runAlone answer m d with
      | (.ok a, m', d') => (f a).runAlone answer m' d'
      | (.error e, m', d') => (.error e, m', d') := by
  induction p generalizing m d with
  | ret a => rfl
  | raise e => rfl
  | get k ih => exact ih m m d
  | put m' k ih => exact ih m' d
  | await q k ih => exact ih _ m _

end Coro

end Lib
