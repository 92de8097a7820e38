/-
Coroutines with others at work: at each await the others change the memory before the reply comes.

  • `runAmid`: the run of a task among others; `besideRun`: what the same others make of a memory the
    task does not touch.
  • `Beside`: how the two memories are related when the task ends (`Beside.runAmid`).
  • `Alike`: tasks that run alike from related memories, in lockstep at their awaits
    (`Alike.runAmid`).
  • `runBetween`: the run of a task among others that change the data too, with the data its last
    request found and left (`runBetween_bind`, `runBetween_bind_ok`, `runBetween_call`).
-/
import CapitalCipher.Lib.Coroutine

namespace Lib

namespace Coro

variable {M E D : Type} {Q : Type} {R : Q → Type} {α β : Type}

/-- the whole task, its requests answered by `answer`; at each await others change the memory -/
def runAmid (answer : (q : Q) → D → Except E (R q) × D) (others : D → M → M) :
    Coro M E R α → M → D → Except E α × M × D
  | ret a, m, d => (.ok a, m, d)
  | raise e, m, d => (.error e, m, d)
  | get k, m, d => runAmid answer others (k m) m d
  | put m' k, _, d => runAmid answer others k m' d
  | await q k, m, d => runAmid answer others (k (answer q d).1) (others d m) (answer q d).2

/-- what the others of this run make of a memory the task does not touch -/
def besideRun (answer : (q : Q) → D → Except E (R q) × D) (others : D → M → M) :
    Coro M E R α → M → D → M → M
  | ret _, _, _, n => n
  | raise _, _, _, n => n
  | get k, m, d, n => besideRun answer others (k m) m d n
  | put m' k, _, d, n => besideRun answer others k m' d n
  | await q k, m, d, n =>
    besideRun answer others (k (answer q d).1) (others d m) (answer q d).2 (others d n)

/-! ## Beside a memory the task does not touch -/

/-- whatever it is replied and whatever others do as `I` allows, the task ends as `post` says of its
memory and of the one beside it -/
def Beside (I : (M → M) → Prop) :
    Coro M E R α → M → M → (Except E α → M → M → Prop) → Prop
  | ret a, m, n, post => post (.ok a) m n
  | raise e, m, n, post => post (.error e) m n
  | get k, m, n, post => Beside I (k m) m n post
  | put m' k, _, n, post => Beside I k m' n post
  | await _ k, m, n, post => ∀ r f, I f → Beside I (k r) (f m) (f n) post

variable {I : (M → M) → Prop} {m n : M} {post : Except E α → M → M → Prop}

@[simp] theorem beside_ret {a : α} :
    Beside I (ret a : Coro M E R α) m n post ↔ post (.ok a) m n := Iff.rfl
@[simp] theorem beside_raise {e : E} :
    Beside I (raise e : Coro M E R α) m n post ↔ post (.error e) m n := Iff.rfl
@[simp] theorem beside_get {k : M → Coro M E R α} :
    Beside I (get k) m n post ↔ Beside I (k m) m n post := Iff.rfl
@[simp] theorem beside_put {m' : M} {k : Coro M E R α} :
    Beside I (put m' k) m n post ↔ Beside I k m' n post := Iff.rfl

/-- a block, then what follows it; an exception of the block passes what follows by -/
theorem Beside.bind {p : Coro M E R α} {f : α → Coro M E R β} {mid : Except E α → M → M → Prop}
    {post : Except E β → M → M → Prop} (h : Beside I p m n mid)
    (hok : ∀ a m n, mid (.ok a) m n → Beside I (f a) m n post)
    (herror : ∀ e m n, mid (.error e) m n → post (.error e) m n) :
    Beside I (p.bind f) m n post := by
  induction p generalizing m n with
  | ret a => exact hok a m n h
  | raise e => exact herror e m n h
  | get k ih => exact ih m h
  | put m' k ih => exact ih h
  | await q k ih => exact fun r g hg => ih r (h r g hg)

theorem Beside.runAmid {p : Coro M E R α} (h : Beside I p m n post)
    (answer : (q : Q) → D → Except E (R q) × D) {others : D → M → M} (hothers : ∀ d, I (others d))
    (d : D) : post (p.runAmid answer others m d).1 (p.runAmid answer others m d).2.1
      (p.besideRun answer others m d n) := by
  induction p generalizing m n d with
  | ret a => exact h
  | raise e => exact h
  | get k ih => exact ih m h d
  | put m' k ih => exact ih h d
  | await q k ih => exact ih _ (h _ _ (hothers d)) _

/-! ## Two runs in lockstep -/

/-- from these two memories the tasks ask the same and end the same, with memories related by `S` -/
inductive Alike (S : M → M → Prop) (I : (M → M) → Prop) :
    Coro M E R α → M → Coro M E R α → M → Prop
  | ret {m n : M} (a : α) : S m n → Alike S I (ret a) m (ret a) n
  | raise {m n : M} (e : E) : S m n → Alike S I (raise e) m (raise e) n
  | getLeft {m n : M} {k : M → Coro M E R α} {p : Coro M E R α} :
    Alike S I (k m) m p n → Alike S I (get k) m p n
  | getRight {m n : M} {k : M → Coro M E R α} {p : Coro M E R α} :
    Alike S I p m (k n) n → Alike S I p m (get k) n
  | putLeft {m m' n : M} {k p : Coro M E R α} :
    Alike S I k m' p n → Alike S I (put m' k) m p n
  | putRight {m n n' : M} {k p : Coro M E R α} :
    Alike S I p m k n' → Alike S I p m (put n' k) n
  | await {m n : M} (q : Q) {k k' : Except E (R q) → Coro M E R α} :
    (∀ r f, I f → Alike S I (k r) (f m) (k' r) (f n)) → Alike S I (await q k) m (await q k') n

namespace Alike

variable {S : M → M → Prop} {p p' : Coro M E R α}

theorem leave (r : Except E α) (h : S m n) : Alike S I (.leave r : Coro M E R α) m (.leave r) n := by
  cases r with
  | ok a => exact .ret a h
  | error e => exact .raise e h

theorem read {k k' : M → Coro M E R α} (h : Alike S I (k m) m (k' n) n) :
    Alike S I (Coro.read.bind k) m (Coro.read.bind k') n :=
  .getLeft (.getRight h)

theorem modify {f g : M → M} (h : S (f m) (g n)) :
    Alike S I (.modify f : Coro M E R Unit) m (.modify g) n :=
  .getLeft (.putLeft (.getRight (.putRight (.ret () h))))

/-- others keep the memories related -/
theorem call (q : Q) (h : S m n) (hI : ∀ f, I f → ∀ m n, S m n → S (f m) (f n)) :
    Alike S I (.call q : Coro M E R (R q)) m (.call q) n :=
  .await q fun r f hf => .leave r (hI f hf m n h)

theorem bind {f f' : α → Coro M E R β} (h : Alike S I p m p' n)
    (hf : ∀ a m n, S m n → Alike S I (f a) m (f' a) n) :
    Alike S I (p.bind f) m (p'.bind f') n := by
  induction h with
  | ret a hs => exact hf a _ _ hs
  | raise e hs => exact .raise e hs
  | getLeft _ ih => exact .getLeft ih
  | getRight _ ih => exact .getRight ih
  | putLeft _ ih => exact .putLeft ih
  | putRight _ ih => exact .putRight ih
  | await q _ ih => exact .await q fun r g hg => ih r g hg

theorem attempt (h : Alike S I p m p' n) : Alike S I p.attempt m p'.attempt n := by
  induction h with
  | ret a hs => exact .ret _ hs
  | raise e hs => exact .ret _ hs
  | getLeft _ ih => exact .getLeft ih
  | getRight _ ih => exact .getRight ih
  | putLeft _ ih => exact .putLeft ih
  | putRight _ ih => exact .putRight ih
  | await q _ ih => exact .await q fun r g hg => ih r g hg

theorem handle {f f' : E → Coro M E R α} (h : Alike S I p m p' n)
    (hf : ∀ e m n, S m n → Alike S I (f e) m (f' e) n) :
    Alike S I (p.handle f) m (p'.handle f') n := by
  apply h.attempt.bind
  intro r m n hs
  cases r with
  | ok a => exact .ret a hs
  | error e => exact hf e m n hs

/-- the two runs end the same, in related memories -/
theorem runAmid (h : Alike S I p m p' n) (answer : (q : Q) → D → Except E (R q) × D)
    {others : D → M → M} (hothers : ∀ d, I (others d)) (d : D) :
    ∃ r m' n' d', p.runAmid answer others m d = (r, m', d') ∧
      p'.runAmid answer others n d = (r, n', d') ∧ S m' n' := by
  induction h generalizing d with
  | ret a hs => exact ⟨_, _, _, _, rfl, rfl, hs⟩
  | raise e hs => exact ⟨_, _, _, _, rfl, rfl, hs⟩
  | getLeft _ ih => exact ih d
  | getRight _ ih => exact ih d
  | putLeft _ ih => exact ih d
  | putRight _ ih => exact ih d
  | await q _ ih => exact ih _ _ (hothers d) _

end Alike

/-! ## Among tasks that change the data as well -/

/-- where a run stands: its turn, its memory, and the data before and after its last request -/
structure Stand (M D : Type) where
  turn : ℕ
  memory : M
  before : D
  after : D

/-- the task among others: at each await they change memory and data before the request is answered,
and the memory again before the task goes on -/
def runBetween (answer : ℕ → M → (q : Q) → D → Except E (R q) × D)
    (others : ℕ → M → D → M × D × M) : Coro M E R α → Stand M D → Except E α × Stand M D
  | ret a, s => (.ok a, s)
  | raise e, s => (.error e, s)
  | get k, s => runBetween answer others (k s.memory) s
  | put m k, s => runBetween answer others k { s with memory := m }
  | await q k, s =>
    let found := others s.turn s.memory s.after
    let reply := answer s.turn found.1 q found.2.1
    runBetween answer others (k reply.1) ⟨s.turn + 1, found.2.2, found.2.1, reply.2⟩

section Between

variable {answer : ℕ → M → (q : Q) → D → Except E (R q) × D} {others : ℕ → M → D → M × D × M}
  {s t : Stand M D}

/-- a sequence that returned, step by step -/
theorem runBetween_bind {p : Coro M E R α} {f : α → Coro M E R β} {b : β}
    (h : runBetween answer others (p.bind f) s = (.ok b, t)) :
    ∃ a u, runBetween answer others p s = (.ok a, u) ∧
      runBetween answer others (f a) u = (.ok b, t) := by
  induction p generalizing s with
  | ret a => exact ⟨a, s, rfl, h⟩
  | raise e => cases h
  | get k ih => exact ih s.memory h
  | put m k ih => exact ih h
  | await q k ih => exact ih _ h

/-- a block that returned, then what follows it -/
theorem runBetween_bind_ok {p : Coro M E R α} {f : α → Coro M E R β} {a : α}
    (h : runBetween answer others p s = (.ok a, t)) :
    runBetween answer others (p.bind f) s = runBetween answer others (f a) t := by
  induction p generalizing s with
  | ret a =>
    cases h
    rfl
  | raise e => cases h
  | get k ih => exact ih s.memory h
  | put m k ih => exact ih h
  | await q k ih => exact ih _ h

/-- a block that raised: what follows it is passed by -/
theorem runBetween_bind_error {p : Coro M E R α} {f : α → Coro M E R β} {e : E}
    (h : runBetween answer others p s = (.error e, t)) :
    runBetween answer others (p.bind f) s = (.error e, t) := by
  induction p generalizing s with
  | ret a => cases h
  | raise e =>
    cases h
    rfl
  | get k ih => exact ih s.memory h
  | put m k ih => exact ih h
  | await q k ih => exact ih _ h

theorem runBetween_attempt {p : Coro M E R α} : runBetween answer others p.attempt s =
    (.ok (runBetween answer others p s).1, (runBetween answer others p s).2) := by
  induction p generalizing s with
  | ret a => rfl
  | raise e => rfl
  | get k ih => exact ih s.memory
  | put m k ih => exact ih
  | await q k ih => exact ih _

/-- a call that returned was answered with its value -/
theorem runBetween_call {q : Q} {r : R q}
    (h : runBetween answer others (call q) s = (.ok r, t)) :
    ∃ m, answer s.turn m q t.before = (.ok r, t.after) := by
  simp only [call, runBetween] at h
  cases hreply : (answer s.turn (others s.turn s.memory s.after).1 q
      (others s.turn s.memory s.after).2.1).1 with
  | error e =>
    rw [hreply] at h
    cases h
  | ok r' =>
    rw [hreply] at h
    cases h
    exact ⟨_, Prod.ext hreply rfl⟩

end Between

end Coro

end Lib
