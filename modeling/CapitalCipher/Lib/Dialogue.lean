/-
Dialogues: what a task asked and was replied, in order.

`Follows` says of a task that each request it issues is one its dialogue so far allows, and how the task
ends, for any replies that are as relied on and whatever it finds in the shared memory. An `Assembly` is
any number of such tasks on any number of nodes, each with its memory, and one environment that answers
them, in any order. A task ends with the crash of its node, and its dialogue stays.

  • `Follows.bind`, `Follows.handle`, `Follows.call`: the rules of the constructs.
  • `run_conforms`: in every run every request of every task was allowed when it was issued.
  • `run_once`: what needs a reply that the environment gives once is asked at most once by all tasks.
  • `run_barred`: a reply that a task on its node is not given from its start on never reaches it.
-/
import CapitalCipher.Lib.Coroutine
import CapitalCipher.Lib.Run

namespace Lib.Coro

variable {M E D T C K Q : Type} {R : Q → Type} {α β : Type}

/-- a request with its reply -/
structure Turn (E : Type) {Q : Type} (R : Q → Type) where
  request : Q
  reply : Except E (R request)

/-- the turns of a task, the latest first -/
abbrev Dialogue (E : Type) {Q : Type} (R : Q → Type) := List (Turn E R)

/-- what is relied on of the replies, and what a dialogue allows to ask next -/
structure Protocol (E : Type) {Q : Type} (R : Q → Type) where
  rely : (q : Q) → Except E (R q) → Prop
  allows : Dialogue E R → Q → Prop

/-- every request is allowed when it is issued, and the task ends as `post` says -/
def Follows (P : Protocol E R) : Coro M E R α → Dialogue E R →
    (Except E α → Dialogue E R → Prop) → Prop
  | ret a, d, post => post (.ok a) d
  | raise e, d, post => post (.error e) d
  | get k, d, post => ∀ m, Follows P (k m) d post
  | put _ k, d, post => Follows P k d post
  | await q k, d, post => P.allows d q ∧ ∀ r, P.rely q r → Follows P (k r) (⟨q, r⟩ :: d) post

/-- what a task does from where a segment of it stopped -/
def Continues (P : Protocol E R) (d : Dialogue E R) (post : Except E α → Dialogue E R → Prop) :
    Paused M E R α → Prop
  | .done r => post r d
  | .waiting q k => P.allows d q ∧ ∀ r, P.rely q r → Follows P (k r) (⟨q, r⟩ :: d) post

section Rules

variable {P : Protocol E R} {d : Dialogue E R} {post : Except E α → Dialogue E R → Prop}

@[simp] theorem follows_ret {a : α} : Follows P (ret a : Coro M E R α) d post ↔ post (.ok a) d := Iff.rfl
@[simp] theorem follows_raise {e : E} :
    Follows P (raise e : Coro M E R α) d post ↔ post (.error e) d := Iff.rfl
@[simp] theorem follows_get {k : M → Coro M E R α} :
    Follows P (get k) d post ↔ ∀ m, Follows P (k m) d post := Iff.rfl
@[simp] theorem follows_put {m : M} {k : Coro M E R α} :
    Follows P (put m k) d post ↔ Follows P k d post := Iff.rfl
@[simp] theorem follows_await {q : Q} {k : Except E (R q) → Coro M E R α} :
    Follows P (await q k) d post ↔
      P.allows d q ∧ ∀ r, P.rely q r → Follows P (k r) (⟨q, r⟩ :: d) post := Iff.rfl

@[simp] theorem follows_leave {r : Except E α} :
    Follows P (leave r : Coro M E R α) d post ↔ post r d := by
  cases r <;> rfl

theorem Follows.modify {f : M → M} {k : Unit → Coro M E R α} (h : Follows P (k ()) d post) :
    Follows P ((Coro.modify f).bind k) d post := fun _ => h

theorem Follows.read {k : M → Coro M E R α} (h : ∀ m, Follows P (k m) d post) :
    Follows P (Coro.read.bind k) d post := h

theorem follows_call {q : Q} {post : Except E (R q) → Dialogue E R → Prop} :
    Follows P (call q : Coro M E R (R q)) d post ↔
      P.allows d q ∧ ∀ r, P.rely q r → post r (⟨q, r⟩ :: d) := by
  simp [call]

/-- a weaker end is met by the same task -/
theorem Follows.imp {p : Coro M E R α} {post' : Except E α → Dialogue E R → Prop}
    (h : Follows P p d post) (himp : ∀ r d, post r d → post' r d) : Follows P p d post' := by
  induction p generalizing d with
  | ret a => exact himp _ _ h
  | raise e => exact himp _ _ h
  | get k ih => exact fun m => ih m (h m)
  | put m k ih => exact ih h
  | await q k ih => exact ⟨h.1, fun r hr => ih r (h.2 r hr)⟩

/-- two ends of one task -/
theorem Follows.and {p : Coro M E R α} {post' : Except E α → Dialogue E R → Prop}
    (h : Follows P p d post) (h' : Follows P p d post') :
    Follows P p d fun r d => post r d ∧ post' r d := by
  induction p generalizing d with
  | ret a => exact ⟨h, h'⟩
  | raise e => exact ⟨h, h'⟩
  | get k ih => exact fun m => ih m (h m) (h' m)
  | put m k ih => exact ih h h'
  | await q k ih => exact ⟨h.1, fun r hr => ih r (h.2 r hr) (h'.2 r hr)⟩

theorem follows_bind {p : Coro M E R α} {f : α → Coro M E R β}
    {post : Except E β → Dialogue E R → Prop} :
    Follows P (p.bind f) d post ↔ Follows P p d fun r d =>
      match r with
      | .ok a => Follows P (f a) d post
      | .error e => post (.error e) d := by
  induction p generalizing d with
  | ret a => rfl
  | raise e => rfl
  | get k ih => exact forall_congr' fun m => ih m
  | put m k ih => exact ih
  | await q k ih =>
    exact and_congr Iff.rfl (forall_congr' fun r => forall_congr' fun _ => ih r)

theorem follows_attempt {p : Coro M E R α}
    {post : Except E (Except E α) → Dialogue E R → Prop} :
    Follows P p.attempt d post ↔ Follows P p d fun r => post (.ok r) := by
  induction p generalizing d with
  | ret a => rfl
  | raise e => rfl
  | get k ih => exact forall_congr' fun m => ih m
  | put m k ih => exact ih
  | await q k ih =>
    exact and_congr Iff.rfl (forall_congr' fun r => forall_congr' fun _ => ih r)

/-- sequencing, with what is known in between -/
theorem Follows.bind {p : Coro M E R α} {f : α → Coro M E R β}
    {mid : Except E α → Dialogue E R → Prop} {post : Except E β → Dialogue E R → Prop}
    (hp : Follows P p d mid) (hok : ∀ a d, mid (.ok a) d → Follows P (f a) d post)
    (herror : ∀ e d, mid (.error e) d → post (.error e) d) : Follows P (p.bind f) d post := by
  refine follows_bind.2 (hp.imp fun r d hr => ?_)
  cases r with
  | ok a => exact hok a d hr
  | error e => exact herror e d hr

theorem Follows.attempt {p : Coro M E R α} {f : Except E α → Coro M E R β}
    {mid : Except E α → Dialogue E R → Prop} {post : Except E β → Dialogue E R → Prop}
    (hp : Follows P p d mid) (hnext : ∀ r d, mid r d → Follows P (f r) d post) :
    Follows P (p.attempt.bind f) d post :=
  follows_bind.2 (follows_attempt.2 (hp.imp hnext))

theorem Follows.handle {p : Coro M E R α} {h : E → Coro M E R α}
    {mid post : Except E α → Dialogue E R → Prop} (hp : Follows P p d mid)
    (hok : ∀ a d, mid (.ok a) d → post (.ok a) d)
    (herror : ∀ e d, mid (.error e) d → Follows P (h e) d post) : Follows P (p.handle h) d post := by
  refine hp.attempt fun r d hr => ?_
  cases r with
  | ok a => exact hok a d hr
  | error e => exact herror e d hr

theorem Follows.ite {c : Prop} [Decidable c] {p p' : Coro M E R α} (h : c → Follows P p d post)
    (h' : ¬ c → Follows P p' d post) : Follows P (if c then p else p') d post := by
  split_ifs with hc
  · exact h hc
  · exact h' hc

theorem Only.ite {I : Q → Prop} {c : Prop} [Decidable c] {p p' : Coro M E R α} (h : c → p.Only I)
    (h' : ¬ c → p'.Only I) : (if c then p else p').Only I := by
  split_ifs with hc
  · exact h hc
  · exact h' hc

theorem Follows.call {q : Q} {f : R q → Coro M E R β} {post : Except E β → Dialogue E R → Prop}
    (hq : P.allows d q)
    (hok : ∀ a, P.rely q (.ok a) → Follows P (f a) (⟨q, .ok a⟩ :: d) post)
    (herror : ∀ e, P.rely q (.error e) → post (.error e) (⟨q, .error e⟩ :: d)) :
    Follows P ((Coro.call q : Coro M E R (R q)).bind f) d post := by
  refine follows_bind.2 (follows_call.2 ⟨hq, fun r hr => ?_⟩)
  cases r with
  | ok a => exact hok a hr
  | error e => exact herror e hr

/-- what a task does from where a segment of it stops -/
theorem Follows.settle {p : Coro M E R α} (h : Follows P p d post) (m : M) :
    Continues P d post (p.settle m).2 := by
  induction p generalizing m with
  | ret a => exact h
  | raise e => exact h
  | get k ih => exact ih m (h m) m
  | put m' k ih => exact ih h m'
  | await q k _ => exact h

/-- the dialogue only grows, by requests that all satisfy `I` -/
def Grows (I : Q → Prop) (d d' : Dialogue E R) : Prop := ∃ new, d' = new ++ d ∧ ∀ t ∈ new, I t.request

namespace Grows

variable {I : Q → Prop} {d' d'' : Dialogue E R}

theorem refl (d : Dialogue E R) : Grows I d d := ⟨[], rfl, by simp⟩

theorem trans (h : Grows I d d') (h' : Grows I d' d'') : Grows I d d'' := by
  obtain ⟨new, rfl, hnew⟩ := h
  obtain ⟨more, rfl, hmore⟩ := h'
  refine ⟨more ++ new, (List.append_assoc more new d).symm, fun t ht => ?_⟩
  exact (List.mem_append.1 ht).elim (hmore t) (hnew t)

theorem imp {J : Q → Prop} (h : Grows I d d') (himp : ∀ q, I q → J q) : Grows J d d' := by
  obtain ⟨new, rfl, hnew⟩ := h
  exact ⟨new, rfl, fun t ht => himp _ (hnew t ht)⟩

theorem cons (h : Grows I d d') {t : Turn E R} (ht : I t.request) : Grows I d (t :: d') :=
  h.trans ⟨[t], rfl, by simpa using ht⟩

theorem mem (h : Grows I d d') {t : Turn E R} (ht : t ∈ d) : t ∈ d' := by
  obtain ⟨new, rfl, -⟩ := h
  exact List.mem_append_right new ht

theorem old (h : Grows I d d') {t : Turn E R} (ht : t ∈ d') : I t.request ∨ t ∈ d := by
  obtain ⟨new, rfl, hnew⟩ := h
  exact (List.mem_append.1 ht).imp_left (hnew t)

end Grows

/-- a task that asks only what is always allowed -/
theorem Only.follows {I : Q → Prop} {p : Coro M E R α} (h : p.Only I)
    (hallows : ∀ d q, I q → P.allows d q) (d : Dialogue E R) :
    Follows P p d fun _ d' => Grows I d d' := by
  have hfrom : ∀ d', Grows I d d' → Follows P p d' fun _ d' => Grows I d d' := by
    induction p with
    | ret a => exact fun d' hd => hd
    | raise e => exact fun d' hd => hd
    | get k ih => exact fun d' hd m => ih m (h m) d' hd
    | put m k ih => exact fun d' hd => ih h d' hd
    | await q k ih =>
      exact fun d' hd => ⟨hallows d' q h.1, fun r _ => ih r (h.2 r) _ (hd.cons h.1)⟩
  exact hfrom d (.refl d)

end Rules

/-- every request was allowed when it was issued, and every reply was as relied on -/
def Protocol.Kept (P : Protocol E R) : Dialogue E R → Prop
  | [] => True
  | t :: d => (P.allows d t.request ∧ P.rely t.request t.reply) ∧ P.Kept d

/-- the requests, each with the dialogue before it -/
def issues : Dialogue E R → List (Dialogue E R × Q)
  | [] => []
  | t :: d => (d, t.request) :: issues d

theorem Protocol.Kept.allowed {P : Protocol E R} {d : Dialogue E R} (h : P.Kept d) :
    ∀ i ∈ issues d, P.allows i.1 i.2 := by
  induction d with
  | nil => simp [issues]
  | cons t d ih =>
    intro i hi
    rcases List.mem_cons.1 hi with rfl | hi
    · exact h.1.1
    · exact ih h.2 i hi

/-- a dialogue before a request is an end of the whole dialogue -/
theorem mem_of_mem_issues {d : Dialogue E R} {i : Dialogue E R × Q} (h : i ∈ issues d)
    {t : Turn E R} (ht : t ∈ i.1) : t ∈ d := by
  induction d with
  | nil => simp [issues] at h
  | cons t' d ih =>
    rcases List.mem_cons.1 h with rfl | h
    · exact List.mem_cons_of_mem t' ht
    · exact List.mem_cons_of_mem t' (ih h)

theorem mem_issues {d : Dialogue E R} {i : Dialogue E R × Q} (h : i ∈ issues d) :
    ∃ t ∈ d, t.request = i.2 := by
  induction d with
  | nil => simp [issues] at h
  | cons t d ih =>
    rcases List.mem_cons.1 h with rfl | h
    · exact ⟨t, List.mem_cons_self, rfl⟩
    · obtain ⟨t', ht', hreq⟩ := ih h
      exact ⟨t', List.mem_cons_of_mem t ht', hreq⟩

/-! ## Many tasks -/

/-- where a task stands: at its end, at a request that is not replied, or before a segment -/
inductive Standing (M E : Type) {Q : Type} (R : Q → Type) (α : Type) : Type where
  | ended (r : Except E α)
  | asking (q : Q) (k : Except E (R q) → Coro M E R α)
  | ready (p : Coro M E R α)

def Standing.ofPaused : Paused M E R α → Standing M E R α
  | .done r => ended r
  | .waiting q k => asking q k

/-- what a task may still do -/
def Standing.Proper (P : Protocol E R) (d : Dialogue E R) (post : Except E α → Dialogue E R → Prop) :
    Standing M E R α → Prop
  | ended r => post r d
  | asking q k => P.allows d q ∧ ∀ r, P.rely q r → Follows P (k r) (⟨q, r⟩ :: d) post
  | ready p => Follows P p d post

/-- a segment of a task that may be run leaves it where it may stop -/
theorem Standing.proper_settle {P : Protocol E R} {d : Dialogue E R}
    {post : Except E α → Dialogue E R → Prop} {p : Coro M E R α} (h : Follows P p d post) (m : M) :
    (ofPaused (p.settle m).2).Proper P d post := by
  have hs := h.settle m
  cases hp : (p.settle m).2 with
  | done r => rwa [hp] at hs
  | waiting q k => rwa [hp] at hs

/-- a task, what it was started for, its dialogue and where it stands, or stood when its node crashed -/
structure Party (M E : Type) {Q : Type} (R : Q → Type) (α T : Type) where
  node : ℕ
  topic : T
  dialogue : Dialogue E R
  state : Standing M E R α
  alive : Bool

namespace Party

/-- a request not replied yet -/
def pending (p : Party M E R α T) : Option Q :=
  match p.state with
  | .asking q _ => some q
  | _ => none

/-- the requests of the task, each with the dialogue before it -/
def issues (p : Party M E R α T) : List (Dialogue E R × Q) :=
  p.pending.toList.map (fun q => (p.dialogue, q)) ++ Coro.issues p.dialogue

/-- the node of the task crashes -/
def killed (node : ℕ) (p : Party M E R α T) : Party M E R α T :=
  if p.node = node then { p with alive := false } else p

/-- the party when its request is replied -/
def served (p : Party M E R α T) (q : Q) (r : Except E (R q)) (rest : Coro M E R α) :
    Party M E R α T :=
  { p with dialogue := ⟨q, r⟩ :: p.dialogue, state := .ready rest }

/-- the party after a segment -/
def resumed (p : Party M E R α T) (s : Paused M E R α) : Party M E R α T :=
  { p with state := .ofPaused s }

@[simp] theorem killed_topic (node : ℕ) (p : Party M E R α T) : (p.killed node).topic = p.topic := by
  unfold killed; split_ifs <;> rfl

@[simp] theorem killed_node (node : ℕ) (p : Party M E R α T) : (p.killed node).node = p.node := by
  unfold killed; split_ifs <;> rfl

@[simp] theorem killed_dialogue (node : ℕ) (p : Party M E R α T) :
    (p.killed node).dialogue = p.dialogue := by
  unfold killed; split_ifs <;> rfl

@[simp] theorem killed_state (node : ℕ) (p : Party M E R α T) : (p.killed node).state = p.state := by
  unfold killed; split_ifs <;> rfl

theorem killed_alive {node : ℕ} {p : Party M E R α T} (h : (p.killed node).alive = true) :
    p.alive = true ∧ p.node ≠ node := by
  by_cases hnode : p.node = node
  · simp [killed, hnode] at h
  · rw [killed, if_neg hnode] at h
    exact ⟨h, hnode⟩

/-- what was asked was allowed, and what is asked next will be -/
structure Conforms (P : Protocol E R) (post : Except E α → Dialogue E R → Prop)
    (p : Party M E R α T) : Prop where
  kept : P.Kept p.dialogue
  proper : p.state.Proper P p.dialogue post

variable {P : Protocol E R} {post : Except E α → Dialogue E R → Prop} {p : Party M E R α T}

/-- every request was allowed by the dialogue before it -/
theorem Conforms.allowed (h : p.Conforms P post) : ∀ i ∈ p.issues, P.allows i.1 i.2 := by
  intro i hi
  rcases List.mem_append.1 hi with hi | hi
  · obtain ⟨q, hq, rfl⟩ := List.mem_map.1 hi
    have hproper := h.proper
    unfold pending at hq
    split at hq
    · rename_i q' k hstate
      rw [hstate] at hproper
      obtain rfl : q = q' := by simpa using hq
      exact hproper.1
    · simp at hq
  · exact h.kept.allowed i hi

/-- what needs a reply `W` and is asked once at most is asked no more often than `W` is replied -/
theorem Conforms.countP_le (h : p.Conforms P post) {I : Q → Bool} {W : Turn E R → Bool}
    (hallow : ∀ d q, P.allows d q → I q = true →
      (∃ t ∈ d, W t = true) ∧ ∀ t ∈ d, I t.request = false) :
    (p.issues.countP fun i => I i.2) ≤ p.dialogue.countP W := by
  have hfirst : ∀ d q, P.allows d q → I q = true →
      ((Coro.issues d).countP fun i => I i.2) = 0 ∧ 0 < d.countP W := by
    intro d q hq hI
    obtain ⟨hwon, hnone⟩ := hallow d q hq hI
    refine ⟨List.countP_eq_zero.2 fun i hi => ?_, List.countP_pos_iff.2 hwon⟩
    obtain ⟨t, ht, hreq⟩ := mem_issues hi
    simp [← hreq, hnone t ht]
  have hpast : ∀ d, P.Kept d → ((Coro.issues d).countP fun i => I i.2) ≤ d.countP W := by
    intro d hd
    induction d with
    | nil => simp [Coro.issues]
    | cons t d ih =>
      rw [Coro.issues, List.countP_cons, List.countP_cons]
      by_cases hI : I t.request = true
      · obtain ⟨hzero, hpos⟩ := hfirst d t.request hd.1.1 hI
        rw [if_pos hI, hzero]
        omega
      · rw [if_neg hI]
        exact (ih hd.2).trans (Nat.le_add_right _ _)
  rw [issues, List.countP_append]
  cases hpending : p.pending with
  | none => simpa using hpast _ h.kept
  | some q =>
    by_cases hI : I q = true
    · have hq : P.allows p.dialogue q := h.allowed (p.dialogue, q) (by simp [issues, hpending])
      obtain ⟨hzero, hpos⟩ := hfirst p.dialogue q hq hI
      simpa [hI, hzero] using Nat.succ_le_of_lt hpos
    · simpa [hI] using hpast _ h.kept

/-- what was replied before a request was replied to the task -/
theorem mem_of_issues {i : Dialogue E R × Q} (hi : i ∈ p.issues) {t : Turn E R} (ht : t ∈ i.1) :
    t ∈ p.dialogue := by
  rcases List.mem_append.1 hi with hi | hi
  · obtain ⟨q, -, rfl⟩ := List.mem_map.1 hi
    exact ht
  · exact mem_of_mem_issues hi ht

/-- what needs a reply `W` is not asked by a task that was not given it -/
theorem Conforms.any_le (h : p.Conforms P post) {I : Q → Bool} {W : Turn E R → Bool}
    (hallow : ∀ d q, P.allows d q → I q = true → ∃ t ∈ d, W t = true) :
    (if p.issues.any (fun i => I i.2) then 1 else 0) ≤ p.dialogue.countP W := by
  split_ifs with hany
  · obtain ⟨i, hi, hI⟩ := List.any_eq_true.1 hany
    obtain ⟨t, ht, hwon⟩ := hallow i.1 i.2 (h.allowed i hi) hI
    exact List.countP_pos_iff.2 ⟨t, mem_of_issues hi ht, hwon⟩
  · exact Nat.zero_le _

end Party

/-- the nodes' memories, the environment and the tasks -/
structure Assembly (M E : Type) {Q : Type} (R : Q → Type) (α T D : Type) where
  memory : ℕ → M
  environment : D
  parties : List (Party M E R α T)

/-- what the tasks run and how they are answered -/
structure Setting (M E : Type) {Q : Type} (R : Q → Type) (α T D C : Type) where
  program : T → Coro M E R α
  /-- the reply on a node, within the choice `C` that is left, and the environment after it -/
  respond : ℕ → C → (q : Q) → D → Except E (R q) × D
  /-- the memory of a node that has just started -/
  fresh : M
  /-- the environment without what a crashing node held -/
  lost : ℕ → D → D

inductive AssemblyOp (M T C : Type) : Type where
  | start (node : ℕ) (topic : T)
  /-- the request of a task is answered, and the task becomes ready -/
  | serve (party : ℕ) (choice : C)
  /-- a ready task runs its next segment -/
  | resume (party : ℕ)
  | crash (node : ℕ)
  /-- anything else that changes the memory of a node -/
  | disturb (node : ℕ) (f : M → M)

namespace Assembly

def setMemory (w : Assembly M E R α T D) (node : ℕ) (m : M) : Assembly M E R α T D :=
  { w with memory := Function.update w.memory node m }

/-- a party just started -/
def opened (S : Setting M E R α T D C) (node : ℕ) (topic : T) : Party M E R α T :=
  ⟨node, topic, [], .ready (S.program topic), true⟩

def serve (S : Setting M E R α T D C) (w : Assembly M E R α T D) (i : ℕ) (choice : C) :
    Assembly M E R α T D :=
  match w.parties[i]? with
  | some p =>
    match p.state with
    | .asking q k =>
      if p.alive then
        let r := S.respond p.node choice q w.environment
        { w with environment := r.2, parties := w.parties.set i (p.served q r.1 (k r.1)) }
      else w
    | _ => w
  | none => w

def resume (w : Assembly M E R α T D) (i : ℕ) : Assembly M E R α T D :=
  match w.parties[i]? with
  | some p =>
    match p.state with
    | .ready rest =>
      if p.alive then
        let s := rest.settle (w.memory p.node)
        { w.setMemory p.node s.1 with parties := w.parties.set i (p.resumed s.2) }
      else w
    | _ => w
  | none => w

def step (S : Setting M E R α T D C) (w : Assembly M E R α T D) :
    AssemblyOp M T C → Assembly M E R α T D
  | .start node topic => { w with parties := w.parties ++ [opened S node topic] }
  | .serve i choice => w.serve S i choice
  | .resume i => w.resume i
  | .crash node =>
    { w.setMemory node S.fresh with
      environment := S.lost node w.environment
      parties := w.parties.map (Party.killed node) }
  | .disturb node f => w.setMemory node (f (w.memory node))

/-- what a step does to the parties and the environment -/
inductive Step (S : Setting M E R α T D C) (w : Assembly M E R α T D) :
    AssemblyOp M T C → Assembly M E R α T D → Prop where
  | idle {op w'} (hparties : w'.parties = w.parties) (henv : w'.environment = w.environment) :
      Step S w op w'
  | started {node topic w'} (hparties : w'.parties = w.parties ++ [opened S node topic])
      (henv : w'.environment = w.environment) : Step S w (.start node topic) w'
  | served {i choice w'} (p : Party M E R α T) (q : Q) (k : Except E (R q) → Coro M E R α)
      (hp : w.parties[i]? = some p) (hstate : p.state = .asking q k) (halive : p.alive = true)
      (hparties : w'.parties = w.parties.set i (p.served q
        (S.respond p.node choice q w.environment).1
        (k (S.respond p.node choice q w.environment).1)))
      (henv : w'.environment = (S.respond p.node choice q w.environment).2) :
      Step S w (.serve i choice) w'
  | resumed {i w'} (p : Party M E R α T) (rest : Coro M E R α) (m : M)
      (hp : w.parties[i]? = some p) (hstate : p.state = .ready rest)
      (hparties : w'.parties = w.parties.set i (p.resumed (rest.settle m).2))
      (henv : w'.environment = w.environment) : Step S w (.resume i) w'
  | crashed {node w'} (hparties : w'.parties = w.parties.map (Party.killed node))
      (henv : w'.environment = S.lost node w.environment) : Step S w (.crash node) w'

theorem serve_cases (S : Setting M E R α T D C) (w : Assembly M E R α T D) (i : ℕ) (choice : C) :
    Step S w (.serve i choice) (w.serve S i choice) := by
  unfold serve
  split
  · rename_i p hp
    split
    · rename_i q k hstate
      split_ifs with halive
      · exact .served p q k hp hstate halive rfl rfl
      · exact .idle rfl rfl
    · exact .idle rfl rfl
  · exact .idle rfl rfl

theorem resume_cases (S : Setting M E R α T D C) (w : Assembly M E R α T D) (i : ℕ) :
    Step S w (.resume i) (w.resume i) := by
  unfold resume
  split
  · rename_i p hp
    split
    · rename_i rest hstate
      split_ifs
      · exact .resumed p rest (w.memory p.node) hp hstate rfl rfl
      · exact .idle rfl rfl
    · exact .idle rfl rfl
  · exact .idle rfl rfl

theorem step_cases (S : Setting M E R α T D C) (w : Assembly M E R α T D) (op : AssemblyOp M T C) :
    Step S w op (w.step S op) := by
  cases op with
  | start node topic => exact .started rfl rfl
  | serve i choice => exact serve_cases S w i choice
  | resume i => exact resume_cases S w i
  | crash node => exact .crashed rfl rfl
  | disturb node f => exact .idle rfl rfl

/-! ## What holds of every task -/

section Runs

variable {S : Setting M E R α T D C} {w : Assembly M E R α T D}

/-- what every step keeps of each party -/
structure Keeps (S : Setting M E R α T D C) (I : D → Party M E R α T → Prop) : Prop where
  serve : ∀ e choice p q k, p.state = .asking q k → p.alive = true → I e p →
    I (S.respond p.node choice q e).2
      (p.served q (S.respond p.node choice q e).1 (k (S.respond p.node choice q e).1))
  resume : ∀ e p rest m, p.state = .ready rest → I e p → I e (p.resumed (rest.settle m).2)
  /-- another party is replied -/
  frame : ∀ e node choice q p, I e p → I (S.respond node choice q e).2 p
  crash : ∀ e node p, I e p → I (S.lost node e) (p.killed node)

theorem step_parties {I : D → Party M E R α T → Prop} (hI : Keeps S I) (op : AssemblyOp M T C)
    (hstart : ∀ node topic, op = .start node topic → I w.environment (opened S node topic))
    (hw : ∀ p ∈ w.parties, I w.environment p) :
    ∀ p ∈ (w.step S op).parties, I (w.step S op).environment p := by
  have hstep := step_cases S w op
  generalize w.step S op = w' at hstep
  cases hstep with
  | idle hparties henv =>
    rw [henv, hparties]
    exact hw
  | @started node topic _ hparties henv =>
    rw [henv, hparties]
    intro p hp
    rcases List.mem_append.1 hp with hp | hp
    · exact hw p hp
    · rw [List.mem_singleton.1 hp]
      exact hstart node topic rfl
  | @served i choice _ p' q k hp' hstate halive hparties henv =>
    rw [henv, hparties]
    intro p hp
    rcases List.mem_or_eq_of_mem_set hp with hp | rfl
    · exact hI.frame _ p'.node choice q p (hw p hp)
    · exact hI.serve _ choice p' q k hstate halive (hw p' (List.mem_of_getElem? hp'))
  | @resumed i _ p' rest m hp' hstate hparties henv =>
    rw [henv, hparties]
    intro p hp
    rcases List.mem_or_eq_of_mem_set hp with hp | rfl
    · exact hw p hp
    · exact hI.resume _ p' rest m hstate (hw p' (List.mem_of_getElem? hp'))
  | @crashed node _ hparties henv =>
    rw [henv, hparties]
    intro p hp
    obtain ⟨p', hp', rfl⟩ := List.mem_map.1 hp
    exact hI.crash _ node p' (hw p' hp')

variable {P : T → Protocol E R} {post : T → Except E α → Dialogue E R → Prop}

/-- **Conformance.** When every program follows its protocol and the environment replies as is relied
on, every request of every task was allowed when it was issued, in every run. -/
theorem run_conforms (hprogram : ∀ t, Follows (P t) (S.program t) [] (post t))
    (hrespond : ∀ t node choice q e, (P t).rely q (S.respond node choice q e).1)
    (hw : w.parties = []) (ops : List (AssemblyOp M T C)) :
    ∀ p ∈ (run (step S) w ops).parties, p.Conforms (P p.topic) (post p.topic) := by
  have hkeeps : Keeps S fun _ p => p.Conforms (P p.topic) (post p.topic) := by
    refine ⟨fun e choice p q k hstate _ hp => ?_, fun e p rest m hstate hp => ?_,
      fun _ _ _ _ _ hp => hp, fun e node p hp => ?_⟩
    · have hproper := hp.proper
      rw [hstate] at hproper
      have hr := hrespond p.topic p.node choice q e
      exact ⟨⟨⟨hproper.1, hr⟩, hp.kept⟩, hproper.2 _ hr⟩
    · have hproper := hp.proper
      rw [hstate] at hproper
      exact ⟨hp.kept, Standing.proper_settle hproper m⟩
    · exact ⟨by simpa using hp.kept, by simpa using hp.proper⟩
  refine run_inv (P := fun w : Assembly M E R α T D => ∀ p ∈ w.parties,
    p.Conforms (P p.topic) (post p.topic)) ?_ ?_ ops
  · intro w op hw
    exact step_parties hkeeps op (fun node topic _ => ⟨trivial, hprogram topic⟩) hw
  · simp [hw]

/-- the environment does not give the replies `won` to a task on a node, once it is as `gone` says -/
structure Bars (S : Setting M E R α T D C) (won : T → Turn E R → Prop) (gone : ℕ → T → D → Prop) :
    Prop where
  give : ∀ node t choice q e, gone node t e → ¬ won t ⟨q, (S.respond node choice q e).1⟩
  keep : ∀ node t node' choice q e, gone node t e → gone node t (S.respond node' choice q e).2
  lost : ∀ node t node' e, node ≠ node' → gone node t e → gone node t (S.lost node' e)

/-- **Barred replies.** What the environment does not reply to a task from its start on, as long as its
node is up, that task is never replied. -/
theorem run_barred {won : T → Turn E R → Prop} {gone : ℕ → T → D → Prop} {B : T → Prop}
    (h : Bars S won gone) (hw : w.parties = []) {ops : List (AssemblyOp M T C)}
    (hops : Along (step S)
      (fun w op => ∀ node t, op = .start node t → B t → gone node t w.environment) w ops) :
    ∀ p ∈ (run (step S) w ops).parties, B p.topic → ∀ t ∈ p.dialogue, ¬ won p.topic t := by
  have hkeeps : Keeps S fun e p => B p.topic →
      (∀ t ∈ p.dialogue, ¬ won p.topic t) ∧ (p.alive = true → gone p.node p.topic e) := by
    refine ⟨fun e choice p q k _ halive hp hb => ?_, fun e p rest m _ hp => hp,
      fun e node choice q p hp hb => ?_, fun e node p hp hb => ?_⟩
    · obtain ⟨hnone, hlive⟩ := hp hb
      refine ⟨fun t ht => ?_, fun _ => h.keep _ _ _ _ _ _ (hlive halive)⟩
      rcases List.mem_cons.1 ht with rfl | ht
      · exact h.give _ _ _ _ _ (hlive halive)
      · exact hnone t ht
    · exact ⟨(hp hb).1, fun halive => h.keep _ _ _ _ _ _ ((hp hb).2 halive)⟩
    · rw [Party.killed_topic] at hb ⊢
      rw [Party.killed_dialogue, Party.killed_node]
      refine ⟨(hp hb).1, fun halive => ?_⟩
      obtain ⟨halive, hnode⟩ := Party.killed_alive halive
      exact h.lost _ _ _ _ hnode ((hp hb).2 halive)
  have hall := along_inv (P := fun w : Assembly M E R α T D => ∀ p ∈ w.parties, B p.topic →
      (∀ t ∈ p.dialogue, ¬ won p.topic t) ∧ (p.alive = true → gone p.node p.topic w.environment))
    (fun w op hop hw => step_parties hkeeps op
      (fun node topic hstart hb => ⟨by simp [opened], fun _ => hop node topic hstart hb⟩) hw)
    (by simp [hw]) hops
  exact fun p hp hb => (hall p hp hb).1

/-- the replies of a kind that were given to the tasks -/
def won (W : Turn E R → Bool) (w : Assembly M E R α T D) : ℕ :=
  (w.parties.map fun p => p.dialogue.countP W).sum

/-- the requests of a kind that the tasks issued, those not replied included -/
def asked (I : T → Q → Bool) (w : Assembly M E R α T D) : ℕ :=
  (w.parties.map fun p => p.issues.countP fun i => I p.topic i.2).sum

/-- the tasks that issued a request of a kind -/
def askers (I : T → Q → Bool) (w : Assembly M E R α T D) : ℕ :=
  (w.parties.map fun p => if p.issues.any (fun i => I p.topic i.2) then 1 else 0).sum

theorem sum_map_set {γ : Type} (f : γ → ℕ) {l : List γ} {i : ℕ} {a : γ} (h : l[i]? = some a) (a' : γ) :
    ((l.set i a').map f).sum + f a = (l.map f).sum + f a' := by
  induction l generalizing i with
  | nil => simp at h
  | cons b l ih =>
    cases i with
    | zero =>
      obtain rfl : b = a := by simpa using h
      simp only [List.set_cons_zero, List.map_cons, List.sum_cons]
      omega
    | succ i =>
      have := ih (i := i) (by simpa using h)
      simp only [List.set_cons_succ, List.map_cons, List.sum_cons]
      omega

variable {W : Turn E R → Bool} {taken : D → Prop}

/-- the environment gives the replies `W` at most once -/
structure GivesOnce (S : Setting M E R α T D C) (W : Turn E R → Bool) (taken : D → Prop) : Prop where
  win : ∀ node choice q e, W ⟨q, (S.respond node choice q e).1⟩ = true →
    ¬ taken e ∧ taken (S.respond node choice q e).2
  keep : ∀ node choice q e, taken e → taken (S.respond node choice q e).2
  lost : ∀ node e, taken e → taken (S.lost node e)

/-- a reply that is given only once, given to all the tasks together -/
theorem run_won (h : GivesOnce S W taken) (hw : w.parties = []) (ops : List (AssemblyOp M T C)) :
    (run (step S) w ops).won W ≤ 1 := by
  have hinv : ∀ (w : Assembly M E R α T D) op,
      w.won W ≤ 1 ∧ (0 < w.won W → taken w.environment) →
      (w.step S op).won W ≤ 1 ∧ (0 < (w.step S op).won W → taken (w.step S op).environment) := by
    intro w op hw
    have hstep := step_cases S w op
    generalize w.step S op = w' at hstep
    cases hstep with
    | idle hparties henv => rwa [won, hparties, henv]
    | started hparties henv =>
      have hsum : w'.won W = w.won W := by simp [won, hparties, opened]
      rwa [hsum, henv]
    | @served i choice _ p q k hp hstate _ hparties henv =>
      have hsum := sum_map_set (fun p => p.dialogue.countP W) hp (p.served q
        (S.respond p.node choice q w.environment).1
        (k (S.respond p.node choice q w.environment).1))
      rw [← hparties] at hsum
      simp only [Party.served, List.countP_cons] at hsum
      rw [henv]
      by_cases hwon : W ⟨q, (S.respond p.node choice q w.environment).1⟩ = true
      · obtain ⟨hfree, htaken⟩ := h.win p.node choice q w.environment hwon
        have hzero : w.won W = 0 := by
          by_contra hne
          exact hfree (hw.2 (Nat.pos_of_ne_zero hne))
        rw [if_pos hwon] at hsum
        rw [won] at hzero ⊢
        exact ⟨by omega, fun _ => htaken⟩
      · rw [if_neg hwon] at hsum
        rw [won] at hw ⊢
        exact ⟨by omega, fun hpos => h.keep _ _ _ _ (hw.2 (by omega))⟩
    | @resumed i _ p rest m hp hstate hparties henv =>
      have hsum := sum_map_set (fun p => p.dialogue.countP W) hp (p.resumed (rest.settle m).2)
      rw [← hparties] at hsum
      simp only [Party.resumed] at hsum
      rw [henv]
      rw [won] at hw ⊢
      exact ⟨by omega, fun hpos => hw.2 (by omega)⟩
    | crashed hparties henv =>
      have hsum : w'.won W = w.won W := by simp [won, hparties, Function.comp_def]
      rw [hsum, henv]
      exact ⟨hw.1, fun hpos => h.lost _ _ (hw.2 hpos)⟩
  have hzero : w.won W = 0 := by simp [won, hw]
  have hfinal := run_inv (P := fun w : Assembly M E R α T D =>
    w.won W ≤ 1 ∧ (0 < w.won W → taken w.environment)) hinv
    ⟨hzero.trans_le zero_le_one, fun hpos => absurd hzero hpos.ne'⟩ ops
  exact hfinal.1

/-- **Once over all tasks.** A request that a protocol allows only after a reply given once, and only
once to a task, is issued at most once in every run. -/
theorem run_once (hprogram : ∀ t, Follows (P t) (S.program t) [] (post t))
    (hrespond : ∀ t node choice q e, (P t).rely q (S.respond node choice q e).1)
    {I : T → Q → Bool} (hallow : ∀ t d q, (P t).allows d q → I t q = true →
      (∃ t' ∈ d, W t' = true) ∧ ∀ t' ∈ d, I t t'.request = false)
    (honce : GivesOnce S W taken) (hw : w.parties = []) (ops : List (AssemblyOp M T C)) :
    (run (step S) w ops).asked I ≤ 1 := by
  refine le_trans ?_ (run_won honce hw ops)
  refine List.sum_le_sum fun p hp => ?_
  exact (run_conforms hprogram hrespond hw ops p hp).countP_le (hallow p.topic)

/-- **One task.** What a protocol allows only after a reply given once is asked by at most one task in
every run, however often that task asks it. -/
theorem run_one_asker (hprogram : ∀ t, Follows (P t) (S.program t) [] (post t))
    (hrespond : ∀ t node choice q e, (P t).rely q (S.respond node choice q e).1)
    {I : T → Q → Bool}
    (hallow : ∀ t d q, (P t).allows d q → I t q = true → ∃ t' ∈ d, W t' = true)
    (honce : GivesOnce S W taken) (hw : w.parties = []) (ops : List (AssemblyOp M T C)) :
    (run (step S) w ops).askers I ≤ 1 := by
  refine le_trans ?_ (run_won honce hw ops)
  refine List.sum_le_sum fun p hp => ?_
  exact (run_conforms hprogram hrespond hw ops p hp).any_le (hallow p.topic)

end Runs

end Assembly

end Lib.Coro
