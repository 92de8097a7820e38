/-
What one operation does to the world, and what every reachable world satisfies.

  • `Effect`: the commit of a request, by what it writes; `extends_of_run`: it extends the database.
  • `World.Sound`: memories are sound, tasks meet their contract, stored approvals were minted.
  • `Step`: the operations as a relation, each with what is known of the segment or the commit.
  • `run_sound`, `run_induction`: soundness of every reachable world, and the invariant rule that
    hands each step of a run to a proof in this form.
-/
import CapitalCipher.System.Workers
import CapitalCipher.Database.Effects

namespace CapitalCipher

open Lib Coro Repository

variable {cfg : Config}

/-! ## Commits -/

/-- what the commit of a request wrote -/
inductive Effect (now : Time) (q : Request) (db db' : Db) : Prop where
  | evaluated {k a} (hq : q = .saveCentralRiskEvaluation k a) (h : Evaluated k a db db')
  | consumed {a o mirror} (hq : q = .consumeOrderApproval a o mirror)
      (h : ConsumedPaper now a o mirror db db')
  | saved {o} (hq : q = .savePaperOrder o) (h : SavedPaper o db db')
  | created {o command} (hq : q = .createOmsOrder o command) (h : CreatedOms now o command db db')
  | controlled {active reason actor correlationId row}
      (hq : q = .setRiskControl active reason actor correlationId)
      (h : Controlled now active reason actor correlationId row db db')
  | frame (h : db.OmsFrame db')

variable {now : Time} {locked : List String} {q : Request} {tx : Txn q.Reply} {v : q.Reply}
  {db db' : Db}

theorem effect_of_run (htx : q.transaction now locked = some tx) (h : tx.run db = .ok (v, db')) :
    Effect now q db db' := by
  cases q <;> simp only [Request.transaction, Option.some.injEq, reduceCtorEq] at htx <;> subst htx
  case loadCentralRiskEvaluationByKey k =>
    exact .frame ((loadCentralRiskEvaluationByKey_ok h).1 ▸ .refl _)
  case saveCentralRiskEvaluation k a =>
    rcases saveCentralRiskEvaluation_ok h with he | he
    · cases he
      exact .frame (.refl _)
    · exact .evaluated rfl he
  case consumeOrderApproval a o m => exact .consumed rfl (consumeOrderApproval_ok h)
  case savePaperOrder o => exact .saved rfl (savePaperOrder_ok h)
  case createOmsOrder o c =>
    rcases createOmsOrder_ok h with ⟨he, -⟩ | ⟨-, he⟩
    · cases he
      exact .frame (.refl _)
    · exact .created rfl he
  case loadOmsOrder i =>
    cases (loadOmsOrder_ok h).1
    exact .frame (.refl _)
  case listOmsOrders e v =>
    cases (listOmsOrders_ok h).1
    exact .frame (.refl _)
  case claimExecutionCommand w l => exact .frame (claim_frame _ _ _ h)
  case finishExecutionCommand c w o e err => exact .frame (finish_frame _ _ _ h)
  case queueCancelCommand o c => exact .frame (cancel_frame _ _ _ h)
  case persistReconciliation r ms s os => exact .frame (persist_frame _ _ _ h)
  case loadOpenPositionExposures =>
    cases (loadOpenPositionExposures_ok h).2
    exact .frame (.refl _)
  case loadRiskControlState =>
    cases loadRiskControlState_ok h
    exact .frame (.refl _)
  case setRiskControl a r w c => exact .controlled rfl (setRiskControl_ok h)
  case saveAuditLog r =>
    cases h
    exact .frame (.refl _)
  case market q => exact .frame (market_frame q _ _ _ h).omsFrame

theorem extends_of_run (htx : q.transaction now locked = some tx) (h : tx.run db = .ok (v, db')) :
    db.Extends db' := by
  cases q <;> simp only [Request.transaction, Option.some.injEq, reduceCtorEq] at htx <;> subst htx
  case loadCentralRiskEvaluationByKey k =>
    exact (loadCentralRiskEvaluationByKey_ok h).1 ▸ .refl _
  case saveCentralRiskEvaluation k a =>
    rcases saveCentralRiskEvaluation_ok h with he | he
    · cases he
      exact .refl _
    · exact he.extends
  case consumeOrderApproval a o m => exact (consumeOrderApproval_ok h).extends
  case savePaperOrder o => exact (savePaperOrder_ok h).extends
  case createOmsOrder o c =>
    rcases createOmsOrder_ok h with ⟨he, -⟩ | ⟨-, he⟩
    · cases he
      exact .refl _
    · exact he.extends
  case loadOmsOrder i =>
    cases (loadOmsOrder_ok h).1
    exact .refl _
  case listOmsOrders e v =>
    cases (listOmsOrders_ok h).1
    exact .refl _
  case claimExecutionCommand w l => exact claim_extends _ _ _ h
  case finishExecutionCommand c w o e err => exact (finishExecutionCommand_ok h).2.extends
  case queueCancelCommand o c =>
    rcases queueCancelCommand_ok h with he | he
    · cases he
      exact .refl _
    · exact he.extends
  case persistReconciliation r ms s os => exact persist_extends _ _ _ h
  case loadOpenPositionExposures =>
    cases (loadOpenPositionExposures_ok h).2
    exact .refl _
  case loadRiskControlState =>
    cases loadRiskControlState_ok h
    exact .refl _
  case setRiskControl a r w c => exact (setRiskControl_ok h).extends
  case saveAuditLog r =>
    cases h
    exact .refl _
  case market q => exact (market_frame q _ _ _ h).extended

/-- the replies of the transactions are what the tasks rely on -/
theorem admissible_of_run (hm : ∀ a ∈ db.approvals.rows, Minted cfg a)
    (hs : ∀ k ∈ db.evaluations.rows, Sized k) (htx : q.transaction now locked = some tx)
    (h : tx.run db = .ok (v, db')) : Admissible cfg q (.ok v) := by
  cases q <;> simp only [Request.transaction, Option.some.injEq, reduceCtorEq] at htx <;> subst htx
  case loadCentralRiskEvaluationByKey key =>
    rintro k a he
    cases he
    obtain ⟨hk, -, ha⟩ := (loadCentralRiskEvaluationByKey_ok h).2 k a rfl
    exact ⟨hs k hk, fun x hx => hm x (ha x hx).1⟩
  case claimExecutionCommand w l =>
    rintro command order he
    cases he
    obtain ⟨d, -, he | ⟨leased, o, he, hc⟩⟩ := claimExecutionCommand_ok h
    · cases he
    · cases he
      exact ⟨hc.valid, ((d.omsOrders.get?_eq_some).1 hc.order).2⟩
  case createOmsOrder o c =>
    rintro created he
    cases he
    rcases createOmsOrder_ok h with ⟨-, -, he⟩ | ⟨he, -⟩
    · exact he
    · exact congrArg OmsOrder.identity he
  case listOmsOrders e env =>
    rintro os he
    cases he
    exact (listOmsOrders_ok h).2.2
  all_goals trivial

/-! ## Sound worlds -/

/-- a request that was issued at the end of some segment -/
def Asked (cfg : Config) (q : Request) : Prop := ∃ c m, Memory.Sound cfg m ∧ Ask cfg c m q

/-- whatever a task is replied, it goes on under the contract -/
def Continues (cfg : Config) (q : Request) (r : Except Error q.Reply)
    (k : Except Error q.Reply → Program Unit) : Prop :=
  ∀ m, Memory.Sound cfg m → Safe (contract cfg) (k r) (.reply q r) m m (Ends cfg)

def TaskState.Safe (cfg : Config) : TaskState → Prop
  | .waiting q k => Asked cfg q ∧ ∀ r, Admissible cfg q r → Continues cfg q r k
  | .replied q r k => Asked cfg q ∧ Admissible cfg q r ∧ Continues cfg q r k
  | .done _ => True

/-- memories are sound, tasks meet the contract, what is stored was minted by an evaluation -/
structure World.Sound (cfg : Config) (w : World) : Prop where
  memory : ∀ n, (w.mem n).Sound cfg
  tasks : ∀ t ∈ w.tasks, t.state.Safe cfg
  approvals : ∀ a ∈ w.db.approvals.rows, Minted cfg a
  evaluations : ∀ k ∈ w.db.evaluations.rows, Sized k

/-- what holds of a task that waits -/
theorem World.Sound.waiting {w : World} {pre post : List Task} {node g : ℕ} {q : Request}
    {k : Except Error q.Reply → Program Unit} (hw : w.Sound cfg)
    (ht : w.tasks = pre ++ [⟨node, .waiting q k, g⟩] ++ post) :
    Asked cfg q ∧ ∀ r, Admissible cfg q r → Continues cfg q r k :=
  hw.tasks ⟨node, .waiting q k, g⟩ (by rw [ht]; simp)

theorem minted_of_update {T T' : Table orderApprovalSchema} {p : OrderApproval → Bool}
    {f : OrderApproval → OrderApproval} (h : T.update p f = .ok T')
    (hm : ∀ a ∈ T.rows, Minted cfg a) : ∀ a ∈ T'.rows, Minted cfg a := by
  intro a ha
  obtain ⟨b, hb, hba⟩ := Table.Within.of_update h a ha
  rcases approval_evolves hba with rfl | ⟨-, -, hid⟩
  · exact hm b hb
  · exact (hm b hb).congr hid

/-- stored approvals were minted, and stored checks are sized, after a commit too -/
theorem Effect.stored {q : Request} (h : Effect now q db db') (hq : Asked cfg q)
    (ha : ∀ a ∈ db.approvals.rows, Minted cfg a) (hk : ∀ k ∈ db.evaluations.rows, Sized k) :
    (∀ a ∈ db'.approvals.rows, Minted cfg a) ∧ ∀ k ∈ db'.evaluations.rows, Sized k := by
  cases h with
  | @evaluated k a he hv =>
    subst he
    obtain ⟨c, m, -, hsized, hminted, -⟩ := hq
    refine ⟨fun x hx => ?_, fun x hx => ?_⟩
    · have happ := hv.approvals
      cases a with
      | none =>
        simp only at happ
        exact ha x (happ ▸ hx)
      | some a =>
        rw [(Table.insert_ok happ).1] at hx
        rcases List.mem_append.1 hx with hx | hx
        · exact ha x hx
        · obtain rfl := List.mem_singleton.1 hx
          exact hminted x rfl
    · rw [(Table.insert_ok hv.evaluations).1] at hx
      rcases List.mem_append.1 hx with hx | hx
      · exact hk x hx
      · exact List.mem_singleton.1 hx ▸ hsized
  | consumed he hv => exact ⟨minted_of_update hv.approvals ha, by rw [hv.rest]; exact hk⟩
  | saved he hv => rw [hv.rest]; exact ⟨ha, hk⟩
  | created he hv => exact ⟨minted_of_update hv.approvals ha, by rw [hv.rest]; exact hk⟩
  | @controlled active _ _ _ _ he hv =>
    refine ⟨?_, by rw [hv.rest]; exact hk⟩
    have happ := hv.approvals
    split_ifs at happ
    · exact minted_of_update happ ha
    · exact happ ▸ ha
  | frame hv => exact ⟨hv.approvals ▸ ha, hv.evaluations ▸ hk⟩

/-! ## Steps -/

/-- the segment an operation starts: its task so far, its process, and what it was replied -/
inductive Begins (w : World) : Op → List Task → ℕ → ℕ → Trigger → Prop where
  | start {node call} : Begins w (.start node call) [] node 0 .start
  | resume {i node q r k g} (h : w.tasks[i]? = some ⟨node, .replied q r k, g⟩) :
      Begins w (.resume i) [⟨node, .replied q r k, g⟩] node g (.reply q r)

/-- where a segment that meets the contract stops -/
def Stops (cfg : Config) (c : Trigger) (m₀ m : Memory) :
    Paused Memory Error Request.Reply Unit → Prop
  | .done _ => Next c m₀ none
  | .waiting q k => Ask cfg c m q ∧ Next c m₀ (some q) ∧
    ∀ r, Admissible cfg q r → Continues cfg q r k

/-- what one operation may do to a sound world -/
inductive Step (cfg : Config) (w : World) : Op → World → Prop where
  | idle {op} : Step cfg w op w
  | segment {op old node g c pre post m p} (begins : Begins w op old node g c)
      (tasks : w.tasks = pre ++ old ++ post) (sound : m.Sound cfg)
      (did : Segment cfg c (w.mem node) m) (stops : Stops cfg c (w.mem node) m p) :
      Step cfg w op { w.setMem node m with
        tasks := pre ++ w.paused node g p :: post
        history := w.history ++ World.submissions node m p }
  | answered {i a pre post node q k g r} (tasks : w.tasks = pre ++ [⟨node, .waiting q k, g⟩] ++ post)
      (reply : a.toReply q = some r) (rely : Admissible cfg q r)
      (found : w.tasks[i]? = some ⟨node, .waiting q k, g⟩) :
      Step cfg w (.answer i a) { w with tasks := pre ++ ⟨node, .replied q r k, g⟩ :: post }
  | failed {i locked fault pre post node q k g tx e}
      (tasks : w.tasks = pre ++ [⟨node, .waiting q k, g⟩] ++ post)
      (txn : q.transaction (w.mem node).now locked = some tx)
      (why : fault = .refused e ∨ tx.run w.db = .error e)
      (found : w.tasks[i]? = some ⟨node, .waiting q k, g⟩) :
      Step cfg w (.exec i locked fault)
        { w with tasks := pre ++ ⟨node, .replied q (.error e) k, g⟩ :: post }
  | committed {i locked fault pre post node q k g tx v db r}
      (tasks : w.tasks = pre ++ [⟨node, .waiting q k, g⟩] ++ post)
      (txn : q.transaction (w.mem node).now locked = some tx) (run : tx.run w.db = .ok (v, db))
      (reply : fault = .none ∧ r = .ok v ∨ ∃ e, fault = .lost e ∧ r = .error e)
      (found : w.tasks[i]? = some ⟨node, .waiting q k, g⟩) :
      Step cfg w (.exec i locked fault) { w with
        db := db
        tasks := pre ++ ⟨node, .replied q r k, g⟩ :: post
        history := w.history ++ World.changes g w.db db ++ World.handed q v }
  | crash {node} : Step cfg w (.crash node)
      { w.setMem node (.fresh cfg (w.mem node).now) with tasks := w.tasks.map (Task.killed node) }
  | moved {op node m} (sound : m.Sound cfg) (control : m.control = (w.mem node).control)
      (book : m.book = (w.mem node).book) (tally : m.tally = (w.mem node).tally) :
      Step cfg w op (w.setMem node m)

theorem admissible_error {q : Request} (e : Error) : Admissible cfg q (.error e) := by
  cases q <;> simp [Admissible]

theorem admissible_answer {q : Request} {a : Answer} {r : Except Error q.Reply}
    (h : a.toReply q = some r) (ha : a.admissible = true) : Admissible cfg q r := by
  cases q <;> cases a <;> simp only [Answer.toReply, Option.some.injEq, reduceCtorEq] at h <;>
    subst h
  case instrumentRules => trivial
  all_goals
    rintro v rfl
    simpa [Answer.admissible] using ha

theorem set_split {l : List Task} {i : ℕ} {t : Task} (h : l[i]? = some t) :
    ∃ pre post, l = pre ++ [t] ++ post ∧ ∀ t', l.set i t' = pre ++ t' :: post := by
  obtain ⟨hi, rfl⟩ := List.getElem?_eq_some_iff.1 h
  refine ⟨l.take i, l.drop (i + 1), by simp, fun t' => List.set_eq_take_cons_drop t' hi⟩

/-- one task was replaced or added -/
theorem forall_replaced {P : Task → Prop} {pre old post : List Task} {t : Task}
    (h : ∀ u ∈ pre ++ old ++ post, P u) (ht : P t) : ∀ u ∈ pre ++ t :: post, P u := by
  intro u hu
  rcases List.mem_append.1 hu with hu | hu
  · exact h u (by simp [hu])
  · rcases List.mem_cons.1 hu with rfl | hu
    · exact ht
    · exact h u (by simp [hu])

theorem forall_old {P : Task → Prop} {pre post : List Task} {t : Task}
    (h : ∀ u ∈ pre ++ [t] ++ post, P u) : P t := h t (by simp)

/-- a segment of a task that meets the contract -/
theorem step_segment {w : World} {op : Op} {old : List Task} {node g : ℕ} {c : Trigger}
    {p : Program Unit} {pre post : List Task} {put : Task → List Task}
    (hb : Begins w op old node g c) (ht : w.tasks = pre ++ old ++ post)
    (hput : ∀ t, put t = pre ++ t :: post)
    (hp : Safe (contract cfg) p c (w.mem node) (w.mem node) (Ends cfg)) :
    Step cfg w op (w.segment node g p put) := by
  have hs := hp.settle
  simp only [World.segment, hput]
  generalize p.settle (w.mem node) = s at hs
  obtain ⟨m, r | ⟨q, k⟩⟩ := s
  · obtain ⟨hsound, hseg, hnext⟩ := hs
    exact .segment hb ht hsound hseg hnext
  · obtain ⟨⟨hsound, hseg, hask, hnext⟩, hk⟩ := hs
    refine .segment hb ht hsound hseg ⟨hask q rfl, hnext, fun r hr m hm => hk r m hr hm⟩

theorem step_execute (w : World) (i : ℕ) (locked : List String) (fault : Fault) :
    Step cfg w (.exec i locked fault) (w.execute i locked fault) := by
  unfold World.execute
  split
  · rename_i node q k g hi
    split
    · exact .idle
    · rename_i tx htx
      dsimp only
      split
      · rename_i e
        obtain ⟨pre, post, ht, hset⟩ := set_split hi
        rw [hset]
        exact .failed ht htx (.inl rfl) hi
      · rename_i hfault
        split
        · rename_i e hrun
          obtain ⟨pre, post, ht, hset⟩ := set_split hi
          rw [hset]
          exact .failed ht htx (.inr hrun) hi
        · rename_i v db hrun
          obtain ⟨pre, post, ht, hset⟩ := set_split hi
          rw [hset]
          refine .committed ht htx hrun ?_ hi
          cases fault with
          | none => exact .inl ⟨rfl, rfl⟩
          | refused e => exact absurd rfl (hfault e)
          | lost e => exact .inr ⟨e, rfl, rfl⟩
  · exact .idle

/-- **What an operation may do.** From a sound world, `step` is one of the steps above. -/
theorem step_cases {w : World} (hw : w.Sound cfg) (op : Op) :
    Step cfg w op (World.step cfg w op) := by
  cases op with
  | start node call =>
    refine step_segment .start (show w.tasks = w.tasks ++ [] ++ [] by simp) (fun _ => rfl) ?_
    exact ((benign_program call).safe (.start (hw.memory node))).imp fun _ _ _ _ h => h.ends
  | exec i locked fault => exact step_execute w i locked fault
  | answer i a =>
    unfold World.step World.answered
    dsimp only
    split
    · rename_i node q k g hi
      split
      · exact .idle
      · rename_i r hr
        split_ifs with ha
        · obtain ⟨pre, post, ht, hset⟩ := set_split hi
          rw [hset]
          exact .answered ht hr (admissible_answer hr ha) hi
        · exact .idle
    · exact .idle
  | resume i =>
    unfold World.step
    dsimp only
    split
    · rename_i node q r k g hi
      have hsafe := hw.tasks _ (List.mem_of_getElem? hi)
      obtain ⟨pre, post, ht, hset⟩ := set_split hi
      exact step_segment (.resume hi) ht hset (hsafe.2.2 _ (hw.memory node))
    · exact .idle
  | crash node => exact .crash
  | clock node now => exact .moved ((hw.memory node).congr rfl rfl rfl) rfl rfl rfl
  | auditFailMode node on => exact .moved ((hw.memory node).congr rfl rfl rfl) rfl rfl rfl
  | transition node newState =>
    unfold World.step
    dsimp only
    split
    · rename_i sm hsm
      refine .moved ((hw.memory node).congr rfl rfl rfl) ?_ rfl rfl
      rw [(StateMachine.transition_ok hsm).2.2]
      rfl
    · exact .idle

/-- a task a crash may have killed is what it was, or ended -/
theorem killed_state {P : TaskState → Prop} {node : ℕ} {t : Task} (h : P t.state)
    (hdone : ∀ {r}, P (.done r)) : P (Task.killed node t).state := by
  unfold Task.killed
  split
  · exact h
  · split_ifs
    · exact hdone
    · exact h

theorem Step.tasks_safe {w w' : World} {op : Op} (hw : w.Sound cfg) (hs : Step cfg w op w') :
    ∀ t ∈ w'.tasks, t.state.Safe cfg := by
  have hold := hw.tasks
  cases hs with
  | idle => exact hold
  | moved => exact hold
  | @segment _ old node g c pre post m p hb ht hm hseg hstops =>
    rw [ht] at hold
    refine forall_replaced hold ?_
    cases p with
    | done r => trivial
    | waiting q k => exact ⟨⟨c, m, hm, hstops.1⟩, hstops.2.2⟩
  | answered ht hr hrely =>
    have hsafe := hw.waiting ht
    rw [ht] at hold
    exact forall_replaced hold ⟨hsafe.1, hrely, hsafe.2 _ hrely⟩
  | failed ht htx hwhy =>
    have hsafe := hw.waiting ht
    rw [ht] at hold
    exact forall_replaced hold ⟨hsafe.1, admissible_error _, hsafe.2 _ (admissible_error _)⟩
  | @committed i locked fault pre post node q k g tx v db r ht htx hrun hreply =>
    have hsafe := hw.waiting ht
    rw [ht] at hold
    have hrely : Admissible cfg q r := by
      rcases hreply with ⟨-, rfl⟩ | ⟨e, -, rfl⟩
      · exact admissible_of_run hw.approvals hw.evaluations htx hrun
      · exact admissible_error e
    exact forall_replaced hold ⟨hsafe.1, hrely, hsafe.2 _ hrely⟩
  | crash =>
    intro t hmem
    obtain ⟨u, hu, rfl⟩ := List.mem_map.1 hmem
    exact killed_state (hold u hu) trivial

theorem sound_setMem {w : World} {node : ℕ} {m : Memory} (h : ∀ n, (w.mem n).Sound cfg)
    (hm : m.Sound cfg) : ∀ n, ((w.setMem node m).mem n).Sound cfg := by
  intro n
  simp only [World.setMem]
  split_ifs
  · exact hm
  · exact h n

theorem Step.sound {w w' : World} {op : Op} (hw : w.Sound cfg) (hs : Step cfg w op w') :
    w'.Sound cfg := by
  have htasks := hs.tasks_safe hw
  cases hs with
  | idle => exact hw
  | segment _ _ hm _ _ =>
    exact ⟨sound_setMem hw.memory hm, htasks, hw.approvals, hw.evaluations⟩
  | answered => exact ⟨hw.memory, htasks, hw.approvals, hw.evaluations⟩
  | failed => exact ⟨hw.memory, htasks, hw.approvals, hw.evaluations⟩
  | committed ht htx hrun =>
    obtain ⟨ha, hk⟩ := (effect_of_run htx hrun).stored (hw.waiting ht).1 hw.approvals hw.evaluations
    exact ⟨hw.memory, htasks, ha, hk⟩
  | crash => exact ⟨sound_setMem hw.memory (.fresh _ _), htasks, hw.approvals, hw.evaluations⟩
  | moved hm _ _ _ => exact ⟨sound_setMem hw.memory hm, htasks, hw.approvals, hw.evaluations⟩

/-! ## What tasks ask -/

/-- what the task awaits, and all it may still ask, satisfies `P` -/
def TaskState.Only (P : Request → Prop) : TaskState → Prop
  | .waiting q k => P q ∧ ∀ r, (k r).Only P
  | .replied q _ k => P q ∧ ∀ r, (k r).Only P
  | .done _ => True

theorem only_segment {P : Request → Prop} {w : World} {node g : ℕ} {p : Program Unit}
    {put : Task → List Task} {pre old post : List Task} (ht : w.tasks = pre ++ old ++ post)
    (hput : ∀ t, put t = pre ++ t :: post) (hp : p.Only P) (h : ∀ t ∈ w.tasks, t.state.Only P) :
    ∀ t ∈ (w.segment node g p put).tasks, t.state.Only P := by
  have hs := hp.settle (w.mem node)
  simp only [World.segment, hput]
  generalize p.settle (w.mem node) = s at hs
  rw [ht] at h
  apply forall_replaced h
  obtain ⟨m, r | ⟨q, k⟩⟩ := s
  · trivial
  · exact hs

/-- tasks ask what the calls that were started may ask -/
theorem only_step {P : Request → Prop} {w : World} {op : Op} (hw : w.Sound cfg)
    (hcall : ∀ node call, op = .start node call → (call.program cfg).Only P)
    (h : ∀ t ∈ w.tasks, t.state.Only P) : ∀ t ∈ (World.step cfg w op).tasks, t.state.Only P := by
  -- only a reply is new in the tasks that no segment leaves
  have hother : ∀ w', Step cfg w op w' → (∀ {old node g c}, ¬ Begins w op old node g c) →
      ∀ t ∈ w'.tasks, t.state.Only P := by
    intro w' hs hno
    cases hs with
    | idle => exact h
    | moved => exact h
    | segment hb => exact absurd hb hno
    | answered ht =>
      rw [ht] at h
      exact forall_replaced h (forall_old h :)
    | failed ht =>
      rw [ht] at h
      exact forall_replaced h (forall_old h :)
    | committed ht =>
      rw [ht] at h
      exact forall_replaced h (forall_old h :)
    | crash =>
      intro t hmem
      obtain ⟨u, hu, rfl⟩ := List.mem_map.1 hmem
      exact killed_state (h u hu) trivial
  cases op with
  | start node call =>
    exact only_segment (show w.tasks = w.tasks ++ [] ++ [] by simp) (fun _ => rfl)
      (hcall node call rfl) h
  | resume i =>
    unfold World.step
    dsimp only
    split
    · rename_i node q r k g hi
      obtain ⟨pre, post, ht, hset⟩ := set_split hi
      exact only_segment ht hset ((h _ (List.mem_of_getElem? hi)).2 r) h
    · exact h
  | _ => exact hother _ (step_cases hw _) (by rintro _ _ _ _ ⟨⟩)

/-! ## Runs -/

theorem sound_init : (World.init cfg).Sound cfg :=
  ⟨fun _ => .fresh _ _, by simp [World.init], by simp [World.init, Db.empty],
    by simp [World.init, Db.empty]⟩

theorem step_sound (w : World) (op : Op) (h : w.Sound cfg) : (World.step cfg w op).Sound cfg :=
  (step_cases h op).sound h

/-- **Every reachable world is sound**, whatever was interleaved and whatever failed. -/
theorem run_sound (ops : List Op) : (World.run cfg ops).Sound cfg :=
  run_inv step_sound sound_init ops

/-- **The invariant rule.** What holds at first and is kept by every step holds after any run. -/
theorem run_induction {P : World → Prop} (hinit : P (World.init cfg))
    (hstep : ∀ w op w', w.Sound cfg → P w → Step cfg w op w' → P w') (ops : List Op) :
    P (World.run cfg ops) :=
  (run_inv (P := fun w => w.Sound cfg ∧ P w)
    (fun w op h => ⟨step_sound w op h.1, hstep w op _ h.1 h.2 (step_cases h.1 op)⟩)
    ⟨sound_init, hinit⟩ ops).2

/-- the invariant rule for the runs whose operations all meet a condition -/
theorem along_induction {C : World → Op → Prop} {P : World → Prop} (hinit : P (World.init cfg))
    (hstep : ∀ w op w', w.Sound cfg → C w op → P w → Step cfg w op w' → P w') {ops : List Op}
    (h : Along (World.step cfg) C (World.init cfg) ops) : P (World.run cfg ops) :=
  (along_inv (P := fun w => w.Sound cfg ∧ P w)
    (fun w op hc h => ⟨step_sound w op h.1, hstep w op _ h.1 hc h.2 (step_cases h.1 op)⟩)
    ⟨sound_init, hinit⟩ h).2

/-- the invariant rule for the runs whose calls ask for `P` only -/
theorem along_induction_only {P : Request → Prop} {C : World → Op → Prop} {I : World → Prop}
    (hinit : I (World.init cfg))
    (hcall : ∀ w node call, C w (.start node call) → (call.program cfg).Only P)
    (hstep : ∀ w op w', w.Sound cfg → (∀ t ∈ w.tasks, t.state.Only P) → C w op → I w →
      Step cfg w op w' → I w') {ops : List Op}
    (h : Along (World.step cfg) C (World.init cfg) ops) : I (World.run cfg ops) := by
  refine (along_inv (P := fun w => w.Sound cfg ∧ (∀ t ∈ w.tasks, t.state.Only P) ∧ I w) ?_
    ⟨sound_init, by simp [World.init], hinit⟩ h).2.2
  rintro w op hc ⟨hw, hasked, hi⟩
  refine ⟨step_sound w op hw, only_step hw ?_ hasked, hstep w op _ hw hasked hc hi (step_cases hw op)⟩
  rintro node call rfl
  exact hcall w node call hc

/-- the database after more operations extends the database before them -/
theorem Step.extends {w w' : World} {op : Op} (hs : Step cfg w op w') : w.db.Extends w'.db := by
  cases hs with
  | committed _ htx hrun _ => exact extends_of_run htx hrun
  | _ => exact .refl _

theorem run_extends (ops more : List Op) :
    (World.run cfg ops).db.Extends (World.run cfg (ops ++ more)).db := by
  rw [World.run, World.run, run_append]
  let R : World → World → Prop := fun w w' => w.db.Extends w'.db
  have : IsPreorder World R := { refl := fun w => .refl w.db, trans := fun _ _ _ => .trans }
  exact run_rel (R := R) step_sound (fun w op h => (step_cases h op).extends) (run_sound ops) more

end CapitalCipher
