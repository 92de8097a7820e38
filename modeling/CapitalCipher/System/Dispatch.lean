/-
At most one submission per order, whoever dispatches and whatever crashes.

A SUBMIT command is handed out only before its first attempt, and handing it out spends it: attempt
counts only grow, over lease expiries, restarts and lost replies. A worker submits the order it was
handed in the segment after, and only while the in-memory switch of its process is off.

  • `CommandsKept`: attempt counts never go down; `commands_of_run`: every commit keeps them.
  • `Dispatched`: an order was handed out or submitted once, and its command was attempted.
  • `submitted_once`: the invariant over every run.
-/
import CapitalCipher.System.Steps

namespace CapitalCipher

open Lib Coro Tx Repository World

variable {cfg : Config} {now : Time} {locked : List String} {db db' : Db}

/-! ## Attempts only grow -/

/-- no command is lost, and none has fewer attempts -/
def Db.CommandsKept (db db' : Db) : Prop :=
  ∀ c ∈ db.commands.rows, ∃ c' ∈ db'.commands.rows, c'.commandId = c.commandId ∧
    c'.omsOrderId = c.omsOrderId ∧ c'.commandType = c.commandType ∧ c.attemptCount ≤ c'.attemptCount

namespace Db.CommandsKept

theorem of_eq (h : db'.commands = db.commands) : db.CommandsKept db' :=
  fun c hc => ⟨c, h ▸ hc, rfl, rfl, rfl, le_rfl⟩

theorem refl (db : Db) : db.CommandsKept db := of_eq rfl

theorem trans {a b c : Db} (h : a.CommandsKept b) (h' : b.CommandsKept c) : a.CommandsKept c := by
  intro x hx
  obtain ⟨y, hy, hi, ho, ht, hn⟩ := h x hx
  obtain ⟨z, hz, hi', ho', ht', hn'⟩ := h' y hy
  exact ⟨z, hz, hi'.trans hi, ho'.trans ho, ht'.trans ht, hn.trans hn'⟩

instance : IsPreorder Db Db.CommandsKept where
  refl := refl
  trans _ _ _ := trans

theorem of_insert {c : ExecutionCommand} (h : db.commands.insert c = .ok db'.commands) :
    db.CommandsKept db' :=
  fun x hx => ⟨x, by simp [(Table.insert_ok h).1, hx], rfl, rfl, rfl, le_rfl⟩

theorem of_update {p : ExecutionCommand → Bool} {f : ExecutionCommand → ExecutionCommand}
    (h : db.commands.update p f = .ok db'.commands)
    (hf : ∀ c ∈ db.commands.rows, p c = true → c.attemptCount ≤ (f c).attemptCount) :
    db.CommandsKept db' := by
  intro c hc
  refine ⟨_, Table.mem_of_update h hc, ?_⟩
  split_ifs with hp
  · obtain ⟨hi, ho, ht, -⟩ := command_guard ((Table.update_ok h).2 c hc hp)
    exact ⟨hi.symm, ho.symm, ht.symm, hf c hc hp⟩
  · exact ⟨rfl, rfl, rfl, le_rfl⟩

end Db.CommandsKept

theorem expireCommand_kept (command : ExecutionCommand) :
    Keeps Db.CommandsKept (expireCommand now command) :=
  fun _ _ _ h => .of_update (expireCommand_ok h).commands fun _ _ _ => le_rfl

/-- a command is handed out before its first attempt, which is then counted -/
theorem Repository.Claimed.spends {workerId : String} {lease : ℕ} {leased : ExecutionCommand}
    {order : OmsOrder} (h : Claimed now workerId lease leased order db db') :
    ∃ c ∈ db.commands.rows, c.attemptCount = 0 ∧ c.commandId = leased.commandId ∧
      c.omsOrderId = leased.omsOrderId ∧ c.commandType = leased.commandType ∧
      leased.attemptCount = 1 ∧ leased ∈ db'.commands.rows := by
  obtain ⟨c, hc, hlt, he⟩ := h.command
  have hmax : c.maxAttempts = 1 := by
    have := db.commands.checked c hc
    simp only [executionCommandSchema, Bool.and_eq_true, decide_eq_true_eq] at this
    exact this.1.1
  have hzero : c.attemptCount = 0 := by omega
  have hid : c.commandId = leased.commandId := by rw [he]; rfl
  have hmem := Table.mem_of_update h.commands hc
  rw [if_pos (by simp [hid])] at hmem
  exact ⟨c, hc, hzero, hid, by rw [he]; rfl, by rw [he]; rfl, by rw [he]; simp [leaseTo, hzero], hmem⟩

theorem Repository.Claimed.kept {workerId : String} {lease : ℕ} {leased : ExecutionCommand}
    {order : OmsOrder} (h : Claimed now workerId lease leased order db db') :
    db.CommandsKept db' := by
  obtain ⟨c, hc, hzero, hid, -⟩ := h.spends
  refine .of_update h.commands fun x hx hp => ?_
  have hxid : x.commandId = leased.commandId := by simpa using hp
  obtain rfl : x = c := db.commands.eq_of_key_eq hx hc (hxid.trans hid.symm)
  omega

theorem reconcileOrder_kept (order : OmsOrder) : Keeps Db.CommandsKept (reconcileOrder order) := by
  intro db r db' h
  rcases reconcileOrder_ok h with h | h
  · exact .of_eq (by rw [show db' = db from h])
  · exact .of_eq (by rw [show db' = _ from h.rest])

theorem persist_kept {run : ReconciliationRun} {mismatches : List ReconciliationMismatch}
    {snapshot : VenueStateSnapshot} {orders : List OmsOrder} :
    Keeps Db.CommandsKept (persistReconciliation run mismatches snapshot orders) := by
  refine .wrap (.bind (.write fun s t _ => .of_eq rfl) fun _ => ?_)
  refine .bind (.forEach fun o _ => reconcileOrder_kept o) fun _ => .bind .get fun db => ?_
  refine .bind (fun s a t h => ?_) fun _ => .bind (.forEach fun f _ => .bind .get fun db => ?_) ?_
  · cases (ordersFromRows_ok h).1
    exact .refl _
  · split
    · exact .pure
    · exact .write fun s t _ => .of_eq rfl
  · intro _ s a t h
    cases h
    exact .of_eq rfl

theorem commands_of_run {q : Request} {tx : Txn q.Reply} {v : q.Reply}
    (htx : q.transaction now locked = some tx) (h : tx.run db = .ok (v, db')) :
    db.CommandsKept db' := by
  cases q <;> simp only [Request.transaction, Option.some.injEq, reduceCtorEq] at htx <;> subst htx
  case loadCentralRiskEvaluationByKey k =>
    exact .of_eq (by rw [show db' = db from (loadCentralRiskEvaluationByKey_ok h).1])
  case saveCentralRiskEvaluation k a =>
    rcases saveCentralRiskEvaluation_ok h with he | he
    · exact .of_eq (by rw [show db' = db from he])
    · exact .of_eq (by rw [show db' = _ from he.rest])
  case consumeOrderApproval a o m =>
    exact .of_eq (by rw [show db' = _ from (consumeOrderApproval_ok h).rest])
  case savePaperOrder o => exact .of_eq (by rw [show db' = _ from (savePaperOrder_ok h).rest])
  case createOmsOrder o c =>
    rcases createOmsOrder_ok h with ⟨he, -⟩ | ⟨-, he⟩
    · exact .of_eq (by rw [show db' = db from he])
    · exact .of_insert he.commands
  case loadOmsOrder i =>
    exact .of_eq (by rw [show db' = db from congrArg Prod.snd (loadOmsOrder_ok h).1])
  case listOmsOrders e v => exact .of_eq (by rw [show db' = db from (listOmsOrders_ok h).1])
  case claimExecutionCommand w l =>
    obtain ⟨d, hexp, hd | ⟨leased, order, -, hc⟩⟩ := claimExecutionCommand_ok h
    · cases hd
      exact Keeps.forEach (fun c _ => expireCommand_kept c) db () _ hexp
    · exact (Keeps.forEach (fun c _ => expireCommand_kept c) db () _ hexp).trans hc.kept
  case finishExecutionCommand c w o e err =>
    exact .of_update (finishExecutionCommand_ok h).2.commands fun _ _ _ => le_rfl
  case queueCancelCommand o c =>
    rcases queueCancelCommand_ok h with he | he
    · exact .of_eq (by rw [show db' = db from he])
    · exact .of_insert he.commands
  case persistReconciliation r ms s os => exact persist_kept db v db' h
  case loadOpenPositionExposures =>
    exact .of_eq (by rw [show db' = db from (loadOpenPositionExposures_ok h).2])
  case loadRiskControlState =>
    exact .of_eq (by rw [show db' = db from congrArg Prod.snd (loadRiskControlState_ok h)])
  case setRiskControl a r w c =>
    exact .of_eq (by rw [show db' = _ from (setRiskControl_ok h).rest])
  case saveAuditLog r =>
    cases h
    exact .refl _
  case market q =>
    obtain ⟨x, y, rfl⟩ := market_frame q _ _ _ h
    exact .refl _

/-! ## Orders handed out and submitted -/

/-- the orders the venue was asked to open -/
def submitted (history : List Event) : List OmsOrder :=
  history.filterMap fun
    | .submitted _ order _ => some order
    | _ => none

/-- the commands the database handed out -/
def handedOut (history : List Event) : List String :=
  history.filterMap fun
    | .claimed i => some i
    | _ => none

/-- the order a claim hands out to be submitted -/
def toSubmit : Trigger → Option OmsOrder
  | .reply (.claimExecutionCommand _ _) (.ok (some (command, order))) =>
    if command.commandType = .submit then some order else none
  | _ => none

/-- the order a task was handed, and has not submitted yet -/
def TaskState.toSubmit : TaskState → Option OmsOrder
  | .replied q r _ => CapitalCipher.toSubmit (.reply q r)
  | _ => none

/-- the orders that were or may still be submitted -/
def underway (w : World) : List OmsOrder :=
  submitted w.history ++ w.tasks.filterMap fun t => t.state.toSubmit

/-- the SUBMIT command of the order was handed out -/
def Attempted (db : Db) (omsOrderId : String) : Prop :=
  ∃ c ∈ db.commands.rows, c.omsOrderId = omsOrderId ∧ c.commandType = .submit ∧ 0 < c.attemptCount

/-- the command was handed out -/
def Spent (db : Db) (commandId : String) : Prop :=
  ∃ c ∈ db.commands.rows, c.commandId = commandId ∧ 0 < c.attemptCount

/-- the invariant of a run: what is under way was handed out once, and is stored -/
structure Dispatched (db : Db) (orders : List OmsOrder) (commands : List String) : Prop where
  once : (orders.map OmsOrder.omsOrderId).Nodup
  attempted : ∀ o ∈ orders, Attempted db o.omsOrderId
  stored : ∀ o ∈ orders, ∃ row ∈ db.omsOrders.rows, row.identity = o.identity
  handed : commands.Nodup
  spent : ∀ i ∈ commands, Spent db i

theorem Attempted.kept {i : String} (h : Attempted db i) (hk : db.CommandsKept db') :
    Attempted db' i := by
  obtain ⟨c, hc, ho, ht, hn⟩ := h
  obtain ⟨c', hc', -, ho', ht', hn'⟩ := hk c hc
  exact ⟨c', hc', ho'.trans ho, ht'.trans ht, by omega⟩

theorem Spent.kept {i : String} (h : Spent db i) (hk : db.CommandsKept db') : Spent db' i := by
  obtain ⟨c, hc, hi, hn⟩ := h
  obtain ⟨c', hc', hi', -, -, hn'⟩ := hk c hc
  exact ⟨c', hc', hi'.trans hi, by omega⟩

/-- a command handed out now was not handed out before, nor was another for its order -/
theorem Repository.Claimed.first {workerId : String} {lease : ℕ} {leased : ExecutionCommand}
    {order : OmsOrder} (h : Claimed now workerId lease leased order db db') :
    ¬ Spent db leased.commandId ∧
      (leased.commandType = .submit → ¬ Attempted db order.omsOrderId) := by
  obtain ⟨c, hc, hzero, hid, hoid, htype, -⟩ := h.spends
  have horder : order.omsOrderId = leased.omsOrderId := ((db.omsOrders.get?_eq_some).1 h.order).2
  constructor
  · rintro ⟨x, hx, hxid, hn⟩
    obtain rfl : x = c := db.commands.eq_of_key_eq hx hc (hxid.trans hid.symm)
    omega
  · rintro hsub ⟨x, hx, hxo, hxt, hn⟩
    by_cases hxc : x = c
    · rw [hxc] at hn
      omega
    · have hclash := (db.commands.apart_of_mem hx hc hxc).2.1
      simp [executionCommandSchema, hxo, hxt, horder, hoid, htype, hsub] at hclash

/-! ## Steps -/

theorem Dispatched.shrink {orders orders' : List OmsOrder} {commands : List String}
    (h : Dispatched db orders commands) (hs : orders'.Subperm orders) :
    Dispatched db orders' commands := by
  have hn : (orders'.map OmsOrder.omsOrderId).Nodup := by
    obtain ⟨l, hp, hl⟩ := hs
    exact ((hp.map _).nodup_iff).1 ((hl.map _).nodup h.once)
  exact ⟨hn, fun o ho => h.attempted o (hs.subset ho), fun o ho => h.stored o (hs.subset ho),
    h.handed, h.spent⟩

theorem Dispatched.kept {orders : List OmsOrder} {commands : List String}
    (h : Dispatched db orders commands) (hc : db.CommandsKept db')
    (ho : db.omsOrders.Extends db'.omsOrders) : Dispatched db' orders commands where
  once := h.once
  attempted o hm := (h.attempted o hm).kept hc
  stored o hm := by
    obtain ⟨row, hrow, hid⟩ := h.stored o hm
    obtain ⟨row', hrow', he⟩ := ho row hrow
    exact ⟨row', hrow', (omsOrder_evolves he).1.symm.trans hid⟩
  handed := h.handed
  spent i hi := (h.spent i hi).kept hc

/-- **Handing out.** A claim hands out a command, and an order to submit, for the first time. -/
theorem Dispatched.claim {orders : List OmsOrder} {commands : List String} {workerId : String}
    {lease : ℕ} {leased : ExecutionCommand} {order : OmsOrder} (h : Dispatched db orders commands)
    (hc : Claimed now workerId lease leased order db db') :
    Dispatched db' orders (commands ++ [leased.commandId]) ∧
      (leased.commandType = .submit →
        Dispatched db' (order :: orders) (commands ++ [leased.commandId])) := by
  have hsame : db'.omsOrders = db.omsOrders := by rw [hc.rest]
  have hk := h.kept hc.kept (hsame ▸ .refl _)
  obtain ⟨hspent, hsubmit⟩ := hc.first
  obtain ⟨-, -, -, -, -, -, hone, hmem⟩ := hc.spends
  obtain ⟨hrow, horder⟩ := (db.omsOrders.get?_eq_some).1 hc.order
  have hhanded : (commands ++ [leased.commandId]).Nodup :=
    List.nodup_append.2 ⟨h.handed, List.nodup_singleton _, by
      rintro i hi _ hj rfl
      obtain rfl := List.mem_singleton.1 hj
      exact hspent (h.spent _ hi)⟩
  have hspent' : ∀ i ∈ commands ++ [leased.commandId], Spent db' i := by
    intro i hi
    rcases List.mem_append.1 hi with hi | hi
    · exact hk.spent i hi
    · exact ⟨leased, hmem, (List.mem_singleton.1 hi).symm, by omega⟩
  refine ⟨⟨hk.once, hk.attempted, hk.stored, hhanded, hspent'⟩, fun hsub => ?_⟩
  refine ⟨List.nodup_cons.2 ⟨fun hin => ?_, hk.once⟩, ?_, ?_, hhanded, hspent'⟩
  · obtain ⟨o, ho, hid⟩ := List.mem_map.1 hin
    exact hsubmit hsub (hid ▸ h.attempted o ho)
  · rintro o (_ | ⟨_, ho⟩)
    · exact ⟨leased, hmem, horder.symm, hsub, by omega⟩
    · exact hk.attempted o ho
  · rintro o (_ | ⟨_, ho⟩)
    · exact ⟨order, hsame ▸ hrow, rfl⟩
    · exact hk.stored o ho

theorem mem_submitted {history : List Event} {n : ℕ} {o : OmsOrder} {active : Bool}
    (h : Event.submitted n o active ∈ history) : o ∈ submitted history :=
  List.mem_filterMap.2 ⟨_, h, rfl⟩

@[simp] theorem submitted_append (h h' : List Event) :
    submitted (h ++ h') = submitted h ++ submitted h' := List.filterMap_append

@[simp] theorem handedOut_append (h h' : List Event) :
    handedOut (h ++ h') = handedOut h ++ handedOut h' := List.filterMap_append

@[simp] theorem submitted_changes (g : ℕ) : submitted (changes g db db') = [] := by
  simp [submitted, changes, List.filterMap_append, List.filterMap_map]

@[simp] theorem handedOut_changes (g : ℕ) : handedOut (changes g db db') = [] := by
  simp [handedOut, changes, List.filterMap_append, List.filterMap_map]

@[simp] theorem submitted_handed (q : Request) (v : q.Reply) : submitted (handed q v) = [] := by
  unfold handed
  split <;> rfl

@[simp] theorem handedOut_submissions (n : ℕ) (m : Memory)
    (p : Paused Memory Error Request.Reply Unit) : handedOut (submissions n m p) = [] := by
  unfold submissions
  split <;> rfl

theorem toSubmit_error (q : Request) (e : Error) : toSubmit (.reply q (.error e)) = none := by
  cases q <;> rfl

theorem toSubmit_answer {q : Request} {a : Answer} {r : Except Error q.Reply}
    (h : a.toReply q = some r) : toSubmit (.reply q r) = none := by
  cases q <;> cases a <;> first | rfl | cases h

/-- what a segment submits is what it was handed -/
theorem submitted_submissions {c : Trigger} {m₀ m : Memory} {n : ℕ}
    {p : Paused Memory Error Request.Reply Unit} (h : Stops cfg c m₀ m p) :
    (submitted (submissions n m p)).Sublist (toSubmit c).toList := by
  unfold submissions
  split
  · rename_i order k
    obtain ⟨⟨-, w, l, command, rfl, htype⟩, -⟩ := h
    simp [submitted, toSubmit, htype]
  · exact List.nil_sublist _

/-- a segment submits with the switch of its process off -/
theorem gated_submissions {c : Trigger} {m₀ m : Memory} {n n' : ℕ} {o : OmsOrder} {active : Bool}
    {p : Paused Memory Error Request.Reply Unit} (h : Stops cfg c m₀ m p)
    (hm : Event.submitted n' o active ∈ submissions n m p) : active = false := by
  unfold submissions at hm
  split at hm
  · rw [List.mem_singleton, Event.submitted.injEq] at hm
    rw [hm.2.2]
    exact h.1.1
  · cases hm

theorem Begins.toSubmit {w : World} {op : Op} {old : List Task} {node g : ℕ} {c : Trigger}
    (h : Begins w op old node g c) :
    (old.filterMap fun t => t.state.toSubmit) = (toSubmit c).toList := by
  cases h with
  | start => rfl
  | @resume _ _ q r k _ hi =>
    cases ht : CapitalCipher.toSubmit (.reply q r) <;> simp [TaskState.toSubmit, ht]

theorem filterMap_killed (n : ℕ) (l : List Task) :
    ((l.map (Task.killed n)).filterMap fun t => t.state.toSubmit).Sublist
      (l.filterMap fun t => t.state.toSubmit) := by
  induction l with
  | nil => simp
  | cons t l ih =>
    simp only [List.map_cons, List.filterMap_cons]
    have hkilled : (Task.killed n t).state.toSubmit = none ∨
        (Task.killed n t).state.toSubmit = t.state.toSubmit :=
      killed_state (P := fun s => s.toSubmit = none ∨ s.toSubmit = t.state.toSubmit) (.inr rfl)
        (.inl rfl)
    rcases hkilled with hk | hk <;> rw [hk]
    · cases t.state.toSubmit
      · exact ih
      · exact ih.trans (List.sublist_cons_self _ _)
    · cases t.state.toSubmit
      · exact ih
      · exact ih.cons_cons _

/-- the invariant over worlds -/
def DispatchInv (w : World) : Prop :=
  Dispatched w.db (underway w) (handedOut w.history) ∧
    ∀ n o active, Event.submitted n o active ∈ w.history → active = false

/-- the orders under way when one task changed -/
theorem underway_replaced {w w' : World} {pre old post : List Task} {t : Task}
    (ht : w.tasks = pre ++ old ++ post) (ht' : w'.tasks = pre ++ t :: post) :
    ∃ before after, underway w = submitted w.history ++
        (before ++ (old.filterMap (fun t => t.state.toSubmit) ++ after)) ∧
      underway w' = submitted w'.history ++ (before ++ (t.state.toSubmit.toList ++ after)) := by
  refine ⟨_, _, by rw [underway, ht, List.append_assoc, List.filterMap_append,
    List.filterMap_append], ?_⟩
  rw [underway, ht', List.filterMap_append]
  cases hs : t.state.toSubmit <;> simp [hs]

/-- a task that waited now waits no more, and was handed at most one order -/
theorem underway_replied {w w' : World} {pre post : List Task} {node g : ℕ} {q : Request}
    {k : Except Error q.Reply → Program Unit} {r : Except Error q.Reply}
    (ht : w.tasks = pre ++ [⟨node, .waiting q k, g⟩] ++ post)
    (ht' : w'.tasks = pre ++ ⟨node, .replied q r k, g⟩ :: post)
    (hh : submitted w'.history = submitted w.history) :
    (underway w').Perm ((toSubmit (.reply q r)).toList ++ underway w) := by
  obtain ⟨before, after, hw, hw'⟩ := underway_replaced ht ht'
  rw [hw, hw', hh, ← List.append_assoc _ before, ← List.append_assoc _ before]
  exact List.perm_append_comm_assoc _ _ _

theorem dispatched_commit {q : Request} {tx : Txn q.Reply} {v : q.Reply} {r : Except Error q.Reply}
    {orders : List OmsOrder} {commands : List String} (h : Dispatched db orders commands)
    (htx : q.transaction now locked = some tx) (hrun : tx.run db = .ok (v, db'))
    (hr : r = .ok v ∨ ∃ e, r = .error e) :
    Dispatched db' ((toSubmit (.reply q r)).toList ++ orders) (commands ++ handedOut (handed q v)) := by
  have hkept := h.kept (commands_of_run htx hrun) (extends_of_run htx hrun).omsOrders
  cases q with
  | claimExecutionCommand workerId lease =>
    cases htx
    obtain ⟨d, hexp, hd | ⟨leased, order, hv, hc⟩⟩ := claimExecutionCommand_ok hrun
    · cases hd
      rcases hr with rfl | ⟨e, rfl⟩ <;> simpa [toSubmit, handed, handedOut] using hkept
    · obtain rfl : v = some (leased, order) := hv
      have hd := h.kept (Keeps.forEach (fun c _ => expireCommand_kept c) db () _ hexp)
        (Keeps.forEach (fun c _ s u t ht => (expireCommand_ok ht).extends) db () _ hexp).omsOrders
      obtain ⟨hother, hsubmit⟩ := hd.claim hc
      rcases hr with rfl | ⟨e, rfl⟩
      · by_cases htype : leased.commandType = .submit
        · simpa [toSubmit, htype, handed, handedOut] using hsubmit htype
        · simpa [toSubmit, htype, handed, handedOut] using hother
      · simpa [toSubmit, handed, handedOut] using hother
  | _ => simpa [toSubmit, handed, handedOut] using hkept

theorem dispatched_step (w : World) (op : Op) (w' : World) (_ : w.Sound cfg) (h : DispatchInv w)
    (hs : Step cfg w op w') : DispatchInv w' := by
  cases hs with
  | idle => exact h
  | @segment _ old node g c pre post m p hb ht hm hseg hstops =>
    constructor
    · obtain ⟨before, after, hold, hnew⟩ := @underway_replaced w { w.setMem node m with
        tasks := pre ++ w.paused node g p :: post
        history := w.history ++ submissions node m p } _ _ _ _ ht rfl
      have hpaused : (w.paused node g p).state.toSubmit = none := by cases p <;> rfl
      have hhanded : handedOut (w.history ++ submissions node m p) = handedOut w.history := by simp
      refine (hhanded ▸ h.1).shrink ?_
      rw [hold, hnew, hb.toSubmit, hpaused, submitted_append, List.append_assoc]
      -- the order moves from the task to the venue, or is dropped
      exact (((submitted_submissions hstops).append_right (before ++ after)).append_left
        (submitted w.history)).subperm.trans
          ((List.perm_append_comm_assoc _ before after).append_left _).subperm
    · intro n o active hm
      rcases List.mem_append.1 hm with hm | hm
      · exact h.2 n o active hm
      · exact gated_submissions hstops hm
  | @answered i a pre post node q k g r ht hr =>
    have hperm := @underway_replied w { w with
      tasks := pre ++ ⟨node, .replied q r k, g⟩ :: post } _ _ _ _ _ _ r ht rfl rfl
    rw [toSubmit_answer hr] at hperm
    exact ⟨h.1.shrink hperm.subperm, h.2⟩
  | @failed i locked fault pre post node q k g tx e ht htx hwhy =>
    have hperm := @underway_replied w { w with
      tasks := pre ++ ⟨node, .replied q (.error e) k, g⟩ :: post } _ _ _ _ _ _ (.error e) ht rfl rfl
    rw [toSubmit_error] at hperm
    exact ⟨h.1.shrink hperm.subperm, h.2⟩
  | @committed i locked fault pre post node q k g tx v db r ht htx hrun hreply =>
    have hcommit := dispatched_commit h.1 htx hrun (r := r) (by
      rcases hreply with ⟨-, hr⟩ | ⟨e, -, hr⟩
      · exact .inl hr
      · exact .inr ⟨e, hr⟩)
    constructor
    · have hhanded : handedOut (w.history ++ changes g w.db db ++ handed q v) =
          handedOut w.history ++ handedOut (handed q v) := by simp
      refine (hhanded ▸ hcommit).shrink (underway_replied ht rfl ?_).subperm
      simp
    · intro n o active hm
      rcases List.mem_append.1 hm with hm | hm
      · rcases List.mem_append.1 hm with hm | hm
        · exact h.2 n o active hm
        · have := mem_submitted hm
          simp at this
      · have := mem_submitted hm
        simp at this
  | crash => exact ⟨h.1.shrink (((filterMap_killed _ w.tasks).append_left _).subperm), h.2⟩
  | moved => exact h

/-- each order is submitted at most once, under the switch never -/
structure SubmittedOnce (w : World) : Prop where
  perOrder : ((submitted w.history).map OmsOrder.omsOrderId).Nodup
  perApproval : ((submitted w.history).map OmsOrder.approvalId).Nodup
  orders : ∀ approvalId,
    (w.db.omsOrders.rows.filter fun o => o.approvalId == approvalId).length ≤ 1
  handedOut : (handedOut w.history).Nodup
  gated : ∀ n o active, Event.submitted n o active ∈ w.history → active = false

/-- **At most one submission.** In every run of any number of processes, with crashes, lost replies,
lease expiries and any answers of the venue, the adapter is asked to submit each order at most once
and one order per approval, no command is handed out twice, and a process submits only while its
in-memory kill switch is off. -/
theorem submitted_once (cfg : Config) (ops : List Op) : SubmittedOnce (World.run cfg ops) := by
  have hinv : DispatchInv (World.run cfg ops) :=
    run_induction (P := DispatchInv) ⟨⟨by simp [underway, submitted, init], by
      simp [underway, submitted, init], by simp [underway, submitted, init], by
      simp [CapitalCipher.handedOut, init], by simp [CapitalCipher.handedOut, init]⟩,
      by simp [init]⟩ dispatched_step ops
  generalize World.run cfg ops = w at hinv
  obtain ⟨h, hgated⟩ := hinv
  have hsub : (submitted w.history).Sublist (underway w) := List.sublist_append_left _ _
  have horder := (h.shrink hsub.subperm).once
  refine ⟨horder, ?_, fun i => ?_, h.handed, hgated⟩
  · -- two orders under one approval are one stored order
    refine List.pairwise_map.2 ((List.pairwise_map.1 horder).imp_of_mem fun {a b} ha hb hne he => ?_)
    obtain ⟨x, hx, hxa⟩ := h.stored a (hsub.subset ha)
    obtain ⟨y, hy, hyb⟩ := h.stored b (hsub.subset hb)
    have happ : x.approvalId = y.approvalId :=
      (congrArg OmsIdentity.approvalId hxa).trans (he.trans (congrArg OmsIdentity.approvalId hyb).symm)
    by_cases hxy : x = y
    · refine hne ((congrArg OmsIdentity.omsOrderId hxa).symm.trans ?_)
      rw [hxy]
      exact congrArg OmsIdentity.omsOrderId hyb
    · have := (w.db.omsOrders.apart_of_mem hx hy hxy).2.1
      simp [omsOrderSchema, happ] at this
  · refine w.db.omsOrders.filter_le_one fun a b ha hb hapart => ?_
    have := hapart.2.1
    simp only [beq_iff_eq] at ha hb
    simp [omsOrderSchema, ha, hb] at this

end CapitalCipher
