/-
The order ledger: one event per version of every order, whoever writes it.

Five operations write orders. Each of them is a sequence of steps that open an order with its event,
or move an order one version further with the event of that version.

  • `OrderStep`, `OrderLog`: the steps, and what a whole transaction does; `orders_of_run`.
  • `Ledger`: terminal timestamps, and exactly one event for each version from 1 on.
  • `ledger_invariant`: the ledger over every run, and what later operations keep of it.
-/
import CapitalCipher.System.Steps

namespace CapitalCipher

open Lib Coro Tx Repository

variable {cfg : Config} {now : Time} {locked : List String} {db db' : Db}
  {new next : List OmsOrder}

/-! ## Steps of the order tables -/

/-- one write of the order tables -/
inductive OrderStep (new next : List OmsOrder) (db db' : Db) : Prop where
  | same (ho : db'.omsOrders = db.omsOrders) (he : db'.orderEvents = db.orderEvents)
  | opened {o eventType} (hmem : o ∈ new)
      (ho : db.omsOrders.insert o = .ok db'.omsOrders)
      (he : db.orderEvents.insert ⟨eventType, o⟩ = .ok db'.orderEvents)
  | moved {row o eventType f} (hrow : db.omsOrders.get? o.omsOrderId = some row)
      (hid : row.identity = o.identity) (hv : o.stateVersion = row.stateVersion + 1)
      (hf : f = withTransition o ∧ (o ∈ next ∨ ∃ t, o = leaseExpired row t) ∨ f = withCancel o)
      (ho : db.omsOrders.update (fun x => x.omsOrderId == o.omsOrderId) f = .ok db'.omsOrders)
      (he : db.orderEvents.insert ⟨eventType, o⟩ = .ok db'.orderEvents)

/-- what a transaction does to the order tables -/
def OrderLog (new next : List OmsOrder) : Db → Db → Prop :=
  Relation.ReflTransGen (OrderStep new next)

namespace OrderLog

theorem same (ho : db'.omsOrders = db.omsOrders) (he : db'.orderEvents = db.orderEvents) :
    OrderLog new next db db' := .single (.same ho he)

instance : IsPreorder Db (OrderLog new next) where
  refl _ := .refl
  trans _ _ _ h h' := Relation.ReflTransGen.trans h h'

end OrderLog

theorem Repository.Finished.log {commandId workerId : String} {o : OmsOrder} {eventType : String}
    {errorType : Option String} (h : Finished commandId workerId o eventType errorType db db') :
    OrderLog [] [o] db db' := by
  obtain ⟨row, hrow, -, hid, hv⟩ := h.next
  exact .single (.moved hrow hid hv (.inl ⟨rfl, .inl (by simp)⟩) h.omsOrders h.orderEvents)

theorem Repository.CancelQueued.log {o : OmsOrder} {command : ExecutionCommand}
    (h : CancelQueued o command db db') : OrderLog new next db db' := by
  obtain ⟨row, hrow, -, hid, hv⟩ := h.next
  exact .single (.moved hrow hid hv (.inr rfl) h.omsOrders h.orderEvents)

theorem Repository.Reconciled.log {o : OmsOrder} (h : Reconciled o db db') (hmem : o ∈ next) :
    OrderLog new next db db' := by
  obtain ⟨row, hrow, -, hid, hv⟩ := h.next
  exact .single (.moved hrow hid hv (.inl ⟨rfl, .inl hmem⟩) h.omsOrders h.orderEvents)

theorem Repository.Expired.log {command : ExecutionCommand} (h : Expired now command db db') :
    OrderLog new next db db' := by
  obtain ⟨⟨row, hrow, ⟨-, ho, he⟩ | ⟨-, ho, he⟩⟩, -, -⟩ := h
  · exact .same ho he
  · have hkey : row.omsOrderId = command.omsOrderId := ((db.omsOrders.get?_eq_some).1 hrow).2
    exact .single (@OrderStep.moved _ _ _ _ row (leaseExpired row now) _ _
      (show db.omsOrders.get? row.omsOrderId = some row from hkey ▸ hrow) rfl rfl
      (.inl ⟨rfl, .inr ⟨now, rfl⟩⟩) ho he)

theorem expireAll_log {commands : List ExecutionCommand} :
    Keeps (OrderLog new next) (forEach commands (expireCommand now)) :=
  .forEach fun _ _ _ _ _ h => (expireCommand_ok h).log

theorem persist_log {run : ReconciliationRun} {mismatches : List ReconciliationMismatch}
    {snapshot : VenueStateSnapshot} {orders : List OmsOrder} :
    Keeps (OrderLog [] orders) (persistReconciliation run mismatches snapshot orders) := by
  refine .wrap (.bind (.write fun s t _ => .same rfl rfl) fun _ => ?_)
  refine .bind (.forEach fun o ho s u t h => ?_) fun _ => .bind .get fun db => ?_
  · rcases reconcileOrder_ok h with h | h
    · exact .same (by rw [show t = s from h]) (by rw [show t = s from h])
    · exact h.log ho
  · refine .bind (fun s a t h => ?_) fun _ => .bind (.forEach fun f _ => .bind .get fun db => ?_) ?_
    · cases (ordersFromRows_ok h).1
      exact .refl
    · split
      · exact .pure
      · exact .write fun s t _ => .same rfl rfl
    · intro _ s a t h
      cases h
      exact .same rfl rfl

/-- the orders a request may create, and those it may write with a fill of their own -/
def Request.created : Request → List OmsOrder
  | .consumeOrderApproval _ _ mirror => [mirror]
  | .createOmsOrder o _ => [o]
  | _ => []

def Request.written : Request → List OmsOrder
  | .finishExecutionCommand _ _ o _ _ => [o]
  | .persistReconciliation _ _ _ os => os
  | _ => []

theorem orders_of_run {q : Request} {tx : Txn q.Reply} {v : q.Reply}
    (htx : q.transaction now locked = some tx) (h : tx.run db = .ok (v, db')) :
    OrderLog q.created q.written db db' := by
  cases q <;> simp only [Request.transaction, Option.some.injEq, reduceCtorEq] at htx <;> subst htx
  case loadCentralRiskEvaluationByKey k =>
    rw [show db' = db from (loadCentralRiskEvaluationByKey_ok h).1]
    exact .refl
  case saveCentralRiskEvaluation k a =>
    rcases saveCentralRiskEvaluation_ok h with he | he
    · exact .same (by rw [show db' = db from he]) (by rw [show db' = db from he])
    · exact .same (by rw [show db' = _ from he.rest]) (by rw [show db' = _ from he.rest])
  case consumeOrderApproval a o m =>
    have hc := consumeOrderApproval_ok h
    exact .single (.opened (by simp [Request.created]) hc.omsOrders hc.orderEvents)
  case savePaperOrder o =>
    have he := (savePaperOrder_ok h).rest
    exact .same (by rw [show db' = _ from he]) (by rw [show db' = _ from he])
  case createOmsOrder o c =>
    rcases createOmsOrder_ok h with ⟨he, -⟩ | ⟨-, he⟩
    · exact .same (by rw [show db' = db from he]) (by rw [show db' = db from he])
    · exact .single (.opened (by simp [Request.created]) he.omsOrders he.orderEvents)
  case loadOmsOrder i =>
    rw [show db' = db from congrArg Prod.snd (loadOmsOrder_ok h).1]
    exact .refl
  case listOmsOrders e v =>
    rw [show db' = db from (listOmsOrders_ok h).1]
    exact .refl
  case claimExecutionCommand w l =>
    obtain ⟨d, hexp, hd | ⟨leased, order, -, hc⟩⟩ := claimExecutionCommand_ok h
    · cases hd
      exact expireAll_log db () _ hexp
    · have hrest : db' = _ := hc.rest
      exact (expireAll_log db () _ hexp).trans (OrderLog.same (by rw [hrest]) (by rw [hrest]))
  case finishExecutionCommand c w o e err => exact (finishExecutionCommand_ok h).2.log
  case queueCancelCommand o c =>
    rcases queueCancelCommand_ok h with he | he
    · exact .same (by rw [show db' = db from he]) (by rw [show db' = db from he])
    · exact he.log
  case persistReconciliation r ms s os => exact persist_log db v db' h
  case loadOpenPositionExposures =>
    rw [show db' = db from (loadOpenPositionExposures_ok h).2]
    exact .refl
  case loadRiskControlState =>
    rw [show db' = db from congrArg Prod.snd (loadRiskControlState_ok h)]
    exact .refl
  case setRiskControl a r w c =>
    have he := (setRiskControl_ok h).rest
    exact .same (by rw [show db' = _ from he]) (by rw [show db' = _ from he])
  case saveAuditLog r =>
    cases h
    exact .refl
  case market q =>
    obtain ⟨x, y, rfl⟩ := market_frame q _ _ _ h
    exact .same rfl rfl

/-! ## One event per version -/

/-- the versions of an order that an event tells of -/
def versionsOf (db : Db) (omsOrderId : String) : List ℕ :=
  (db.orderEvents.rows.filter fun e => e.payload.omsOrderId == omsOrderId).map
    fun e => e.payload.stateVersion

/-- every event is of a stored order, and every order has one event per version -/
structure Versioned (db : Db) : Prop where
  filed : ∀ e ∈ db.orderEvents.rows, ∃ o ∈ db.omsOrders.rows, o.omsOrderId = e.payload.omsOrderId
  versions : ∀ o ∈ db.omsOrders.rows,
    (versionsOf db o.omsOrderId).Perm (List.range' 1 o.stateVersion)

theorem versionsOf_insert {e : OmsOrderEvent} {i : String}
    (h : db.orderEvents.insert e = .ok db'.orderEvents) :
    versionsOf db' i = versionsOf db i ++
      if e.payload.omsOrderId = i then [e.payload.stateVersion] else [] := by
  rw [versionsOf, (Table.insert_ok h).1, List.filter_append, List.map_append]
  by_cases hi : e.payload.omsOrderId = i <;> simp [versionsOf, hi]

/-- **One step.** Opening an order at version 1, or moving it one version on, keeps the ledger. -/
theorem OrderStep.versioned (h : OrderStep new next db db')
    (hcreated : ∀ o ∈ new, o.stateVersion = 1) (hv : Versioned db) : Versioned db' := by
  cases h with
  | same ho he =>
    refine ⟨?_, ?_⟩
    · rw [ho, he]
      exact hv.filed
    · rw [ho]
      intro o hmem
      rw [versionsOf, he]
      exact hv.versions o hmem
  | @opened o eventType hmem ho he =>
    obtain ⟨hrows, -, hapart⟩ := Table.insert_ok ho
    constructor
    · intro e hm
      rw [hrows]
      rw [(Table.insert_ok he).1] at hm
      rcases List.mem_append.1 hm with hm | hm
      · obtain ⟨x, hx, hid⟩ := hv.filed e hm
        exact ⟨x, List.mem_append_left _ hx, hid⟩
      · obtain rfl := List.mem_singleton.1 hm
        exact ⟨o, by simp, rfl⟩
    · intro x hx
      rw [versionsOf_insert he]
      rw [hrows] at hx
      rcases List.mem_append.1 hx with hx | hx
      · rw [if_neg fun hid : o.omsOrderId = x.omsOrderId => (hapart x hx).1 hid.symm, List.append_nil]
        exact hv.versions x hx
      · -- no event of the new order was there before
        obtain rfl := List.mem_singleton.1 hx
        have hnone : versionsOf db x.omsOrderId = [] := by
          simp only [versionsOf, List.map_eq_nil_iff, List.filter_eq_nil_iff, beq_iff_eq]
          intro e hm hid
          obtain ⟨y, hy, hyid⟩ := hv.filed e hm
          exact (hapart y hy).1 (hyid.trans hid)
        rw [hnone, if_pos rfl, hcreated x hmem]
        rfl
  | @moved row o eventType f hrow hid hver hf ho he =>
    obtain ⟨hrows, hguard⟩ := Table.update_ok ho
    obtain ⟨hmem, hkey⟩ := (db.omsOrders.get?_eq_some).1 hrow
    have hfv : ∀ x, (f x).stateVersion = o.stateVersion ∧ (f x).omsOrderId = x.omsOrderId := by
      intro x
      rcases hf with ⟨rfl, -⟩ | rfl <;> exact ⟨rfl, rfl⟩
    constructor
    · intro e hm
      rw [(Table.insert_ok he).1] at hm
      have hold : ∃ x ∈ db.omsOrders.rows, x.omsOrderId = e.payload.omsOrderId := by
        rcases List.mem_append.1 hm with hm | hm
        · exact hv.filed e hm
        · obtain rfl := List.mem_singleton.1 hm
          exact ⟨row, hmem, hkey⟩
      obtain ⟨x, hx, hxid⟩ := hold
      refine ⟨_, Table.mem_of_update ho hx, ?_⟩
      split_ifs
      · rw [(hfv x).2, hxid]
      · exact hxid
    · intro x' hx'
      rw [hrows] at hx'
      obtain ⟨x, hx, rfl⟩ := List.mem_map.1 hx'
      rw [versionsOf_insert he]
      by_cases hxo : x.omsOrderId = o.omsOrderId
      · obtain rfl : x = row := db.omsOrders.eq_of_key_eq hx hmem (hxo.trans hkey.symm)
        rw [if_pos (by simpa using hxo), (hfv x).1, (hfv x).2, if_pos hxo.symm, hver,
          List.range'_concat]
        simpa [Nat.add_comm] using (hv.versions x hx).append_right [x.stateVersion + 1]
      · rw [if_neg (by simpa using hxo), if_neg (Ne.symm hxo), List.append_nil]
        exact hv.versions x hx

theorem OrderLog.versioned (h : OrderLog new next db db')
    (hcreated : ∀ o ∈ new, o.stateVersion = 1) (hv : Versioned db) : Versioned db' := by
  induction h with
  | refl => exact hv
  | tail _ hstep ih => exact hstep.versioned hcreated ih

/-! ## Every run -/

/-- an order starts at version 1 -/
theorem created_first {q : Request} (hq : Asked cfg q) : ∀ o ∈ q.created, o.stateVersion = 1 := by
  obtain ⟨c, m, -, hask⟩ := hq
  intro o ho
  cases q with
  | consumeOrderApproval a order mirror =>
    obtain rfl := List.mem_singleton.1 ho
    rw [hask.mirrored]
    rfl
  | createOmsOrder order command =>
    obtain rfl := List.mem_singleton.1 ho
    exact hask.fresh.2.2.1
  | _ => cases ho

theorem versioned_step (w : World) (op : Op) (w' : World) (hw : w.Sound cfg) (h : Versioned w.db)
    (hs : Step cfg w op w') : Versioned w'.db := by
  cases hs with
  | committed ht htx hrun => exact (orders_of_run htx hrun).versioned (created_first (hw.waiting ht).1) h
  | _ => exact h

/-- the order ledger of a database -/
structure Ledger (db : Db) : Prop where
  terminal : ∀ o ∈ db.omsOrders.rows, o.status.terminal = o.terminalAt.isSome
  versions : ∀ o ∈ db.omsOrders.rows, 1 ≤ o.stateVersion ∧
    (versionsOf db o.omsOrderId).Perm (List.range' 1 o.stateVersion)
  filed : ∀ e ∈ db.orderEvents.rows, ∃ o ∈ db.omsOrders.rows, o.omsOrderId = e.payload.omsOrderId

/-- what a later ledger keeps of an earlier one: an order's identity and its events, one version for
each transition, and a terminal order as it is -/
structure LedgerKept (db db' : Db) : Prop where
  orders : ∀ o ∈ db.omsOrders.rows, ∃ o' ∈ db'.omsOrders.rows,
    o'.identity = o.identity ∧ o'.createdAt = o.createdAt ∧
    Relation.ReflTransGen (fun a b : OmsOrder => b.stateVersion = a.stateVersion + 1) o o' ∧
    (o.status.terminal = true → o' = o)
  events : ∀ e ∈ db.orderEvents.rows, e ∈ db'.orderEvents.rows

theorem ledgerKept_of_extends (h : db.Extends db') : LedgerKept db db' where
  orders o ho := by
    obtain ⟨o', ho', he⟩ := h.omsOrders o ho
    obtain ⟨hid, hc, -⟩ := omsOrder_evolves he
    exact ⟨o', ho', hid.symm, hc.symm, Relation.ReflTransGen.mono (fun _ _ hg => (omsOrder_guard hg).2.2.1) _ _ he,
      fun hterm => he.final (omsOrder_final hterm)⟩
  events e he := h.orderEvents.mem_of_final he fun _ => rfl

theorem run_versioned (cfg : Config) (ops : List Op) : Versioned (World.run cfg ops).db :=
  run_induction (P := fun w => Versioned w.db) ⟨by simp [World.init, Db.empty], by
    simp [World.init, Db.empty]⟩ versioned_step ops

/-- no event tells of the version after the current one -/
theorem Versioned.fresh (h : Versioned db) {o : OmsOrder} (ho : o ∈ db.omsOrders.rows)
    {e : OmsOrderEvent} (he : e ∈ db.orderEvents.rows) (hid : e.payload.omsOrderId = o.omsOrderId) :
    e.payload.stateVersion ≤ o.stateVersion := by
  have hmem : e.payload.stateVersion ∈ versionsOf db o.omsOrderId :=
    List.mem_map.2 ⟨e, List.mem_filter.2 ⟨he, by simpa using hid⟩, rfl⟩
  have := List.mem_range'_1.1 ((h.versions o ho).subset hmem)
  omega

/-- **The order ledger.** In every run each order has a terminal timestamp exactly when its status is
terminal, and exactly one event for each of its versions, from 1 to the current one. Whatever
happens next, its identity stays, each transition takes it one version further, and a terminal order
never changes again. -/
theorem ledger_invariant (cfg : Config) (ops more : List Op) :
    Ledger (World.run cfg ops).db ∧
      LedgerKept (World.run cfg ops).db (World.run cfg (ops ++ more)).db := by
  have hv := run_versioned cfg ops
  refine ⟨⟨fun o ho => ?_, fun o ho => ⟨?_, hv.versions o ho⟩, hv.filed⟩,
    ledgerKept_of_extends (run_extends ops more)⟩
  all_goals
    have hrow := (World.run cfg ops).db.omsOrders.checked o ho
    simp only [omsOrderSchema, OmsOrder.rowCheck, Bool.and_eq_true, decide_eq_true_eq,
      beq_iff_eq] at hrow
  · exact hrow.2
  · exact hrow.1.2.2.2.2.1

end CapitalCipher
