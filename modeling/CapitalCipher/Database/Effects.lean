/-
What each transaction of the repository does when it commits.

One spec per mutating transaction: the checks it passed, the rows it wrote, and, through `rest`, that
every other table is as it was. Callers use these and never unfold a transaction.

  • `Evaluated`, `ConsumedPaper`, `CreatedOms`, `Controlled`: the writers of approvals.
  • `Finished`, `CancelQueued`: the writers of one order row, its event and its command.
  • `claim_frame`, `persist_frame`: the loops create no order and touch no approval.
  • `extends_*`: every commit extends the database.
-/
import CapitalCipher.Database.Repository

namespace CapitalCipher

open Lib Tx Txn Repository

/-! ## Blocks -/

theorem failing_ok {α : Type} {pre : String} {keep : List ErrorKind} {x : Txn α} {db : Db}
    {r : α × Db} : (failing pre keep x).run db = .ok r ↔ x.run db = .ok r := wrap_ok

theorem construct_ok {α : Type} {c : Except Error α} {db : Db} {r : α × Db} :
    (construct c).run db = .ok r ↔ c = .ok r.1 ∧ r.2 = db := by
  obtain ⟨a, d⟩ := r
  unfold construct
  cases c with
  | error e =>
    rw [throw_ok]
    exact ⟨False.elim, fun h => by cases h.1⟩
  | ok b =>
    rw [pure_ok]
    constructor
    · intro h
      cases h
      exact ⟨rfl, rfl⟩
    · rintro ⟨h, rfl⟩
      cases h
      rfl

/-- the CANCEL commands of an order -/
def Db.cancelsOf (db : Db) (omsOrderId : String) : List ExecutionCommand :=
  db.commands.rows.filter fun c => c.omsOrderId == omsOrderId && c.commandType == .cancel

namespace Repository

/-- `durablePositionExposures` as the transactions read it -/
theorem readExposures_ok {db : Db} {r : List PositionExposure × Db} :
    readExposures.run db = .ok r ↔ durablePositionExposures db = .ok r.1 ∧ r.2 = db := by
  simp only [readExposures, bind_ok, get_ok, construct_ok]
  constructor
  · rintro ⟨_, _, he, h⟩
    cases he
    exact h
  · intro h
    exact ⟨db, db, rfl, h⟩

/-- the stored approval may be consumed now -/
structure Current (now : Time) (db : Db) (stored : OrderApproval) : Prop where
  active : stored.status = .active
  fresh : ∃ ps, durablePositionExposures db = .ok ps ∧
    stored.positionSnapshotHash = positionSnapshotHash ps
  unexpired : now < stored.expiresAt

theorem requireCurrent_ok {now : Time} {stored : OrderApproval} {db : Db} {r : Unit × Db} :
    (requireCurrent now stored).run db = .ok r ↔ Current now db stored ∧ r.2 = db := by
  simp only [requireCurrent, bind_ok, require_ok, readExposures_ok]
  constructor
  · rintro ⟨_, _, ⟨ha, he⟩, ps, d, ⟨hps, hd⟩, _, _, ⟨hh, he'⟩, hx, hr⟩
    cases he
    obtain rfl : d = db := hd
    cases he'
    exact ⟨⟨ha, ⟨ps, hps, hh⟩, hx⟩, by rw [hr]⟩
  · rintro ⟨⟨ha, ⟨ps, hps, hh⟩, hx⟩, hd⟩
    refine ⟨(), db, ⟨ha, rfl⟩, ps, db, ⟨hps, rfl⟩, (), db, ⟨hh, rfl⟩, hx, ?_⟩
    exact Prod.ext rfl hd

/-! ## Central risk -/

/-- `save_central_risk_evaluation` stored a new evaluation -/
structure Evaluated (check : RiskCheck) (approval : Option OrderApproval) (db db' : Db) : Prop where
  evaluations : db.evaluations.insert check = .ok db'.evaluations
  approvals : match approval with
    | none => db'.approvals = db.approvals
    | some a => db.approvals.insert a = .ok db'.approvals
  rest : db' = { db with evaluations := db'.evaluations, approvals := db'.approvals }

theorem saveCentralRiskEvaluation_ok {check : RiskCheck} {approval : Option OrderApproval}
    {db : Db} {r : Unit × Db}
    (h : (saveCentralRiskEvaluation check approval).run db = .ok r) :
    r.2 = db ∨ Evaluated check approval db r.2 := by
  simp only [saveCentralRiskEvaluation, failing_ok, bind_ok, get_ok] at h
  obtain ⟨_, _, he, h⟩ := h
  cases he
  split at h
  · rw [require_ok] at h
    exact .inl (by rw [h.2])
  · simp only [bind_ok, require_ok, onEvaluations, write_ok] at h
    obtain ⟨_, _, ⟨-, he⟩, _, _, ⟨E, hE, he'⟩, h⟩ := h
    cases he
    cases he'
    cases approval with
    | none =>
      cases pure_ok.1 h
      exact .inr ⟨hE, rfl, rfl⟩
    | some a =>
      simp only [onApprovals, write_ok] at h
      obtain ⟨A, hA, he⟩ := h
      cases he
      exact .inr ⟨hE, hA, rfl⟩

/-- `set_risk_control` moved the switch -/
structure Controlled (now : Time) (active : Bool) (reason actor : String)
    (correlationId : Option String) (row : RiskControlState) (db db' : Db) : Prop where
  moved : (controlRow db).active ≠ active
  row_eq : row = nextControl (controlRow db) now active reason actor
  riskControl : db'.riskControl.get? () = some row
  approvals :
    if active then
      db.approvals.update (fun a => a.status == .active) (fun a => { a with status := .revoked }) =
        .ok db'.approvals
    else db'.approvals = db.approvals
  riskControlEvents :
    db.riskControlEvents.insert ⟨row.revision, active, reason, actor, correlationId, now⟩ =
      .ok db'.riskControlEvents
  rest : db' = { db with riskControl := db'.riskControl, approvals := db'.approvals,
                         riskControlEvents := db'.riskControlEvents }

theorem ensureControlRow_ok {db : Db} {r : Unit × Db} (h : ensureControlRow.run db = .ok r) :
    r.2 = { db with riskControl := r.2.riskControl } ∧ ∃ row, r.2.riskControl.get? () = some row := by
  simp only [ensureControlRow, bind_ok, get_ok] at h
  obtain ⟨_, _, he, h⟩ := h
  cases he
  split at h
  · obtain ⟨T, hT, he⟩ := write_ok.1 h
    cases he
    exact ⟨rfl, _, Table.get?_of_insert hT⟩
  · rename_i row hrow
    cases pure_ok.1 h
    exact ⟨rfl, row, hrow⟩

theorem revokeIf_ok {active : Bool} {db : Db} {r : Unit × Db}
    (h : (revokeIf active).run db = .ok r) :
    (if active then
      db.approvals.update (fun a => a.status == .active) (fun a => { a with status := .revoked }) =
        .ok r.2.approvals
    else r.2.approvals = db.approvals) ∧ r.2 = { db with approvals := r.2.approvals } := by
  cases active with
  | true =>
    simp only [revokeIf, if_true, onApprovals, write_ok] at h
    obtain ⟨A, hA, rfl⟩ := h
    exact ⟨hA, rfl⟩
  | false =>
    cases pure_ok.1 h
    exact ⟨rfl, rfl⟩

theorem setRiskControl_ok {now : Time} {active : Bool} {reason actor : String}
    {correlationId : Option String} {db : Db} {r : RiskControlState × Db}
    (h : (setRiskControl now active reason actor correlationId).run db = .ok r) :
    Controlled now active reason actor correlationId r.1 db r.2 := by
  simp only [setRiskControl, failing_ok, bind_ok, get_ok, require_ok] at h
  obtain ⟨_, _, he, _, d, hrow, _, _, ⟨hne, he'⟩, _, d', hset, _, d'', hrevoke, _, _, hev, hr⟩ := h
  cases he
  cases he'
  obtain ⟨hd, old, hold⟩ := ensureControlRow_ok hrow
  obtain ⟨R, hR, he⟩ := write_ok.1 hset
  obtain ⟨hA, hd''⟩ := revokeIf_ok hrevoke
  obtain ⟨E, hE, he'⟩ := write_ok.1 hev
  cases pure_ok.1 hr
  cases he'
  cases he
  simp only at hd hA hd'' hE
  rw [hd] at hA hd''
  refine ⟨hne, rfl, ?_, hA, ?_, ?_⟩
  · rw [hd'']
    exact Table.get?_of_update hR hold
  · rw [hd''] at hE
    exact hE
  · simp only
    rw [hd'']

/-! ## Paper orders -/

/-- `consume_order_approval` stored a paper order and its mirror -/
structure ConsumedPaper (now : Time) (approval : OrderApproval) (order : PaperOrder)
    (mirror : OmsOrder) (db db' : Db) : Prop where
  mirrored : mirror.environment = .paper ∧ mirror.omsOrderId = order.paperOrderId ∧
    mirror.approvalId = approval.approvalId
  inactive : (controlRow db).active = false
  matched : ∃ stored, db.approvals.get? approval.approvalId = some stored ∧
    Current now db stored ∧ paperOrderMatches stored order
  absent : db.paperOrders.get? order.paperOrderId = none
  approvals : db.approvals.update (fun a => a.approvalId == approval.approvalId)
    (fun a => { a with status := .consumed, consumedAt := approval.consumedAt,
                       paperOrderId := some order.paperOrderId, omsOrderId := none }) =
      .ok db'.approvals
  paperOrders : db.paperOrders.insert order = .ok db'.paperOrders
  omsOrders : db.omsOrders.insert mirror = .ok db'.omsOrders
  orderEvents : db.orderEvents.insert ⟨"PAPER_FILLED", mirror⟩ = .ok db'.orderEvents
  rest : db' = { db with approvals := db'.approvals, paperOrders := db'.paperOrders,
                         omsOrders := db'.omsOrders, orderEvents := db'.orderEvents }

theorem consumeOrderApproval_ok {now : Time} {approval : OrderApproval} {order : PaperOrder}
    {mirror : OmsOrder} {db : Db} {r : Unit × Db}
    (h : (consumeOrderApproval now approval order (some mirror)).run db = .ok r) :
    ConsumedPaper now approval order mirror db r.2 := by
  simp only [consumeOrderApproval, failing_ok, bind_ok, require_ok, get_ok] at h
  obtain ⟨_, _, ⟨hmirror, he⟩, _, _, he', _, _, ⟨hinactive, he''⟩, h⟩ := h
  cases he
  cases he'
  cases he''
  split at h
  · exact (throw_ok.1 h).elim
  · rename_i stored hstored
    simp only [bind_ok, requireCurrent_ok, require_ok, onApprovals, onPaperOrders, insertMirror,
      onOmsOrders, onOrderEvents, write_ok] at h
    obtain ⟨_, _, ⟨hcur, rfl⟩, _, _, ⟨hmatch, he'⟩, _, _, ⟨habsent, he''⟩, h⟩ := h
    cases he'
    cases he''
    obtain ⟨_, _, ⟨A, hA, he⟩, _, _, ⟨P, hP, he'⟩, _, _, ⟨O, hO, he''⟩, E, hE, hr⟩ := h
    cases he
    cases he'
    cases he''
    cases hr
    exact ⟨hmirror mirror rfl, hinactive, ⟨stored, hstored, hcur, hmatch⟩, habsent, hA, hP, hO, hE,
      rfl⟩

/-- `save_paper_order` rewrote the row of an order, or stored one -/
structure SavedPaper (order : PaperOrder) (db db' : Db) : Prop where
  paperOrders :
    (∃ row, db.paperOrders.get? order.paperOrderId = some row ∧
      db.paperOrders.update (fun o => o.paperOrderId == order.paperOrderId)
        (fun o => { o with status := order.status, closedAt := order.closedAt, pnl := order.pnl,
                           feesEstimated := order.feesEstimated }) = .ok db'.paperOrders) ∨
    (db.paperOrders.get? order.paperOrderId = none ∧
      db.paperOrders.insert order = .ok db'.paperOrders)
  rest : db' = { db with paperOrders := db'.paperOrders }

theorem savePaperOrder_ok {order : PaperOrder} {db : Db} {r : Unit × Db}
    (h : (savePaperOrder order).run db = .ok r) : SavedPaper order db r.2 := by
  simp only [savePaperOrder, failing_ok, bind_ok, get_ok] at h
  obtain ⟨_, _, he, h⟩ := h
  cases he
  split at h
  · rename_i row hrow
    obtain ⟨P, hP, he⟩ := write_ok.1 h
    cases he
    exact ⟨.inl ⟨row, hrow, hP⟩, rfl⟩
  · rename_i hnone
    obtain ⟨P, hP, he⟩ := write_ok.1 h
    cases he
    exact ⟨.inr ⟨hnone, hP⟩, rfl⟩

/-! ## OMS orders -/

/-- `create_oms_order` stored a TESTNET order, its event and its command, on an approval it took -/
structure CreatedOms (now : Time) (order : OmsOrder) (command : ExecutionCommand) (db db' : Db) :
    Prop where
  commandOf : command.omsOrderId = order.omsOrderId
  testnet : order.environment = .testnet
  inactive : (controlRow db).active = false
  matched : ∃ stored, db.approvals.get? order.approvalId = some stored ∧
    Current now db stored ∧ omsOrderMatches stored order
  absent : ∀ row ∈ db.omsOrders.rows, sharesIdentity order row = false
  approvals : db.approvals.update (fun a => a.approvalId == order.approvalId)
    (fun a => { a with status := .consumed, consumedAt := some now, paperOrderId := none,
                       omsOrderId := some order.omsOrderId }) = .ok db'.approvals
  omsOrders : db.omsOrders.insert order = .ok db'.omsOrders
  orderEvents : db.orderEvents.insert ⟨"CREATED", order⟩ = .ok db'.orderEvents
  commands : db.commands.insert command = .ok db'.commands
  rest : db' = { db with approvals := db'.approvals, omsOrders := db'.omsOrders,
                         orderEvents := db'.orderEvents, commands := db'.commands }

/-- an order of the same identity is returned as it is stored, or the order is created -/
theorem createOmsOrder_ok {now : Time} {order : OmsOrder} {command : ExecutionCommand} {db : Db}
    {r : OmsOrder × Db} (h : (createOmsOrder now order (some command) true).run db = .ok r) :
    (r.2 = db ∧ r.1 ∈ db.omsOrders.rows ∧ r.1.identity = order.identity) ∨
      (r.1 = order ∧ CreatedOms now order command db r.2) := by
  simp only [createOmsOrder, failing_ok, bind_ok, require_ok, get_ok] at h
  obtain ⟨_, _, ⟨hcommand, he⟩, _, _, he', h⟩ := h
  cases he
  cases he'
  split at h
  · rename_i row hrow
    simp only [bind_ok, construct_ok, require_ok] at h
    obtain ⟨existing, _, ⟨hc, rfl⟩, _, _, ⟨hid, he⟩, h⟩ := h
    cases he
    cases pure_ok.1 h
    rw [(OmsOrder.check_ok hc).1] at hid ⊢
    exact .inl ⟨rfl, List.mem_of_find?_eq_some hrow, sameOmsIdentity_iff.1 hid⟩
  · rename_i hnone
    have habsent : ∀ row ∈ db.omsOrders.rows, sharesIdentity order row = false := by
      simpa using hnone
    split at h
    · exact (throw_ok.1 h).elim
    · rename_i stored hstored
      simp only [bind_ok, takeApproval, if_true, consumeForOms, require_ok, get_ok,
        requireCurrent_ok, onApprovals, onOmsOrders, onOrderEvents, insertCommand, onCommands,
        write_ok] at h
      obtain ⟨_, _, ⟨_, _, ⟨henv, he⟩, _, _, he', _, _, ⟨hinactive, he''⟩, h⟩, h'⟩ := h
      cases he
      cases he'
      cases he''
      obtain ⟨_, _, ⟨hcur, rfl⟩, _, _, ⟨hmatch, he⟩, A, hA, he'⟩ := h
      cases he
      cases he'
      obtain ⟨_, _, ⟨O, hO, he⟩, _, _, ⟨E, hE, he'⟩, _, _, ⟨C, hC, he''⟩, hr⟩ := h'
      cases he
      cases he'
      cases he''
      cases pure_ok.1 hr
      exact .inr ⟨rfl, hcommand command rfl, henv, hinactive, ⟨stored, hstored, hcur, hmatch⟩,
        habsent, hA, hO, hE, hC, rfl⟩

/-- a row that takes the mutable fields of an order of its identity becomes that order -/
theorem withTransition_eq {order row : OmsOrder} (h : row.identity = order.identity) :
    withTransition order row = { order with createdAt := row.createdAt } := by
  obtain ⟨⟩ := row
  obtain ⟨⟩ := order
  simp only [OmsOrder.identity, OmsIdentity.mk.injEq] at h
  simp only [withTransition, OmsOrder.mk.injEq]
  tauto

@[simp] theorem withTransition_identity (order row : OmsOrder) :
    (withTransition order row).identity = row.identity := rfl

@[simp] theorem withCancel_identity (order row : OmsOrder) :
    (withCancel order row).identity = row.identity := rfl

/-- the stored row an order is the next version of -/
structure NextOf (row order : OmsOrder) (db : Db) : Prop where
  stored : db.omsOrders.get? order.omsOrderId = some row
  valid : row.check = .ok row
  identity : row.identity = order.identity
  version : order.stateVersion = row.stateVersion + 1

/-- `finish_execution_command` stored the next version of an order and completed its command -/
structure Finished (commandId workerId : String) (order : OmsOrder) (eventType : String)
    (errorType : Option String) (db db' : Db) : Prop where
  leased : ∃ command, db.commands.get? commandId = some command ∧ command.status = .leased ∧
    command.leasedBy = some workerId ∧ command.omsOrderId = order.omsOrderId
  next : ∃ row, NextOf row order db
  omsOrders : db.omsOrders.update (fun o => o.omsOrderId == order.omsOrderId)
    (withTransition order) = .ok db'.omsOrders
  commands : db.commands.update (fun c => c.commandId == commandId)
    (complete errorType order.updatedAt) = .ok db'.commands
  orderEvents : db.orderEvents.insert ⟨eventType, order⟩ = .ok db'.orderEvents
  rest : db' = { db with omsOrders := db'.omsOrders, commands := db'.commands,
                         orderEvents := db'.orderEvents }

/-- a stored order that reloads is the row, and its key finds it -/
theorem stored_next {db : Db} {i : String} {row stored order : OmsOrder}
    (hrow : db.omsOrders.get? i = some row) (hc : row.check = .ok stored)
    (hid : sameOmsIdentity stored order = true) (hv : order.stateVersion = stored.stateVersion + 1) :
    i = order.omsOrderId ∧ NextOf row order db := by
  obtain rfl := (OmsOrder.check_ok hc).1
  have hid := sameOmsIdentity_iff.1 hid
  have hkey : stored.omsOrderId = i := ((db.omsOrders.get?_eq_some).1 hrow).2
  have hi : i = order.omsOrderId := hkey ▸ congrArg OmsIdentity.omsOrderId hid
  exact ⟨hi, ⟨hi ▸ hrow, hc, hid, hv⟩⟩

theorem finishExecutionCommand_ok {commandId workerId : String} {order : OmsOrder}
    {eventType : String} {errorType : Option String} {db : Db} {r : OmsOrder × Db}
    (h : (finishExecutionCommand commandId workerId order eventType errorType).run db = .ok r) :
    r.1 = order ∧ Finished commandId workerId order eventType errorType db r.2 := by
  simp only [finishExecutionCommand, failing_ok, bind_ok, get_ok] at h
  obtain ⟨_, _, he, h⟩ := h
  cases he
  split at h
  · exact (throw_ok.1 h).elim
  · rename_i command hcommand
    simp only [bind_ok, require_ok] at h
    obtain ⟨_, _, ⟨hleased, he⟩, h⟩ := h
    cases he
    split at h
    · exact (throw_ok.1 h).elim
    · rename_i row hrow
      simp only [bind_ok, construct_ok, require_ok, transitionOrder, updateCommand, onOmsOrders,
        onCommands, onOrderEvents, write_ok] at h
      obtain ⟨stored, _, ⟨hc, rfl⟩, _, _, ⟨hid, he⟩, _, _, ⟨hv, he'⟩, h⟩ := h
      cases he
      cases he'
      obtain ⟨_, _, ⟨O, hO, he⟩, _, _, ⟨C, hC, he'⟩, _, _, ⟨E, hE, he''⟩, hr⟩ := h
      cases he
      cases he'
      cases he''
      cases pure_ok.1 hr
      obtain ⟨hi, hnext⟩ := stored_next hrow hc hid hv
      exact ⟨rfl, ⟨command, hcommand, hleased.1, hleased.2, hi⟩, ⟨row, hnext⟩, hO, hC, hE, rfl⟩

/-- `queue_cancel_command` stored the next version of an order and a CANCEL command -/
structure CancelQueued (order : OmsOrder) (command : ExecutionCommand) (db db' : Db) : Prop where
  cancel : command.commandType = .cancel ∧ command.omsOrderId = order.omsOrderId
  next : ∃ row, NextOf row order db
  omsOrders : db.omsOrders.update (fun o => o.omsOrderId == order.omsOrderId) (withCancel order) =
    .ok db'.omsOrders
  orderEvents : db.orderEvents.insert ⟨"CANCEL_QUEUED", order⟩ = .ok db'.orderEvents
  commands : db.commands.insert command = .ok db'.commands
  rest : db' = { db with omsOrders := db'.omsOrders, orderEvents := db'.orderEvents,
                         commands := db'.commands }

/-- the transaction finds a CANCEL command and changes nothing, or stores the first one -/
theorem queueCancelCommand_cases {order : OmsOrder} {command : ExecutionCommand} {db : Db}
    {r : OmsOrder × Db} (h : (queueCancelCommand order command).run db = .ok r) :
    r.1.omsOrderId = order.omsOrderId ∧
    (db.cancelsOf order.omsOrderId ≠ [] ∧ r.2 = db ∨
      db.cancelsOf order.omsOrderId = [] ∧ CancelQueued order command db r.2) := by
  have hany : (db.commands.rows.any fun c => c.omsOrderId == order.omsOrderId &&
      c.commandType == .cancel) = true ↔ db.cancelsOf order.omsOrderId ≠ [] := by
    rw [Db.cancelsOf, Ne, List.filter_eq_nil_iff]
    simp
  simp only [queueCancelCommand, failing_ok, bind_ok, require_ok, get_ok] at h
  obtain ⟨_, _, ⟨hcancel, he⟩, _, _, he', h⟩ := h
  cases he
  cases he'
  split at h
  · exact (throw_ok.1 h).elim
  · rename_i row hrow
    simp only [bind_ok, construct_ok, require_ok] at h
    obtain ⟨stored, _, ⟨hc, rfl⟩, _, _, ⟨hid, he⟩, h⟩ := h
    cases he
    have hkey : stored.omsOrderId = order.omsOrderId :=
      congrArg OmsIdentity.omsOrderId (sameOmsIdentity_iff.1 hid)
    split_ifs at h with hsome
    · cases pure_ok.1 h
      exact ⟨hkey, .inl ⟨hany.1 hsome, rfl⟩⟩
    · have hnone := not_not.1 (mt hany.2 hsome)
      simp only [bind_ok, require_ok, onOmsOrders, onOrderEvents, onCommands, write_ok] at h
      obtain ⟨_, _, ⟨hv, he⟩, _, _, ⟨O, hO, he'⟩, _, _, ⟨E, hE, he''⟩, _, _, ⟨C, hC, hr⟩, h⟩ := h
      cases he
      cases he'
      cases he''
      cases hr
      cases pure_ok.1 h
      exact ⟨rfl, .inr ⟨hnone, hcancel, ⟨row, (stored_next hrow hc hid hv).2⟩, hO, hE, hC, rfl⟩⟩

theorem queueCancelCommand_ok {order : OmsOrder} {command : ExecutionCommand} {db : Db}
    {r : OmsOrder × Db} (h : (queueCancelCommand order command).run db = .ok r) :
    r.2 = db ∨ CancelQueued order command db r.2 :=
  (queueCancelCommand_cases h).2.imp And.right And.right

/-! ## Claiming -/

/-- an expired command was dead-lettered, and its order, if still open, is of unknown status -/
structure Expired (now : Time) (command : ExecutionCommand) (db db' : Db) : Prop where
  order : ∃ row, db.omsOrders.get? command.omsOrderId = some row ∧
    ((row.status.terminal = true ∧ db'.omsOrders = db.omsOrders ∧
        db'.orderEvents = db.orderEvents) ∨
      (row.status.terminal = false ∧
        db.omsOrders.update (fun o => o.omsOrderId == row.omsOrderId)
          (withTransition (leaseExpired row now)) = .ok db'.omsOrders ∧
        db.orderEvents.insert ⟨"LEASE_EXPIRED_STATUS_UNKNOWN", leaseExpired row now⟩ =
          .ok db'.orderEvents))
  commands : db.commands.update (fun c => c.commandId == command.commandId)
    (fun c => { c with status := .deadLetter, leasedBy := none, leaseExpiresAt := none,
                       lastErrorType := some "LEASE_EXPIRED", completedAt := some now }) =
      .ok db'.commands
  rest : db' = { db with omsOrders := db'.omsOrders, orderEvents := db'.orderEvents,
                         commands := db'.commands }

theorem expireCommand_ok {now : Time} {command : ExecutionCommand} {db : Db} {r : Unit × Db}
    (h : (expireCommand now command).run db = .ok r) : Expired now command db r.2 := by
  simp only [expireCommand, bind_ok, get_ok] at h
  obtain ⟨_, _, he, h⟩ := h
  cases he
  split at h
  · exact (throw_ok.1 h).elim
  · rename_i row hrow
    simp only [bind_ok, construct_ok, expireOrder, updateCommand, onCommands, write_ok] at h
    obtain ⟨stored, _, ⟨hc, rfl⟩, _, d, ho, C, hC, he⟩ := h
    obtain rfl := (OmsOrder.check_ok hc).1
    cases he
    split_ifs at ho with hterm
    · cases pure_ok.1 ho
      exact ⟨⟨stored, hrow, .inl ⟨hterm, rfl, rfl⟩⟩, hC, rfl⟩
    · simp only [transitionOrder, bind_ok, onOmsOrders, onOrderEvents, write_ok] at ho
      obtain ⟨_, _, ⟨O, hO, he⟩, E, hE, he'⟩ := ho
      cases he
      cases he'
      exact ⟨⟨stored, hrow, .inr ⟨by simpa using hterm, hO, hE⟩⟩, hC, rfl⟩

theorem foldl_earlier_mem {l : List ExecutionCommand} {acc : Option ExecutionCommand}
    {c : ExecutionCommand} (h : l.foldl earlier acc = some c) : acc = some c ∨ c ∈ l := by
  induction l generalizing acc with
  | nil => exact .inl h
  | cons x l ih =>
    rcases ih h with hacc | hl
    · -- the accumulator is the old best or the new command
      unfold earlier at hacc
      split at hacc
      · cases hacc
        exact .inr (by simp)
      · split_ifs at hacc
        · cases hacc
          exact .inr (by simp)
        · exact .inl hacc
    · exact .inr (List.mem_cons_of_mem _ hl)

theorem nextCommand_mem {db : Db} {now : Time} {locked : List String} {c : ExecutionCommand}
    (h : nextCommand db now locked = some c) :
    c ∈ db.commands.rows ∧ claimable now locked c = true := by
  rcases foldl_earlier_mem h with h | h
  · cases h
  · exact List.mem_filter.1 h

/-- `claim_execution_command` leased a command and handed it out with its order -/
structure Claimed (now : Time) (workerId : String) (leaseMicroseconds : ℕ)
    (leased : ExecutionCommand) (order : OmsOrder) (db db' : Db) : Prop where
  command : ∃ c ∈ db.commands.rows, c.attemptCount < c.maxAttempts ∧
    leased = leaseTo workerId (now + max 1000000 leaseMicroseconds) c
  valid : order.check = .ok order
  order : db.omsOrders.get? leased.omsOrderId = some order
  commands : db.commands.update (fun c => c.commandId == leased.commandId) (fun _ => leased) =
    .ok db'.commands
  rest : db' = { db with commands := db'.commands }

/-- the expired commands are settled first; then a command is handed out, or none is left -/
theorem claimExecutionCommand_ok {now : Time} {locked : List String} {workerId : String}
    {leaseMicroseconds : ℕ} {db : Db} {r : Option (ExecutionCommand × OmsOrder) × Db}
    (h : (claimExecutionCommand now locked workerId leaseMicroseconds).run db = .ok r) :
    ∃ d, (forEach (expiredCommands db now locked) (expireCommand now)).run db = .ok ((), d) ∧
      (r = (none, d) ∨
        ∃ leased order, r.1 = some (leased, order) ∧
          Claimed now workerId leaseMicroseconds leased order d r.2) := by
  simp only [claimExecutionCommand, failing_ok, bind_ok, get_ok] at h
  obtain ⟨_, _, he, ⟨⟩, d, hexp, _, _, he', h⟩ := h
  cases he
  cases he'
  refine ⟨d, hexp, ?_⟩
  split at h
  · exact .inl (pure_ok.1 h)
  · rename_i command hnext
    obtain ⟨hmem, hclaim⟩ := nextCommand_mem hnext
    simp only [claimable, Bool.and_eq_true, decide_eq_true_eq] at hclaim
    split at h
    · exact (throw_ok.1 h).elim
    · rename_i row hrow
      simp only [bind_ok, updateCommand, onCommands, write_ok, construct_ok] at h
      obtain ⟨_, _, ⟨C, hC, he⟩, claimed, _, ⟨hcl, rfl⟩, order, _, ⟨ho, rfl⟩, hr⟩ := h
      cases he
      obtain rfl := (OmsOrder.check_ok ho).1
      obtain ⟨-, -, rfl⟩ := validateModel_ok.1 hcl
      cases pure_ok.1 hr
      exact .inr ⟨_, _, rfl, ⟨command, hmem, hclaim.1.1.1, rfl⟩, ho, hrow, hC, rfl⟩

/-! ## Frames -/

/-- one correction of a reconciliation run, or an order the run does not know -/
structure Reconciled (order : OmsOrder) (db db' : Db) : Prop where
  next : ∃ row, NextOf row order db
  omsOrders : db.omsOrders.update (fun o => o.omsOrderId == order.omsOrderId)
    (withTransition order) = .ok db'.omsOrders
  orderEvents : db.orderEvents.insert ⟨"RECONCILED", order⟩ = .ok db'.orderEvents
  rest : db' = { db with omsOrders := db'.omsOrders, orderEvents := db'.orderEvents }

theorem reconcileOrder_ok {order : OmsOrder} {db : Db} {r : Unit × Db}
    (h : (reconcileOrder order).run db = .ok r) : r.2 = db ∨ Reconciled order db r.2 := by
  simp only [reconcileOrder, bind_ok, get_ok] at h
  obtain ⟨_, _, he, h⟩ := h
  cases he
  split at h
  · cases pure_ok.1 h
    exact .inl rfl
  · rename_i row hrow
    simp only [bind_ok, construct_ok, require_ok, transitionOrder, onOmsOrders, onOrderEvents,
      write_ok] at h
    obtain ⟨stored, _, ⟨hc, rfl⟩, _, _, ⟨⟨hid, hv⟩, he⟩, _, _, ⟨O, hO, he'⟩, E, hE, he''⟩ := h
    cases he
    cases he'
    cases he''
    exact .inr ⟨⟨row, (stored_next hrow hc hid hv).2⟩, hO, hE, rfl⟩

theorem expireCommand_frame (now : Time) (command : ExecutionCommand) :
    Keeps Db.OmsFrame (expireCommand now command) := by
  intro db u db' h
  obtain ⟨⟨row, -, horder⟩, -, hrest⟩ := expireCommand_ok h
  simp only at hrest horder
  rw [hrest]
  refine ⟨rfl, rfl, rfl, rfl, rfl, ?_⟩
  rcases horder with ⟨-, ho, -⟩ | ⟨-, ho, -⟩
  · rw [ho]
    exact .refl _
  · exact .of_update ho

theorem claim_frame {now : Time} {locked : List String} {workerId : String}
    {leaseMicroseconds : ℕ} :
    Keeps Db.OmsFrame (claimExecutionCommand now locked workerId leaseMicroseconds) := by
  intro db r db' h
  obtain ⟨d, hexp, h⟩ := claimExecutionCommand_ok h
  have hd : db.OmsFrame d := Keeps.forEach (fun c _ => expireCommand_frame now c) db () d hexp
  rcases h with h | ⟨leased, order, -, hcl⟩
  · cases h
    exact hd
  · refine hd.trans ?_
    have hrest := hcl.rest
    simp only at hrest
    rw [hrest]
    exact ⟨rfl, rfl, rfl, rfl, rfl, .refl _⟩

theorem finish_frame {commandId workerId : String} {order : OmsOrder} {eventType : String}
    {errorType : Option String} :
    Keeps Db.OmsFrame (finishExecutionCommand commandId workerId order eventType errorType) := by
  intro db r db' h
  obtain ⟨-, hf⟩ := finishExecutionCommand_ok h
  have hrest := hf.rest
  simp only at hrest
  rw [hrest]
  exact ⟨rfl, rfl, rfl, rfl, rfl, .of_update hf.omsOrders⟩

theorem cancel_frame {order : OmsOrder} {command : ExecutionCommand} :
    Keeps Db.OmsFrame (queueCancelCommand order command) := by
  intro db r db' h
  rcases queueCancelCommand_ok h with h | hq
  · cases h
    exact .refl _
  · have hrest := hq.rest
    simp only at hrest
    rw [hrest]
    exact ⟨rfl, rfl, rfl, rfl, rfl, .of_update hq.omsOrders⟩

theorem reconcileOrder_frame (order : OmsOrder) : Keeps Db.OmsFrame (reconcileOrder order) := by
  intro db r db' h
  rcases reconcileOrder_ok h with h | hr
  · cases h
    exact .refl _
  · have hrest := hr.rest
    simp only at hrest
    rw [hrest]
    exact ⟨rfl, rfl, rfl, rfl, rfl, .of_update hr.omsOrders⟩

/-- reading rows back changes nothing -/
theorem ordersFromRows_ok {rows : List OmsOrder} {db : Db} {r : List OmsOrder × Db}
    (h : (ordersFromRows rows).run db = .ok r) :
    r = (rows, db) ∧ ∀ row ∈ rows, row.check = .ok row := by
  induction rows generalizing r with
  | nil =>
    rw [ordersFromRows, pure_ok] at h
    exact ⟨h, by simp⟩
  | cons row rows ih =>
    simp only [ordersFromRows, bind_ok, construct_ok] at h
    obtain ⟨order, _, ⟨hc, rfl⟩, orders, d, hrows, hr⟩ := h
    obtain rfl := (OmsOrder.check_ok hc).1
    obtain ⟨he, hall⟩ := ih hrows
    cases he
    refine ⟨pure_ok.1 hr, ?_⟩
    rintro x (_ | ⟨_, hx⟩)
    · exact hc
    · exact hall x hx

theorem insertFill_frame (orders : List OmsOrder) (fill : ExecutionFill) :
    Keeps Db.OmsFrame (insertFill orders fill) := by
  refine .bind .get fun db => ?_
  split
  · exact .pure
  · exact .write fun s t _ => ⟨rfl, rfl, rfl, rfl, rfl, .refl _⟩

theorem persist_frame {run : ReconciliationRun} {mismatches : List ReconciliationMismatch}
    {snapshot : VenueStateSnapshot} {orders : List OmsOrder} :
    Keeps Db.OmsFrame (persistReconciliation run mismatches snapshot orders) := by
  refine .wrap (.bind (.write fun s t _ => ⟨rfl, rfl, rfl, rfl, rfl, .refl _⟩) fun _ => ?_)
  refine .bind (.forEach fun o _ => reconcileOrder_frame o) fun _ => ?_
  refine .bind .get fun db => ?_
  refine .bind (fun s a t h => ?_) fun _ => ?_
  · cases (ordersFromRows_ok h).1
    exact .refl _
  · refine .bind (.forEach fun f _ => insertFill_frame _ f) fun _ => ?_
    intro s a t h
    cases h
    exact ⟨rfl, rfl, rfl, rfl, rfl, .refl _⟩

/-! ## Every commit extends the database -/

theorem Evaluated.extends {check : RiskCheck} {approval : Option OrderApproval} {db db' : Db}
    (h : Evaluated check approval db db') : db.Extends db' := by
  have ha : db.approvals.Extends db'.approvals := by
    have := h.approvals
    cases approval with
    | none => exact this ▸ .refl _
    | some a => exact .of_insert this
  rw [h.rest]
  exact { Db.Extends.refl db with evaluations := .of_insert h.evaluations, approvals := ha }

theorem Controlled.extends {now : Time} {active : Bool} {reason actor : String}
    {correlationId : Option String} {row : RiskControlState} {db db' : Db}
    (h : Controlled now active reason actor correlationId row db db') : db.Extends db' := by
  have ha : db.approvals.Extends db'.approvals := by
    have := h.approvals
    split_ifs at this
    · exact .of_update this
    · exact this ▸ .refl _
  -- the one row, if there was one, takes the accepted step of the trigger
  have hr : db.riskControl.Extends db'.riskControl := by
    intro old hold
    have hrow : controlRow db = old := by
      rw [controlRow, (db.riskControl.get?_eq_some (k := ())).2 ⟨hold, rfl⟩, Option.getD_some]
    refine ⟨row, ((db'.riskControl.get?_eq_some).1 h.riskControl).1, .single ?_⟩
    have hne := h.moved
    rw [hrow] at hne
    rw [h.row_eq, hrow]
    simpa [riskControlSchema, nextControl] using fun he => hne he.symm
  rw [h.rest]
  exact { Db.Extends.refl db with
    riskControl := hr, approvals := ha, riskControlEvents := .of_insert h.riskControlEvents }

theorem ConsumedPaper.extends {now : Time} {approval : OrderApproval} {order : PaperOrder}
    {mirror : OmsOrder} {db db' : Db} (h : ConsumedPaper now approval order mirror db db') :
    db.Extends db' := by
  rw [h.rest]
  exact { Db.Extends.refl db with
    approvals := .of_update h.approvals, paperOrders := .of_insert h.paperOrders
    omsOrders := .of_insert h.omsOrders, orderEvents := .of_insert h.orderEvents }

theorem SavedPaper.extends {order : PaperOrder} {db db' : Db} (h : SavedPaper order db db') :
    db.Extends db' := by
  have hp : db.paperOrders.Extends db'.paperOrders := by
    rcases h.paperOrders with ⟨row, -, hu⟩ | ⟨-, hi⟩
    · exact .of_update hu
    · exact .of_insert hi
  rw [h.rest]
  exact { Db.Extends.refl db with paperOrders := hp }

theorem CreatedOms.extends {now : Time} {order : OmsOrder} {command : ExecutionCommand}
    {db db' : Db} (h : CreatedOms now order command db db') : db.Extends db' := by
  rw [h.rest]
  exact { Db.Extends.refl db with
    approvals := .of_update h.approvals, omsOrders := .of_insert h.omsOrders
    orderEvents := .of_insert h.orderEvents, commands := .of_insert h.commands }

theorem Finished.extends {commandId workerId : String} {order : OmsOrder} {eventType : String}
    {errorType : Option String} {db db' : Db}
    (h : Finished commandId workerId order eventType errorType db db') : db.Extends db' := by
  rw [h.rest]
  exact { Db.Extends.refl db with
    omsOrders := .of_update h.omsOrders, commands := .of_update h.commands
    orderEvents := .of_insert h.orderEvents }

theorem CancelQueued.extends {order : OmsOrder} {command : ExecutionCommand} {db db' : Db}
    (h : CancelQueued order command db db') : db.Extends db' := by
  rw [h.rest]
  exact { Db.Extends.refl db with
    omsOrders := .of_update h.omsOrders, commands := .of_insert h.commands
    orderEvents := .of_insert h.orderEvents }

theorem Expired.extends {now : Time} {command : ExecutionCommand} {db db' : Db}
    (h : Expired now command db db') : db.Extends db' := by
  obtain ⟨⟨row, -, horder⟩, hcommands, hrest⟩ := h
  have ho : db.omsOrders.Extends db'.omsOrders ∧ db.orderEvents.Extends db'.orderEvents := by
    rcases horder with ⟨-, ho, he⟩ | ⟨-, ho, he⟩
    · exact ⟨ho ▸ .refl _, he ▸ .refl _⟩
    · exact ⟨.of_update ho, .of_insert he⟩
  rw [hrest]
  exact { Db.Extends.refl db with
    omsOrders := ho.1, orderEvents := ho.2, commands := .of_update hcommands }

theorem Claimed.extends {now : Time} {workerId : String} {leaseMicroseconds : ℕ}
    {leased : ExecutionCommand} {order : OmsOrder} {db db' : Db}
    (h : Claimed now workerId leaseMicroseconds leased order db db') : db.Extends db' := by
  rw [h.rest]
  exact { Db.Extends.refl db with commands := .of_update h.commands }

theorem Reconciled.extends {order : OmsOrder} {db db' : Db} (h : Reconciled order db db') :
    db.Extends db' := by
  rw [h.rest]
  exact { Db.Extends.refl db with
    omsOrders := .of_update h.omsOrders, orderEvents := .of_insert h.orderEvents }

theorem claim_extends {now : Time} {locked : List String} {workerId : String}
    {leaseMicroseconds : ℕ} :
    Keeps Db.Extends (claimExecutionCommand now locked workerId leaseMicroseconds) := by
  intro db r db' h
  obtain ⟨d, hexp, h⟩ := claimExecutionCommand_ok h
  have hd : db.Extends d :=
    Keeps.forEach (fun c _ s u t ht => (expireCommand_ok ht).extends) db () d hexp
  rcases h with h | ⟨leased, order, -, hcl⟩
  · cases h
    exact hd
  · exact hd.trans hcl.extends

theorem persist_extends {run : ReconciliationRun} {mismatches : List ReconciliationMismatch}
    {snapshot : VenueStateSnapshot} {orders : List OmsOrder} :
    Keeps Db.Extends (persistReconciliation run mismatches snapshot orders) := by
  refine .wrap (.bind (.write fun s t ht =>
    { Db.Extends.refl s with runs := .of_insert ht }) fun _ => ?_)
  refine .bind (.forEach fun o _ s u t ht => ?_) fun _ => .bind .get fun db => ?_
  · rcases reconcileOrder_ok ht with h | h
    · exact h ▸ .refl _
    · exact h.extends
  · refine .bind (fun s a t h => ?_) fun _ => .bind (.forEach fun f _ => ?_) fun _ => ?_
    · cases (ordersFromRows_ok h).1
      exact .refl _
    · refine .bind .get fun db => ?_
      split
      · exact .pure
      · exact .write fun s t ht => { Db.Extends.refl s with fills := .of_insert ht }
    · intro s a t h
      cases h
      exact ⟨.refl _, .refl _, .refl _, .refl _, .refl _, .refl _, .refl _, .refl _, .refl _,
        .refl _⟩

/-! ## Reads -/

theorem loadCentralRiskEvaluationByKey_ok {key : String} {db : Db}
    {r : Option (RiskCheck × Option OrderApproval) × Db}
    (h : (loadCentralRiskEvaluationByKey key).run db = .ok r) :
    r.2 = db ∧ ∀ c a, r.1 = some (c, a) → c ∈ db.evaluations.rows ∧ c.check = .ok c ∧
      ∀ x ∈ a, x ∈ db.approvals.rows ∧ x.check = .ok x := by
  simp only [loadCentralRiskEvaluationByKey, failing_ok, bind_ok, get_ok] at h
  obtain ⟨_, _, he, h⟩ := h
  cases he
  split at h
  · cases pure_ok.1 h
    exact ⟨rfl, by simp⟩
  · rename_i evaluation heval
    simp only [bind_ok, construct_ok] at h
    obtain ⟨check, _, ⟨hc, rfl⟩, h⟩ := h
    obtain rfl := (RiskCheck.check_ok hc).1
    split at h
    · cases pure_ok.1 h
      refine ⟨rfl, fun c a hca => ?_⟩
      cases hca
      exact ⟨List.mem_of_find?_eq_some heval, hc, by simp⟩
    · rename_i row hrow
      simp only [bind_ok, construct_ok] at h
      obtain ⟨approval, _, ⟨ha, rfl⟩, h⟩ := h
      obtain rfl := (OrderApproval.check_ok ha).1
      cases pure_ok.1 h
      refine ⟨rfl, fun c a hca => ?_⟩
      cases hca
      refine ⟨List.mem_of_find?_eq_some heval, hc, fun x hx => ?_⟩
      cases hx
      exact ⟨List.mem_of_find?_eq_some hrow, ha⟩

theorem loadOpenPositionExposures_ok {db : Db} {r : List PositionExposure × Db}
    (h : loadOpenPositionExposures.run db = .ok r) :
    durablePositionExposures db = .ok r.1 ∧ r.2 = db := by
  rwa [loadOpenPositionExposures, failing_ok, readExposures_ok] at h

theorem loadRiskControlState_ok {db : Db} {r : Option RiskControlState × Db}
    (h : loadRiskControlState.run db = .ok r) : r = (db.riskControl.get? (), db) := by
  simp only [loadRiskControlState, bind_ok, get_ok] at h
  obtain ⟨_, _, he, h⟩ := h
  cases he
  exact pure_ok.1 h

theorem loadOmsOrder_ok {omsOrderId : String} {db : Db} {r : Option OmsOrder × Db}
    (h : (loadOmsOrder omsOrderId).run db = .ok r) :
    r = (db.omsOrders.get? omsOrderId, db) ∧ ∀ o ∈ r.1, o.check = .ok o := by
  simp only [loadOmsOrder, failing_ok, bind_ok, get_ok] at h
  obtain ⟨_, _, he, h⟩ := h
  cases he
  split at h
  · rename_i hnone
    cases pure_ok.1 h
    exact ⟨by rw [hnone], by simp⟩
  · rename_i row hrow
    simp only [bind_ok, construct_ok] at h
    obtain ⟨order, _, ⟨hc, rfl⟩, h⟩ := h
    obtain rfl := (OmsOrder.check_ok hc).1
    cases pure_ok.1 h
    refine ⟨by rw [hrow], fun o ho => ?_⟩
    cases ho
    exact hc

theorem listOmsOrders_ok {exchange : Exchange} {environment : ExecutionEnvironment} {db : Db}
    {r : List OmsOrder × Db} (h : (listOmsOrders exchange environment).run db = .ok r) :
    r.2 = db ∧ (∀ o, o ∈ r.1 ↔ o ∈ ordersOf db exchange environment) ∧
      ∀ o ∈ r.1, o.check = .ok o := by
  simp only [listOmsOrders, failing_ok, bind_ok, get_ok] at h
  obtain ⟨_, _, he, h⟩ := h
  cases he
  obtain ⟨he, hall⟩ := ordersFromRows_ok h
  cases he
  exact ⟨rfl, fun o => List.mem_insertionSort _, hall⟩

/-- orders are listed once each -/
theorem listOmsOrders_nodup {exchange : Exchange} {environment : ExecutionEnvironment} {db : Db}
    {r : List OmsOrder × Db} (h : (listOmsOrders exchange environment).run db = .ok r) :
    (r.1.map OmsOrder.omsOrderId).Nodup := by
  simp only [listOmsOrders, failing_ok, bind_ok, get_ok] at h
  obtain ⟨_, _, he, h⟩ := h
  cases he
  cases (ordersFromRows_ok h).1
  rw [((List.perm_insertionSort _ _).map OmsOrder.omsOrderId).nodup_iff, List.nodup_map_iff_inj_on]
  · intro a ha b hb hab
    exact db.omsOrders.eq_of_key_eq (List.mem_filter.1 ha).1 (List.mem_filter.1 hb).1 hab
  · exact (db.omsOrders.unique.imp fun h he => h.1 (congrArg _ he)).filter _

end Repository

end CapitalCipher
