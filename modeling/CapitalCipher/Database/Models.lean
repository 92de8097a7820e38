/-
The durable tables of `database/models.py` and the triggers of `database/session.py`.

Each table the modelled code writes is a guarded table: its primary key, CHECKs, UNIQUE
constraints and BEFORE UPDATE trigger are those of the source. Evidence tables take no update at
all. Foreign keys are left out: every write the repository makes looks its parent up first.
Surrogate `uuid4` keys that nothing reads (event, mismatch and snapshot ids) are left out too.

  • `approval_final`, `omsOrder_final`: the triggers make a decided approval and a terminal order
    immutable.
  • `Db.Extends`: what any later content of the database keeps of an earlier one; `Db.OmsFrame`: what
    an OMS operation that creates no order leaves alone.
-/
import CapitalCipher.Lib.Table
import CapitalCipher.Lib.Transaction
import CapitalCipher.Schemas.Risk
import CapitalCipher.Schemas.Oms
import CapitalCipher.Schemas.Market

namespace CapitalCipher

open Lib

/-! ## Central risk -/

/-- `risk_control_state`: one row, each update one revision further and the other way -/
def riskControlSchema : Schema Unit RiskControlState where
  key _ := ()
  check _ := true
  clash _ _ := false
  guard old new := new.revision == old.revision + 1 && new.active != old.active
  guard_key _ := rfl

/-- a row of `risk_control_events` -/
structure RiskControlEvent where
  revision : ℕ
  triggered : Bool        -- event_type: TRIGGERED or RESET
  reason : String
  actor : String
  correlationId : Option String
  createdAt : Time
  deriving DecidableEq

def riskControlEventSchema : Schema ℕ RiskControlEvent where
  key e := e.revision
  check e := decide (0 < e.revision)
  clash _ _ := false
  guard _ _ := false
  guard_key h := by cases h

/-- `risk_evaluations`: the columns repeat fields of the check stored as payload -/
def riskEvaluationSchema : Schema String RiskCheck where
  key c := c.evaluationId
  check c := decide (c.evaluationId.toList.length = 64 ∧ c.requestFingerprint.toList.length = 64 ∧
    c.riskStatus ≠ .pending ∧ c.approved = c.riskStatus.isApproved)
  clash a b := a.riskCheckId == b.riskCheckId || a.idempotencyKey == b.idempotencyKey
  guard _ _ := false
  guard_key h := by cases h

/-- the columns `guard_order_approval_transition` holds fixed -/
def OrderApproval.identity (a : OrderApproval) : OrderApproval :=
  { a with status := .active, consumedAt := none, paperOrderId := none, omsOrderId := none }

/-- `ck_order_approval_terminal` -/
def OrderApproval.terminalCheck (a : OrderApproval) : Bool :=
  (a.status == .consumed && a.consumedAt.isSome &&
    (a.paperOrderId.isSome && a.omsOrderId.isNone ||
      a.paperOrderId.isNone && a.omsOrderId.isSome)) ||
  (a.status != .consumed && a.consumedAt.isNone && a.paperOrderId.isNone && a.omsOrderId.isNone)

def orderApprovalSchema : Schema String OrderApproval where
  key a := a.approvalId
  check a := decide (a.approvalId.toList.length = 64 ∧ 0 < a.maxNotional ∧ 1 ≤ a.maxLeverage ∧
    0 < a.referencePrice ∧ 0 ≤ a.maxEntryDeviationBps ∧ a.createdAt < a.expiresAt) &&
    a.terminalCheck
  clash a b := a.evaluationId == b.evaluationId ||
    (a.paperOrderId.isSome && a.paperOrderId == b.paperOrderId) ||
    (a.omsOrderId.isSome && a.omsOrderId == b.omsOrderId)
  guard old new := old.identity == new.identity && old.status == .active && new.status != .active
  guard_key h := by
    simp only [Bool.and_eq_true, beq_iff_eq] at h
    exact (congrArg OrderApproval.approvalId h.1.1 :)

/-- `paper_orders`: no trigger beyond the primary key -/
def paperOrderSchema : Schema String PaperOrder where
  key o := o.paperOrderId
  check _ := true
  clash a b := a.approvalId.isSome && a.approvalId == b.approvalId
  guard old new := old.paperOrderId == new.paperOrderId
  guard_key h := by simpa using h

/-! ## OMS -/

/-- the CHECKs of `oms_orders` that the column types do not already give -/
def OmsOrder.rowCheck (o : OmsOrder) : Bool :=
  decide (0 < o.quantity ∧ 0 < o.requestedNotional ∧ 0 < o.referencePrice ∧ 1 ≤ o.leverage ∧
    1 ≤ o.stateVersion ∧ 0 ≤ o.cumulativeFilledQuantity ∧
    o.cumulativeFilledQuantity ≤ o.quantity ∧ (o.orderType = .limit → o.limitPrice.isSome)) &&
  (o.status.terminal == o.terminalAt.isSome)

/-- `guard_oms_order_transition` -/
def omsOrderGuard (old new : OmsOrder) : Bool :=
  old.identity == new.identity && old.createdAt == new.createdAt &&
  new.stateVersion == old.stateVersion + 1 && !old.status.terminal &&
  (new.status == old.status || new.status != .created)

def omsOrderSchema : Schema String OmsOrder where
  key o := o.omsOrderId
  check := OmsOrder.rowCheck
  clash a b := a.approvalId == b.approvalId ||
    (a.exchange == b.exchange && a.environment == b.environment &&
      a.clientOrderId == b.clientOrderId)
  guard := omsOrderGuard
  guard_key h := by
    simp only [omsOrderGuard, Bool.and_eq_true, beq_iff_eq] at h
    exact congrArg OmsIdentity.omsOrderId h.1.1.1.1

/-- a row of `oms_order_events`; the other columns repeat fields of the payload -/
structure OmsOrderEvent where
  eventType : String
  payload : OmsOrder
  deriving DecidableEq

def omsOrderEventSchema : Schema (String × ℕ) OmsOrderEvent where
  key e := (e.payload.omsOrderId, e.payload.stateVersion)
  check _ := true
  clash _ _ := false
  guard _ _ := false
  guard_key h := by cases h

/-- `ck_execution_command_lifecycle` -/
def ExecutionCommand.lifecycleCheck (c : ExecutionCommand) : Bool :=
  match c.status with
  | .pending => c.leasedBy.isNone && c.leaseExpiresAt.isNone && c.completedAt.isNone
  | .leased => c.leasedBy.isSome && c.leaseExpiresAt.isSome && c.completedAt.isNone
  | .completed | .deadLetter =>
    c.leasedBy.isNone && c.leaseExpiresAt.isNone && c.completedAt.isSome

/-- `guard_execution_command_transition` -/
def executionCommandGuard (old new : ExecutionCommand) : Bool :=
  old.commandId == new.commandId && old.omsOrderId == new.omsOrderId &&
  old.commandType == new.commandType && old.maxAttempts == new.maxAttempts &&
  old.availableAt == new.availableAt && old.createdAt == new.createdAt &&
  (old.status == .pending && new.status == .leased ||
    old.status == .leased && new.status != .pending)

def executionCommandSchema : Schema String ExecutionCommand where
  key c := c.commandId
  check c := decide (c.maxAttempts = 1 ∧ c.attemptCount ≤ c.maxAttempts) && c.lifecycleCheck
  clash a b := a.omsOrderId == b.omsOrderId && a.commandType == b.commandType
  guard := executionCommandGuard
  guard_key h := by
    simp only [executionCommandGuard, Bool.and_eq_true, beq_iff_eq] at h
    exact h.1.1.1.1.1.1

def executionFillSchema : Schema String ExecutionFill where
  key f := f.fillId
  check f := decide (0 < f.quantity ∧ 0 < f.price ∧ 0 ≤ f.fee)
  clash _ _ := false
  guard _ _ := false
  guard_key h := by cases h

def reconciliationRunSchema : Schema String ReconciliationRun where
  key r := r.runId
  check r := decide (r.criticalMismatchCount ≤ r.mismatchCount) &&
    ((r.status == .failed) == r.errorType.isSome)
  clash _ _ := false
  guard _ _ := false
  guard_key h := by cases h

/-- a row of `venue_position_snapshots` -/
structure VenuePositionRow where
  runId : String
  position : VenuePositionSnapshot
  deriving DecidableEq

/-- a row of `venue_balance_snapshots` -/
structure VenueBalanceRow where
  runId : String
  balance : VenueBalanceSnapshot
  deriving DecidableEq

/-! ## Market data -/

/-- a row of `candle_observations` -/
structure CandleRow where
  candle : Candle
  quality : DataQualityReport
  deriving DecidableEq

/-- the candle id digests the market facts, so it is taken to be them -/
def candleSchema : Schema Candle CandleRow where
  key r := r.candle.facts
  check r := decide (0 < r.candle.openPrice ∧ 0 < r.candle.high ∧ 0 < r.candle.low ∧
    0 < r.candle.close ∧ r.candle.openPrice ≤ r.candle.high ∧ r.candle.close ≤ r.candle.high ∧
    r.candle.low ≤ r.candle.openPrice ∧ r.candle.low ≤ r.candle.close ∧
    r.candle.low ≤ r.candle.high ∧ 0 ≤ r.candle.volume ∧
    0 ≤ r.quality.dataQualityScore ∧ r.quality.dataQualityScore ≤ 100)
  clash a b := a.candle.series == b.candle.series && a.candle.closedAt == b.candle.closedAt
  guard _ _ := false
  guard_key h := by cases h

def marketDataGapSchema : Schema (Series × Time × Time) MarketDataGap where
  key := MarketDataGap.gapId
  check g := decide (0 < g.missingCount ∧ g.startAt ≤ g.endAt)
  clash _ _ := false
  guard old new := old.gapId == new.gapId
  guard_key h := by simpa using h

/-- the durable state -/
structure Db where
  riskControl : Table riskControlSchema
  riskControlEvents : Table riskControlEventSchema
  evaluations : Table riskEvaluationSchema
  approvals : Table orderApprovalSchema
  paperOrders : Table paperOrderSchema
  omsOrders : Table omsOrderSchema
  orderEvents : Table omsOrderEventSchema
  commands : Table executionCommandSchema
  fills : Table executionFillSchema
  runs : Table reconciliationRunSchema
  mismatches : List ReconciliationMismatch
  positions : List VenuePositionRow
  balances : List VenueBalanceRow
  candles : Table candleSchema
  gaps : Table marketDataGapSchema

/-- a database just created -/
def Db.empty : Db where
  riskControl := .empty _
  riskControlEvents := .empty _
  evaluations := .empty _
  approvals := .empty _
  paperOrders := .empty _
  omsOrders := .empty _
  orderEvents := .empty _
  commands := .empty _
  fills := .empty _
  runs := .empty _
  mismatches := []
  positions := []
  balances := []
  candles := .empty _
  gaps := .empty _

/-- a transaction: it commits a new database or raises and leaves the old one -/
abbrev Txn := Tx Db Error

/-- what the driver raises when the database refuses a write -/
def integrityError (table : String) : Violation → Error
  | .check => ⟨.integrity, "CHECK constraint failed: " ++ table⟩
  | .unique => ⟨.integrity, "UNIQUE constraint failed: " ++ table⟩
  | .guard => ⟨.integrity, "transition trigger failed: " ++ table⟩

namespace Txn

def onRiskControl : (Table riskControlSchema → Except Violation (Table riskControlSchema)) →
    Txn Unit :=
  Tx.write Db.riskControl (fun db t => { db with riskControl := t })
    (integrityError "risk_control_state")

def onRiskControlEvents :
    (Table riskControlEventSchema → Except Violation (Table riskControlEventSchema)) → Txn Unit :=
  Tx.write Db.riskControlEvents (fun db t => { db with riskControlEvents := t })
    (integrityError "risk_control_events")

def onEvaluations : (Table riskEvaluationSchema → Except Violation (Table riskEvaluationSchema)) →
    Txn Unit :=
  Tx.write Db.evaluations (fun db t => { db with evaluations := t })
    (integrityError "risk_evaluations")

def onApprovals : (Table orderApprovalSchema → Except Violation (Table orderApprovalSchema)) →
    Txn Unit :=
  Tx.write Db.approvals (fun db t => { db with approvals := t }) (integrityError "order_approvals")

def onPaperOrders : (Table paperOrderSchema → Except Violation (Table paperOrderSchema)) →
    Txn Unit :=
  Tx.write Db.paperOrders (fun db t => { db with paperOrders := t })
    (integrityError "paper_orders")

def onOmsOrders : (Table omsOrderSchema → Except Violation (Table omsOrderSchema)) → Txn Unit :=
  Tx.write Db.omsOrders (fun db t => { db with omsOrders := t }) (integrityError "oms_orders")

def onOrderEvents : (Table omsOrderEventSchema → Except Violation (Table omsOrderEventSchema)) →
    Txn Unit :=
  Tx.write Db.orderEvents (fun db t => { db with orderEvents := t })
    (integrityError "oms_order_events")

def onCommands :
    (Table executionCommandSchema → Except Violation (Table executionCommandSchema)) → Txn Unit :=
  Tx.write Db.commands (fun db t => { db with commands := t })
    (integrityError "execution_commands")

def onCandles : (Table candleSchema → Except Violation (Table candleSchema)) → Txn Unit :=
  Tx.write Db.candles (fun db t => { db with candles := t }) (integrityError "candle_observations")

def onGaps : (Table marketDataGapSchema → Except Violation (Table marketDataGapSchema)) →
    Txn Unit :=
  Tx.write Db.gaps (fun db t => { db with gaps := t }) (integrityError "market_data_gaps")

def onFills : (Table executionFillSchema → Except Violation (Table executionFillSchema)) →
    Txn Unit :=
  Tx.write Db.fills (fun db t => { db with fills := t }) (integrityError "execution_fills")

def onRuns : (Table reconciliationRunSchema → Except Violation (Table reconciliationRunSchema)) →
    Txn Unit :=
  Tx.write Db.runs (fun db t => { db with runs := t }) (integrityError "reconciliation_runs")

end Txn

/-! ## What the triggers promise -/

theorem approval_guard {a b : OrderApproval} (h : orderApprovalSchema.guard a b = true) :
    a.identity = b.identity ∧ a.status = .active ∧ b.status ≠ .active := by
  simpa [orderApprovalSchema, Bool.and_eq_true, and_assoc] using h

/-- a decided approval never changes again -/
theorem approval_final {a : OrderApproval} (h : a.status ≠ .active) (x : OrderApproval) :
    orderApprovalSchema.guard a x = false := by
  by_contra hg
  exact h (approval_guard (by simpa using hg)).2.1

/-- one or no transition, out of ACTIVE, with the identity kept -/
theorem approval_evolves {a b : OrderApproval} (h : Table.Evolves orderApprovalSchema a b) :
    a = b ∨ (a.status = .active ∧ b.status ≠ .active ∧ a.identity = b.identity) := by
  induction h with
  | refl => exact .inl rfl
  | tail _ hyz ih =>
    obtain ⟨hid, hact, hne⟩ := approval_guard hyz
    rcases ih with rfl | ⟨-, hny, -⟩
    · exact .inr ⟨hact, hne, hid⟩
    · exact absurd hact hny

theorem omsOrder_guard {a b : OmsOrder} (h : omsOrderGuard a b = true) :
    a.identity = b.identity ∧ a.createdAt = b.createdAt ∧ b.stateVersion = a.stateVersion + 1 ∧
      a.status.terminal = false ∧ (b.status = a.status ∨ b.status ≠ .created) := by
  simpa [omsOrderGuard, Bool.and_eq_true, and_assoc] using h

/-- a terminal order never changes again -/
theorem omsOrder_final {a : OmsOrder} (h : a.status.terminal = true) (x : OmsOrder) :
    omsOrderSchema.guard a x = false := by
  by_contra hg
  have := (omsOrder_guard (Bool.not_eq_false _ ▸ hg : omsOrderGuard a x = true)).2.2.2.1
  rw [h] at this
  cases this

theorem omsOrder_evolves {a b : OmsOrder} (h : Table.Evolves omsOrderSchema a b) :
    a.identity = b.identity ∧ a.createdAt = b.createdAt ∧ a.stateVersion ≤ b.stateVersion := by
  induction h with
  | refl => exact ⟨rfl, rfl, le_rfl⟩
  | tail _ hyz ih =>
    obtain ⟨hid, hc, hv, -, -⟩ := omsOrder_guard hyz
    exact ⟨ih.1.trans hid, ih.2.1.trans hc, by omega⟩

theorem command_guard {a b : ExecutionCommand} (h : executionCommandGuard a b = true) :
    a.commandId = b.commandId ∧ a.omsOrderId = b.omsOrderId ∧ a.commandType = b.commandType ∧
      (a.status = .pending ∧ b.status = .leased ∨ a.status = .leased ∧ b.status ≠ .pending) := by
  simp only [executionCommandGuard, Bool.and_eq_true, Bool.or_eq_true, beq_iff_eq,
    bne_iff_ne] at h
  exact ⟨h.1.1.1.1.1.1, h.1.1.1.1.1.2, h.1.1.1.1.2, h.2⟩

/-- every guarded table of `db'` extends that of `db` -/
structure Db.Extends (db db' : Db) : Prop where
  riskControl : db.riskControl.Extends db'.riskControl
  riskControlEvents : db.riskControlEvents.Extends db'.riskControlEvents
  evaluations : db.evaluations.Extends db'.evaluations
  approvals : db.approvals.Extends db'.approvals
  paperOrders : db.paperOrders.Extends db'.paperOrders
  omsOrders : db.omsOrders.Extends db'.omsOrders
  orderEvents : db.orderEvents.Extends db'.orderEvents
  commands : db.commands.Extends db'.commands
  fills : db.fills.Extends db'.fills
  runs : db.runs.Extends db'.runs

namespace Db.Extends

theorem refl (db : Db) : db.Extends db :=
  ⟨.refl _, .refl _, .refl _, .refl _, .refl _, .refl _, .refl _, .refl _, .refl _, .refl _⟩

theorem trans {a b c : Db} (h : a.Extends b) (h' : b.Extends c) : a.Extends c where
  riskControl := h.riskControl.trans h'.riskControl
  riskControlEvents := h.riskControlEvents.trans h'.riskControlEvents
  evaluations := h.evaluations.trans h'.evaluations
  approvals := h.approvals.trans h'.approvals
  paperOrders := h.paperOrders.trans h'.paperOrders
  omsOrders := h.omsOrders.trans h'.omsOrders
  orderEvents := h.orderEvents.trans h'.orderEvents
  commands := h.commands.trans h'.commands
  fills := h.fills.trans h'.fills
  runs := h.runs.trans h'.runs

instance : IsPreorder Db Db.Extends where
  refl := refl
  trans _ _ _ := trans

end Db.Extends

/-- what an OMS operation that creates no order leaves alone -/
structure Db.OmsFrame (db db' : Db) : Prop where
  riskControl : db'.riskControl = db.riskControl
  riskControlEvents : db'.riskControlEvents = db.riskControlEvents
  evaluations : db'.evaluations = db.evaluations
  approvals : db'.approvals = db.approvals
  paperOrders : db'.paperOrders = db.paperOrders
  omsOrders : db.omsOrders.Within db'.omsOrders

namespace Db.OmsFrame

theorem refl (db : Db) : db.OmsFrame db := ⟨rfl, rfl, rfl, rfl, rfl, .refl _⟩

theorem trans {a b c : Db} (h : a.OmsFrame b) (h' : b.OmsFrame c) : a.OmsFrame c where
  riskControl := h'.riskControl.trans h.riskControl
  riskControlEvents := h'.riskControlEvents.trans h.riskControlEvents
  evaluations := h'.evaluations.trans h.evaluations
  approvals := h'.approvals.trans h.approvals
  paperOrders := h'.paperOrders.trans h.paperOrders
  omsOrders := h.omsOrders.trans h'.omsOrders

instance : IsPreorder Db Db.OmsFrame where
  refl := refl
  trans _ _ _ := trans

end Db.OmsFrame

end CapitalCipher
