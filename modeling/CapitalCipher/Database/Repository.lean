/-
The transactions of `database/repositories/repository.py` that carry risk approvals, the kill
switch, paper orders and the OMS.

Each is a `Txn`: it commits a new database or raises and leaves the old one, so a status written
before a `raise` is rolled back (a durable EXPIRED approval, which the source writes just before
raising, is never committed). `now` is the reading of the clock; `locked` are the command rows that
`FOR UPDATE SKIP LOCKED` passes over because another transaction holds them.
-/
import CapitalCipher.Database.Exposures

namespace CapitalCipher

open Lib Txn

/-- `except Exception as exc: raise DatabaseError(prefix + exc)`, the kinds in `keep` re-raised -/
def failing {α : Type} (pre : String) (keep : List ErrorKind) (x : Txn α) : Txn α :=
  Tx.wrap (fun e => if e.kind ∈ keep then e else ⟨.database, pre ++ e.message⟩) x

/-- raise what a model's construction raises -/
def construct {α : Type} (r : Except Error α) : Txn α :=
  match r with
  | .ok a => pure a
  | .error e => throw e

namespace Repository

/-- the slack every comparison with an approved quantity grants -/
def tolerance : ℚ := 1 / 10 ^ 8

/-! ## Central risk -/

def saveCentralRiskEvaluation (check : RiskCheck) (approval : Option OrderApproval) : Txn Unit :=
  failing "Failed to persist central risk evaluation: " [.database] do
    let db ← get
    match db.evaluations.get? check.evaluationId with
    | some existing =>
      Tx.require (existing.requestFingerprint = check.requestFingerprint ∧
          existing.idempotencyKey = check.idempotencyKey)
        ⟨.validation, "Immutable risk evaluation identity conflict"⟩
    | none =>
      Tx.require (∀ c ∈ db.evaluations.rows, c.idempotencyKey ≠ check.idempotencyKey)
        ⟨.validation, "Risk idempotency key already belongs to another request"⟩
      onEvaluations (·.insert check)
      match approval with
      | none => pure ()
      | some a => onApprovals (·.insert a)

def loadCentralRiskEvaluationByKey (idempotencyKey : String) :
    Txn (Option (RiskCheck × Option OrderApproval)) :=
  failing "Failed to load central risk evaluation: " [] do
    let db ← get
    match db.evaluations.rows.find? fun c => c.idempotencyKey == idempotencyKey with
    | none => pure none
    | some evaluation =>
      let check ← construct evaluation.check
      match db.approvals.rows.find? fun a => a.evaluationId == evaluation.evaluationId with
      | none => pure (some (check, none))
      | some row =>
        let approval ← construct row.check
        pure (some (check, some approval))

def readExposures : Txn (List PositionExposure) := do
  let db ← get
  construct (durablePositionExposures db)

def loadOpenPositionExposures : Txn (List PositionExposure) :=
  failing "Failed to restore open risk exposure: " [] readExposures

def loadRiskControlState : Txn (Option RiskControlState) := do
  let db ← get
  pure (db.riskControl.get? ())

/-- the row `set_risk_control` starts from: the stored one, or the one it inserts -/
def controlRow (db : Db) : RiskControlState := (db.riskControl.get? ()).getD {}

/-- the row an accepted kill-switch transition writes -/
def nextControl (row : RiskControlState) (now : Time) (active : Bool) (reason actor : String) :
    RiskControlState where
  active := active
  revision := row.revision + 1
  reason := some reason
  actor := some actor
  triggeredAt := if active then some now else row.triggeredAt
  resetAt := if active then none else some now

/-- the first command inserts the row it finds missing -/
def ensureControlRow : Txn Unit := do
  let db ← get
  match db.riskControl.get? () with
  | none => onRiskControl (·.insert {})
  | some _ => pure ()

/-- a trigger revokes every active approval in its own transaction -/
def revokeIf (active : Bool) : Txn Unit :=
  if active then
    onApprovals (·.update (fun a => a.status == .active) fun a => { a with status := .revoked })
  else pure ()

def setRiskControl (now : Time) (active : Bool) (reason actor : String)
    (correlationId : Option String) : Txn RiskControlState :=
  failing "Failed to update risk control: " [.database] do
    let db ← get
    ensureControlRow
    let row := controlRow db
    Tx.require (row.active ≠ active)
      ⟨.validation, "Risk control is already in the requested state"⟩
    let next := nextControl row now active reason actor
    onRiskControl (·.update (fun _ => true) fun _ => next)
    revokeIf active
    onRiskControlEvents (·.insert ⟨next.revision, active, reason, actor, correlationId, now⟩)
    pure next

/-! ## Paper orders -/

/-- the order is the one the stored approval was minted for -/
def paperOrderMatches (stored : OrderApproval) (order : PaperOrder) : Prop :=
  stored.riskCheckId = order.riskCheckId ∧ stored.decisionId = order.decisionId ∧
  some stored.requestFingerprint = order.requestFingerprint ∧ stored.symbol = order.symbol ∧
  stored.strategy = order.strategy ∧ stored.side = order.side ∧
  order.positionSize ≤ stored.maxNotional + tolerance ∧
  order.leverage ≤ stored.maxLeverage + tolerance

instance (stored : OrderApproval) (order : PaperOrder) :
    Decidable (paperOrderMatches stored order) := by
  unfold paperOrderMatches; infer_instance

/-- the checks both consumption paths make on the stored approval, in the source's order -/
def requireCurrent (now : Time) (stored : OrderApproval) : Txn Unit := do
  Tx.require (stored.status = .active) ⟨.validation, "Order approval is " ++ stored.status.value⟩
  let exposures ← readExposures
  Tx.require (stored.positionSnapshotHash = positionSnapshotHash exposures)
    ⟨.validation, "Order approval is stale for the durable portfolio"⟩
  -- an expired approval is marked EXPIRED here, and the raise rolls the mark back
  Tx.require (now < stored.expiresAt) ⟨.validation, "Order approval expired"⟩

/-- the mirror is a PAPER order of the same identity and approval -/
def validMirror (approval : OrderApproval) (order : PaperOrder) (omsOrder : Option OmsOrder) :
    Prop :=
  ∀ m ∈ omsOrder, m.environment = .paper ∧ m.omsOrderId = order.paperOrderId ∧
    m.approvalId = approval.approvalId

instance (approval : OrderApproval) (order : PaperOrder) (omsOrder : Option OmsOrder) :
    Decidable (validMirror approval order omsOrder) := by
  unfold validMirror; infer_instance

def insertMirror (omsOrder : Option OmsOrder) : Txn Unit :=
  match omsOrder with
  | none => pure ()
  | some m => do
    onOmsOrders (·.insert m)
    onOrderEvents (·.insert ⟨"PAPER_FILLED", m⟩)

def consumeOrderApproval (now : Time) (approval : OrderApproval) (order : PaperOrder)
    (omsOrder : Option OmsOrder) : Txn Unit := do
  Tx.require (validMirror approval order omsOrder) ⟨.validation, "Invalid PAPER OMS mirror"⟩
  failing "Failed to consume order approval: " [.database] do
    let db ← get
    Tx.require ((controlRow db).active = false)
      ⟨.validation, "Durable kill switch prevents order approval"⟩
    match db.approvals.get? approval.approvalId with
    | none => throw ⟨.validation, "Order approval is not durable"⟩
    | some stored =>
      requireCurrent now stored
      Tx.require (paperOrderMatches stored order)
        ⟨.validation, "Order payload differs from durable approval"⟩
      Tx.require (db.paperOrders.get? order.paperOrderId = none)
        ⟨.validation, "Paper order already exists for this approval"⟩
      onApprovals (·.update (fun a => a.approvalId == approval.approvalId) fun a =>
        { a with status := .consumed, consumedAt := approval.consumedAt,
                 paperOrderId := some order.paperOrderId, omsOrderId := none })
      onPaperOrders (·.insert order)
      insertMirror omsOrder

def savePaperOrder (order : PaperOrder) : Txn Unit :=
  failing "Failed to persist paper order: " [] do
    let db ← get
    match db.paperOrders.get? order.paperOrderId with
    | some _ =>
      onPaperOrders (·.update (fun o => o.paperOrderId == order.paperOrderId) fun o =>
        { o with status := order.status, closedAt := order.closedAt, pnl := order.pnl,
                 feesEstimated := order.feesEstimated })
    | none => onPaperOrders (·.insert order)

/-! ## OMS orders -/

/-- a row whose identity, approval or venue client id the order would share -/
def sharesIdentity (order row : OmsOrder) : Bool :=
  row.omsOrderId == order.omsOrderId || row.approvalId == order.approvalId ||
  (row.exchange == order.exchange && row.environment == order.environment &&
    row.clientOrderId == order.clientOrderId)

def deviationBps (price reference : ℚ) : ℚ := |price - reference| / reference * 10000

/-- the order is the one the stored approval was minted for -/
def omsOrderMatches (stored : OrderApproval) (order : OmsOrder) : Prop :=
  stored.riskCheckId = order.riskCheckId ∧ stored.decisionId = order.decisionId ∧
  stored.requestFingerprint = order.requestFingerprint ∧
  stored.correlationId = order.correlationId ∧ stored.symbol = order.symbol ∧
  stored.timeframe = order.timeframe ∧ stored.strategy = order.strategy ∧
  stored.side = order.side ∧ order.requestedNotional ≤ stored.maxNotional + tolerance ∧
  order.leverage ≤ stored.maxLeverage + tolerance ∧
  deviationBps order.referencePrice stored.referencePrice ≤ stored.maxEntryDeviationBps + tolerance

instance (stored : OrderApproval) (order : OmsOrder) : Decidable (omsOrderMatches stored order) := by
  unfold omsOrderMatches; infer_instance

/-- take the approval for a TESTNET order, in the order's transaction -/
def consumeForOms (now : Time) (order : OmsOrder) (stored : OrderApproval) : Txn Unit := do
  Tx.require (order.environment = .testnet)
    ⟨.validation, "Only TESTNET OMS orders consume approval directly"⟩
  let db ← get
  Tx.require ((controlRow db).active = false)
    ⟨.validation, "Durable kill switch prevents OMS submission"⟩
  requireCurrent now stored
  Tx.require (omsOrderMatches stored order) ⟨.validation, "OMS order differs from durable approval"⟩
  onApprovals (·.update (fun a => a.approvalId == order.approvalId) fun a =>
    { a with status := .consumed, consumedAt := some now, paperOrderId := none,
             omsOrderId := some order.omsOrderId })

/-- a PAPER mirror stands on an approval its paper order already consumed -/
def requireMirrored (order : OmsOrder) (stored : OrderApproval) : Txn Unit := do
  Tx.require (order.environment = .paper) ⟨.validation, "Unconsumed OMS mirror must be PAPER"⟩
  Tx.require (stored.status = .consumed ∧ stored.paperOrderId = some order.omsOrderId ∧
      stored.omsOrderId = none)
    ⟨.validation, "PAPER OMS mirror requires its consumed approval"⟩

/-- the approval of a new order is consumed with it, or was consumed by its paper order -/
def takeApproval (now : Time) (order : OmsOrder) (consumeApproval : Bool) (stored : OrderApproval) :
    Txn Unit :=
  if consumeApproval then consumeForOms now order stored else requireMirrored order stored

def insertCommand (command : Option ExecutionCommand) : Txn Unit :=
  match command with
  | none => pure ()
  | some c => onCommands (·.insert c)

def createOmsOrder (now : Time) (order : OmsOrder) (command : Option ExecutionCommand)
    (consumeApproval : Bool) : Txn OmsOrder := do
  Tx.require (∀ c ∈ command, c.omsOrderId = order.omsOrderId)
    ⟨.validation, "Execution command belongs to another OMS order"⟩
  failing "Failed to create OMS order: " [.database, .validation] do
    let db ← get
    match db.omsOrders.rows.find? (sharesIdentity order) with
    | some row =>
      let existing ← construct row.check
      Tx.require (sameOmsIdentity existing order = true)
        ⟨.validation, "OMS idempotency identity has conflicting payload"⟩
      pure existing
    | none =>
      match db.approvals.get? order.approvalId with
      | none => throw ⟨.validation, "Order approval is not durable"⟩
      | some stored =>
        takeApproval now order consumeApproval stored
        onOmsOrders (·.insert order)
        onOrderEvents (·.insert ⟨"CREATED", order⟩)
        insertCommand command
        pure order

def loadOmsOrder (omsOrderId : String) : Txn (Option OmsOrder) :=
  failing "Failed to load OMS order: " [] do
    let db ← get
    match db.omsOrders.get? omsOrderId with
    | none => pure none
    | some row =>
      let order ← construct row.check
      pure (some order)

/-- read every row of a list back through its model -/
def ordersFromRows : List OmsOrder → Txn (List OmsOrder)
  | [] => pure []
  | row :: rows => do
    let order ← construct row.check
    let orders ← ordersFromRows rows
    pure (order :: orders)

def ordersOf (db : Db) (exchange : Exchange) (environment : ExecutionEnvironment) :
    List OmsOrder :=
  db.omsOrders.rows.filter fun o => o.exchange == exchange && o.environment == environment

/-- `list_oms_orders` with an exchange, an environment and no limit, as reconciliation calls it -/
def listOmsOrders (exchange : Exchange) (environment : ExecutionEnvironment) :
    Txn (List OmsOrder) :=
  failing "Failed to list OMS orders: " [] do
    let db ← get
    ordersFromRows ((ordersOf db exchange environment).insertionSort
      fun a b => b.createdAt ≤ a.createdAt)

/-! ## Execution commands -/

/-- a row with the mutable fields of an order -/
def withTransition (order row : OmsOrder) : OmsOrder :=
  { row with status := order.status, venueOrderId := order.venueOrderId,
             cumulativeFilledQuantity := order.cumulativeFilledQuantity,
             averageFillPrice := order.averageFillPrice, rejectionReason := order.rejectionReason,
             stateVersion := order.stateVersion, updatedAt := order.updatedAt,
             submittedAt := order.submittedAt, terminalAt := order.terminalAt }

def transitionOrder (order : OmsOrder) : Txn Unit :=
  onOmsOrders (·.update (fun o => o.omsOrderId == order.omsOrderId) (withTransition order))

def updateCommand (commandId : String) (f : ExecutionCommand → ExecutionCommand) : Txn Unit :=
  onCommands (·.update (fun c => c.commandId == commandId) f)

/-- the order a lease expiry leaves behind -/
def leaseExpired (order : OmsOrder) (now : Time) : OmsOrder :=
  { order with status := .unknown, stateVersion := order.stateVersion + 1, updatedAt := now,
               terminalAt := none, rejectionReason := none }

/-- an order still open when its command expires is of unknown status -/
def expireOrder (now : Time) (order : OmsOrder) : Txn Unit :=
  if order.status.terminal then pure ()
  else do
    transitionOrder (leaseExpired order now)
    onOrderEvents (·.insert ⟨"LEASE_EXPIRED_STATUS_UNKNOWN", leaseExpired order now⟩)

/-- one command whose single attempt ended without a result -/
def expireCommand (now : Time) (command : ExecutionCommand) : Txn Unit := do
  let db ← get
  match db.omsOrders.get? command.omsOrderId with
  | none => throw ⟨.validation, "Expired command references missing OMS order"⟩
  | some row =>
    let order ← construct row.check
    expireOrder now order
    updateCommand command.commandId fun c =>
      { c with status := .deadLetter, leasedBy := none, leaseExpiresAt := none,
               lastErrorType := some "LEASE_EXPIRED", completedAt := some now }

/-- the lease ran out -/
def leaseOver (c : ExecutionCommand) (now : Time) : Bool :=
  decide (c.status = .leased ∧ ∀ t ∈ c.leaseExpiresAt, t ≤ now)

def expiredCommands (db : Db) (now : Time) (locked : List String) : List ExecutionCommand :=
  (db.commands.rows.filter fun c => leaseOver c now &&
    decide (c.maxAttempts ≤ c.attemptCount) && !locked.contains c.commandId).take 100

def claimable (now : Time) (locked : List String) (c : ExecutionCommand) : Bool :=
  decide (c.attemptCount < c.maxAttempts ∧ c.availableAt ≤ now) &&
  (c.status == .pending || leaseOver c now) && !locked.contains c.commandId

/-- the earlier command by `available_at, created_at` -/
def earlier (best : Option ExecutionCommand) (c : ExecutionCommand) : Option ExecutionCommand :=
  match best with
  | none => some c
  | some b =>
    if c.availableAt < b.availableAt ∨ c.availableAt = b.availableAt ∧ c.createdAt < b.createdAt
    then some c else some b

def nextCommand (db : Db) (now : Time) (locked : List String) : Option ExecutionCommand :=
  (db.commands.rows.filter (claimable now locked)).foldl earlier none

/-- the command as the worker holds it -/
def leaseTo (workerId : String) (leaseUntil : Time) (c : ExecutionCommand) : ExecutionCommand :=
  { c with status := .leased, attemptCount := c.attemptCount + 1, leasedBy := some workerId,
           leaseExpiresAt := some leaseUntil }

def claimExecutionCommand (now : Time) (locked : List String) (workerId : String)
    (leaseMicroseconds : ℕ) : Txn (Option (ExecutionCommand × OmsOrder)) :=
  failing "Failed to claim execution command: " [.database, .validation] do
    let db ← get
    Tx.forEach (expiredCommands db now locked) (expireCommand now)
    let db ← get
    match nextCommand db now locked with
    | none => pure none
    | some command =>
      match db.omsOrders.get? command.omsOrderId with
      | none => throw ⟨.validation, "Execution command references missing OMS order"⟩
      | some row =>
        let leased := leaseTo workerId (now + max 1000000 leaseMicroseconds) command
        updateCommand command.commandId fun _ => leased
        let claimed ← construct leased.check
        let order ← construct row.check
        pure (some (claimed, order))

/-- the command a finished write leaves behind -/
def complete (errorType : Option String) (finishedAt : Time) (c : ExecutionCommand) : ExecutionCommand :=
  { c with status := .completed, leasedBy := none, leaseExpiresAt := none,
           lastErrorType := errorType, completedAt := some finishedAt }

def finishExecutionCommand (commandId workerId : String) (order : OmsOrder) (eventType : String)
    (errorType : Option String) : Txn OmsOrder :=
  failing "Failed to finish execution command: " [.database, .validation] do
    let db ← get
    match db.commands.get? commandId with
    | none => throw ⟨.validation, "Execution command lease is no longer owned"⟩
    | some command =>
      Tx.require (command.status = .leased ∧ command.leasedBy = some workerId)
        ⟨.validation, "Execution command lease is no longer owned"⟩
      match db.omsOrders.get? command.omsOrderId with
      | none => throw ⟨.validation, "OMS order no longer exists"⟩
      | some row =>
        let stored ← construct row.check
        Tx.require (sameOmsIdentity stored order = true)
          ⟨.validation, "OMS transition changed immutable identity"⟩
        Tx.require (order.stateVersion = stored.stateVersion + 1)
          ⟨.validation, "OMS transition must advance exactly one version"⟩
        transitionOrder order
        updateCommand commandId (complete errorType order.updatedAt)
        onOrderEvents (·.insert ⟨eventType, order⟩)
        pure order

/-- status, version and timestamp only: the other columns stay as stored -/
def withCancel (order row : OmsOrder) : OmsOrder :=
  { row with status := order.status, stateVersion := order.stateVersion,
             updatedAt := order.updatedAt }

def queueCancelCommand (order : OmsOrder) (command : ExecutionCommand) : Txn OmsOrder := do
  Tx.require (command.commandType = .cancel ∧ command.omsOrderId = order.omsOrderId)
    ⟨.validation, "Invalid OMS cancellation command"⟩
  failing "Failed to queue OMS cancellation: " [.database, .validation] do
    let db ← get
    match db.omsOrders.get? order.omsOrderId with
    | none => throw ⟨.validation, "OMS order does not exist"⟩
    | some row =>
      let stored ← construct row.check
      Tx.require (sameOmsIdentity stored order = true)
        ⟨.validation, "OMS cancellation changed identity"⟩
      if db.commands.rows.any fun c => c.omsOrderId == order.omsOrderId && c.commandType == .cancel
      then pure stored
      else
        Tx.require (order.stateVersion = stored.stateVersion + 1)
          ⟨.validation, "OMS cancellation must advance exactly one version"⟩
        onOmsOrders (·.update (fun o => o.omsOrderId == order.omsOrderId) (withCancel order))
        onOrderEvents (·.insert ⟨"CANCEL_QUEUED", order⟩)
        onCommands (·.insert command)
        pure order

/-! ## Reconciliation -/

/-- one correction of a reconciliation run -/
def reconcileOrder (reconciled : OmsOrder) : Txn Unit := do
  let db ← get
  match db.omsOrders.get? reconciled.omsOrderId with
  | none => pure ()
  | some row =>
    let stored ← construct row.check
    Tx.require (sameOmsIdentity stored reconciled = true ∧
        reconciled.stateVersion = stored.stateVersion + 1)
      ⟨.validation, "Invalid OMS reconciliation transition"⟩
    transitionOrder reconciled
    onOrderEvents (·.insert ⟨"RECONCILED", reconciled⟩)

/-- the order a fill is filed under: by client id, else by venue id, else by its own claim -/
def associatedOrder (scopedOrders : List OmsOrder) (fill : ExecutionFill) : Option String :=
  let byClient := scopedOrders.reverse.find? fun o => o.clientOrderId == fill.clientOrderId.getD ""
  let byVenue := scopedOrders.reverse.find? fun o => o.venueOrderId == some fill.venueOrderId
  let own := fill.omsOrderId.filter fun i => scopedOrders.any fun o => o.omsOrderId == i
  (byClient.map OmsOrder.omsOrderId).orElse fun _ =>
    (byVenue.map OmsOrder.omsOrderId).orElse fun _ => own

/-- `INSERT ... ON CONFLICT (fill_id) DO NOTHING` -/
def insertFill (scopedOrders : List OmsOrder) (fill : ExecutionFill) : Txn Unit := do
  let db ← get
  match db.fills.get? fill.fillId with
  | some _ => pure ()
  | none => onFills (·.insert { fill with omsOrderId := associatedOrder scopedOrders fill })

def persistReconciliation (run : ReconciliationRun) (mismatches : List ReconciliationMismatch)
    (snapshot : VenueStateSnapshot) (reconciledOrders : List OmsOrder) : Txn Unit :=
  failing "Failed to persist reconciliation: " [.database, .validation] do
    onRuns (·.insert run)
    Tx.forEach reconciledOrders reconcileOrder
    let db ← get
    let localOrders ← ordersFromRows (ordersOf db run.exchange run.environment)
    Tx.forEach snapshot.fills (insertFill (reconciledOrders ++ localOrders))
    modify fun db =>
      { db with
        mismatches := db.mismatches ++ mismatches
        positions := db.positions ++ snapshot.positions.map (VenuePositionRow.mk run.runId)
        balances := db.balances ++ snapshot.balances.map (VenueBalanceRow.mk run.runId) }

end Repository

end CapitalCipher
