/-
The order boundary of `oms/service.py`: submission, cancellation and the dispatch worker.

The in-memory command table of the source is left out: it is used without a repository only, where
the target is PAPER and no command is ever queued.

  • `applyVenueSnapshot`: what an adapter's answer makes of an order; it compares ids, not sizes.
  • `dispatchOnce`: one claimed command, with every way its write can end.
-/
import CapitalCipher.Paper.Engine
import CapitalCipher.Risk.Manager

namespace CapitalCipher

open Lib

/-- `QuantityRules.normalize`: the quantity rounded down to the step, within the venue's bounds -/
def QuantityRules.normalize (r : QuantityRules) (order : OmsOrder) : Except Error OmsOrder :=
  let normalized := ⌊order.quantity / r.step⌋ * r.step
  let notional := normalized * order.referencePrice
  if normalized ≤ 0 ∨ normalized < r.minimum then
    .error ⟨.executionRejected, "Order is below the venue minimum quantity"⟩
  else if ∃ x ∈ r.maximum, x < normalized then
    .error ⟨.executionRejected, "Order exceeds the venue maximum quantity"⟩
  else if ∃ x ∈ r.minimumNotional, notional < x then
    .error ⟨.executionRejected, "Order is below the venue minimum notional"⟩
  else OmsOrder.check { order with quantity := normalized, requestedNotional := notional }

namespace OmsService

/-- `prepare_order` of the target adapter; the base adapter has no rules and changes nothing -/
def prepareOrder (order : OmsOrder) : Program OmsOrder := do
  let rules ← ask (.instrumentRules order.exchange order.symbol)
  match rules with
  | none => Coro.ret order
  | some r => Coro.leave (r.normalize order)

def rememberOrder (o : OmsOrder) (m : Memory) : Memory :=
  { m with omsOrders := AList.insert o.omsOrderId o m.omsOrders }

/-- `get_order` -/
def getOrder (cfg : Config) (omsOrderId : String) : Program (Option OmsOrder) :=
  if cfg.repository then do
    let durable ← ask (.loadOmsOrder omsOrderId)
    match durable with
    | some order => do
      Coro.modify (rememberOrder order)
      Coro.ret (some order)
    | none => do
      let m ← Coro.read
      Coro.ret (m.omsOrders.lookup omsOrderId)
  else do
    let m ← Coro.read
    Coro.ret (m.omsOrders.lookup omsOrderId)

structure SubmitArgs where
  decision : Decision
  riskCheck : RiskCheck
  currentPrice : ℚ
  marketCandle : Option Candle := none
  occurredAt : Option Time := none

/-- the TESTNET order `submit_approved` builds -/
def testnetOrder (cfg : Config) (now : Time) (a : SubmitArgs) (approvalId : String)
    (side : OrderSide) : OmsOrder where
  omsOrderId := cfg.digest.uuid5 ("oms-order:" ++ approvalId)
  clientOrderId := "cc-" ++ String.ofList (approvalId.toList.take 32)
  decisionId := a.decision.decisionId
  riskCheckId := a.riskCheck.riskCheckId
  approvalId := approvalId
  requestFingerprint := a.riskCheck.requestFingerprint
  correlationId := a.decision.correlationId
  exchange := cfg.targetExchange
  environment := .testnet
  symbol := a.decision.symbol
  timeframe := a.decision.timeframe
  strategy := a.decision.strategy
  side := side
  quantity := a.riskCheck.positionSize.getD 0 / a.currentPrice
  requestedNotional := a.riskCheck.positionSize.getD 0
  leverage := orElse a.riskCheck.leverage 1
  referencePrice := a.currentPrice
  status := .pendingSubmission
  createdAt := now
  updatedAt := now

def submitCommand (cfg : Config) (now : Time) (omsOrderId : String) : ExecutionCommand where
  commandId := cfg.digest.uuid5 ("oms-submit:" ++ omsOrderId)
  omsOrderId := omsOrderId
  commandType := .submit
  availableAt := now
  createdAt := now

def cancelCommand (cfg : Config) (now : Time) (omsOrderId : String) : ExecutionCommand where
  commandId := cfg.digest.uuid5 ("oms-cancel:" ++ omsOrderId)
  omsOrderId := omsOrderId
  commandType := .cancel
  availableAt := now
  createdAt := now

/-- `_paper_oms_order` -/
def paperOmsOrder (order : PaperOrder) : OmsOrder :=
  RiskManager.omsMirror order
    ((order.approvalId.filter (· ≠ "")).getD (String.ofList (List.replicate 64 '0')))

/-- the mirror as the consumption stored it -/
def storedMirror (cfg : Config) (mirrored : OmsOrder) : Program OmsOrder :=
  if cfg.repository then do
    let durable ← ask (.loadOmsOrder mirrored.omsOrderId)
    match durable with
    | none => Coro.raise ⟨.validation, "Atomic PAPER OMS mirror is missing"⟩
    | some order => Coro.ret order
  else Coro.ret mirrored

/-- the PAPER branch of `submit_approved` -/
def submitPaper (cfg : Config) (a : SubmitArgs) : Program OmsOrder := do
  let order ← PaperTradingEngine.createOrder cfg
    { decision := a.decision, riskCheck := a.riskCheck, currentPrice := a.currentPrice
      marketCandle := a.marketCandle, occurredAt := a.occurredAt }
  let mirrored ← Coro.leave (paperOmsOrder order).check
  let stored ← storedMirror cfg mirrored
  Coro.modify (rememberOrder stored)
  Coro.ret stored

/-- the TESTNET branch of `submit_approved` -/
def submitTestnet (cfg : Config) (a : SubmitArgs) (approvalId : String) : Program OmsOrder := do
  let m ← Coro.read
  let side ← Coro.leave (OrderSide.ofAction a.decision.candidateAction)
  let built ← Coro.leave (testnetOrder cfg m.now a approvalId side).check
  let order ← prepareOrder built
  let m ← Coro.read
  let command := submitCommand cfg m.now order.omsOrderId
  AuditService.record cfg
    { auditType := "OMS_TESTNET_ORDER_REQUESTED", entityId := some order.omsOrderId }
  let created ← RiskManager.consumeOmsApproval cfg a.decision a.riskCheck order command
  Coro.modify (rememberOrder created)
  Coro.ret created

/-- `submit_approved` -/
def submitApproved (cfg : Config) (a : SubmitArgs) : Program OmsOrder :=
  if a.riskCheck.riskStatus.isApproved = false then
    Coro.raise ⟨.risk, "OMS requires central risk approval"⟩
  else
    match a.riskCheck.approvalId.filter (· ≠ "") with
    | none => Coro.raise ⟨.risk, "OMS requires a single-use approval identity"⟩
    | some approvalId => do
      let pre := if cfg.targetEnvironment = .paper then "paper-order:" else "oms-order:"
      let existing ← getOrder cfg (cfg.digest.uuid5 (pre ++ approvalId))
      match existing with
      | some order => Coro.ret order
      | none =>
        if cfg.targetEnvironment = .paper then submitPaper cfg a
        else submitTestnet cfg a approvalId

/-- the statuses a cancellation may start from -/
def OmsOrderStatus.cancelable : OmsOrderStatus → Bool
  | .submitted | .partiallyFilled | .cancelPending | .unknown => true
  | _ => false

/-- the order a cancellation asks the repository to store -/
def cancelPending (order : OmsOrder) (now : Time) : OmsOrder :=
  { order with status := .cancelPending, stateVersion := order.stateVersion + 1, updatedAt := now }

/-- the durable write of a cancellation, or its local stand-in -/
def storeCancel (cfg : Config) (updated : OmsOrder) (command : ExecutionCommand) :
    Program OmsOrder :=
  if cfg.repository then ask (.queueCancelCommand updated command) else Coro.ret updated

/-- `queue_cancel` -/
def queueCancel (cfg : Config) (omsOrderId : String) : Program OmsOrder := do
  let found ← getOrder cfg omsOrderId
  match found with
  | none => Coro.raise ⟨.validation, "OMS order does not exist"⟩
  | some order =>
    if order.environment ≠ .testnet then
      Coro.raise ⟨.security, "Only TESTNET OMS orders can be canceled here"⟩
    else if order.status.terminal then
      Coro.raise ⟨.validation, "Terminal OMS order cannot be canceled"⟩
    else if ¬ OmsOrderStatus.cancelable order.status then
      Coro.raise ⟨.validation,
        "TESTNET cancellation requires a venue-acknowledged or ambiguous order"⟩
    else do
      let m ← Coro.read
      let updated := cancelPending order m.now
      let command := cancelCommand cfg m.now order.omsOrderId
      AuditService.record cfg
        { auditType := "OMS_TESTNET_CANCEL_REQUESTED", entityId := some order.omsOrderId }
      let stored ← storeCancel cfg updated command
      Coro.modify (rememberOrder stored)
      Coro.ret stored

/-! ## Dispatch -/

/-- the order as the venue acknowledges it: a copy, so the order's own validators are not run -/
def acknowledged (order : OmsOrder) (venue : VenueOrderSnapshot) : OmsOrder :=
  { order with
    status := venue.status
    venueOrderId := some venue.venueOrderId
    cumulativeFilledQuantity := venue.cumulativeFilledQuantity
    averageFillPrice := venue.averageFillPrice
    stateVersion := order.stateVersion + 1
    updatedAt := venue.observedAt
    submittedAt :=
      if venue.status = .created ∨ venue.status = .pendingSubmission then order.submittedAt
      else order.submittedAt.orElse fun _ => some venue.observedAt
    terminalAt := if venue.status.terminal then some venue.observedAt else order.terminalAt }

/-- the answer names another order than the one written -/
def foreign (order : OmsOrder) (venue : VenueOrderSnapshot) : Prop :=
  venue.exchange ≠ order.exchange ∨ venue.environment ≠ order.environment ∨
    venue.clientOrderId ≠ order.clientOrderId ∨ venue.symbol ≠ order.symbol

instance (order : OmsOrder) (venue : VenueOrderSnapshot) : Decidable (foreign order venue) := by
  unfold foreign; infer_instance

/-- `_apply_venue_snapshot` -/
def applyVenueSnapshot (order : OmsOrder) (venue : VenueOrderSnapshot) : Except Error OmsOrder :=
  if foreign order venue then
    .error ⟨.security, "Venue acknowledgement identity does not match OMS"⟩
  else .ok (acknowledged order venue)

/-- how a write ended: the order to store, the event and error to record with it, and the security
violation it revealed -/
structure WriteOutcome where
  updated : OmsOrder
  eventType : String
  errorType : Option String := none
  securityViolation : Option String := none

/-- the order of an ambiguous write -/
def ambiguous (order : OmsOrder) (now : Time) : OmsOrder :=
  { order with status := .unknown, stateVersion := order.stateVersion + 1, updatedAt := now
               rejectionReason := none }

/-- the `except` clauses of `dispatch_once` -/
def writeFailed (kind : ExecutionCommandType) (order : OmsOrder) (now : Time) (e : Error) :
    WriteOutcome :=
  match e.kind with
  | .ambiguousExecution =>
    { updated := ambiguous order now, eventType := "WRITE_STATUS_UNKNOWN"
      errorType := some e.kind.typeName }
  | .executionRejected =>
    if kind = .submit then
      { updated := { order with
          status := .rejected, stateVersion := order.stateVersion + 1, updatedAt := now
          terminalAt := some now, rejectionReason := some "EXECUTION_REJECTED" }
        eventType := "WRITE_REJECTED", errorType := some e.kind.typeName }
    else
      { updated := { order with
          status := .unknown, stateVersion := order.stateVersion + 1, updatedAt := now
          terminalAt := none, rejectionReason := none }
        eventType := "CANCEL_REJECTED_RECONCILE_REQUIRED", errorType := some e.kind.typeName }
  | .security =>
    { updated := ambiguous order now, eventType := "VENUE_IDENTITY_REJECTED"
      errorType := some e.kind.typeName, securityViolation := some e.message }
  | _ =>
    { updated := ambiguous order now, eventType := "WRITE_STATUS_UNKNOWN"
      errorType := some e.kind.typeName }

/-- what the adapter's answer to a write comes to -/
def writeOutcome (kind : ExecutionCommandType) (order : OmsOrder) (now : Time)
    (answer : Except Error VenueOrderSnapshot) : WriteOutcome :=
  match answer with
  | .error e => writeFailed kind order now e
  | .ok venue =>
    match applyVenueSnapshot order venue with
    | .error e => writeFailed kind order now e
    | .ok updated =>
      { updated
        eventType := if kind = .submit then "SUBMISSION_ACKNOWLEDGED"
          else "CANCELLATION_ACKNOWLEDGED" }

/-- `trigger_kill_switch` unless the switch is already active in memory -/
def triggerUnlessActive (cfg : Config) (reason actor : String) (correlationId : Option String) :
    Program Unit := do
  let m ← Coro.read
  if m.killSwitchActive then Coro.ret ()
  else RiskManager.triggerKillSwitch cfg reason actor correlationId

/-- store a finished write and remember the order -/
def finishCommand (workerId : String) (command : ExecutionCommand) (order : OmsOrder)
    (eventType : String) (errorType : Option String) : Program OmsOrder := do
  let updated ← ask (.finishExecutionCommand command.commandId workerId order eventType errorType)
  Coro.modify (rememberOrder updated)
  Coro.ret updated

/-- no exact TESTNET adapter: the order is left for reconciliation and the process halts -/
def dispatchBlocked (cfg : Config) (workerId : String) (command : ExecutionCommand)
    (order : OmsOrder) : Program Unit := do
  let m ← Coro.read
  let _ ← finishCommand workerId command
    { order with status := .unknown, stateVersion := order.stateVersion + 1, updatedAt := m.now }
    "EXECUTION_ADAPTER_BLOCKED" (some "SecurityError")
  triggerUnlessActive cfg "OMS command has no exact TESTNET adapter" "oms-worker"
    (some order.correlationId)

/-- a submission stopped by the kill switch -/
def dispatchQuarantined (cfg : Config) (workerId : String) (command : ExecutionCommand)
    (order : OmsOrder) : Program Unit := do
  let m ← Coro.read
  let updated ← finishCommand workerId command
    { order with status := .quarantined, stateVersion := order.stateVersion + 1
                 updatedAt := m.now, terminalAt := some m.now
                 rejectionReason := some "KILL_SWITCH_ACTIVE" }
    "SUBMISSION_BLOCKED_BY_KILL_SWITCH" (some "RiskError")
  -- the switch is already active and stays the fail-safe source of truth
  (RiskManager.refreshPositions cfg).handle fun _ => Coro.ret ()
  (AuditService.record cfg
    { auditType := "OMS_SUBMISSION_BLOCKED_BY_KILL_SWITCH", entityId := some updated.omsOrderId
      }).handle fun e => if e.kind = .audit then Coro.ret () else Coro.raise e

/-- what follows a finished write: refresh, security response and audit -/
def dispatchFinished (cfg : Config) (outcome : WriteOutcome) (updated : OmsOrder) :
    Program Unit := do
  (RiskManager.refreshPositions cfg).handle fun e =>
    triggerUnlessActive cfg
      ("OMS completed a TESTNET write but portfolio refresh failed: " ++ e.kind.typeName)
      "oms-worker" (some updated.correlationId)
  match outcome.securityViolation with
  | none => Coro.ret ()
  | some violation =>
    triggerUnlessActive cfg ("OMS venue identity violation: " ++ violation) "oms-worker"
      (some updated.correlationId)
  (AuditService.record cfg
    { auditType := "OMS_" ++ outcome.eventType, entityId := some updated.omsOrderId }).handle
    fun e =>
      if e.kind = .audit then
        triggerUnlessActive cfg "OMS post-write audit persistence failed" "oms-worker"
          (some updated.correlationId)
      else Coro.raise e

/-- the adapter call of a command -/
def write (kind : ExecutionCommandType) (order : OmsOrder) : Program VenueOrderSnapshot :=
  match kind with
  | .submit => ask (.submitOrder order)
  | .cancel => ask (.cancelOrder order)

/-- one write, never retried, and what follows it -/
def dispatchWrite (cfg : Config) (workerId : String) (command : ExecutionCommand)
    (order : OmsOrder) : Program Unit := do
  let answer ← (write command.commandType order).attempt
  let m ← Coro.read
  let outcome := writeOutcome command.commandType order m.now answer
  let updated ← finishCommand workerId command outcome.updated outcome.eventType outcome.errorType
  dispatchFinished cfg outcome updated

/-- `dispatch_once` -/
def dispatchOnce (cfg : Config) (workerId : String) : Program Bool :=
  if cfg.repository then do
    let claimed ← ask (.claimExecutionCommand workerId cfg.leaseMicroseconds)
    match claimed with
    | none => Coro.ret false
    | some (command, order) => do
      let m ← Coro.read
      if (order.exchange, order.environment) ∉ cfg.adapters ∨ order.environment ≠ .testnet then
        dispatchBlocked cfg workerId command order
      else if command.commandType = .submit ∧ m.killSwitchActive then
        dispatchQuarantined cfg workerId command order
      else dispatchWrite cfg workerId command order
      Coro.ret true
  else Coro.ret false

/-- one round of a worker's `run` loop: a failure halts the process and is swallowed -/
def workerRound (cfg : Config) (reason actor : String) (round : Program Unit) : Program Unit :=
  round.handle fun e =>
    (triggerUnlessActive cfg (reason ++ e.kind.typeName) actor none).handle fun _ => Coro.ret ()

/-- one round of `OMSService.run` -/
def run (cfg : Config) (workerId : String) : Program Unit :=
  workerRound cfg "OMS worker failure: " "oms-worker" do
    let _ ← dispatchOnce cfg workerId
    Coro.ret ()

end OmsService

end CapitalCipher
