/-
Reconciliation with the venue, from `oms/reconciliation.py`: the comparison of the local orders with
a venue snapshot, the corrections it makes, and the halt on critical drift.

`runId` is the `uuid4` the run would draw. Without a repository the source compares its own `_orders`
dictionary, which nothing but its own corrections ever fills: the local orders are none.

  • `compareOrders`: the mismatches, and the corrections of the orders that are not terminal.
  • `reconcileOnce`: fetch, compare, persist, refresh, halt. A failed fetch is a FAILED run without
    evidence, and nothing is refreshed.
-/
import CapitalCipher.Oms.Service

namespace CapitalCipher

open Lib

namespace ReconciliationService

/-! ## Orders and fills -/

/-- `venue_by_client.get`: the last answer for the order's client id -/
def venueFor (snapshot : VenueStateSnapshot) (order : OmsOrder) : Option VenueOrderSnapshot :=
  snapshot.orders.reverse.find? fun v => v.clientOrderId == order.clientOrderId

/-- `local_by_client.get` -/
def byClient (orders : List OmsOrder) (clientOrderId : String) : Option OmsOrder :=
  orders.reverse.find? fun o => o.clientOrderId == clientOrderId

/-- `managed_by_venue.get`: a venue order the OMS manages, else a local order filed under the id -/
def managedByVenue (orders : List OmsOrder) (snapshot : VenueStateSnapshot)
    (venueOrderId : String) : Option OmsOrder :=
  ((snapshot.orders.reverse.filter fun v => v.venueOrderId == venueOrderId).findSome?
      fun v => byClient orders v.clientOrderId).orElse
    fun _ => orders.reverse.find? fun o => o.venueOrderId == some venueOrderId

def quantityTolerance : ℚ := 1 / 10 ^ 10

def statusDrift (order : OmsOrder) (venue : VenueOrderSnapshot) : Bool :=
  venue.status != order.status

def quantityDrift (order : OmsOrder) (venue : VenueOrderSnapshot) : Bool :=
  decide (quantityTolerance < |venue.cumulativeFilledQuantity - order.cumulativeFilledQuantity|)

def identityDrift (order : OmsOrder) (venue : VenueOrderSnapshot) : Bool :=
  order.venueOrderId.isSome && order.venueOrderId != some venue.venueOrderId

/-- a mismatch about one local order; its run id is set once the run exists -/
def orderMismatch (kind : ReconciliationMismatchType) (severity : ReconciliationSeverity)
    (order : OmsOrder) (venueOrderId : Option String) : ReconciliationMismatch where
  runId := "pending"
  mismatchType := kind
  severity := severity
  exchange := order.exchange
  environment := order.environment
  omsOrderId := some order.omsOrderId
  venueOrderId := venueOrderId
  symbol := some order.symbol

/-- an order the venue does not know, although it should -/
def missingAtVenue (order : OmsOrder) : List ReconciliationMismatch :=
  if order.status = .created ∨ order.status = .pendingSubmission ∨ order.status.terminal then []
  else [orderMismatch .localOrderMissingAtVenue .critical order order.venueOrderId]

/-- the drifts between an order and the venue's answer, in the source's order -/
def drifts (order : OmsOrder) (venue : VenueOrderSnapshot) : List ReconciliationMismatch :=
  (if statusDrift order venue then
    [orderMismatch .orderStatusDrift
      (if order.status.terminal ∧ venue.status.terminal = false then .critical else .warning)
      order (some venue.venueOrderId)] else []) ++
  (if quantityDrift order venue then
    [orderMismatch .filledQuantityDrift .warning order (some venue.venueOrderId)] else []) ++
  (if identityDrift order venue then
    [orderMismatch .orderStatusDrift .critical order (some venue.venueOrderId)] else [])

/-- the order is to take the venue's word -/
def correctable (order : OmsOrder) (venue : VenueOrderSnapshot) : Bool :=
  !order.status.terminal &&
    (statusDrift order venue || quantityDrift order venue || order.venueOrderId.isNone)

/-- the corrected order: a copy, so the order's own validators are not run -/
def correction (observedAt : Time) (order : OmsOrder) (venue : VenueOrderSnapshot) : OmsOrder :=
  { order with
    status := venue.status
    venueOrderId := some venue.venueOrderId
    cumulativeFilledQuantity := venue.cumulativeFilledQuantity
    averageFillPrice := venue.averageFillPrice
    stateVersion := order.stateVersion + 1
    updatedAt := observedAt
    submittedAt := order.submittedAt.orElse fun _ => some observedAt
    terminalAt :=
      if venue.status.terminal then order.terminalAt.orElse fun _ => some observedAt
      else order.terminalAt }

/-- the mismatches of one local order -/
def compareOrder (snapshot : VenueStateSnapshot) (order : OmsOrder) :
    List ReconciliationMismatch :=
  match venueFor snapshot order with
  | none => missingAtVenue order
  | some venue => drifts order venue

def correct (snapshot : VenueStateSnapshot) (order : OmsOrder) : Option OmsOrder :=
  match venueFor snapshot order with
  | none => none
  | some venue =>
    if correctable order venue then some (correction snapshot.observedAt order venue) else none

/-- a venue order no local order has the client id of -/
def orphanOrder (orders : List OmsOrder) (venue : VenueOrderSnapshot) :
    Option ReconciliationMismatch :=
  match byClient orders venue.clientOrderId with
  | some _ => none
  | none => some
    { runId := "pending"
      mismatchType := .orphanVenueOrder
      severity := if venue.status.terminal then .warning else .critical
      exchange := venue.exchange
      environment := venue.environment
      venueOrderId := some venue.venueOrderId
      symbol := some venue.symbol }

/-- a fill of no local order -/
def orphanFill (orders : List OmsOrder) (snapshot : VenueStateSnapshot) (fill : ExecutionFill) :
    Option ReconciliationMismatch :=
  match ((fill.clientOrderId.bind (byClient orders)).orElse
      fun _ => managedByVenue orders snapshot fill.venueOrderId).orElse
      fun _ => fill.omsOrderId.bind fun i => orders.reverse.find? fun o => o.omsOrderId == i with
  | some _ => none
  | none => some
    { runId := "pending"
      mismatchType := .orphanVenueFill
      severity := .critical
      exchange := fill.exchange
      environment := fill.environment
      venueOrderId := some fill.venueOrderId
      symbol := some fill.symbol }

/-- `_compare_orders` -/
def compareOrders (orders : List OmsOrder) (snapshot : VenueStateSnapshot) :
    List ReconciliationMismatch × List OmsOrder :=
  (orders.flatMap (compareOrder snapshot) ++ snapshot.orders.filterMap (orphanOrder orders) ++
      snapshot.fills.filterMap (orphanFill orders snapshot),
    orders.filterMap (correct snapshot))

/-! ## Positions -/

def signed (side : OrderSide) (quantity : ℚ) : ℚ := if side = .buy then quantity else -quantity

/-- the orders with a fill -/
def filledOrders (orders : List OmsOrder) : List OmsOrder :=
  orders.filter fun o => decide (0 < o.cumulativeFilledQuantity)

/-- what the local fills of a symbol come to -/
def localQuantity (orders : List OmsOrder) (symbol : String) : ℚ :=
  (((filledOrders orders).filter fun o => o.symbol == symbol).map
    fun o => signed o.side o.cumulativeFilledQuantity).sum

def venueQuantity (snapshot : VenueStateSnapshot) (symbol : String) : ℚ :=
  ((snapshot.positions.filter fun p => p.symbol == symbol).map
    fun p => signed p.side p.quantity).sum

/-- the symbols either side has a quantity of -/
def positionSymbols (orders : List OmsOrder) (snapshot : VenueStateSnapshot) : List String :=
  Portfolio.sortTexts (((filledOrders orders).map OmsOrder.symbol ++
    snapshot.positions.map VenuePositionSnapshot.symbol).dedup)

/-- `_compare_positions` -/
def comparePositions (orders : List OmsOrder) (snapshot : VenueStateSnapshot) :
    List ReconciliationMismatch :=
  ((positionSymbols orders snapshot).filter fun s =>
      decide (quantityTolerance < |localQuantity orders s - venueQuantity snapshot s|)).map fun s =>
    { runId := "pending"
      mismatchType := .positionQuantityDrift
      severity := .critical
      exchange := snapshot.exchange
      environment := snapshot.environment
      symbol := some s }

/-- the local orders as the run leaves them -/
def projected (orders reconciled : List OmsOrder) : List OmsOrder :=
  orders.map fun o =>
    (reconciled.reverse.find? fun r => r.omsOrderId == o.omsOrderId).getD o

/-- every mismatch of a run -/
def mismatchesOf (orders : List OmsOrder) (snapshot : VenueStateSnapshot) :
    List ReconciliationMismatch :=
  (compareOrders orders snapshot).1 ++
    if snapshot.environment = .testnet ∧ snapshot.positions ≠ [] then
      comparePositions (projected orders (compareOrders orders snapshot).2) snapshot
    else []

def criticalCount (mismatches : List ReconciliationMismatch) : ℕ :=
  (mismatches.filter fun m => m.severity == .critical).length

/-! ## One run -/

/-- `_local_orders` -/
def localOrders (cfg : Config) : Program (List OmsOrder) :=
  if cfg.repository then ask (.listOmsOrders cfg.targetExchange cfg.targetEnvironment)
  else Coro.ret []

/-- the audit record of a run -/
def completedRecord (run : ReconciliationRun) : AuditRecord where
  auditType := "OMS_RECONCILIATION_COMPLETED"
  entityId := some run.runId
  payload :=
    [("exchange", run.exchange.value), ("environment", run.environment.value),
     ("status", run.status.value), ("mismatch_count", toString run.mismatchCount),
     ("critical_mismatch_count", toString run.criticalMismatchCount),
     ("error_type", run.errorType.getD "None")]

/-- `_persist` -/
def persist (cfg : Config) (run : ReconciliationRun) (mismatches : List ReconciliationMismatch)
    (snapshot : VenueStateSnapshot) (reconciled : List OmsOrder) : Program Unit := do
  if cfg.repository then ask (.persistReconciliation run mismatches snapshot reconciled)
  else Coro.ret ()
  (AuditService.record cfg (completedRecord run)).handle fun e =>
    if e.kind = .audit then
      OmsService.triggerUnlessActive cfg "OMS reconciliation audit persistence failed"
        "oms-reconciliation" (some run.runId)
    else Coro.raise e

/-- `_handle_critical` -/
def handleCritical (cfg : Config) (run : ReconciliationRun) : Program Unit :=
  if cfg.haltOnCriticalDrift then
    OmsService.triggerUnlessActive cfg
      ("OMS " ++ run.exchange.value ++ " " ++ run.environment.value ++ " reconciliation found " ++
        toString run.criticalMismatchCount ++ " critical mismatch(es)")
      "oms-reconciliation" (some run.runId)
  else Coro.ret ()

/-- the run of a fetch that failed -/
def failedRun (cfg : Config) (runId : String) (orders : List OmsOrder) (startedAt completedAt : Time)
    (e : Error) : ReconciliationRun where
  runId := runId
  exchange := cfg.targetExchange
  environment := cfg.targetEnvironment
  status := .failed
  localOrderCount := orders.length
  mismatchCount := 1
  criticalMismatchCount := 1
  startedAt := startedAt
  completedAt := completedAt
  errorType := some e.kind.typeName

def adapterUnavailable (run : ReconciliationRun) : ReconciliationMismatch where
  runId := run.runId
  mismatchType := .adapterUnavailable
  severity := .critical
  exchange := run.exchange
  environment := run.environment

/-- the run of a fetched snapshot -/
def runOf (runId : String) (orders : List OmsOrder) (snapshot : VenueStateSnapshot)
    (startedAt completedAt : Time) : ReconciliationRun where
  runId := runId
  exchange := snapshot.exchange
  environment := snapshot.environment
  status := if mismatchesOf orders snapshot = [] then .matched else .drift
  localOrderCount := orders.length
  venueOrderCount := snapshot.orders.length
  fillCount := snapshot.fills.length
  positionCount := snapshot.positions.length
  balanceCount := snapshot.balances.length
  mismatchCount := (mismatchesOf orders snapshot).length
  criticalMismatchCount := criticalCount (mismatchesOf orders snapshot)
  startedAt := startedAt
  completedAt := completedAt

/-- what follows a failed fetch -/
def unavailable (cfg : Config) (runId : String) (orders : List OmsOrder) (startedAt : Time)
    (e : Error) : Program ReconciliationRun := do
  let m ← Coro.read
  let run := failedRun cfg runId orders startedAt m.now e
  persist cfg run [adapterUnavailable run]
    { exchange := cfg.targetExchange, environment := cfg.targetEnvironment, observedAt := m.now } []
  handleCritical cfg run
  Coro.ret run

/-- what follows a fetched snapshot -/
def compared (cfg : Config) (runId : String) (orders : List OmsOrder) (startedAt : Time)
    (snapshot : VenueStateSnapshot) : Program ReconciliationRun := do
  let m ← Coro.read
  let run := runOf runId orders snapshot startedAt m.now
  persist cfg run ((mismatchesOf orders snapshot).map fun x => { x with runId := runId }) snapshot
    (compareOrders orders snapshot).2
  RiskManager.refreshPositions cfg
  if 0 < run.criticalMismatchCount then handleCritical cfg run else Coro.ret ()
  Coro.ret run

/-- `reconcile_once` -/
def reconcileOnce (cfg : Config) (runId : String) : Program ReconciliationRun := do
  let m ← Coro.read
  let orders ← localOrders cfg
  let fetched ← (ask (.fetchState cfg.targetExchange (orders.map OmsOrder.symbol).dedup)).attempt
  match fetched with
  | .error e => unavailable cfg runId orders m.now e
  | .ok snapshot => compared cfg runId orders m.now snapshot

/-- one round of `ReconciliationService.run` -/
def run (cfg : Config) (runId : String) : Program Unit :=
  OmsService.workerRound cfg "OMS reconciliation worker failure: " "oms-reconciliation" do
    let _ ← reconcileOnce cfg runId
    Coro.ret ()

end ReconciliationService

end CapitalCipher
