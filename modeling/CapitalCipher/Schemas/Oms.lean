/-
The paper and OMS schemas of `schemas/paper.py` and `schemas/oms.py`: orders, venue evidence,
execution commands and reconciliation results, with their defaults and validators.

A stored row has the columns of its schema, so one type serves both; reading a row back runs the
schema's validators again (`OmsOrder.check`).

  • `OmsOrder.check_ok`, `VenueOrderSnapshot.check_ok`: what a constructed order or venue answer
    satisfies.
  • `sameOmsIdentity_iff`: the identity comparison of the repository is agreement on the immutable
    fields.
-/
import CapitalCipher.Schemas.Common

namespace CapitalCipher

/-- the fields of a `PaperOrder` that some modelled function reads or stores -/
structure PaperOrder where
  paperOrderId : String
  decisionId : String
  riskCheckId : String
  approvalId : Option String := none
  requestFingerprint : Option String := none
  correlationId : String
  exchange : Exchange
  symbol : String
  timeframe : Option String := none
  strategy : String := "UNSPECIFIED"
  side : OrderSide
  entryPrice : ℚ
  stopLoss : Option ℚ := none
  takeProfit : Option ℚ := none
  positionSize : ℚ
  leverage : ℚ := 1
  initialMargin : Option ℚ := none
  maintenanceMarginRatio : Option ℚ := none
  liquidationPrice : Option ℚ := none
  liquidationFee : ℚ := 0
  status : PaperOrderStatus := .created
  feesEstimated : ℚ := 0
  slippageEstimated : ℚ := 0
  openedAt : Option Time := none
  closedAt : Option Time := none
  pnl : Option ℚ := none
  exitPrice : Option ℚ := none
  exitReason : Option String := none
  createdAt : Time
  deriving DecidableEq

def PaperOrder.check (o : PaperOrder) : Except Error PaperOrder :=
  validateModel
    [("symbol", decide (o.symbol ≠ "")),
     ("position_size", decide (0 ≤ o.positionSize)),
     ("leverage", decide (1 ≤ o.leverage)),
     ("initial_margin", decide (∀ x ∈ o.initialMargin, 0 ≤ x)),
     ("maintenance_margin_ratio", decide (∀ x ∈ o.maintenanceMarginRatio, 0 ≤ x ∧ x < 1 / 2)),
     ("liquidation_price", decide (∀ x ∈ o.liquidationPrice, 0 ≤ x)),
     ("liquidation_fee", decide (0 ≤ o.liquidationFee)),
     ("fees_estimated", decide (0 ≤ o.feesEstimated)),
     ("slippage_estimated", decide (0 ≤ o.slippageEstimated))]
    [] o

inductive OmsOrderType where
  | market | limit
  deriving DecidableEq, Repr

inductive OmsTimeInForce where
  | gtc | ioc | fok | postOnly
  deriving DecidableEq, Repr

inductive OmsOrderStatus where
  | created | pendingSubmission | submitted | partiallyFilled | filled | cancelPending
  | canceled | rejected | expired | unknown | quarantined
  deriving DecidableEq, Repr

def OmsOrderStatus.value : OmsOrderStatus → String
  | .created => "CREATED"
  | .pendingSubmission => "PENDING_SUBMISSION"
  | .submitted => "SUBMITTED"
  | .partiallyFilled => "PARTIALLY_FILLED"
  | .filled => "FILLED"
  | .cancelPending => "CANCEL_PENDING"
  | .canceled => "CANCELED"
  | .rejected => "REJECTED"
  | .expired => "EXPIRED"
  | .unknown => "UNKNOWN"
  | .quarantined => "QUARANTINED"

/-- `TERMINAL_OMS_STATUSES` -/
def OmsOrderStatus.terminal : OmsOrderStatus → Bool
  | .filled | .canceled | .rejected | .expired | .quarantined => true
  | _ => false

inductive ExecutionCommandType where
  | submit | cancel
  deriving DecidableEq, Repr

inductive ExecutionCommandStatus where
  | pending | leased | completed | deadLetter
  deriving DecidableEq, Repr

inductive ReconciliationSeverity where
  | info | warning | critical
  deriving DecidableEq, Repr

inductive ReconciliationMismatchType where
  | localOrderMissingAtVenue | orphanVenueOrder | orphanVenueFill | orderStatusDrift
  | filledQuantityDrift | positionQuantityDrift | adapterUnavailable
  deriving DecidableEq, Repr

inductive ReconciliationRunStatus where
  | matched | drift | failed
  deriving DecidableEq, Repr

def ReconciliationRunStatus.value : ReconciliationRunStatus → String
  | .matched => "MATCHED"
  | .drift => "DRIFT"
  | .failed => "FAILED"

structure OmsOrder where
  omsOrderId : String
  clientOrderId : String
  decisionId : String
  riskCheckId : String
  approvalId : String
  requestFingerprint : String
  correlationId : String
  exchange : Exchange
  environment : ExecutionEnvironment
  symbol : String
  timeframe : String
  strategy : String
  side : OrderSide
  orderType : OmsOrderType := .market
  timeInForce : OmsTimeInForce := .ioc
  quantity : ℚ
  requestedNotional : ℚ
  leverage : ℚ := 1
  limitPrice : Option ℚ := none
  referencePrice : ℚ
  status : OmsOrderStatus := .created
  venueOrderId : Option String := none
  cumulativeFilledQuantity : ℚ := 0
  averageFillPrice : Option ℚ := none
  rejectionReason : Option String := none
  stateVersion : ℕ := 1
  createdAt : Time
  updatedAt : Time
  submittedAt : Option Time := none
  terminalAt : Option Time := none
  deriving DecidableEq

/-- the slack `validate_order_shape` grants a fill over the order's quantity -/
def fillTolerance : ℚ := 1 / 10 ^ 12

/-- the field constraints and `validate_order_shape` -/
def OmsOrder.check (o : OmsOrder) : Except Error OmsOrder :=
  validateModel
    [("client_order_id",
       decide (8 ≤ o.clientOrderId.toList.length ∧ o.clientOrderId.toList.length ≤ 36)),
     ("approval_id", decide (o.approvalId.toList.length = 64)),
     ("request_fingerprint", decide (o.requestFingerprint.toList.length = 64)),
     ("symbol", decide (o.symbol ≠ "")),
     ("timeframe", decide (o.timeframe ≠ "")),
     ("strategy", decide (o.strategy ≠ "")),
     ("quantity", decide (0 < o.quantity)),
     ("requested_notional", decide (0 < o.requestedNotional)),
     ("leverage", decide (1 ≤ o.leverage)),
     ("limit_price", decide (∀ x ∈ o.limitPrice, 0 < x)),
     ("reference_price", decide (0 < o.referencePrice)),
     ("cumulative_filled_quantity", decide (0 ≤ o.cumulativeFilledQuantity)),
     ("average_fill_price", decide (∀ x ∈ o.averageFillPrice, 0 < x)),
     ("state_version", decide (1 ≤ o.stateVersion))]
    [("LIMIT orders require limit_price",
       decide (¬ (o.orderType = .limit ∧ o.limitPrice = none))),
     ("filled quantity cannot exceed requested quantity",
       decide (o.cumulativeFilledQuantity ≤ o.quantity + fillTolerance)),
     ("terminal OMS status requires terminal_at",
       decide (o.status.terminal = true → o.terminalAt.isSome)),
     ("non-terminal OMS status cannot have terminal_at",
       decide (o.status.terminal = false → o.terminalAt = none))]
    o

/-- the fields no accepted transition changes -/
structure OmsIdentity where
  omsOrderId : String
  clientOrderId : String
  decisionId : String
  riskCheckId : String
  approvalId : String
  requestFingerprint : String
  correlationId : String
  exchange : Exchange
  environment : ExecutionEnvironment
  symbol : String
  timeframe : String
  strategy : String
  side : OrderSide
  orderType : OmsOrderType
  timeInForce : OmsTimeInForce
  quantity : ℚ
  requestedNotional : ℚ
  leverage : ℚ
  limitPrice : Option ℚ
  referencePrice : ℚ
  deriving DecidableEq

/-- the `immutable_fields` of `_same_oms_identity`, read off an order -/
def OmsOrder.identity (o : OmsOrder) : OmsIdentity where
  omsOrderId := o.omsOrderId
  clientOrderId := o.clientOrderId
  decisionId := o.decisionId
  riskCheckId := o.riskCheckId
  approvalId := o.approvalId
  requestFingerprint := o.requestFingerprint
  correlationId := o.correlationId
  exchange := o.exchange
  environment := o.environment
  symbol := o.symbol
  timeframe := o.timeframe
  strategy := o.strategy
  side := o.side
  orderType := o.orderType
  timeInForce := o.timeInForce
  quantity := o.quantity
  requestedNotional := o.requestedNotional
  leverage := o.leverage
  limitPrice := o.limitPrice
  referencePrice := o.referencePrice

/-- `_same_oms_identity` -/
def sameOmsIdentity (left right : OmsOrder) : Bool := left.identity == right.identity

theorem sameOmsIdentity_iff {left right : OmsOrder} :
    sameOmsIdentity left right = true ↔ left.identity = right.identity := by
  simp [sameOmsIdentity]

/-- an adapter's answer about one order -/
structure VenueOrderSnapshot where
  exchange : Exchange
  environment : ExecutionEnvironment := .testnet
  venueOrderId : String
  clientOrderId : String
  symbol : String
  side : OrderSide
  orderType : OmsOrderType
  status : OmsOrderStatus
  quantity : ℚ
  cumulativeFilledQuantity : ℚ := 0
  averageFillPrice : Option ℚ := none
  observedAt : Time
  deriving DecidableEq

/-- the field constraints and `validate_fill_quantity` -/
def VenueOrderSnapshot.check (v : VenueOrderSnapshot) : Except Error VenueOrderSnapshot :=
  validateModel
    [("quantity", decide (0 < v.quantity)),
     ("cumulative_filled_quantity", decide (0 ≤ v.cumulativeFilledQuantity)),
     ("average_fill_price", decide (∀ x ∈ v.averageFillPrice, 0 < x))]
    [("venue filled quantity exceeds order quantity",
       decide (v.cumulativeFilledQuantity ≤ v.quantity + fillTolerance))]
    v

structure ExecutionFill where
  fillId : String
  omsOrderId : Option String := none
  venueOrderId : String
  clientOrderId : Option String := none
  exchange : Exchange
  environment : ExecutionEnvironment
  symbol : String
  side : OrderSide
  quantity : ℚ
  price : ℚ
  fee : ℚ := 0
  feeAsset : Option String := none
  occurredAt : Time
  observedAt : Time
  deriving DecidableEq

structure VenuePositionSnapshot where
  exchange : Exchange
  environment : ExecutionEnvironment
  symbol : String
  side : OrderSide
  quantity : ℚ
  entryPrice : Option ℚ := none
  markPrice : Option ℚ := none
  unrealizedPnl : ℚ := 0
  observedAt : Time
  deriving DecidableEq

structure VenueBalanceSnapshot where
  exchange : Exchange
  environment : ExecutionEnvironment
  asset : String
  available : ℚ
  locked : ℚ := 0
  equity : ℚ
  observedAt : Time
  deriving DecidableEq

structure VenueStateSnapshot where
  exchange : Exchange
  environment : ExecutionEnvironment
  orders : List VenueOrderSnapshot := []
  fills : List ExecutionFill := []
  positions : List VenuePositionSnapshot := []
  balances : List VenueBalanceSnapshot := []
  observedAt : Time
  deriving DecidableEq

/-- `validate_venue_scope`: every piece of evidence is of the snapshot's venue -/
def VenueStateSnapshot.inScope (s : VenueStateSnapshot) : Bool :=
  (s.orders.all fun o => o.exchange == s.exchange && o.environment == s.environment) &&
  (s.fills.all fun f => f.exchange == s.exchange && f.environment == s.environment) &&
  (s.positions.all fun p => p.exchange == s.exchange && p.environment == s.environment) &&
  (s.balances.all fun b => b.exchange == s.exchange && b.environment == s.environment)

/-- the validators of every piece of evidence, then the scope -/
def VenueStateSnapshot.check (s : VenueStateSnapshot) : Except Error VenueStateSnapshot :=
  validateModel
    [("orders", s.orders.all fun o => decide (0 < o.quantity ∧ 0 ≤ o.cumulativeFilledQuantity ∧
        (∀ x ∈ o.averageFillPrice, 0 < x) ∧
        o.cumulativeFilledQuantity ≤ o.quantity + fillTolerance)),
     ("fills", s.fills.all fun f => decide (0 < f.quantity ∧ 0 < f.price ∧ 0 ≤ f.fee)),
     ("positions", s.positions.all fun p => decide (0 ≤ p.quantity ∧
        (∀ x ∈ p.entryPrice, 0 ≤ x) ∧ (∀ x ∈ p.markPrice, 0 ≤ x))),
     ("balances", s.balances.all fun b => decide (0 ≤ b.available ∧ 0 ≤ b.locked ∧ 0 ≤ b.equity))]
    [("venue evidence crosses exchange/environment scope", s.inScope)]
    s

structure ExecutionCommand where
  commandId : String
  omsOrderId : String
  commandType : ExecutionCommandType
  status : ExecutionCommandStatus := .pending
  attemptCount : ℕ := 0
  maxAttempts : ℕ := 1
  leasedBy : Option String := none
  leaseExpiresAt : Option Time := none
  availableAt : Time
  lastErrorType : Option String := none
  createdAt : Time
  completedAt : Option Time := none
  deriving DecidableEq

/-- the field constraints and `validate_lifecycle` -/
def ExecutionCommand.check (c : ExecutionCommand) : Except Error ExecutionCommand :=
  validateModel [("max_attempts", decide (c.maxAttempts = 1))]
    [("attempt_count exceeds the single write attempt", decide (c.attemptCount ≤ c.maxAttempts)),
     ("pending command cannot have lease/completion data",
       decide (c.status = .pending →
         c.leasedBy = none ∧ c.leaseExpiresAt = none ∧ c.completedAt = none)),
     ("leased command requires an active lease",
       decide (c.status = .leased → (∃ w ∈ c.leasedBy, w ≠ "") ∧ c.leaseExpiresAt.isSome ∧
         c.completedAt = none)),
     ("finished command has invalid lifecycle data",
       decide (c.status = .completed ∨ c.status = .deadLetter →
         c.leasedBy = none ∧ c.leaseExpiresAt = none ∧ c.completedAt.isSome))]
    c

structure ReconciliationMismatch where
  runId : String
  mismatchType : ReconciliationMismatchType
  severity : ReconciliationSeverity
  exchange : Exchange
  environment : ExecutionEnvironment
  omsOrderId : Option String := none
  venueOrderId : Option String := none
  symbol : Option String := none
  deriving DecidableEq

structure ReconciliationRun where
  runId : String
  exchange : Exchange
  environment : ExecutionEnvironment
  status : ReconciliationRunStatus
  localOrderCount : ℕ := 0
  venueOrderCount : ℕ := 0
  fillCount : ℕ := 0
  positionCount : ℕ := 0
  balanceCount : ℕ := 0
  mismatchCount : ℕ := 0
  criticalMismatchCount : ℕ := 0
  startedAt : Time
  completedAt : Time
  errorType : Option String := none
  deriving DecidableEq

/-! ## What construction establishes -/

theorem OmsOrder.check_iff {o o' : OmsOrder} : o.check = .ok o' ↔
    (8 ≤ o.clientOrderId.toList.length ∧ o.clientOrderId.toList.length ≤ 36) ∧
    o.approvalId.toList.length = 64 ∧ o.requestFingerprint.toList.length = 64 ∧ o.symbol ≠ "" ∧
    o.timeframe ≠ "" ∧ o.strategy ≠ "" ∧ 0 < o.quantity ∧ 0 < o.requestedNotional ∧
    1 ≤ o.leverage ∧ (∀ x ∈ o.limitPrice, 0 < x) ∧ 0 < o.referencePrice ∧
    0 ≤ o.cumulativeFilledQuantity ∧ (∀ x ∈ o.averageFillPrice, 0 < x) ∧ 1 ≤ o.stateVersion ∧
    ¬ (o.orderType = .limit ∧ o.limitPrice = none) ∧
    o.cumulativeFilledQuantity ≤ o.quantity + fillTolerance ∧
    (o.status.terminal = true → o.terminalAt.isSome) ∧
    (o.status.terminal = false → o.terminalAt = none) ∧ o' = o := by
  rw [OmsOrder.check, validateModel_ok]
  simp only [List.forall_mem_cons, decide_eq_true_eq, List.not_mem_nil, false_implies, implies_true,
    and_true, and_assoc]

theorem OmsOrder.check_ok {o o' : OmsOrder} (h : o.check = .ok o') :
    o' = o ∧ 0 < o.quantity ∧ 0 < o.referencePrice ∧ 1 ≤ o.leverage ∧
      (o.status.terminal = true ↔ o.terminalAt.isSome = true) := by
  obtain ⟨-, -, -, -, -, -, hq, -, hl, -, href, -, -, -, -, -, hterm, hopen, rfl⟩ :=
    OmsOrder.check_iff.1 h
  refine ⟨rfl, hq, href, hl, hterm, fun hs => ?_⟩
  by_contra hne
  rw [hopen (by simpa using hne)] at hs
  cases hs

/-- the next version of a valid order is valid when its fill, price, version and end are -/
theorem OmsOrder.check_next {o o' : OmsOrder} (h : o.check = .ok o)
    (hid : o'.identity = o.identity)
    (hfill : 0 ≤ o'.cumulativeFilledQuantity ∧ o'.cumulativeFilledQuantity ≤ o.quantity)
    (hprice : ∀ x ∈ o'.averageFillPrice, 0 < x) (hversion : 1 ≤ o'.stateVersion)
    (hterm : o'.status.terminal = o'.terminalAt.isSome) : o'.check = .ok o' := by
  simp only [OmsOrder.identity, OmsIdentity.mk.injEq] at hid
  obtain ⟨-, hclient, -, -, happ, hfp, -, -, -, hsym, htf, hstrat, -, htype, -, hq, hn, hl, hlim,
    href⟩ := hid
  obtain ⟨h1, h2, h3, h4, h5, h6, h7, h8, h9, h10, h11, -, -, -, h15, -, -, -, -⟩ :=
    OmsOrder.check_iff.1 h
  refine OmsOrder.check_iff.2 ⟨hclient ▸ h1, happ ▸ h2, hfp ▸ h3, hsym ▸ h4, htf ▸ h5, hstrat ▸ h6,
    hq ▸ h7, hn ▸ h8, hl ▸ h9, hlim ▸ h10, href ▸ h11, hfill.1, hprice, hversion,
    htype ▸ hlim ▸ h15, ?_, fun ht => hterm ▸ ht, fun ht => ?_, rfl⟩
  · rw [hq]
    have : (0 : ℚ) ≤ fillTolerance := by norm_num [fillTolerance]
    linarith [hfill.2]
  · rw [hterm] at ht
    simpa using ht

theorem VenueOrderSnapshot.check_iff {v v' : VenueOrderSnapshot} : v.check = .ok v' ↔
    0 < v.quantity ∧ 0 ≤ v.cumulativeFilledQuantity ∧ (∀ x ∈ v.averageFillPrice, 0 < x) ∧
      v.cumulativeFilledQuantity ≤ v.quantity + fillTolerance ∧ v' = v := by
  rw [VenueOrderSnapshot.check, validateModel_ok]
  simp only [List.forall_mem_cons, decide_eq_true_eq, List.not_mem_nil, false_implies, implies_true,
    and_true, and_assoc]

theorem VenueOrderSnapshot.check_ok {v v' : VenueOrderSnapshot} (h : v.check = .ok v') :
    v' = v ∧ 0 ≤ v.cumulativeFilledQuantity := by
  obtain ⟨-, hfill, -, -, rfl⟩ := VenueOrderSnapshot.check_iff.1 h
  exact ⟨rfl, hfill⟩

/-- what a valid snapshot holds is valid, and in scope -/
theorem VenueStateSnapshot.check_iff {s s' : VenueStateSnapshot} : s.check = .ok s' ↔
    (∀ v ∈ s.orders, v.check = .ok v) ∧
    (∀ f ∈ s.fills, 0 < f.quantity ∧ 0 < f.price ∧ 0 ≤ f.fee) ∧
    (∀ p ∈ s.positions, 0 ≤ p.quantity ∧ (∀ x ∈ p.entryPrice, 0 ≤ x) ∧ ∀ x ∈ p.markPrice, 0 ≤ x) ∧
    (∀ b ∈ s.balances, 0 ≤ b.available ∧ 0 ≤ b.locked ∧ 0 ≤ b.equity) ∧
    s.inScope = true ∧ s' = s := by
  rw [VenueStateSnapshot.check, validateModel_ok]
  simp only [List.forall_mem_cons, List.all_eq_true, decide_eq_true_eq, List.not_mem_nil,
    false_implies, implies_true, and_true, and_assoc, VenueOrderSnapshot.check_iff]

theorem snapshot_order_check {s : VenueStateSnapshot} {v : VenueOrderSnapshot}
    (h : s.check = .ok s) (hv : v ∈ s.orders) : v.check = .ok v :=
  (VenueStateSnapshot.check_iff.1 h).1 v hv

end CapitalCipher
