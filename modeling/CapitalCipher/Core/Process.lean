/-
One backend process: its configuration, its memory, and what its tasks await.

A `Request` is an awaited call that leaves the process: a repository transaction or an adapter
call. `Reply` types its answer. A `Program` is a coroutine over the process memory; between two
awaits it runs alone. Clock readings are the memory's `now`, which the environment sets freely.

  • `Request.transaction`: the transaction a request runs, none for an adapter call.
  • `Memory.killSwitchActive`: the in-memory kill switch, any of its three sources.
-/
import CapitalCipher.Core.StateMachine
import CapitalCipher.Database.Market
import CapitalCipher.Paper.Execution
import CapitalCipher.Lib.Coroutine
import CapitalCipher.Lib.Dict

namespace CapitalCipher

open Lib

/-- the fields of a risk request that its fingerprint covers -/
structure RiskRequest where
  decision : Decision
  entryPrice : ℚ
  atr : Option ℚ
  dataQualityScore : ℤ
  marketDataDelayMs : ℤ
  balance : ℚ
  leverage : ℚ
  effectiveLimits : EffectiveLimits

/-- SHA-256 of canonical JSON and `uuid5`, as uninterpreted functions of what they digest -/
structure Digest where
  requestFingerprint : RiskRequest → String
  evaluationId : (idempotencyKey requestFingerprint : String) → String
  approvalId : (evaluationId riskCheckId fingerprint : String) → String
  uuid5 : String → String

/-- how a process is set up -/
structure Config where
  digest : Digest
  limits : RiskLimits := {}
  initialBalance : ℚ := 10000
  /-- accounts start funded -/
  funded : 0 < initialBalance := by norm_num
  startedAt : Option Time := none
  /-- `fee_rate_percent` and `slippage_rate_percent`, as fractions -/
  feeRate : ℚ := 8 / 10000
  slippageRate : ℚ := 2 / 10000
  executionModel : Option RealisticExecutionModel := none
  marginModel : Option IsolatedMarginModel := none
  /-- whether the services hold a repository -/
  repository : Bool
  targetEnvironment : ExecutionEnvironment
  targetExchange : Exchange
  /-- the venues with a configured adapter -/
  adapters : List (Exchange × ExecutionEnvironment)
  leaseMicroseconds : ℕ := 15000000
  haltOnCriticalDrift : Bool := true
  /-- TESTNET OMS requires durable database persistence -/
  durableTestnet : targetEnvironment = .testnet → repository = true

/-- a durable TESTNET configuration, with digests of the right length -/
def Config.sample : Config where
  digest :=
    { requestFingerprint := fun _ => String.ofList (List.replicate 64 'f')
      evaluationId := fun key _ => String.ofList ((key.toList ++ List.replicate 64 'e').take 64)
      approvalId := fun evaluationId _ _ => evaluationId
      uuid5 := id }
  feeRate := 0
  slippageRate := 0
  repository := true
  targetEnvironment := .testnet
  targetExchange := .bybit
  adapters := [(.bybit, .testnet)]
  durableTestnet _ := rfl

structure EquityPoint where
  timestamp : Time
  balance : ℚ
  deriving DecidableEq

/-- what a paper engine holds: its book, its cost ledgers and its balance -/
structure PaperAccount where
  openOrders : Dict String PaperOrder := ∅
  closedOrders : List PaperOrder := []
  executionCosts : Dict String ExecutionCostLedger := ∅
  lastFundingAt : Dict String Time := ∅
  processedKeys : List (String × String) := []
  balance : ℚ := 10000
  peakEquity : ℚ := 10000
  maxDrawdownPercent : ℚ := 0
  equityCurve : List EquityPoint := []

/-- what a process did with its paper account: a history variable, which no code reads -/
inductive Tick where
  | opened (order : PaperOrder)
  /-- a candle passed the filters of the orchestrator -/
  | accepted (candle : Candle)
  | tested (paperOrderId : String) (candle : Candle)
  /-- a close was performed, with its result before rounding -/
  | closed (order : PaperOrder) (netPnl : ℚ)
  deriving DecidableEq

/-- the memory the tasks of a process share -/
structure Memory where
  now : Time := 0
  auditFailMode : Bool := false
  sm : StateMachine := {}
  riskState : RiskState := {}
  controlState : RiskControlState := {}
  peakEquity : ℚ := 10000
  positions : Dict ExposureId PositionExposure := ∅
  checksByKey : Dict String RiskCheck := ∅
  approvals : Dict String OrderApproval := ∅
  paper : PaperAccount := {}
  omsOrders : Dict String OmsOrder := ∅
  /-- the `CandleStore`: the last candles of each series, oldest first -/
  candles : Dict Series (List Candle) := ∅
  /-- the day `on_candle_closed` last saw -/
  currentDay : Option ℤ := none
  tape : List Tick := []

/-- `RiskManager.kill_switch_active` -/
def Memory.killSwitchActive (m : Memory) : Bool :=
  m.controlState.active || m.riskState.killSwitchActive || m.sm.killSwitchActive

/-- the two sources `check` and the consumption gates read -/
def Memory.killGate (m : Memory) : Bool := m.sm.killSwitchActive || m.controlState.active

/-- the memory of a process that just started -/
def Memory.fresh (cfg : Config) (now : Time) : Memory where
  now := now
  peakEquity := cfg.initialBalance
  paper :=
    { balance := cfg.initialBalance
      peakEquity := cfg.initialBalance
      equityCurve := [⟨cfg.startedAt.getD now, cfg.initialBalance⟩] }

/-- a record for the audit trail. A RISK_CHECK record also names the evidence `_finalize` holds
while it is written: the check it reports and the approval minted with it -/
structure AuditRecord where
  auditType : String
  entityId : Option String := none
  payload : List (String × String) := []
  evidence : Option (RiskCheck × Option OrderApproval) := none

/-- the rules an adapter fetches to normalize a quantity -/
structure QuantityRules where
  step : ℚ
  minimum : ℚ
  maximum : Option ℚ := none
  minimumNotional : Option ℚ := none
  deriving DecidableEq

/-- an awaited call that leaves the process -/
inductive Request where
  | loadCentralRiskEvaluationByKey (idempotencyKey : String)
  | saveCentralRiskEvaluation (check : RiskCheck) (approval : Option OrderApproval)
  | consumeOrderApproval (approval : OrderApproval) (order : PaperOrder) (omsOrder : OmsOrder)
  | savePaperOrder (order : PaperOrder)
  | createOmsOrder (order : OmsOrder) (command : ExecutionCommand)
  | loadOmsOrder (omsOrderId : String)
  | listOmsOrders (exchange : Exchange) (environment : ExecutionEnvironment)
  | claimExecutionCommand (workerId : String) (leaseMicroseconds : ℕ)
  | finishExecutionCommand (commandId workerId : String) (order : OmsOrder) (eventType : String)
      (errorType : Option String)
  | queueCancelCommand (order : OmsOrder) (command : ExecutionCommand)
  | persistReconciliation (run : ReconciliationRun) (mismatches : List ReconciliationMismatch)
      (snapshot : VenueStateSnapshot) (reconciledOrders : List OmsOrder)
  | loadOpenPositionExposures
  | loadRiskControlState
  | setRiskControl (active : Bool) (reason actor : String) (correlationId : Option String)
  | saveAuditLog (record : AuditRecord)
  | market (q : MarketRequest)
  -- adapter calls
  | instrumentRules (exchange : Exchange) (symbol : String)
  | submitOrder (order : OmsOrder)
  | cancelOrder (order : OmsOrder)
  | fetchState (exchange : Exchange) (symbols : List String)

namespace Request

/-- what a request is answered with -/
@[reducible] def Reply : Request → Type
  | loadCentralRiskEvaluationByKey _ => Option (RiskCheck × Option OrderApproval)
  | saveCentralRiskEvaluation _ _ => Unit
  | consumeOrderApproval _ _ _ => Unit
  | savePaperOrder _ => Unit
  | createOmsOrder _ _ => OmsOrder
  | loadOmsOrder _ => Option OmsOrder
  | listOmsOrders _ _ => List OmsOrder
  | claimExecutionCommand _ _ => Option (ExecutionCommand × OmsOrder)
  | finishExecutionCommand _ _ _ _ _ => OmsOrder
  | queueCancelCommand _ _ => OmsOrder
  | persistReconciliation _ _ _ _ => Unit
  | loadOpenPositionExposures => List PositionExposure
  | loadRiskControlState => Option RiskControlState
  | setRiskControl _ _ _ _ => RiskControlState
  | saveAuditLog _ => Unit
  | market q => q.Reply
  | instrumentRules _ _ => Option QuantityRules
  | submitOrder _ => VenueOrderSnapshot
  | cancelOrder _ => VenueOrderSnapshot
  | fetchState _ _ => VenueStateSnapshot

/-- the transaction a request runs; an adapter call runs none -/
def transaction (now : Time) (locked : List String) : (q : Request) → Option (Txn q.Reply)
  | loadCentralRiskEvaluationByKey k => some (Repository.loadCentralRiskEvaluationByKey k)
  | saveCentralRiskEvaluation c a => some (Repository.saveCentralRiskEvaluation c a)
  | consumeOrderApproval a o m => some (Repository.consumeOrderApproval now a o (some m))
  | savePaperOrder o => some (Repository.savePaperOrder o)
  | createOmsOrder o c => some (Repository.createOmsOrder now o (some c) true)
  | loadOmsOrder i => some (Repository.loadOmsOrder i)
  | listOmsOrders e v => some (Repository.listOmsOrders e v)
  | claimExecutionCommand w l => some (Repository.claimExecutionCommand now locked w l)
  | finishExecutionCommand c w o e err => some (Repository.finishExecutionCommand c w o e err)
  | queueCancelCommand o c => some (Repository.queueCancelCommand o c)
  | persistReconciliation r ms s os => some (Repository.persistReconciliation r ms s os)
  | loadOpenPositionExposures => some Repository.loadOpenPositionExposures
  | loadRiskControlState => some Repository.loadRiskControlState
  | setRiskControl a r w c => some (Repository.setRiskControl now a r w c)
  -- the audit table is append-only and nothing modelled reads it
  | saveAuditLog _ => some (pure ())
  | market q => some (q.transaction now)
  | instrumentRules _ _ => none
  | submitOrder _ => none
  | cancelOrder _ => none
  | fetchState _ _ => none

end Request

/-- a task of the process -/
abbrev Program (α : Type) := Coro Memory Error Request.Reply α

/-- await one request -/
abbrev ask (q : Request) : Program q.Reply := Coro.call q

end CapitalCipher
