/-
The risk schemas of `schemas/risk.py`: limits, exposures, the portfolio snapshot, the single-use
approval, the immutable check and the durable control state.

Each model keeps the fields the modelled code reads or returns, its defaults, and its validators as
the check that construction runs. `schema_version` and `engine_version` are constants and left out.

  • `OrderApproval.check_ok`, `RiskCheck.check_ok`: what a constructed approval or check satisfies.
  • `default_riskLimits_check`: the default limits pass their own validators.
-/
import CapitalCipher.Schemas.Common

namespace CapitalCipher

/-- global fail-safe limits -/
structure RiskLimits where
  riskPerTradePercent : ℚ := 1
  maxDailyDrawdownPercent : ℚ := 5
  maxTotalDrawdownPercent : ℚ := 10
  maxConsecutiveLosses : ℕ := 3
  maxOpenPositions : ℤ := 3
  defaultLeverage : ℚ := 1
  maxLeverage : ℚ := 5
  maxMarketDataDelayMs : ℤ := 5000
  minRiskReward : ℚ := 3 / 2
  maxGrossExposurePercent : ℚ := 200
  maxNetExposurePercent : ℚ := 150
  maxSymbolExposurePercent : ℚ := 100
  maxStrategyExposurePercent : ℚ := 100
  maxSinglePositionPercent : ℚ := 100
  maxSymbolConcentrationPercent : ℚ := 90
  maxPortfolioVarPercent : ℚ := 5
  varConfidence : ℚ := 99 / 100
  varLookback : ℕ := 100
  varMinObservations : ℕ := 30
  fallbackVolatilityPercent : ℚ := 1
  approvalTtlSeconds : ℕ := 60
  maxEntryDeviationBps : ℚ := 100
  deriving DecidableEq, Repr

/-- the field constraints and `validate_limits` -/
def RiskLimits.check (l : RiskLimits) : Except Error RiskLimits :=
  validateModel
    [("risk_per_trade_percent", decide (0 < l.riskPerTradePercent ∧ l.riskPerTradePercent ≤ 10)),
     ("max_daily_drawdown_percent",
       decide (0 < l.maxDailyDrawdownPercent ∧ l.maxDailyDrawdownPercent ≤ 100)),
     ("max_total_drawdown_percent",
       decide (0 < l.maxTotalDrawdownPercent ∧ l.maxTotalDrawdownPercent ≤ 100)),
     ("max_consecutive_losses",
       decide (1 ≤ l.maxConsecutiveLosses ∧ l.maxConsecutiveLosses ≤ 100)),
     ("max_open_positions", decide (1 ≤ l.maxOpenPositions ∧ l.maxOpenPositions ≤ 1000)),
     ("default_leverage", decide (1 ≤ l.defaultLeverage ∧ l.defaultLeverage ≤ 125)),
     ("max_leverage", decide (1 ≤ l.maxLeverage ∧ l.maxLeverage ≤ 125)),
     ("max_market_data_delay_ms",
       decide (0 ≤ l.maxMarketDataDelayMs ∧ l.maxMarketDataDelayMs ≤ 300000)),
     ("min_risk_reward", decide (0 < l.minRiskReward ∧ l.minRiskReward ≤ 100)),
     ("max_gross_exposure_percent",
       decide (0 < l.maxGrossExposurePercent ∧ l.maxGrossExposurePercent ≤ 2000)),
     ("max_net_exposure_percent",
       decide (0 < l.maxNetExposurePercent ∧ l.maxNetExposurePercent ≤ 2000)),
     ("max_symbol_exposure_percent",
       decide (0 < l.maxSymbolExposurePercent ∧ l.maxSymbolExposurePercent ≤ 2000)),
     ("max_strategy_exposure_percent",
       decide (0 < l.maxStrategyExposurePercent ∧ l.maxStrategyExposurePercent ≤ 2000)),
     ("max_single_position_percent",
       decide (0 < l.maxSinglePositionPercent ∧ l.maxSinglePositionPercent ≤ 1000)),
     ("max_symbol_concentration_percent",
       decide (0 < l.maxSymbolConcentrationPercent ∧ l.maxSymbolConcentrationPercent ≤ 100)),
     ("max_portfolio_var_percent",
       decide (0 < l.maxPortfolioVarPercent ∧ l.maxPortfolioVarPercent ≤ 100)),
     ("var_confidence", decide (9 / 10 ≤ l.varConfidence ∧ l.varConfidence < 1)),
     ("var_lookback", decide (20 ≤ l.varLookback ∧ l.varLookback ≤ 2000)),
     ("var_min_observations", decide (10 ≤ l.varMinObservations ∧ l.varMinObservations ≤ 1000)),
     ("fallback_volatility_percent",
       decide (0 < l.fallbackVolatilityPercent ∧ l.fallbackVolatilityPercent ≤ 100)),
     ("approval_ttl_seconds", decide (1 ≤ l.approvalTtlSeconds ∧ l.approvalTtlSeconds ≤ 3600)),
     ("max_entry_deviation_bps",
       decide (0 ≤ l.maxEntryDeviationBps ∧ l.maxEntryDeviationBps ≤ 10000))]
    [("default_leverage cannot exceed max_leverage", decide (l.defaultLeverage ≤ l.maxLeverage)),
     ("var_min_observations cannot exceed var_lookback",
       decide (l.varMinObservations ≤ l.varLookback))]
    l

/-- every default passes its own check -/
theorem default_riskLimits_check : RiskLimits.check {} = .ok {} := by decide +kernel

inductive ApprovalStatus where
  | active | consumed | revoked | expired
  deriving DecidableEq, Repr

def ApprovalStatus.value : ApprovalStatus → String
  | .active => "ACTIVE"
  | .consumed => "CONSUMED"
  | .revoked => "REVOKED"
  | .expired => "EXPIRED"

/-- the ids an exposure goes by: the source builds the last four from a prefix and its parts -/
inductive ExposureId where
  | paper (paperOrderId : String)
  | reservation (omsOrderId : String)      -- oms-reservation:<id>
  | venue (exchange : Exchange) (environment : ExecutionEnvironment) (symbol : String)
      (side : OrderSide)                   -- venue:<exchange>:<environment>:<symbol>:<side>
  | oms (omsOrderId : String)              -- oms:<id>
  | proposed (evaluationId : String)       -- proposed:<id>
  deriving DecidableEq, Repr

structure PositionExposure where
  paperOrderId : ExposureId
  symbol : String
  timeframe : String
  strategy : String
  side : OrderSide
  notional : ℚ
  leverage : ℚ
  deriving DecidableEq, Repr

def PositionExposure.check (p : PositionExposure) : Except Error PositionExposure :=
  validateModel [("notional", decide (0 < p.notional)), ("leverage", decide (1 ≤ p.leverage))] [] p

/-- one entry of the canonical payload that a position snapshot hashes -/
structure SnapshotRecord where
  paperOrderId : ExposureId
  symbol : String
  timeframe : String
  strategy : String
  side : OrderSide
  notional : ℚ
  leverage : ℚ
  deriving DecidableEq, Repr

/-- SHA-256 of the sorted payload is modelled by the payload: a multiset of records -/
abbrev SnapshotHash := Multiset SnapshotRecord

def PositionExposure.record (p : PositionExposure) : SnapshotRecord where
  paperOrderId := p.paperOrderId
  symbol := p.symbol
  timeframe := p.timeframe
  strategy := p.strategy
  side := p.side
  notional := Lib.Decimal.round p.notional 8
  leverage := Lib.Decimal.round p.leverage 8

/-- `_position_snapshot_hash` and `_exposure_snapshot_hash` -/
def positionSnapshotHash (positions : List PositionExposure) : SnapshotHash :=
  Multiset.ofList (positions.map PositionExposure.record)

structure PortfolioRiskSnapshot where
  balance : ℚ
  positionCount : ℕ
  grossExposure : ℚ
  netExposure : ℚ
  proposedNotional : ℚ
  resultingGrossExposure : ℚ
  resultingNetExposure : ℚ
  symbolExposure : ℚ
  strategyExposure : ℚ
  symbolConcentrationPercent : ℚ
  deriving DecidableEq

structure VaRResult where
  method : String
  confidence : ℚ
  observations : ℕ
  valueAtRisk : ℚ
  valueAtRiskPercent : ℚ
  expectedShortfall : ℚ
  warnings : List String := []
  deriving DecidableEq

/-- the `effective_limits` dictionary of a check -/
structure EffectiveLimits where
  riskPerTradePercent : ℚ
  minRiskReward : ℚ
  maxOpenPositions : ℤ
  maxStrategyExposurePercent : ℚ
  maxPortfolioVarPercent : ℚ
  maxLeverage : ℚ
  portfolioMaxNotional : Option ℚ
  deriving DecidableEq

/-- a single-use execution capability -/
structure OrderApproval where
  approvalId : String
  evaluationId : String
  riskCheckId : String
  decisionId : String
  correlationId : String
  requestFingerprint : String
  positionSnapshotHash : SnapshotHash
  symbol : String
  timeframe : String
  strategy : String
  side : OrderSide
  maxNotional : ℚ
  maxLeverage : ℚ
  referencePrice : ℚ
  maxEntryDeviationBps : ℚ
  status : ApprovalStatus := .active
  createdAt : Time
  expiresAt : Time
  consumedAt : Option Time := none
  paperOrderId : Option String := none
  omsOrderId : Option String := none
  deriving DecidableEq

/-- how many downstream orders the approval names -/
def OrderApproval.downstreamIds (a : OrderApproval) : ℕ :=
  (if a.paperOrderId.isSome then 1 else 0) + (if a.omsOrderId.isSome then 1 else 0)

/-- the field constraints and `validate_lifecycle` -/
def OrderApproval.check (a : OrderApproval) : Except Error OrderApproval :=
  validateModel
    [("approval_id", decide (a.approvalId.toList.length = 64)),
     ("evaluation_id", decide (a.evaluationId.toList.length = 64)),
     ("request_fingerprint", decide (a.requestFingerprint.toList.length = 64)),
     ("max_notional", decide (0 < a.maxNotional)),
     ("max_leverage", decide (1 ≤ a.maxLeverage)),
     ("reference_price", decide (0 < a.referencePrice)),
     ("max_entry_deviation_bps", decide (0 ≤ a.maxEntryDeviationBps))]
    [("expires_at must be after created_at", decide (a.createdAt < a.expiresAt)),
     ("consumed approval requires order identity and timestamp",
       decide (a.status = .consumed → a.consumedAt.isSome ∧ a.downstreamIds = 1)),
     ("unconsumed approval cannot reference an order",
       decide (a.status ≠ .consumed → a.consumedAt = none ∧ a.downstreamIds = 0))]
    a

/-- an immutable risk evaluation -/
structure RiskCheck where
  riskCheckId : String
  evaluationId : String
  idempotencyKey : String
  requestFingerprint : String
  decisionId : String
  correlationId : String
  riskStatus : RiskStatus
  approved : Bool
  positionSize : Option ℚ := none
  leverage : Option ℚ := none
  riskPercent : Option ℚ := none
  stopLoss : Option ℚ := none
  takeProfit : Option ℚ := none
  riskReward : Option ℚ := none
  reason : String := ""
  warnings : List String := []
  effectiveLimits : EffectiveLimits
  portfolioSnapshot : Option PortfolioRiskSnapshot := none
  varResult : Option VaRResult := none
  approvalId : Option String := none
  createdAt : Time
  deriving DecidableEq

def RiskStatus.isApproved (s : RiskStatus) : Bool := s == .approved || s == .reduced

/-- the field constraints and `validate_approval_consistency` -/
def RiskCheck.check (c : RiskCheck) : Except Error RiskCheck :=
  validateModel
    [("position_size", decide (∀ x ∈ c.positionSize, 0 ≤ x)),
     ("leverage", decide (∀ x ∈ c.leverage, 1 ≤ x)),
     ("risk_percent", decide (∀ x ∈ c.riskPercent, 0 ≤ x)),
     ("risk_reward", decide (∀ x ∈ c.riskReward, 0 ≤ x))]
    [("approved must match risk_status", c.approved == c.riskStatus.isApproved),
     ("approved risk checks require complete central approval evidence",
       decide (c.riskStatus.isApproved = true → c.approvalId.isSome ∧ c.evaluationId ≠ "" ∧
         c.requestFingerprint ≠ "" ∧ c.idempotencyKey ≠ "" ∧ c.positionSize.isSome ∧
         c.portfolioSnapshot.isSome ∧ c.varResult.isSome)),
     ("blocked risk checks cannot carry an approval",
       decide (c.riskStatus.isApproved = false → c.approvalId = none))]
    c

/-- operational risk state -/
structure RiskState where
  dailyPnlPercent : ℚ := 0
  totalDrawdownPercent : ℚ := 0
  consecutiveLosses : ℕ := 0
  openPositions : ℕ := 0
  killSwitchActive : Bool := false
  blockedOperations : ℕ := 0
  deriving DecidableEq

structure RiskControlState where
  active : Bool := false
  revision : ℕ := 0
  reason : Option String := none
  actor : Option String := none
  triggeredAt : Option Time := none
  resetAt : Option Time := none
  deriving DecidableEq, Repr

/-! ## What construction establishes -/

theorem PositionExposure.check_ok {p p' : PositionExposure} (h : p.check = .ok p') :
    p' = p ∧ 0 < p.notional ∧ 1 ≤ p.leverage := by
  obtain ⟨hf, -, rfl⟩ := validateModel_ok.1 h
  simpa using hf

theorem OrderApproval.check_ok {a a' : OrderApproval} (h : a.check = .ok a') :
    a' = a ∧ 0 < a.maxNotional ∧ a.createdAt < a.expiresAt := by
  obtain ⟨hf, hr, rfl⟩ := validateModel_ok.1 h
  simp only [List.forall_mem_cons, decide_eq_true_eq] at hf hr
  exact ⟨rfl, hf.2.2.2.1, hr.1⟩

theorem RiskCheck.check_ok {c c' : RiskCheck} (h : c.check = .ok c') :
    c' = c ∧ c.approved = c.riskStatus.isApproved := by
  obtain ⟨-, hr, rfl⟩ := validateModel_ok.1 h
  simp only [List.forall_mem_cons, beq_iff_eq] at hr
  exact ⟨rfl, hr.1⟩

end CapitalCipher
