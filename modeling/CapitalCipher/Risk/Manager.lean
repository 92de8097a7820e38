/-
The central risk engine of `risk/manager.py`.

`assess` is the synchronous middle of `check` (gates, sizing, VaR), from a memory to a `Finding`;
`evidence` is what `_finalize` constructs from it; the programs around them await where the source
awaits. `authorize` is the gate both consumption paths share. Floats shown in reasons are printed
as rationals.
-/
import CapitalCipher.Risk.Portfolio

namespace CapitalCipher

open Lib Portfolio

/-- `str.strip()` -/
def strip (s : String) : String :=
  String.ofList (((s.toList.dropWhile Char.isWhitespace).reverse.dropWhile
    Char.isWhitespace).reverse)

namespace AuditService

/-- `AuditService.record` -/
def record (cfg : Config) (r : AuditRecord) : Program Unit := do
  let m ← Coro.read
  if m.auditFailMode then Coro.raise ⟨.audit, "Audit storage unavailable"⟩
  else if cfg.repository then
    (ask (.saveAuditLog r)).handle fun e =>
      Coro.raise ⟨.audit, "Audit persistence failed: " ++ e.message⟩
  else Coro.ret ()

end AuditService

/-- the arguments of `RiskManager.check`, with the candles the store holds -/
structure CheckArgs where
  decision : Decision
  entryPrice : ℚ
  atr : Option ℚ := none
  dataQualityScore : ℤ := 100
  marketDataDelayMs : ℤ := 0
  balance : Option ℚ := none
  leverage : Option ℚ := none
  idempotencyKey : Option String := none
  riskPerTradePercentOverride : Option ℚ := none
  minRiskRewardOverride : Option ℚ := none
  maxOpenPositionsOverride : Option ℤ := none
  maxStrategyExposurePercentOverride : Option ℚ := none
  maxPortfolioVarPercentOverride : Option ℚ := none
  maxNotionalOverride : Option ℚ := none
  candles : Option CandleStore := none

/-- what the gates and the sizing found, as `_finalize` takes it -/
structure Finding where
  status : RiskStatus
  reason : String
  warnings : List String := []
  positionSize : Option ℚ := none
  riskPercent : Option ℚ := none
  stopLoss : Option ℚ := none
  takeProfit : Option ℚ := none
  riskReward : Option ℚ := none
  portfolioSnapshot : Option PortfolioRiskSnapshot := none
  varResult : Option VaRResult := none
  /-- entry price, side and leverage of an approved finding -/
  terms : Option (ℚ × OrderSide × ℚ) := none

namespace RiskManager

/-! ## Positions -/

/-- `sync_positions` -/
def syncPositions (ps : List PositionExposure) (m : Memory) : Memory :=
  let positions := Dict.fromList PositionExposure.paperOrderId ps
  { m with positions, riskState := { m.riskState with openPositions := (Dict.values positions).length } }

def putPosition (p : PositionExposure) (m : Memory) : Memory :=
  let positions := AList.insert p.paperOrderId p m.positions
  { m with positions, riskState := { m.riskState with openPositions := (Dict.values positions).length } }

/-- `unregister_position` -/
def unregisterPosition (i : ExposureId) (m : Memory) : Memory :=
  let positions := AList.erase i m.positions
  { m with positions, riskState := { m.riskState with openPositions := (Dict.values positions).length } }

/-- `register_position` -/
def registerPosition (order : PaperOrder) : Program Unit := do
  let p ← Coro.leave (Exposures.ofPaper order).check
  Coro.modify (putPosition p)

/-- `register_trade_result` -/
def registerTradeResult (cfg : Config) (pnl : ℚ) (m : Memory) : Memory :=
  { m with riskState :=
    { m.riskState with
      consecutiveLosses := if pnl < 0 then m.riskState.consecutiveLosses + 1 else 0
      dailyPnlPercent := m.riskState.dailyPnlPercent + pnl / cfg.initialBalance * 100 } }

/-- `update_equity` -/
def updateEquity (balance : ℚ) (m : Memory) : Memory :=
  let peak := max m.peakEquity balance
  { m with
    peakEquity := peak
    riskState :=
      if 0 < peak then
        { m.riskState with totalDrawdownPercent := (peak - balance) / peak * 100 }
      else m.riskState }

def positionList (m : Memory) : List PositionExposure := m.positions.values

/-- `refresh_positions` -/
def refreshPositions (cfg : Config) : Program Unit :=
  if cfg.repository then do
    let ps ← ask .loadOpenPositionExposures
    Coro.modify (syncPositions ps)
  else Coro.ret ()

/-- the control a restart restores -/
def restoreControl (control : Option RiskControlState) (m : Memory) : Memory :=
  match control with
  | none => m
  | some c =>
    if c.active then
      { m with
        controlState := c
        riskState := { m.riskState with killSwitchActive := true }
        sm := m.sm.triggerKillSwitch ((c.reason.filter (· ≠ "")).getD "Durable kill switch active") }
    else { m with controlState := c }

/-- `initialize`: restore the durable control and the open exposure before boot -/
def initializeRisk (cfg : Config) : Program Unit :=
  if cfg.repository then do
    let control ← ask .loadRiskControlState
    Coro.modify (restoreControl control)
    let ps ← ask .loadOpenPositionExposures
    Coro.modify (syncPositions ps)
  else Coro.ret ()

/-! ## check -/

def balanceOf (cfg : Config) (a : CheckArgs) : ℚ := a.balance.getD cfg.initialBalance

def leverageOf (cfg : Config) (a : CheckArgs) : ℚ := a.leverage.getD cfg.limits.defaultLeverage

/-- the limits a strategy may only tighten -/
def effectiveLimits (cfg : Config) (a : CheckArgs) : EffectiveLimits where
  riskPerTradePercent := min cfg.limits.riskPerTradePercent
    (a.riskPerTradePercentOverride.getD cfg.limits.riskPerTradePercent)
  minRiskReward := max cfg.limits.minRiskReward
    (a.minRiskRewardOverride.getD cfg.limits.minRiskReward)
  maxOpenPositions := min cfg.limits.maxOpenPositions
    (a.maxOpenPositionsOverride.getD cfg.limits.maxOpenPositions)
  maxStrategyExposurePercent := min cfg.limits.maxStrategyExposurePercent
    (a.maxStrategyExposurePercentOverride.getD cfg.limits.maxStrategyExposurePercent)
  maxPortfolioVarPercent := min cfg.limits.maxPortfolioVarPercent
    (a.maxPortfolioVarPercentOverride.getD cfg.limits.maxPortfolioVarPercent)
  maxLeverage := cfg.limits.maxLeverage
  portfolioMaxNotional := a.maxNotionalOverride

/-- `(idempotency_key or decision.decision_id).strip()` -/
def checkKey (a : CheckArgs) : String :=
  strip ((a.idempotencyKey.filter (· ≠ "")).getD a.decision.decisionId)

def fingerprint (cfg : Config) (a : CheckArgs) : String :=
  cfg.digest.requestFingerprint
    { decision := a.decision, entryPrice := a.entryPrice, atr := a.atr
      dataQualityScore := a.dataQualityScore, marketDataDelayMs := a.marketDataDelayMs
      balance := balanceOf cfg a, leverage := leverageOf cfg a
      effectiveLimits := effectiveLimits cfg a }

def evaluationId (cfg : Config) (a : CheckArgs) : String :=
  cfg.digest.evaluationId (checkKey a) (fingerprint cfg a)

def observedPositionCount (m : Memory) : ℕ :=
  max (positionList m).length m.riskState.openPositions

def nearPositionLimit (cfg : Config) (m : Memory) (a : CheckArgs) : Bool :=
  decide ((observedPositionCount m : ℤ) = (effectiveLimits cfg a).maxOpenPositions - 1)

/-- the reasons to block, in the source's order -/
def blockReasons (cfg : Config) (m : Memory) (a : CheckArgs) : List String :=
  let lev := leverageOf cfg a
  (if m.sm.canOperate then [] else
    ["System state " ++ m.sm.state.value ++ " does not allow operation"]) ++
  (if a.decision.candidateAction = .buy ∨ a.decision.candidateAction = .sell then [] else
    ["Candidate action " ++ a.decision.candidateAction.value ++ " is not executable"]) ++
  (if a.dataQualityScore < 60 then
    ["Data quality score " ++ toString a.dataQualityScore ++ " below minimum 60"] else []) ++
  (if cfg.limits.maxMarketDataDelayMs < a.marketDataDelayMs then
    ["Market data delay " ++ toString a.marketDataDelayMs ++ "ms exceeds limit " ++
      toString cfg.limits.maxMarketDataDelayMs ++ "ms"] else []) ++
  (if m.riskState.dailyPnlPercent ≤ -cfg.limits.maxDailyDrawdownPercent then
    ["Daily drawdown limit reached"] else []) ++
  (if cfg.limits.maxTotalDrawdownPercent ≤ m.riskState.totalDrawdownPercent then
    ["Total drawdown limit reached"] else []) ++
  (if cfg.limits.maxConsecutiveLosses ≤ m.riskState.consecutiveLosses then
    ["Consecutive loss limit reached"] else []) ++
  (if (effectiveLimits cfg a).maxOpenPositions ≤ observedPositionCount m then
    ["Open position limit reached"] else []) ++
  (if cfg.limits.maxLeverage < lev ∨ lev < 1 then
    ["Leverage " ++ toString lev ++ " outside allowed range 1.." ++
      toString cfg.limits.maxLeverage] else []) ++
  (if a.maxNotionalOverride = some 0 then ["Portfolio construction capacity exhausted"] else [])

def stopDistance (a : CheckArgs) : ℚ :=
  match a.atr with
  | some x => if 0 < x then x * (3 / 2) else a.entryPrice * (5 / 1000)
  | none => a.entryPrice * (5 / 1000)

/-- the notional the risk per trade and the single-position limit allow -/
def unrestrictedNotional (cfg : Config) (a : CheckArgs) : ℚ :=
  min (balanceOf cfg a * (effectiveLimits cfg a).riskPerTradePercent / 100 /
      (stopDistance a / a.entryPrice))
    (balanceOf cfg a * cfg.limits.maxSinglePositionPercent / 100)

def portfolioCapped (cfg : Config) (a : CheckArgs) : Bool :=
  match a.maxNotionalOverride with
  | none => false
  | some cap => decide (cap + Repository.tolerance < unrestrictedNotional cfg a)

def requestedNotional (cfg : Config) (m : Memory) (a : CheckArgs) : ℚ :=
  let capped := match a.maxNotionalOverride with
    | none => unrestrictedNotional cfg a
    | some cap => min (unrestrictedNotional cfg a) cap
  if nearPositionLimit cfg m a then capped / 2 else capped

def sideOf (a : CheckArgs) : OrderSide :=
  if a.decision.candidateAction = .buy then .buy else .sell

/-- `proposed`, at a notional -/
def proposal (cfg : Config) (a : CheckArgs) (notional : ℚ) : PositionExposure where
  paperOrderId := .proposed (evaluationId cfg a)
  symbol := a.decision.symbol
  timeframe := a.decision.timeframe
  strategy := a.decision.strategy
  side := sideOf a
  notional := notional
  leverage := leverageOf cfg a

def capacityOf (cfg : Config) (m : Memory) (a : CheckArgs) : ℚ × List String :=
  remainingNotionalCapacity (positionList m) (proposal cfg a (requestedNotional cfg m a))
    (balanceOf cfg a) cfg.limits (effectiveLimits cfg a).maxStrategyExposurePercent

/-- the size was cut by the portfolio cap, the position count or a capacity -/
def sizeReduced (cfg : Config) (m : Memory) (a : CheckArgs) : Bool :=
  portfolioCapped cfg a || nearPositionLimit cfg m a ||
    decide ((capacityOf cfg m a).1 + Repository.tolerance < requestedNotional cfg m a)

/-- the notional before the VaR limit -/
def sizedNotional (cfg : Config) (m : Memory) (a : CheckArgs) : ℚ :=
  if sizeReduced cfg m a then (capacityOf cfg m a).1 else requestedNotional cfg m a

def sizeWarnings (cfg : Config) (m : Memory) (a : CheckArgs) : List String :=
  (if nearPositionLimit cfg m a then ["NEAR_MAX_OPEN_POSITIONS"] else []) ++
  (if portfolioCapped cfg a then ["PORTFOLIO_CONSTRUCTION_CAP"] else []) ++
  (if sizeReduced cfg m a then (capacityOf cfg m a).2 else [])

def varAt (cfg : Config) (m : Memory) (a : CheckArgs) (notional : ℚ) : VaRResult :=
  portfolioVar (positionList m ++ [proposal cfg a notional]) (balanceOf cfg a) cfg.limits a.candles

def snapshotAt (cfg : Config) (m : Memory) (a : CheckArgs) (notional : ℚ) :
    PortfolioRiskSnapshot :=
  exposureSnapshot (positionList m) (proposal cfg a notional) (balanceOf cfg a)

/-- the notional fits the VaR limit -/
def fitsVar (cfg : Config) (m : Memory) (a : CheckArgs) (notional : ℚ) : Bool :=
  decide ((varAt cfg m a notional).valueAtRiskPercent ≤
    (effectiveLimits cfg a).maxPortfolioVarPercent)

/-- the largest notional the bisection found under the VaR limit -/
def varNotional (cfg : Config) (m : Memory) (a : CheckArgs) : ℚ :=
  bisectNotional (fitsVar cfg m a) 24 0 (sizedNotional cfg m a)

/-- the stop and target of the side -/
def stopLoss (a : CheckArgs) : ℚ :=
  if sideOf a = .buy then a.entryPrice - stopDistance a else a.entryPrice + stopDistance a

def takeProfit (cfg : Config) (a : CheckArgs) : ℚ :=
  let distance := stopDistance a * max 2 (effectiveLimits cfg a).minRiskReward
  if sideOf a = .buy then a.entryPrice + distance else a.entryPrice - distance

def riskReward (cfg : Config) (a : CheckArgs) : ℚ :=
  |takeProfit cfg a - a.entryPrice| / |a.entryPrice - stopLoss a|

/-- the last gate, and the approved finding, for the notional that is left -/
def conclude (cfg : Config) (m : Memory) (a : CheckArgs) (notional : ℚ) (reduced : Bool)
    (warnings : List String) : Finding :=
  let snapshot := snapshotAt cfg m a notional
  let varResult := varAt cfg m a notional
  if riskReward cfg a < (effectiveLimits cfg a).minRiskReward - 1 / 10 ^ 9 then
    { status := .blocked
      reason := "Risk/reward " ++ toString (Decimal.round (riskReward cfg a) 2) ++ " below " ++
        toString (Decimal.round (effectiveLimits cfg a).minRiskReward 2)
      warnings, portfolioSnapshot := some snapshot, varResult := some varResult }
  else
    { status := if reduced then .reduced else .approved
      reason := if reduced then "Approved with size reduced by portfolio limits"
        else "Risk within configured portfolio limits"
      warnings := sortTexts warnings.dedup
      positionSize := some (round8 notional)
      riskPercent := some (round8
        ((effectiveLimits cfg a).riskPerTradePercent * notional / unrestrictedNotional cfg a))
      stopLoss := some (round8 (stopLoss a))
      takeProfit := some (round8 (takeProfit cfg a))
      riskReward := some (round8 (riskReward cfg a))
      portfolioSnapshot := some snapshot
      varResult := some varResult
      terms := some (a.entryPrice, sideOf a, leverageOf cfg a) }

/-- concentration and VaR, for a positive notional -/
def assessSized (cfg : Config) (m : Memory) (a : CheckArgs) : Finding :=
  let notional := sizedNotional cfg m a
  let snapshot := snapshotAt cfg m a notional
  let varResult := varAt cfg m a notional
  let warnings := sizeWarnings cfg m a ++ varResult.warnings
  if positionList m ≠ [] ∧
      cfg.limits.maxSymbolConcentrationPercent < snapshot.symbolConcentrationPercent then
    { status := .blocked
      reason := "Symbol concentration " ++
        toString (Decimal.round snapshot.symbolConcentrationPercent 2) ++ "% exceeds " ++
        toString (Decimal.round cfg.limits.maxSymbolConcentrationPercent 2) ++ "%"
      warnings := sizeWarnings cfg m a
      portfolioSnapshot := some snapshot }
  else if fitsVar cfg m a notional then conclude cfg m a notional (sizeReduced cfg m a) warnings
  else if varNotional cfg m a < 1 / 100 then
    { status := .blocked
      reason := "Portfolio VaR exceeds " ++
        toString (Decimal.round (effectiveLimits cfg a).maxPortfolioVarPercent 2) ++ "%"
      warnings, portfolioSnapshot := some snapshot, varResult := some varResult }
  else
    conclude cfg m a (varNotional cfg m a) true
      (warnings ++ "PORTFOLIO_VAR_LIMIT" :: (varAt cfg m a (varNotional cfg m a)).warnings)

/-- the gates and the sizing of `check`, on the memory it runs on -/
def assess (cfg : Config) (m : Memory) (a : CheckArgs) : Except Error Finding :=
  if m.killGate then
    .ok { status := .killSwitch
          reason := "Kill switch active: " ++
            (((m.sm.killSwitchReason.filter (· ≠ "")).orElse
              fun _ => m.controlState.reason).getD "None") }
  else if blockReasons cfg m a ≠ [] then
    .ok { status := .blocked
          reason := "; ".intercalate (blockReasons cfg m a)
          warnings := if nearPositionLimit cfg m a then ["NEAR_MAX_OPEN_POSITIONS"] else [] }
  else
    match (proposal cfg a (requestedNotional cfg m a)).check with
    | .error e => .error e
    | .ok _ =>
      if sizedNotional cfg m a ≤ 0 then
        .ok { status := .blocked
              reason := "Portfolio exposure capacity exhausted"
              warnings := sizeWarnings cfg m a }
      else .ok (assessSized cfg m a)

def riskCheckId (cfg : Config) (a : CheckArgs) : String :=
  cfg.digest.uuid5 ("risk:" ++ evaluationId cfg a)

def approvalId (cfg : Config) (a : CheckArgs) : String :=
  cfg.digest.approvalId (evaluationId cfg a) (riskCheckId cfg a) (fingerprint cfg a)

/-- the approval `_finalize` mints for an approved finding -/
def approvalOf (cfg : Config) (m : Memory) (a : CheckArgs) (f : Finding) : Option OrderApproval :=
  match f.terms, f.positionSize with
  | some (entryPrice, side, leverage), some size => some
    { approvalId := approvalId cfg a
      evaluationId := evaluationId cfg a
      riskCheckId := riskCheckId cfg a
      decisionId := a.decision.decisionId
      correlationId := a.decision.correlationId
      requestFingerprint := fingerprint cfg a
      positionSnapshotHash := positionSnapshotHash (positionList m)
      symbol := a.decision.symbol
      timeframe := a.decision.timeframe
      strategy := a.decision.strategy
      side
      maxNotional := size
      maxLeverage := leverage
      referencePrice := entryPrice
      maxEntryDeviationBps := cfg.limits.maxEntryDeviationBps
      createdAt := m.now
      expiresAt := m.now + cfg.limits.approvalTtlSeconds * 1000000 }
  | _, _ => none

def riskCheckOf (cfg : Config) (m : Memory) (a : CheckArgs) (f : Finding)
    (approval : Option OrderApproval) : RiskCheck where
  riskCheckId := riskCheckId cfg a
  evaluationId := evaluationId cfg a
  idempotencyKey := checkKey a
  requestFingerprint := fingerprint cfg a
  decisionId := a.decision.decisionId
  correlationId := a.decision.correlationId
  riskStatus := f.status
  approved := f.status.isApproved
  positionSize := f.positionSize
  leverage := f.terms.map fun t => t.2.2
  riskPercent := f.riskPercent
  stopLoss := f.stopLoss
  takeProfit := f.takeProfit
  riskReward := f.riskReward
  reason := f.reason
  warnings := f.warnings
  effectiveLimits := effectiveLimits cfg a
  portfolioSnapshot := f.portfolioSnapshot
  varResult := f.varResult
  approvalId := approval.map OrderApproval.approvalId
  createdAt := m.now

/-- the check and approval of `_finalize`, constructed through their models -/
def evidence (cfg : Config) (m : Memory) (a : CheckArgs) (f : Finding) :
    Except Error (RiskCheck × Option OrderApproval) :=
  match approvalOf cfg m a f with
  | none =>
    match (riskCheckOf cfg m a f none).check with
    | .ok c => .ok (c, none)
    | .error e => .error e
  | some approval =>
    match approval.check with
    | .error e => .error e
    | .ok approval =>
      match (riskCheckOf cfg m a f (some approval)).check with
      | .ok c => .ok (c, some approval)
      | .error e => .error e

/-- the check a failed audit or evidence write leaves behind -/
def failedCheck (c : RiskCheck) (e : Error) : RiskCheck :=
  { c with
    riskStatus := .blocked
    approved := false
    approvalId := none
    reason := if e.kind = .audit then "Audit failure: risk check could not be recorded"
      else "Risk evidence persistence failure"
    warnings := sortTexts ("RISK_PERSISTENCE_FAILED" :: c.warnings).dedup }

def countBlocked (m : Memory) : Memory :=
  { m with riskState :=
    { m.riskState with blockedOperations := m.riskState.blockedOperations + 1 } }

def rememberCheck (c : RiskCheck) (m : Memory) : Memory :=
  { m with checksByKey := AList.insert c.idempotencyKey c m.checksByKey }

def rememberApproval (a : OrderApproval) (m : Memory) : Memory :=
  { m with approvals := AList.insert a.approvalId a m.approvals }

/-- the awaits of `_finalize` -/
def recordEvidence (cfg : Config) (c : RiskCheck) (approval : Option OrderApproval) :
    Program Unit := do
  AuditService.record cfg
    { auditType := "RISK_CHECK", entityId := some c.riskCheckId, evidence := some (c, approval) }
  if cfg.repository then ask (.saveCentralRiskEvaluation c approval) else Coro.ret ()

/-- `_finalize` from the point where its evidence is constructed -/
def finalizeEvidence (cfg : Config) (c : RiskCheck) (approval : Option OrderApproval) :
    Program RiskCheck :=
  (recordEvidence cfg c approval).attempt.bind fun
    | .error e => do
      Coro.modify fun m => countBlocked (rememberCheck (failedCheck c e) m)
      Coro.ret (failedCheck c e)
    | .ok () => do
      Coro.modify fun m =>
        match approval with
        | none => rememberCheck c m
        | some a => rememberApproval a (rememberCheck c m)
      Coro.ret c

/-- the evaluation of a request no earlier check answers -/
def evaluate (cfg : Config) (a : CheckArgs) : Program RiskCheck := do
  let m ← Coro.read
  let finding ← Coro.leave (assess cfg m a)
  -- a blocked finding is counted before `_finalize`; a kill-switch finding is not
  Coro.modify fun m => if finding.status = .blocked then countBlocked m else m
  let (c, approval) ← Coro.leave (evidence cfg m a finding)
  finalizeEvidence cfg c approval

/-- `check` -/
def check (cfg : Config) (a : CheckArgs) : Program RiskCheck :=
  if a.entryPrice ≤ 0 ∨ balanceOf cfg a ≤ 0 then
    Coro.raise ⟨.validation, "Risk evaluation requires positive price and balance"⟩
  else if ∃ x ∈ a.maxNotionalOverride, x < 0 then
    Coro.raise ⟨.validation, "Portfolio notional override cannot be negative"⟩
  else do
    let m ← Coro.read
    match m.checksByKey.lookup (checkKey a) with
    | some existing =>
      if existing.requestFingerprint ≠ fingerprint cfg a then
        Coro.raise ⟨.validation, "Risk idempotency key reused with different input"⟩
      else Coro.ret existing
    | none =>
      if cfg.repository then do
        let durable ← ask (.loadCentralRiskEvaluationByKey (checkKey a))
        match durable with
        | some (durableCheck, durableApproval) =>
          if durableCheck.requestFingerprint ≠ fingerprint cfg a then
            Coro.raise ⟨.validation, "Risk idempotency key reused with different input"⟩
          else do
            Coro.modify fun m =>
              let m := { m with
                checksByKey := AList.insert (checkKey a) durableCheck m.checksByKey }
              match durableApproval with
              | none => m
              | some approval => rememberApproval approval m
            Coro.ret durableCheck
        | none => evaluate cfg a
      else evaluate cfg a

/-! ## Consumption -/

/-- what an order asks of an approval -/
structure Terms where
  side : OrderSide
  notional : ℚ
  leverage : ℚ
  price : ℚ

/-- the outcome of the gate: refused, refused and marked expired, or granted -/
inductive Gate where
  | refused (e : Error)
  | expired (approval : OrderApproval)
  | granted (approval : OrderApproval)

/-- the approval covers the order -/
def covers (approval : OrderApproval) (d : Decision) (c : RiskCheck) (t : Terms) : Prop :=
  approval.decisionId = d.decisionId ∧ approval.riskCheckId = c.riskCheckId ∧
  approval.correlationId = d.correlationId ∧ approval.symbol = d.symbol ∧
  approval.timeframe = d.timeframe ∧ approval.strategy = d.strategy ∧ approval.side = t.side ∧
  t.notional ≤ approval.maxNotional + Repository.tolerance ∧
  t.leverage ≤ approval.maxLeverage + Repository.tolerance ∧
  Repository.deviationBps t.price approval.referencePrice ≤ approval.maxEntryDeviationBps

instance (approval : OrderApproval) (d : Decision) (c : RiskCheck) (t : Terms) :
    Decidable (covers approval d c t) := by
  unfold covers; infer_instance

/-- the gate of `consume_approval` and `consume_oms_approval`, in their order -/
def authorize (m : Memory) (d : Decision) (c : RiskCheck) (t : Terms) (mismatch : String) : Gate :=
  match m.approvals.lookup (c.approvalId.getD "") with
  | none => .refused ⟨.risk, "Order approval is unknown or was not issued centrally"⟩
  | some approval =>
    if m.checksByKey.lookup c.idempotencyKey ≠ some c then
      .refused ⟨.risk, "Risk check differs from immutable central evidence"⟩
    else if approval.status ≠ .active then
      .refused ⟨.risk, "Order approval is " ++ approval.status.value⟩
    else if approval.positionSnapshotHash ≠ positionSnapshotHash (positionList m) then
      .refused ⟨.risk, "Order approval is stale for the current portfolio"⟩
    else if approval.expiresAt ≤ m.now then .expired approval
    else if ¬ covers approval d c t then .refused ⟨.risk, mismatch⟩
    else if m.killGate then .refused ⟨.risk, "Kill switch prevents approval consumption"⟩
    else .granted approval

/-- run the gate on the memory now, marking an expired approval -/
def gate (d : Decision) (c : RiskCheck) (t : Terms) (mismatch : String) :
    Program OrderApproval := do
  let m ← Coro.read
  match authorize m d c t mismatch with
  | .refused e => Coro.raise e
  | .expired approval => do
    Coro.modify (rememberApproval { approval with status := .expired })
    Coro.raise ⟨.risk, "Order approval expired"⟩
  | .granted approval => Coro.ret approval

/-- the PAPER mirror `consume_approval` stores with its order -/
def omsMirror (order : PaperOrder) (approvalId : String) : OmsOrder :=
  let timestamp := order.openedAt.getD order.createdAt
  { omsOrderId := order.paperOrderId
    clientOrderId := "paper-" ++ String.ofList (approvalId.toList.take 24)
    decisionId := order.decisionId
    riskCheckId := order.riskCheckId
    approvalId := approvalId
    requestFingerprint := order.requestFingerprint.getD ""
    correlationId := order.correlationId
    exchange := order.exchange
    environment := .paper
    symbol := order.symbol
    timeframe := (order.timeframe.filter (· ≠ "")).getD "unknown"
    strategy := order.strategy
    side := order.side
    quantity := order.positionSize / order.entryPrice
    requestedNotional := order.positionSize
    leverage := order.leverage
    referencePrice := order.entryPrice
    status := .filled
    venueOrderId := some order.paperOrderId
    cumulativeFilledQuantity := order.positionSize / order.entryPrice
    averageFillPrice := some order.entryPrice
    createdAt := order.createdAt
    updatedAt := timestamp
    submittedAt := some timestamp
    terminalAt := some timestamp }

/-- `consume_approval` -/
def consumeApproval (cfg : Config) (d : Decision) (c : RiskCheck) (order : PaperOrder)
    (currentPrice : ℚ) : Program Unit := do
  let approval ← gate d c
    { side := order.side, notional := order.positionSize, leverage := order.leverage
      price := currentPrice } "Paper order does not match its central approval"
  let m ← Coro.read
  let consumed := { approval with
    status := .consumed, consumedAt := some m.now, paperOrderId := some order.paperOrderId
    omsOrderId := none }
  let mirror ← Coro.leave (omsMirror order approval.approvalId).check
  if cfg.repository then ask (.consumeOrderApproval consumed order mirror) else Coro.ret ()
  Coro.modify (rememberApproval consumed)

/-- the reservation a created TESTNET order adds to the in-memory portfolio -/
def reservation (created : OmsOrder) : PositionExposure where
  paperOrderId := .reservation created.omsOrderId
  symbol := created.symbol
  timeframe := created.timeframe
  strategy := created.strategy
  side := created.side
  notional := Exposures.remainingQuantity created * created.referencePrice
  leverage := created.leverage

/-- `consume_oms_approval` -/
def consumeOmsApproval (cfg : Config) (d : Decision) (c : RiskCheck) (order : OmsOrder)
    (command : ExecutionCommand) : Program OmsOrder :=
  if order.environment ≠ .testnet then
    Coro.raise ⟨.risk, "OMS approval consumption is TESTNET-only"⟩
  else do
    let approval ← gate d c
      { side := order.side, notional := order.requestedNotional, leverage := order.leverage
        price := order.referencePrice } "OMS order does not match its central approval"
    let m ← Coro.read
    let created ← if cfg.repository then ask (.createOmsOrder order command) else Coro.ret order
    if 0 < Exposures.remainingQuantity created then
      let p ← Coro.leave (reservation created).check
      Coro.modify (putPosition p)
    else Coro.ret ()
    Coro.modify (rememberApproval { approval with
      status := .consumed, consumedAt := some m.now, paperOrderId := none
      omsOrderId := some order.omsOrderId })
    Coro.ret created

/-! ## The kill switch -/

/-- revoke every active approval held in memory -/
def revokeActive (m : Memory) : Memory :=
  { m with approvals := m.approvals.mapValues fun a =>
      if a.status = .active then { a with status := .revoked } else a }

/-- the `finally` block of `trigger_kill_switch` -/
def haltAll (reason : String) (m : Memory) : Memory :=
  revokeActive
    { m with
      sm := m.sm.triggerKillSwitch reason
      riskState := { m.riskState with killSwitchActive := true } }

/-- the control state a command sets when there is no repository -/
def localControl (m : Memory) (active : Bool) (reason actor : String) : RiskControlState where
  active := active
  revision := m.controlState.revision + 1
  reason := some reason
  actor := some actor
  triggeredAt := if active then some m.now else none
  resetAt := if active then none else some m.now

/-- the durable write of a kill-switch command, or its local stand-in -/
def writeControl (cfg : Config) (active : Bool) (reason actor : String)
    (correlationId : Option String) : Program RiskControlState :=
  if cfg.repository then ask (.setRiskControl active reason actor correlationId)
  else do
    let m ← Coro.read
    Coro.ret (localControl m active reason actor)

/-- `trigger_kill_switch` -/
def triggerKillSwitch (cfg : Config) (reason actor : String) (correlationId : Option String) :
    Program Unit :=
  if strip reason = "" then Coro.raise ⟨.validation, "Kill switch reason is required"⟩
  else do
    Coro.ensure (do
        let control ← writeControl cfg true (strip reason) actor correlationId
        Coro.modify fun m => { m with controlState := control })
      (Coro.modify (haltAll (strip reason)))
    AuditService.record cfg { auditType := "KILL_SWITCH_TRIGGERED" }

/-- `reset_kill_switch` -/
def resetKillSwitch (cfg : Config) (reason actor : String) (correlationId : Option String) :
    Program Unit := do
  let m ← Coro.read
  if m.sm.state ≠ .maintenance then
    Coro.raise ⟨.systemState, "Kill switch reset requires MAINTENANCE state"⟩
  else if strip reason = "" then
    Coro.raise ⟨.validation, "Kill switch reset reason is required"⟩
  else do
    let control ← writeControl cfg false (strip reason) actor correlationId
    Coro.modify fun m => { m with controlState := control }
    let m ← Coro.read
    let sm ← Coro.leave m.sm.resetKillSwitchAfterMaintenance
    Coro.modify fun m =>
      { m with sm := sm, riskState := { m.riskState with killSwitchActive := false } }
    AuditService.record cfg { auditType := "KILL_SWITCH_RESET" }

end RiskManager

end CapitalCipher
