/-
The simulated costs of `paper_trading/execution.py`, with the historical observations of
`backtesting/execution_data.py`.

Both models are optional parts of a paper engine. Amounts are exact; the one irrational function,
the square root of the participation, is a parameter.

  • `RealisticExecutionModel.openFill`, `closeFill`: the price of a fill and what it costs.
  • `RealisticExecutionModel.fundingCost`: the funding of an interval, at one rate or at the
    observed ones.
  • `IsolatedMarginModel`: margin, the price of liquidation, and whether a candle reaches it.
-/
import CapitalCipher.Schemas.Oms
import CapitalCipher.Schemas.Market

namespace CapitalCipher

/-- `(b - a).total_seconds()` -/
def secondsBetween (a b : Time) : ℚ := ((b : ℚ) - a) / 1000000

structure SimulatedFill where
  referencePrice : ℚ
  fillPrice : ℚ
  feeCost : ℚ
  spreadCost : ℚ
  slippageCost : ℚ
  volumeImpactCost : ℚ
  participationRate : ℚ
  deriving DecidableEq

structure ExecutionCostLedger where
  fees : ℚ := 0
  spread : ℚ := 0
  slippage : ℚ := 0
  volumeImpact : ℚ := 0
  funding : ℚ := 0
  liquidationFees : ℚ := 0
  deriving DecidableEq

/-! ## Historical observations -/

structure HistoricalExecutionObservation where
  observedAt : Time
  halfSpreadBps : ℚ
  fundingRateBpsPer8h : ℚ

/-- observations in increasing order of time, as the dataset's validator demands -/
structure HistoricalExecutionResolver where
  maxAgeSeconds : ℚ
  observations : List HistoricalExecutionObservation
  ordered : (observations.map HistoricalExecutionObservation.observedAt).Pairwise (· < ·)

namespace HistoricalExecutionResolver

/-- the observations at or before a time; those after it are the rest -/
def known (r : HistoricalExecutionResolver) (t : Time) : List HistoricalExecutionObservation :=
  r.observations.takeWhile fun o => o.observedAt ≤ t

def resolve (r : HistoricalExecutionResolver) (t : Time) :
    Except Error HistoricalExecutionObservation :=
  match (r.known t).getLast? with
  | none => .error ⟨.transport, "Historical execution dataset has no observation available"⟩
  | some o =>
    if r.maxAgeSeconds < secondsBetween o.observedAt t then
      .error ⟨.transport, "Historical execution observation is stale"⟩
    else .ok o

/-- one observation's share of the cost -/
def segmentCost (r : HistoricalExecutionResolver) (notional direction : ℚ)
    (current : HistoricalExecutionObservation) (startAt endAt : Time) : Except Error ℚ :=
  if r.maxAgeSeconds - secondsBetween current.observedAt startAt < secondsBetween startAt endAt then
    .error ⟨.transport, "Historical funding observation becomes stale"⟩
  else
    .ok (notional * (current.fundingRateBpsPer8h / 10000) *
      (secondsBetween startAt endAt / 3600 / 8) * direction)

/-- the loop of `funding_cost`, over the observations still to come -/
def fundingFrom (r : HistoricalExecutionResolver) (notional direction : ℚ) (endAt : Time)
    (current : HistoricalExecutionObservation) (currentAt : Time) :
    List HistoricalExecutionObservation → Except Error ℚ
  | [] => r.segmentCost notional direction current currentAt endAt
  | next :: rest =>
    if next.observedAt < endAt then do
      let cost ← r.segmentCost notional direction current currentAt next.observedAt
      let more ← r.fundingFrom notional direction endAt next next.observedAt rest
      .ok (cost + more)
    else r.segmentCost notional direction current currentAt endAt

def fundingCost (r : HistoricalExecutionResolver) (notional direction : ℚ)
    (startAt endAt : Time) : Except Error ℚ :=
  if endAt ≤ startAt then .ok 0
  else do
    let current ← r.resolve startAt
    r.fundingFrom notional direction endAt current startAt
      (r.observations.drop (r.known startAt).length)

end HistoricalExecutionResolver

/-! ## Fills -/

structure BacktestExecutionAssumptions where
  takerFeeBps : ℚ := 8
  halfSpreadBps : ℚ := 1
  baseSlippageBps : ℚ := 2
  volumeImpactBps : ℚ := 10
  fundingRateBpsPer8h : ℚ := 0
  deriving DecidableEq

/-- market fills based on the information in the candle only -/
structure RealisticExecutionModel where
  assumptions : BacktestExecutionAssumptions := {}
  historicalExecution : Option HistoricalExecutionResolver := none
  sqrt : ℚ → ℚ

namespace RealisticExecutionModel

/-- the share of the candle's quote volume a notional takes -/
def participation (notional : ℚ) (candle : Option Candle) : ℚ :=
  match candle with
  | some c => if 0 < c.volume ∧ 0 < c.volume * c.close then min 1 (notional / (c.volume * c.close)) else 1
  | none => 1

def halfSpreadBps (model : RealisticExecutionModel) (candle : Option Candle) : Except Error ℚ :=
  match model.historicalExecution with
  | none => .ok model.assumptions.halfSpreadBps
  | some r =>
    match candle with
    | none => .error ⟨.transport, "Historical execution fills require a timestamped candle"⟩
    | some c => (r.resolve c.closedAt).map HistoricalExecutionObservation.halfSpreadBps

/-- `_fill` -/
def fill (model : RealisticExecutionModel) (actionSide : OrderSide) (referencePrice notional : ℚ)
    (quantity : Option ℚ) (candle : Option Candle) : Except Error SimulatedFill :=
  if referencePrice ≤ 0 then .error ⟨.transport, "reference_price must be positive"⟩
  else if notional < 0 then .error ⟨.transport, "position_notional must not be negative"⟩
  else do
    let share := participation notional candle
    let impactBps := model.assumptions.volumeImpactBps * model.sqrt share
    let spreadBps ← model.halfSpreadBps candle
    let adverseBps := spreadBps + model.assumptions.baseSlippageBps + impactBps
    let direction := if actionSide = .buy then 1 else -1
    let fillPrice := referencePrice * (1 + direction * adverseBps / 10000)
    let executed := match quantity with
      | none => notional
      | some q => q * fillPrice
    .ok
      { referencePrice
        fillPrice
        feeCost := executed * model.assumptions.takerFeeBps / 10000
        spreadCost := notional * spreadBps / 10000
        slippageCost :=
          notional * model.assumptions.baseSlippageBps / 10000 + notional * impactBps / 10000
        volumeImpactCost := notional * impactBps / 10000
        participationRate := share }

def openFill (model : RealisticExecutionModel) (side : OrderSide) (referencePrice notional : ℚ)
    (candle : Option Candle) : Except Error SimulatedFill :=
  model.fill side referencePrice notional none candle

def closeFill (model : RealisticExecutionModel) (positionSide : OrderSide)
    (referencePrice quantity : ℚ) (candle : Option Candle) : Except Error SimulatedFill :=
  model.fill (if positionSide = .buy then .sell else .buy) referencePrice
    (quantity * referencePrice) (some quantity) candle

/-- `funding_cost` -/
def fundingCost (model : RealisticExecutionModel) (order : PaperOrder) (startAt endAt : Time) :
    Except Error ℚ :=
  let elapsedHours := max 0 (secondsBetween startAt endAt / 3600)
  if elapsedHours = 0 then .ok 0
  else
    let direction := if order.side = .buy then 1 else -1
    match model.historicalExecution with
    | some r => r.fundingCost order.positionSize direction startAt endAt
    | none =>
      .ok (order.positionSize * (model.assumptions.fundingRateBpsPer8h / 10000) *
        (elapsedHours / 8) * direction)

end RealisticExecutionModel

/-! ## Isolated margin -/

structure BacktestMarginAssumptions where
  leverage : ℚ := 1
  maintenanceMarginRatio : ℚ := 5 / 1000
  liquidationFeeBps : ℚ := 10
  deriving DecidableEq

structure IsolatedMarginModel where
  assumptions : BacktestMarginAssumptions := {}
  deriving DecidableEq

namespace IsolatedMarginModel

def initialMargin (model : IsolatedMarginModel) (notional : ℚ) : ℚ :=
  notional / model.assumptions.leverage

def liquidationPrice (model : IsolatedMarginModel) (side : OrderSide) (entryPrice : ℚ) : ℚ :=
  if side = .buy then
    max 0 (entryPrice *
      (1 - 1 / model.assumptions.leverage + model.assumptions.maintenanceMarginRatio))
  else
    entryPrice * (1 + 1 / model.assumptions.leverage - model.assumptions.maintenanceMarginRatio)

/-- the price a candle liquidates an order at, if it does -/
def liquidationReference (order : PaperOrder) (candle : Candle) : Option ℚ :=
  match order.liquidationPrice with
  | none => none
  | some price =>
    if price ≤ 0 then none
    else if order.side = .buy ∧ candle.low ≤ price then some (min price candle.openPrice)
    else if order.side = .sell ∧ price ≤ candle.high then some (max price candle.openPrice)
    else none

def liquidationFee (model : IsolatedMarginModel) (executedNotional : ℚ) : ℚ :=
  executedNotional * model.assumptions.liquidationFeeBps / 10000

end IsolatedMarginModel

end CapitalCipher
