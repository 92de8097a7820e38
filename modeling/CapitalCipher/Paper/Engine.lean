/-
The paper engine of `paper_trading/engine.py`: opening, monitoring and closing simulated orders.

Without an execution model an order is priced at the plain rates; with one, its costs are kept in a
ledger per order and funding accrues up to each candle and up to an explicit closing time.

  • `createOrder`: an order is audited, its approval is consumed, and it enters the book.
  • `onCandle`: every open order of the candle's symbol is tested for liquidation, stop and target.
  • `closeOrder`: a close is audited and stored before it moves the account.
-/
import CapitalCipher.Risk.Manager

namespace CapitalCipher

open Lib

namespace PaperTradingEngine

/-! ## Opening -/

structure CreateArgs where
  decision : Decision
  riskCheck : RiskCheck
  currentPrice : ℚ
  marketCandle : Option Candle := none
  occurredAt : Option Time := none

/-- what pricing an opening order gives -/
structure OpenFill where
  entryPrice : ℚ
  fees : ℚ
  slippageEstimate : ℚ
  entryPrecision : ℕ
  ledger : ExecutionCostLedger := {}

/-- the opening fill: of the execution model, or at the plain rates -/
def openFill (cfg : Config) (a : CreateArgs) (side : OrderSide) (positionSize : ℚ) :
    Except Error OpenFill :=
  match cfg.executionModel with
  | some model => do
    let fill ← model.openFill side a.currentPrice positionSize a.marketCandle
    .ok
      { entryPrice := fill.fillPrice
        fees := fill.feeCost
        slippageEstimate := fill.spreadCost + fill.slippageCost
        entryPrecision := 8
        ledger :=
          { fees := fill.feeCost, spread := fill.spreadCost, slippage := fill.slippageCost
            volumeImpact := fill.volumeImpactCost } }
  | none =>
    let slippageCost := a.currentPrice * cfg.slippageRate
    .ok
      { entryPrice :=
          if side = .buy then a.currentPrice + slippageCost else a.currentPrice - slippageCost
        fees := positionSize * cfg.feeRate
        slippageEstimate := slippageCost
        entryPrecision := 2 }

/-- the order `create_order` builds -/
def orderOf (cfg : Config) (now : Time) (a : CreateArgs) (side : OrderSide) (fill : OpenFill) :
    PaperOrder :=
  let size := a.riskCheck.positionSize.getD 0
  { paperOrderId := cfg.digest.uuid5 ("paper-order:" ++ a.riskCheck.approvalId.getD "None")
    decisionId := a.decision.decisionId
    riskCheckId := a.riskCheck.riskCheckId
    approvalId := a.riskCheck.approvalId
    requestFingerprint := some a.riskCheck.requestFingerprint
    correlationId := a.decision.correlationId
    exchange := .binance
    symbol := a.decision.symbol
    timeframe := some a.decision.timeframe
    strategy := a.decision.strategy
    side
    entryPrice := Decimal.round fill.entryPrice fill.entryPrecision
    stopLoss := a.riskCheck.stopLoss
    takeProfit := a.riskCheck.takeProfit
    positionSize := size
    leverage := match cfg.marginModel with
      | some margin => margin.assumptions.leverage
      | none => orElse a.riskCheck.leverage cfg.limits.defaultLeverage
    initialMargin := cfg.marginModel.map fun margin => Decimal.round (margin.initialMargin size) 8
    maintenanceMarginRatio :=
      cfg.marginModel.map fun margin => margin.assumptions.maintenanceMarginRatio
    liquidationPrice :=
      cfg.marginModel.map fun margin =>
        Decimal.round (margin.liquidationPrice side fill.entryPrice) 8
    status := .filled
    feesEstimated := Decimal.round fill.fees 4
    slippageEstimated := Decimal.round fill.slippageEstimate 4
    openedAt := some (a.occurredAt.getD now)
    createdAt := now }

def processedKey (a : CreateArgs) : String × String :=
  (a.decision.decisionId, a.riskCheck.riskCheckId)

/-- the order enters the book, and with an execution model its ledger is opened -/
def book (cfg : Config) (a : CreateArgs) (ledger : ExecutionCostLedger) (openedAt : Time)
    (order : PaperOrder) (m : Memory) : Memory :=
  { m with
    paper :=
    { m.paper with
      processedKeys := processedKey a :: m.paper.processedKeys
      openOrders := AList.insert order.paperOrderId order m.paper.openOrders
      executionCosts :=
        if cfg.executionModel.isSome then AList.insert order.paperOrderId ledger m.paper.executionCosts
        else m.paper.executionCosts
      lastFundingAt :=
        if cfg.executionModel.isSome then AList.insert order.paperOrderId openedAt m.paper.lastFundingAt
        else m.paper.lastFundingAt }
    tape := m.tape ++ [.opened order] }

/-- `create_order` -/
def createOrder (cfg : Config) (a : CreateArgs) : Program PaperOrder :=
  if a.riskCheck.riskStatus.isApproved = false then
    Coro.raise ⟨.risk, "Paper order rejected: risk_status=" ++ a.riskCheck.riskStatus.value⟩
  else if a.riskCheck.decisionId ≠ a.decision.decisionId then
    Coro.raise ⟨.validation, "Risk check does not belong to this decision"⟩
  else do
    let m ← Coro.read
    if processedKey a ∈ m.paper.processedKeys then
      Coro.raise ⟨.validation, "Duplicate paper order for the same decision and risk check"⟩
    else do
      let side ← Coro.leave (OrderSide.ofAction a.decision.candidateAction)
      let fill ← Coro.leave (openFill cfg a side (a.riskCheck.positionSize.getD 0))
      let order ← Coro.leave (orderOf cfg m.now a side fill).check
      -- the order is audited before it is accepted into the book
      AuditService.record cfg
        { auditType := "PAPER_ORDER_CREATED", entityId := some order.paperOrderId }
      RiskManager.consumeApproval cfg a.decision a.riskCheck order a.currentPrice
      Coro.modify (book cfg a fill.ledger (a.occurredAt.getD m.now) order)
      RiskManager.registerPosition order
      Coro.ret order

/-! ## Funding -/

/-- the memory once an order's funding has accrued up to a time -/
def accrued (cfg : Config) (order : PaperOrder) (endAt : Time) (m : Memory) :
    Except Error Memory :=
  match cfg.executionModel, m.paper.lastFundingAt.lookup order.paperOrderId with
  | some model, some startAt =>
    if endAt ≤ startAt then .ok m
    else
      match m.paper.executionCosts.lookup order.paperOrderId with
      | none => .error ⟨.transport, "KeyError"⟩
      | some ledger => do
        let cost ← model.fundingCost order startAt endAt
        .ok
          { m with paper :=
            { m.paper with
              executionCosts := AList.insert order.paperOrderId
                { ledger with funding := ledger.funding + cost } m.paper.executionCosts
              lastFundingAt := AList.insert order.paperOrderId endAt m.paper.lastFundingAt } }
  | _, _ => .ok m

/-- `_accrue_funding` -/
def accrueFunding (cfg : Config) (order : PaperOrder) (endAt : Time) : Program Unit := do
  let m ← Coro.read
  let m' ← Coro.leave (accrued cfg order endAt m)
  Coro.modify fun _ => m'

/-! ## Closing -/

structure CloseArgs where
  paperOrderId : String
  exitPrice : ℚ
  exitReason : Option String := none
  marketCandle : Option Candle := none
  occurredAt : Option Time := none

/-- what pricing a closing order gives -/
structure CloseFill where
  exitPrice : ℚ
  exitFees : ℚ
  slippageEstimate : ℚ
  ledger : ExecutionCostLedger

/-- the closing fill: of the execution model, added to the order's ledger, or at the plain rates -/
def closeFill (cfg : Config) (a : CloseArgs) (order : PaperOrder) (ledger : ExecutionCostLedger) :
    Except Error CloseFill :=
  match cfg.executionModel with
  | some model => do
    let fill ← model.closeFill order.side a.exitPrice (order.positionSize / order.entryPrice)
      a.marketCandle
    let ledger := { ledger with
      fees := ledger.fees + fill.feeCost
      spread := ledger.spread + fill.spreadCost
      slippage := ledger.slippage + fill.slippageCost
      volumeImpact := ledger.volumeImpact + fill.volumeImpactCost }
    .ok
      { exitPrice := fill.fillPrice, exitFees := fill.feeCost
        slippageEstimate := ledger.spread + ledger.slippage, ledger }
  | none =>
    .ok
      { exitPrice := a.exitPrice, exitFees := order.positionSize * cfg.feeRate
        slippageEstimate := order.slippageEstimated, ledger }

def liquidationFee (cfg : Config) (a : CloseArgs) (order : PaperOrder) (exitPrice : ℚ) : ℚ :=
  match cfg.marginModel with
  | some margin =>
    if a.exitReason = some "LIQUIDATION" then
      margin.liquidationFee (order.positionSize / order.entryPrice * exitPrice)
    else 0
  | none => 0

/-- the result of a close: gross of the quantity, less every cost -/
def netPnl (order : PaperOrder) (fill : CloseFill) (liquidationFee : ℚ) : ℚ :=
  (fill.exitPrice - order.entryPrice) * (order.positionSize / order.entryPrice) *
      (if order.side = .buy then 1 else -1) -
    order.feesEstimated - fill.exitFees - fill.ledger.funding - liquidationFee

/-- the order `close_order` stores -/
def closedOf (now : Time) (a : CloseArgs) (order : PaperOrder) (fill : CloseFill)
    (liquidationFee : ℚ) : PaperOrder :=
  { order with
    status := .closed
    closedAt := some (a.occurredAt.getD now)
    pnl := some (Decimal.round (netPnl order fill liquidationFee) 4)
    exitPrice := some (Decimal.round fill.exitPrice 8)
    exitReason := a.exitReason
    feesEstimated := Decimal.round (order.feesEstimated + fill.exitFees) 4
    slippageEstimated := Decimal.round fill.slippageEstimate 4
    liquidationFee := Decimal.round liquidationFee 4 }

/-- a close as it was computed before its first await -/
structure Closing where
  closed : PaperOrder
  netPnl : ℚ
  ledger : ExecutionCostLedger
  closedAt : Time

/-- what `close_order` computes of an open order -/
def closing (cfg : Config) (a : CloseArgs) (order : PaperOrder) (m : Memory) :
    Except Error Closing := do
  let fill ← closeFill cfg a order ((m.paper.executionCosts.lookup order.paperOrderId).getD {})
  let fee := liquidationFee cfg a order fill.exitPrice
  .ok
    { closed := closedOf m.now a order fill fee
      netPnl := netPnl order fill fee
      ledger := { fill.ledger with liquidationFees := fill.ledger.liquidationFees + fee }
      closedAt := a.occurredAt.getD m.now }

/-- with an execution model, the order's costs are kept and its funding ends -/
def keepCosts (cfg : Config) (c : Closing) (m : Memory) : Memory :=
  if cfg.executionModel.isSome then
    { m with paper :=
      { m.paper with
        executionCosts := AList.insert c.closed.paperOrderId c.ledger m.paper.executionCosts
        lastFundingAt := AList.erase c.closed.paperOrderId m.paper.lastFundingAt } }
  else m

/-- the order leaves the book and its result enters the account -/
def settle (cfg : Config) (c : Closing) (m : Memory) : Memory :=
  let balance := m.paper.balance + c.netPnl
  let peak := max m.paper.peakEquity balance
  let m := { m with
    paper :=
      { m.paper with
        openOrders := AList.erase c.closed.paperOrderId m.paper.openOrders
        closedOrders := m.paper.closedOrders ++ [c.closed]
        balance
        peakEquity := peak
        maxDrawdownPercent := max m.paper.maxDrawdownPercent ((peak - balance) / peak * 100)
        equityCurve := m.paper.equityCurve ++ [⟨c.closedAt, Decimal.round balance 4⟩] }
    tape := m.tape ++ [.closed c.closed c.netPnl] }
  RiskManager.updateEquity balance (RiskManager.registerTradeResult cfg c.netPnl
    (RiskManager.unregisterPosition (.paper c.closed.paperOrderId) m))

/-- an explicit closing time is funded up to -/
def fundClosing (cfg : Config) (a : CloseArgs) (order : PaperOrder) : Program Unit :=
  match cfg.executionModel, a.occurredAt with
  | some _, some endAt => accrueFunding cfg order endAt
  | _, _ => Coro.ret ()

/-- what `close_order` does with an open order -/
def closeOpen (cfg : Config) (a : CloseArgs) (order : PaperOrder) : Program PaperOrder := do
  fundClosing cfg a order
  let m ← Coro.read
  let c ← Coro.leave (closing cfg a order m)
  -- the terminal state is recorded before it advances the in-memory account
  AuditService.record cfg
    { auditType := "PAPER_ORDER_CLOSED", entityId := some order.paperOrderId }
  if cfg.repository then ask (.savePaperOrder c.closed) else Coro.ret ()
  Coro.modify (keepCosts cfg c)
  let m ← Coro.read
  match m.paper.openOrders.lookup a.paperOrderId with
  -- a second close of the same order raises here, after its durable write
  | none => Coro.raise ⟨.transport, "KeyError"⟩
  | some _ => do
    Coro.modify (settle cfg c)
    Coro.ret c.closed

/-- `close_order` -/
def closeOrder (cfg : Config) (a : CloseArgs) : Program PaperOrder :=
  if a.exitPrice ≤ 0 then
    Coro.raise ⟨.validation, "Paper order exit price must be positive"⟩
  else do
    let m ← Coro.read
    match m.paper.openOrders.lookup a.paperOrderId with
    | none => Coro.raise ⟨.validation, "Paper order " ++ a.paperOrderId ++ " is not open"⟩
    | some order =>
      if order.entryPrice = 0 then Coro.raise ⟨.transport, "ZeroDivisionError"⟩
      else closeOpen cfg a order

/-! ## Monitoring -/

/-- the exit a candle forces on an order: liquidation first, then stop, then target -/
def exitOf (cfg : Config) (order : PaperOrder) (candle : Candle) : Option (ℚ × String) :=
  match cfg.marginModel.bind fun _ => IsolatedMarginModel.liquidationReference order candle with
  | some price => some (price, "LIQUIDATION")
  | none =>
    match order.side with
    | .buy =>
      match order.stopLoss.filter (candle.low ≤ ·), order.takeProfit.filter (· ≤ candle.high) with
      | some stop, _ => some (stop, "STOP_LOSS")
      | none, some target => some (target, "TAKE_PROFIT")
      | none, none => none
    | .sell =>
      match order.stopLoss.filter (· ≤ candle.high), order.takeProfit.filter (candle.low ≤ ·) with
      | some stop, _ => some (stop, "STOP_LOSS")
      | none, some target => some (target, "TAKE_PROFIT")
      | none, none => none

/-- the orders of the snapshot that are still to be monitored -/
def monitor (cfg : Config) (candle : Candle) : List PaperOrder → Program (List PaperOrder)
  | [] => Coro.ret []
  | order :: rest =>
    if order.symbol ≠ candle.symbol then monitor cfg candle rest
    else do
      accrueFunding cfg order candle.closedAt
      Coro.modify fun m => { m with tape := m.tape ++ [.tested order.paperOrderId candle] }
      match exitOf cfg order candle with
      | none => monitor cfg candle rest
      | some (price, reason) => do
        let closed ← closeOrder cfg
          { paperOrderId := order.paperOrderId, exitPrice := price, exitReason := some reason
            marketCandle := some candle, occurredAt := some candle.closedAt }
        let more ← monitor cfg candle rest
        Coro.ret (closed :: more)

/-- `on_candle` -/
def onCandle (cfg : Config) (candle : Candle) : Program (List PaperOrder) := do
  let m ← Coro.read
  monitor cfg candle m.paper.openOrders.values.reverse

end PaperTradingEngine

end CapitalCipher
