/-
The performance report of `paper_trading/engine.py` and what it adds up to.

Costs are kept in a ledger per order while it is open, enter the result of its close, and are summed
again, by other formulas, in the report. A `Trade` is one close before anything of it was rounded.

  • `performance`: the report.
  • `Accounted`: what every step of the engine keeps of the trades made so far.
  • `performance_adds_up`: after every sequential history the report is consistent with itself, with
    the balance and with the trades, up to the rounding of its fields and of the closed orders.
-/
import CapitalCipher.Lib.Drawdown
import CapitalCipher.Lib.Result
import CapitalCipher.Lib.Sequential
import CapitalCipher.Paper.Account

namespace CapitalCipher

open Lib

/-! ## The report -/

structure PaperPerformance where
  totalTrades : ℕ := 0
  openTrades : ℕ := 0
  closedTrades : ℕ := 0
  wins : ℕ := 0
  losses : ℕ := 0
  winRate : ℚ := 0
  grossPnl : ℚ := 0
  netPnl : ℚ := 0
  feesTotal : ℚ := 0
  slippageTotal : ℚ := 0
  spreadTotal : ℚ := 0
  volumeImpactTotal : ℚ := 0
  fundingTotal : ℚ := 0
  liquidations : ℕ := 0
  liquidationFeesTotal : ℚ := 0
  totalExecutionCost : ℚ := 0
  maxDrawdownPercent : ℚ := 0
  consecutiveLosses : ℕ := 0
  balance : ℚ := 0
  initialBalance : ℚ := 0
  deriving DecidableEq

/-- the costs kept of an order, none without a ledger -/
def PaperAccount.costsOf (p : PaperAccount) (order : PaperOrder) : ExecutionCostLedger :=
  (p.executionCosts.lookup order.paperOrderId).getD {}

/-- a sum over the closed orders -/
def PaperAccount.total (p : PaperAccount) (f : PaperOrder → ℚ) : ℚ := (p.closedOrders.map f).sum

namespace PaperTradingEngine

/-- the fees the report charges an order: those of its ledger, or the estimate -/
def feesOf (cfg : Config) (p : PaperAccount) (order : PaperOrder) : ℚ :=
  if cfg.executionModel.isSome then (p.costsOf order).fees else order.feesEstimated

/-- the gross result the report gives an order: what its costs left, and the costs -/
def grossOf (cfg : Config) (p : PaperAccount) (order : PaperOrder) : ℚ :=
  order.pnl.getD 0 + feesOf cfg p order + (p.costsOf order).funding +
    (p.costsOf order).liquidationFees

/-- `performance` -/
def performance (cfg : Config) (m : Memory) : PaperPerformance :=
  let p := m.paper
  let wins := (p.closedOrders.filter fun o => 0 < o.pnl.getD 0).length
  let closedCount := p.closedOrders.length
  let openCount := p.openOrders.values.length
  let feesTotal := Decimal.round (p.total (feesOf cfg p)) 4
  let slippageTotal := Decimal.round (p.total fun o =>
    if cfg.executionModel.isSome then (p.costsOf o).slippage else o.slippageEstimated) 4
  let spreadTotal := Decimal.round (p.total fun o => (p.costsOf o).spread) 4
  let fundingTotal := Decimal.round (p.total fun o => (p.costsOf o).funding) 4
  let liquidationFeesTotal := Decimal.round (p.total fun o => (p.costsOf o).liquidationFees) 4
  { totalTrades := closedCount + openCount
    openTrades := openCount
    closedTrades := closedCount
    wins
    losses := (p.closedOrders.filter fun o => o.pnl.getD 0 ≤ 0).length
    winRate := if closedCount = 0 then 0 else Decimal.round (wins / closedCount * 100) 2
    grossPnl := Decimal.round (p.total (grossOf cfg p)) 4
    netPnl := Decimal.round (p.total fun o => o.pnl.getD 0) 4
    feesTotal
    slippageTotal
    spreadTotal
    volumeImpactTotal := Decimal.round (p.total fun o => (p.costsOf o).volumeImpact) 4
    fundingTotal
    liquidations := (p.closedOrders.filter fun o => o.exitReason = some "LIQUIDATION").length
    liquidationFeesTotal
    totalExecutionCost := Decimal.round
      (feesTotal + slippageTotal + spreadTotal + fundingTotal + liquidationFeesTotal) 4
    maxDrawdownPercent := Decimal.round p.maxDrawdownPercent 4
    consecutiveLosses := m.riskState.consecutiveLosses
    balance := Decimal.round p.balance 2
    initialBalance := cfg.initialBalance }

/-! ## Histories -/

/-- a call of the engine -/
inductive Operation where
  | createOrder (a : CreateArgs)
  | onCandle (candle : Candle)
  | closeOrder (a : CloseArgs)

def Operation.task (cfg : Config) : Operation → Program Unit
  | .createOrder a => (PaperTradingEngine.createOrder cfg a).bind fun _ => Coro.ret ()
  | .onCandle candle => (PaperTradingEngine.onCandle cfg candle).bind fun _ => Coro.ret ()
  | .closeOrder a => (PaperTradingEngine.closeOrder cfg a).bind fun _ => Coro.ret ()

/-- the memories a fresh process reaches while the calls of its engine come one after the other, and
others change what they like but the paper account -/
abbrev History (cfg : Config) (now : Time) : Memory → Prop :=
  Coro.Sequential (Operation.task cfg) (fun m m' => m'.paper = m.paper) (Memory.fresh cfg now)

/-! ## Trades -/

/-- half a unit of the last digit that is kept -/
def halfUnit (digits : ℕ) : ℚ := 1 / 2 / 10 ^ digits

/-- a close before its prices and its result were rounded for the closed order -/
structure Trade where
  order : PaperOrder
  exitPrice : ℚ
  netPnl : ℚ
  exitPrice_eq : order.exitPrice = some (Decimal.round exitPrice 8)
  pnl_eq : order.pnl = some (Decimal.round netPnl 4)

/-- what the price made of the position -/
def Trade.grossPnl (t : Trade) : ℚ :=
  (t.exitPrice - t.order.entryPrice) * (t.order.positionSize / t.order.entryPrice) *
    (if t.order.side = .buy then 1 else -1)

/-- the balances: the initial one, and the one after each trade -/
def curve (cfg : Config) (trades : List Trade) : List ℚ :=
  (trades.map Trade.netPnl).scanl (· + ·) cfg.initialBalance

/-- no order was closed twice, and none is open that was closed -/
structure Distinct (p : PaperAccount) : Prop where
  closed : (p.closedOrders.map PaperOrder.paperOrderId).Nodup
  gone : ∀ o ∈ p.closedOrders, p.openOrders.lookup o.paperOrderId = none

/-- what the engine keeps of the trades made so far -/
structure Accounted (cfg : Config) (trades : List Trade) (p : PaperAccount) : Prop where
  closed : p.closedOrders = trades.map Trade.order
  balance : p.balance = cfg.initialBalance + (trades.map Trade.netPnl).sum
  points : p.equityCurve.map EquityPoint.balance =
    cfg.initialBalance :: (curve cfg trades).tail.map (Decimal.round · 4)
  peak : IsGreatest {b | b ∈ curve cfg trades} p.peakEquity
  drawdown : IsGreatest {x | IsDrawdown (curve cfg trades) x} p.maxDrawdownPercent
  keyed : Dict.Keyed PaperOrder.paperOrderId p.openOrders
  /-- with an execution model an open order has a ledger, which starts from its unrounded fee -/
  ledgers : cfg.executionModel.isSome → ∀ i o, p.openOrders.lookup i = some o →
    ∃ ledger, p.executionCosts.lookup i = some ledger ∧
      |ledger.fees - o.feesEstimated| ≤ halfUnit 4 ∧ ledger.liquidationFees = 0
  /-- without one nothing is kept -/
  plain : cfg.executionModel = none → p.executionCosts = ∅ ∧ p.lastFundingAt = ∅
  /-- funding accrues for open orders only -/
  accruing : ∀ i t, p.lastFundingAt.lookup i = some t → ∃ o, p.openOrders.lookup i = some o
  gross : cfg.executionModel.isSome ∨ cfg.marginModel = none → Distinct p →
    ∀ t ∈ trades, |grossOf cfg p t.order - t.grossPnl| ≤ 2 * halfUnit 4

/-! ## What each step keeps -/

variable {cfg : Config} {trades : List Trade} {p p' : PaperAccount} {m m' : Memory}

theorem Accounted.fresh (cfg : Config) (now : Time) :
    Accounted cfg [] (Memory.fresh cfg now).paper where
  closed := rfl
  balance := by simp [Memory.fresh]
  points := rfl
  peak := isGreatest_singleton cfg.initialBalance
  drawdown := isGreatest_drawdown_singleton cfg.initialBalance
  keyed h := by simp [Memory.fresh] at h
  ledgers _ i o h := by simp [Memory.fresh] at h
  plain _ := ⟨rfl, rfl⟩
  accruing i t h := by simp [Memory.fresh] at h
  gross _ _ t ht := by simp at ht

/-- an order's part in the report is a matter of its ledger -/
theorem grossOf_congr {order : PaperOrder}
    (h : p'.executionCosts.lookup order.paperOrderId = p.executionCosts.lookup order.paperOrderId) :
    grossOf cfg p' order = grossOf cfg p order := by
  simp only [grossOf, feesOf, PaperAccount.costsOf, h]

/-- the ledger of an open order accrues funding -/
theorem Accounted.accrued (h : Accounted cfg trades m.paper) {order : PaperOrder} {endAt : Time}
    (ha : accrued cfg order endAt m = .ok m') :
    Accounted cfg trades m'.paper ∧ m'.paper.openOrders = m.paper.openOrders := by
  unfold PaperTradingEngine.accrued at ha
  split at ha
  · rename_i model startAt hmodel hstart
    split_ifs at ha with hle
    · cases ha
      exact ⟨h, rfl⟩
    · split at ha
      · cases ha
      · rename_i ledger hledger
        obtain ⟨cost, hcost, ha⟩ := Result.bind_ok.1 ha
        cases ha
        obtain ⟨o, ho⟩ := h.accruing _ _ hstart
        refine ⟨{ h with ledgers := ?_, plain := ?_, accruing := ?_, gross := ?_ }, rfl⟩
        · intro hexec i o' ho'
          obtain ⟨l, hl, hfees, hliq⟩ := h.ledgers hexec i o' ho'
          rw [Dict.lookup_insert_eq]
          split_ifs with hi
          · subst hi
            rw [hledger] at hl
            cases hl
            exact ⟨_, rfl, hfees, hliq⟩
          · exact ⟨l, hl, hfees, hliq⟩
        · intro hnone
          rw [hnone] at hmodel
          cases hmodel
        · intro i t hi
          rw [Dict.lookup_insert_eq] at hi
          split_ifs at hi with heq
          · exact ⟨o, by rw [heq]; exact ho⟩
          · exact h.accruing i t hi
        · intro hmode hdistinct t ht
          have hgone : m.paper.openOrders.lookup t.order.paperOrderId = none :=
            hdistinct.gone _ (by rw [h.closed]; exact List.mem_map_of_mem ht)
          have hne : t.order.paperOrderId ≠ order.paperOrderId := by
            intro heq
            rw [heq, ho] at hgone
            cases hgone
          rw [grossOf_congr (AList.lookup_insert_ne hne)]
          exact h.gross hmode ⟨hdistinct.closed, hdistinct.gone⟩ t ht
  · cases ha
    exact ⟨h, rfl⟩

/-- what is priced is what the ledger opens with -/
theorem openFill_ledger {a : CreateArgs} {side : OrderSide} {size : ℚ} {fill : OpenFill}
    (h : openFill cfg a side size = .ok fill) (hexec : cfg.executionModel.isSome) :
    fill.ledger.fees = fill.fees ∧ fill.ledger.liquidationFees = 0 := by
  unfold openFill at h
  split at h
  · obtain ⟨f, -, h⟩ := Result.bind_ok.1 h
    cases h
    exact ⟨rfl, rfl⟩
  · rename_i hnone
    rw [hnone] at hexec
    cases hexec

/-- an order enters the book with its ledger -/
theorem Accounted.book (h : Accounted cfg trades m.paper) {a : CreateArgs}
    {ledger : ExecutionCostLedger} {openedAt : Time} {order : PaperOrder}
    (hledger : cfg.executionModel.isSome →
      |ledger.fees - order.feesEstimated| ≤ halfUnit 4 ∧ ledger.liquidationFees = 0) :
    Accounted cfg trades (book cfg a ledger openedAt order m).paper := by
  have hopen : ∀ i o, m.paper.openOrders.lookup i = some o →
      ∃ o', (AList.insert order.paperOrderId order m.paper.openOrders).lookup i = some o' := by
    intro i o ho
    rw [Dict.lookup_insert_eq]
    split_ifs
    · exact ⟨order, rfl⟩
    · exact ⟨o, ho⟩
  refine { h with keyed := ?_, ledgers := ?_, plain := ?_, accruing := ?_, gross := ?_ }
  · intro i o ho
    simp only [PaperTradingEngine.book, Dict.lookup_insert_eq] at ho
    split_ifs at ho with hi
    · cases ho
      exact hi.symm
    · exact h.keyed ho
  · intro hexec i o ho
    simp only [PaperTradingEngine.book, hexec, if_true, Dict.lookup_insert_eq] at ho ⊢
    split_ifs at ho ⊢ with hi
    · cases ho
      exact ⟨ledger, rfl, hledger hexec⟩
    · exact h.ledgers hexec i o ho
  · intro hnone
    simp only [PaperTradingEngine.book, hnone, Option.isSome_none, Bool.false_eq_true, if_false]
    exact h.plain hnone
  · intro i t hi
    simp only [PaperTradingEngine.book] at hi ⊢
    split_ifs at hi with hexec
    · rw [Dict.lookup_insert_eq] at hi
      split_ifs at hi with heq
      · exact ⟨order, by rw [heq, AList.lookup_insert]⟩
      · obtain ⟨o, ho⟩ := h.accruing i t hi
        exact hopen i o ho
    · obtain ⟨o, ho⟩ := h.accruing i t hi
      exact hopen i o ho
  · intro hmode hdistinct t ht
    have hclosed : t.order ∈ m.paper.closedOrders := by
      rw [h.closed]
      exact List.mem_map_of_mem ht
    have hnone := hdistinct.gone _ hclosed
    have hold : ∀ o ∈ m.paper.closedOrders, o.paperOrderId ≠ order.paperOrderId ∧
        m.paper.openOrders.lookup o.paperOrderId = none := by
      intro o ho
      have hgone := hdistinct.gone o ho
      simp only [PaperTradingEngine.book, Dict.lookup_insert_eq] at hgone
      split_ifs at hgone with hne
      exact ⟨hne, hgone⟩
    have hsame : (PaperTradingEngine.book cfg a ledger openedAt order m).paper.executionCosts.lookup
        t.order.paperOrderId = m.paper.executionCosts.lookup t.order.paperOrderId := by
      simp only [PaperTradingEngine.book]
      split_ifs
      · exact AList.lookup_insert_ne (hold _ hclosed).1
      · rfl
    rw [grossOf_congr hsame]
    exact h.gross hmode ⟨hdistinct.closed, fun o ho => (hold o ho).2⟩ t ht

/-! ## What a close keeps -/

theorem curve_concat (cfg : Config) (trades : List Trade) (t : Trade) :
    curve cfg (trades ++ [t]) =
      curve cfg trades ++ [cfg.initialBalance + (trades.map Trade.netPnl).sum + t.netPnl] := by
  have hfold : ∀ (l : List ℚ) (x : ℚ), l.foldl (· + ·) x = x + l.sum := by
    intro l
    induction l with
    | nil => simp
    | cons y l ih =>
      intro x
      rw [List.foldl_cons, ih, List.sum_cons, add_assoc]
  simp only [curve, List.map_append, List.map_cons, List.map_nil, List.scanl_append,
    List.scanl_singleton, List.tail_cons, hfold]

/-- the ledger of a close is the order's ledger and the exit fees -/
theorem closeFill_ledger {a : CloseArgs} {order : PaperOrder} {ledger : ExecutionCostLedger}
    {fill : CloseFill} (h : closeFill cfg a order ledger = .ok fill) :
    fill.ledger.funding = ledger.funding ∧ fill.ledger.liquidationFees = ledger.liquidationFees ∧
      (cfg.executionModel.isSome → fill.ledger.fees = ledger.fees + fill.exitFees) := by
  unfold closeFill at h
  split at h
  · obtain ⟨f, -, h⟩ := Result.bind_ok.1 h
    cases h
    exact ⟨rfl, rfl, fun _ => rfl⟩
  · rename_i hnone
    cases h
    exact ⟨rfl, rfl, fun hexec => by simp [hnone] at hexec⟩

/-- without a margin model nothing is charged for a liquidation -/
theorem liquidationFee_plain {a : CloseArgs} {order : PaperOrder} {price : ℚ}
    (h : cfg.marginModel = none) : liquidationFee cfg a order price = 0 := by
  simp [liquidationFee, h]

/-- a close as it was computed, and the trade it makes -/
structure Makes (cfg : Config) (p : PaperAccount) (order : PaperOrder) (c : Closing) (t : Trade)
    (exitFees fee : ℚ) : Prop where
  order_eq : t.order = c.closed
  netPnl_eq : t.netPnl = c.netPnl
  paperOrderId_eq : c.closed.paperOrderId = order.paperOrderId
  gross : t.grossPnl = t.netPnl + order.feesEstimated + exitFees + c.ledger.funding + fee
  feesEstimated : c.closed.feesEstimated = Decimal.round (order.feesEstimated + exitFees) 4
  funding : c.ledger.funding = (p.costsOf order).funding
  liquidationFees : c.ledger.liquidationFees = (p.costsOf order).liquidationFees + fee
  fees : cfg.executionModel.isSome → c.ledger.fees = (p.costsOf order).fees + exitFees
  /-- without a margin model nothing is charged for a liquidation -/
  plain : cfg.marginModel = none → fee = 0

theorem closing_makes {a : CloseArgs} {order : PaperOrder} {c : Closing}
    (h : closing cfg a order m = .ok c) :
    ∃ t exitFees fee, Makes cfg m.paper order c t exitFees fee := by
  unfold closing at h
  obtain ⟨fill, hfill, h⟩ := Result.bind_ok.1 h
  cases h
  obtain ⟨hfunding, hliq, hfees⟩ := closeFill_ledger hfill
  let fee := liquidationFee cfg a order fill.exitPrice
  refine ⟨⟨closedOf m.now a order fill fee, fill.exitPrice, netPnl order fill fee, rfl, rfl⟩,
    fill.exitFees, fee, ?_⟩
  exact
    { order_eq := rfl
      netPnl_eq := rfl
      paperOrderId_eq := rfl
      gross := by
        by_cases hside : order.side = .buy <;>
          simp only [Trade.grossPnl, netPnl, closedOf, hside, if_true, if_false] <;> ring
      feesEstimated := rfl
      funding := hfunding
      liquidationFees := congrArg (· + fee) hliq
      fees := hfees
      plain := fun hnone => by simp only [fee, liquidationFee, hnone] }

theorem settle_paper (c : Closing) (m : Memory) :
    (settle cfg c m).paper =
      { m.paper with
        openOrders := AList.erase c.closed.paperOrderId m.paper.openOrders
        closedOrders := m.paper.closedOrders ++ [c.closed]
        balance := m.paper.balance + c.netPnl
        peakEquity := max m.paper.peakEquity (m.paper.balance + c.netPnl)
        maxDrawdownPercent := max m.paper.maxDrawdownPercent
          ((max m.paper.peakEquity (m.paper.balance + c.netPnl) - (m.paper.balance + c.netPnl)) /
            max m.paper.peakEquity (m.paper.balance + c.netPnl) * 100)
        equityCurve := m.paper.equityCurve ++
          [⟨c.closedAt, Decimal.round (m.paper.balance + c.netPnl) 4⟩] } := by
  unfold settle RiskManager.updateEquity
  rfl

/-- the report recovers the gross result of a close from its rounded result and its costs -/
theorem Makes.gross_close {order : PaperOrder} {c : Closing} {t : Trade} {exitFees fee : ℚ}
    (hc : Makes cfg m.paper order c t exitFees fee) (h : Accounted cfg trades m.paper)
    (ho : m.paper.openOrders.lookup order.paperOrderId = some order)
    (hmode : cfg.executionModel.isSome ∨ cfg.marginModel = none) :
    |grossOf cfg (settle cfg c (keepCosts cfg c m)).paper t.order - t.grossPnl| ≤
      2 * halfUnit 4 := by
  have hpnl : t.order.pnl.getD 0 = Decimal.round t.netPnl 4 := by rw [t.pnl_eq]; rfl
  have hround := abs_le.1 (Decimal.abs_round_sub_le t.netPnl 4)
  rw [abs_le, hc.gross, hc.funding]
  by_cases hexec : cfg.executionModel.isSome
  · -- the ledger holds the unrounded fees
    obtain ⟨ledger, hl, hestimated, hzero⟩ := h.ledgers hexec _ _ ho
    have hold : m.paper.costsOf order = ledger := by
      rw [PaperAccount.costsOf, hl]
      rfl
    have hnew : (settle cfg c (keepCosts cfg c m)).paper.costsOf t.order = c.ledger := by
      rw [PaperAccount.costsOf, settle_paper, keepCosts, if_pos hexec, hc.order_eq,
        AList.lookup_insert]
      rfl
    have hestimated := abs_le.1 hestimated
    have hfees := hc.fees hexec
    have hliq := hc.liquidationFees
    rw [hold] at hfees hliq
    simp only [grossOf, feesOf, if_pos hexec, hnew, hpnl, hc.funding, hfees, hliq, hzero, hold]
    unfold halfUnit at *
    constructor <;> linarith
  · -- nothing but the estimate was kept
    rw [Bool.not_eq_true, Option.isSome_eq_false_iff, Option.isNone_iff_eq_none] at hexec
    have hnone : ∀ o, (settle cfg c (keepCosts cfg c m)).paper.costsOf o = {} := by
      intro o
      simp [PaperAccount.costsOf, settle_paper, keepCosts, hexec, (h.plain hexec).1]
    have hold : m.paper.costsOf order = {} := by
      simp [PaperAccount.costsOf, (h.plain hexec).1]
    have hfee := hc.plain (hmode.resolve_left (by simp [hexec]))
    have hestimate := abs_le.1 (Decimal.abs_round_sub_le (order.feesEstimated + exitFees) 4)
    rw [hc.order_eq] at hpnl
    simp only [grossOf, feesOf, hexec, Option.isSome_none, Bool.false_eq_true, if_false, hnone,
      hold, hpnl, hc.order_eq, hc.feesEstimated, hfee]
    unfold halfUnit
    constructor <;> linarith

/-- an open order becomes one more trade -/
theorem Accounted.close (h : Accounted cfg trades m.paper) {order : PaperOrder} {c : Closing}
    {t : Trade} {exitFees fee : ℚ} (hc : Makes cfg m.paper order c t exitFees fee)
    (ho : m.paper.openOrders.lookup order.paperOrderId = some order) :
    Accounted cfg (trades ++ [t]) (settle cfg c (keepCosts cfg c m)).paper := by
  have hcosts : (keepCosts cfg c m).paper =
      { m.paper with
        executionCosts := (keepCosts cfg c m).paper.executionCosts
        lastFundingAt := (keepCosts cfg c m).paper.lastFundingAt } := by
    unfold keepCosts
    split_ifs <;> rfl
  have hbalance : m.paper.balance + c.netPnl =
      cfg.initialBalance + (trades.map Trade.netPnl).sum + t.netPnl := by
    rw [h.balance, hc.netPnl_eq]
  have hopen : ∀ i, (AList.erase c.closed.paperOrderId m.paper.openOrders).lookup i =
      if i = order.paperOrderId then none else m.paper.openOrders.lookup i := by
    intro i
    rw [Dict.lookup_erase_eq, hc.paperOrderId_eq]
  have hledger : ∀ i, i ≠ order.paperOrderId → (keepCosts cfg c m).paper.executionCosts.lookup i =
      m.paper.executionCosts.lookup i := by
    intro i hi
    unfold keepCosts
    split_ifs
    · exact AList.lookup_insert_ne (by rw [hc.paperOrderId_eq]; exact hi)
    · rfl
  rw [settle_paper, hcosts]
  constructor
  · simp only [h.closed, hc.order_eq, List.map_append, List.map_cons, List.map_nil]
  · simp only [hbalance, List.map_append, List.map_cons, List.map_nil, List.sum_append,
      List.sum_singleton, add_assoc]
  · have hne : curve cfg trades ≠ [] := List.scanl_ne_nil
    simp only [curve_concat, List.map_append, h.points, hbalance, List.tail_append_of_ne_nil hne,
      List.map_cons, List.map_nil, List.cons_append]
  · rw [curve_concat, ← hbalance]
    exact isGreatest_concat h.peak _
  · rw [curve_concat, ← hbalance]
    exact isGreatest_drawdown_concat h.peak h.drawdown _
  · intro i o hi
    rw [hopen] at hi
    split_ifs at hi
    exact h.keyed hi
  · intro hexec i o hi
    rw [hopen] at hi
    split_ifs at hi with hne
    rw [hledger i hne]
    exact h.ledgers hexec i o hi
  · intro hnone
    simp only [keepCosts, hnone, Option.isSome_none, Bool.false_eq_true, if_false]
    exact h.plain hnone
  · intro i time hi
    by_cases hexec : cfg.executionModel.isSome
    · simp only [keepCosts, hexec, if_true, Dict.lookup_erase_eq, hc.paperOrderId_eq] at hi ⊢
      split_ifs at hi ⊢ with hne
      exact h.accruing i time hi
    · simp only [keepCosts, hexec, Bool.false_eq_true, if_false] at hi
      rw [Bool.not_eq_true, Option.isSome_eq_false_iff, Option.isNone_iff_eq_none] at hexec
      simp [(h.plain hexec).2] at hi
  · intro hmode hdistinct x hx
    -- the trades before it kept their ledgers
    have hnodup := hdistinct.closed
    simp only [List.map_append, List.map_cons, List.map_nil] at hnodup
    obtain ⟨hfirst, -, hdisjoint⟩ := List.nodup_append.1 hnodup
    have hother : ∀ o ∈ m.paper.closedOrders, o.paperOrderId ≠ order.paperOrderId := by
      intro o hoc
      rw [← hc.paperOrderId_eq]
      exact hdisjoint _ (List.mem_map_of_mem hoc) _ (by simp)
    have hbefore : Distinct m.paper := by
      refine ⟨hfirst, fun o hoc => ?_⟩
      have hgone := hdistinct.gone o (List.mem_append_left _ hoc)
      simp only [hopen, hother o hoc, if_false] at hgone
      exact hgone
    rcases List.mem_append.1 hx with hx | hx
    · have hxc : x.order ∈ m.paper.closedOrders := by
        rw [h.closed]
        exact List.mem_map_of_mem hx
      have hkept := h.gross hmode hbefore x hx
      rw [← grossOf_congr (hledger _ (hother _ hxc))] at hkept
      exact hkept
    · rw [List.mem_singleton.1 hx]
      have hmake := hc.gross_close h ho hmode
      rw [settle_paper, hcosts] at hmake
      exact hmake

/-! ## What each call keeps -/

/-- the trades made so far explain the paper account -/
def Explained (cfg : Config) (m : Memory) : Prop := ∃ trades, Accounted cfg trades m.paper

theorem Explained.congr (h : Explained cfg m) (hp : m'.paper = m.paper) : Explained cfg m' := by
  obtain ⟨trades, h⟩ := h
  exact ⟨trades, by rw [hp]; exact h⟩

/-- an audit record leaves the memory alone -/
theorem alone_record (r : AuditRecord) (m : Memory) :
    Coro.Alone (AuditService.record cfg r) m fun _ m' => m' = m := by
  unfold AuditService.record
  show Coro.Alone _ m _
  simp only [Coro.bind_eq, Coro.read_bind, Coro.alone_get]
  split_ifs
  · rfl
  · intro r
    cases r <;> rfl
  · rfl

theorem retains_record {I : Memory → Prop} (r : AuditRecord) :
    Coro.Retains I (AuditService.record cfg r) := by
  intro m hm
  exact (alone_record r m).imp fun _ m' hm' => by rw [hm']; exact hm

theorem retains_consumeApproval (d : Decision) (k : RiskCheck) (order : PaperOrder) (price : ℚ) :
    Coro.Retains (Explained cfg) (RiskManager.consumeApproval cfg d k order price) := by
  have hremember : ∀ a : OrderApproval, Coro.Retains (Explained cfg)
      (Coro.modify (RiskManager.rememberApproval a) : Program Unit) :=
    fun a => Coro.Retains.modify fun m hm => hm.congr rfl
  have hgate : ∀ t mismatch, Coro.Retains (Explained cfg) (RiskManager.gate d k t mismatch) := by
    intro t mismatch
    apply Coro.Retains.read
    intro m
    split
    · exact .raise _
    · exact (hremember _).bind fun _ => .raise _
    · exact .ret _
  unfold RiskManager.consumeApproval
  apply (hgate _ _).bind
  intro approval
  apply Coro.Retains.read
  intro m
  apply (Coro.Retains.leave _).bind
  intro mirror
  split_ifs
  · exact (Coro.Retains.call _).bind fun _ => hremember _
  · exact (Coro.Retains.ret _).bind fun _ => hremember _

theorem retains_createOrder (a : CreateArgs) :
    Coro.Retains (Explained cfg) (createOrder cfg a) := by
  unfold createOrder
  split_ifs
  · exact .raise _
  · exact .raise _
  apply Coro.Retains.read
  intro m
  split_ifs
  · exact .raise _
  apply Coro.Retains.leave_bind
  intro side _
  apply Coro.Retains.leave_bind
  intro fill hfill
  apply Coro.Retains.leave_bind
  intro order horder
  -- the estimate on the order is the rounded fee of its ledger
  have hledger : cfg.executionModel.isSome →
      |fill.ledger.fees - order.feesEstimated| ≤ halfUnit 4 ∧ fill.ledger.liquidationFees = 0 := by
    intro hexec
    obtain ⟨hfees, hliq⟩ := openFill_ledger hfill hexec
    obtain ⟨-, -, rfl⟩ := validateModel_ok.1 horder
    refine ⟨?_, hliq⟩
    rw [hfees, abs_sub_comm]
    exact Decimal.abs_round_sub_le fill.fees 4
  apply (retains_record _).bind
  intro _
  apply (retains_consumeApproval _ _ _ _).bind
  intro _
  have hbook : Coro.Retains (Explained cfg)
      (Coro.modify (book cfg a fill.ledger (a.occurredAt.getD m.now) order) : Program Unit) := by
    apply Coro.Retains.modify
    rintro m' ⟨trades, h⟩
    exact ⟨trades, h.book hledger⟩
  apply hbook.bind
  intro _
  have hregister : Coro.Retains (Explained cfg) (RiskManager.registerPosition order) :=
    (Coro.Retains.leave _).bind fun p => Coro.Retains.modify fun m' hm' => hm'.congr rfl
  exact hregister.bind fun _ => .ret _

theorem alone_accrueFunding (h : Accounted cfg trades m.paper) (order : PaperOrder) (endAt : Time) :
    Coro.Alone (accrueFunding cfg order endAt) m fun _ m' =>
      Accounted cfg trades m'.paper ∧ m'.paper.openOrders = m.paper.openOrders := by
  unfold accrueFunding
  simp only [Coro.bind_eq, Coro.read_bind, Coro.alone_get]
  cases ha : PaperTradingEngine.accrued cfg order endAt m with
  | error e => exact ⟨h, rfl⟩
  | ok m' => exact h.accrued ha

theorem alone_fundClosing (h : Accounted cfg trades m.paper) (a : CloseArgs) (order : PaperOrder) :
    Coro.Alone (fundClosing cfg a order) m fun _ m' =>
      Accounted cfg trades m'.paper ∧ m'.paper.openOrders = m.paper.openOrders := by
  unfold fundClosing
  split
  · exact alone_accrueFunding h order _
  · exact ⟨h, rfl⟩

/-- the close of an open order, the order known to be open -/
theorem alone_closeOpen (h : Accounted cfg trades m.paper) {a : CloseArgs} {order : PaperOrder}
    (ho : m.paper.openOrders.lookup a.paperOrderId = some order) :
    Coro.Alone (closeOpen cfg a order) m fun _ m' => Explained cfg m' := by
  have hid : order.paperOrderId = a.paperOrderId := h.keyed ho
  unfold closeOpen
  apply (alone_fundClosing h a order).bind
  · rintro _ m₁ ⟨h₁, hopen⟩
    have ho₁ : m₁.paper.openOrders.lookup a.paperOrderId = some order := by rw [hopen, ho]
    simp only [Coro.read_bind, Coro.bind_eq, Coro.alone_get]
    cases hc : closing cfg a order m₁ with
    | error e => exact ⟨trades, h₁⟩
    | ok c =>
      obtain ⟨t, exitFees, fee, hmakes⟩ := closing_makes hc
      have hsettled : Explained cfg (settle cfg c (keepCosts cfg c m₁)) :=
        ⟨trades ++ [t], h₁.close hmakes (by rw [hid]; exact ho₁)⟩
      have hkept : (keepCosts cfg c m₁).paper.openOrders = m₁.paper.openOrders := by
        unfold keepCosts
        split_ifs <;> rfl
      apply (alone_record _ m₁).bind
      · rintro _ _ rfl
        split_ifs
        · intro r
          cases r with
          | ok _ =>
            simp only [Coro.leave_ok, Coro.ret_bind, Coro.modify_bind,
              Coro.alone_get, Coro.alone_put, hkept, ho₁, Coro.alone_ret]
            exact hsettled
          | error e => exact ⟨trades, h₁⟩
        · simp only [Coro.ret_bind, Coro.modify_bind, Coro.alone_get,
            Coro.alone_put, hkept, ho₁, Coro.alone_ret]
          exact hsettled
      · rintro e _ rfl
        exact ⟨trades, h₁⟩
  · rintro e m₁ ⟨h₁, -⟩
    exact ⟨trades, h₁⟩

theorem retains_closeOrder (a : CloseArgs) : Coro.Retains (Explained cfg) (closeOrder cfg a) := by
  rintro m ⟨trades, h⟩
  unfold closeOrder
  split_ifs
  · exact ⟨trades, h⟩
  simp only [Coro.bind_eq, Coro.read_bind, Coro.alone_get]
  cases ho : m.paper.openOrders.lookup a.paperOrderId with
  | none => exact ⟨trades, h⟩
  | some order =>
    simp only
    split_ifs
    · exact ⟨trades, h⟩
    · exact alone_closeOpen h ho

theorem retains_accrueFunding (order : PaperOrder) (endAt : Time) :
    Coro.Retains (Explained cfg) (accrueFunding cfg order endAt) := by
  rintro m ⟨trades, h⟩
  exact (alone_accrueFunding h order endAt).imp fun _ _ hm' => ⟨trades, hm'.1⟩

theorem retains_monitor (candle : Candle) (orders : List PaperOrder) :
    Coro.Retains (Explained cfg) (monitor cfg candle orders) := by
  induction orders with
  | nil => exact .ret _
  | cons order rest ih =>
    unfold monitor
    split_ifs
    · exact ih
    apply (retains_accrueFunding _ _).bind
    intro _
    apply (Coro.Retains.modify fun m hm => hm.congr rfl).bind
    intro _
    split
    · exact ih
    · apply (retains_closeOrder _).bind
      intro closed
      exact ih.bind fun more => .ret _

theorem retains_task (op : Operation) : Coro.Retains (Explained cfg) (op.task cfg) := by
  cases op with
  | createOrder a => exact (retains_createOrder a).bind fun _ => .ret _
  | onCandle candle =>
    have hcandle : Coro.Retains (Explained cfg) (onCandle cfg candle) :=
      .read fun m => retains_monitor candle _
    exact hcandle.bind fun _ => .ret _
  | closeOrder a => exact (retains_closeOrder a).bind fun _ => .ret _

/-- the trades of a history explain its paper account -/
theorem History.explained {now : Time} (h : History cfg now m) : Explained cfg m :=
  Coro.Sequential.inv h ⟨[], .fresh cfg now⟩ (fun _ _ hm hp => hm.congr hp) retains_task

/-! ## What the report adds up to -/

/-- a report that agrees with itself, with the balance and with the trades: each field is rounded
once, and of each closed order the result and the fees once -/
structure AddsUp (cfg : Config) (m : Memory) (trades : List Trade) (r : PaperPerformance) :
    Prop where
  closed : m.paper.closedOrders = trades.map Trade.order
  /-- gross less fees, funding and liquidation fees is net -/
  costs : |r.grossPnl - r.feesTotal - r.fundingTotal - r.liquidationFeesTotal - r.netPnl| ≤
    5 * halfUnit 4
  net : |r.netPnl - (trades.map Trade.netPnl).sum| ≤ (trades.length + 1) * halfUnit 4
  gross : Distinct m.paper →
    |r.grossPnl - (trades.map Trade.grossPnl).sum| ≤ (2 * trades.length + 1) * halfUnit 4
  balance : |r.balance - (r.initialBalance + r.netPnl)| ≤
    (trades.length + 1) * halfUnit 4 + halfUnit 2
  /-- the equity curve shows the balances -/
  points : m.paper.equityCurve.map EquityPoint.balance =
    cfg.initialBalance :: (curve cfg trades).tail.map (Decimal.round · 4)
  drawdown : ∃ greatest, IsGreatest {x | IsDrawdown (curve cfg trades) x} greatest ∧
    |r.maxDrawdownPercent - greatest| ≤ halfUnit 4

theorem total_add (p : PaperAccount) (f g : PaperOrder → ℚ) :
    p.total (fun o => f o + g o) = p.total f + p.total g := by
  simp only [PaperAccount.total, List.sum_map_add]

/-- the report's gross result is its costs on top of its net result -/
theorem total_gross (cfg : Config) (p : PaperAccount) :
    p.total (grossOf cfg p) = p.total (fun o => o.pnl.getD 0) + p.total (feesOf cfg p) +
      p.total (fun o => (p.costsOf o).funding) + p.total (fun o => (p.costsOf o).liquidationFees) := by
  rw [← total_add, ← total_add, ← total_add]
  rfl

theorem Accounted.total_net (h : Accounted cfg trades p) :
    |p.total (fun o => o.pnl.getD 0) - (trades.map Trade.netPnl).sum| ≤
      trades.length * halfUnit 4 := by
  rw [PaperAccount.total, h.closed, List.map_map]
  apply abs_sum_sub_sum_le
  intro t _
  rw [Function.comp_apply, t.pnl_eq]
  exact Decimal.abs_round_sub_le t.netPnl 4

theorem Accounted.total_gross (h : Accounted cfg trades p)
    (hmode : cfg.executionModel.isSome ∨ cfg.marginModel = none) (hdistinct : Distinct p) :
    |p.total (grossOf cfg p) - (trades.map Trade.grossPnl).sum| ≤
      trades.length * (2 * halfUnit 4) := by
  rw [PaperAccount.total, h.closed, List.map_map]
  exact abs_sum_sub_sum_le _ fun t ht => h.gross hmode hdistinct t ht

/-- **The performance report adds up.** Whatever orders were created, monitored and closed before it,
calls that failed part of the way included, the report's gross result less its costs is its net
result, its balance is the initial one and the net result, and its drawdown is the greatest fall of
the equity curve below its running peak. -/
theorem performance_adds_up {now : Time}
    (hmode : cfg.executionModel.isSome ∨ cfg.marginModel = none) (h : History cfg now m) :
    ∃ trades, AddsUp cfg m trades (performance cfg m) := by
  obtain ⟨trades, h⟩ := History.explained h
  refine ⟨trades, ?_⟩
  let p := m.paper
  have hnet := abs_le.1 h.total_net
  have hround : ∀ x, -halfUnit 4 ≤ Decimal.round x 4 - x ∧ Decimal.round x 4 - x ≤ halfUnit 4 :=
    fun x => abs_le.1 (Decimal.abs_round_sub_le x 4)
  have hgrossRound := hround (p.total (grossOf cfg p))
  have hnetRound := hround (p.total fun o => o.pnl.getD 0)
  constructor
  · exact h.closed
  · have hfees := hround (p.total (feesOf cfg p))
    have hfunding := hround (p.total fun o => (p.costsOf o).funding)
    have hliq := hround (p.total fun o => (p.costsOf o).liquidationFees)
    rw [PaperTradingEngine.total_gross] at hgrossRound
    simp only [performance, PaperTradingEngine.total_gross]
    rw [abs_le]
    constructor <;> linarith
  · simp only [performance]
    rw [abs_le]
    constructor <;> linarith
  · intro hdistinct
    have hgross := abs_le.1 (h.total_gross hmode hdistinct)
    simp only [performance]
    rw [abs_le]
    constructor <;> linarith
  · have hbalance := abs_le.1 (Decimal.abs_round_sub_le p.balance 2)
    rw [show p.balance = _ from h.balance] at hbalance
    simp only [performance, h.balance]
    rw [abs_le]
    unfold halfUnit at *
    constructor <;> linarith
  · exact h.points
  · exact ⟨_, h.drawdown, Decimal.abs_round_sub_le _ 4⟩

/-! ## A losing trade -/

/-- neither model, and no database to wait for -/
def plainPaper : Config :=
  { Config.sample with
    feeRate := 8 / 10000
    slippageRate := 2 / 10000
    repository := false
    targetEnvironment := .paper
    durableTestnet := fun h => by cases h }

def unanswered (q : Request) (d : Unit) : Except Error q.Reply × Unit := (.error ⟨.transport, ""⟩, d)

def boughtDecision : Decision where
  decisionId := "d"
  correlationId := "c"
  symbol := "BTCUSDT"
  timeframe := "1m"
  candidateAction := .buy
  strategy := "s"

/-- the memory once the decision was checked -/
def checkedMemory : Memory :=
  ((RiskManager.check plainPaper { decision := boughtDecision, entryPrice := 100 }).runAlone unanswered
    { Memory.fresh plainPaper 0 with sm := { state := .paper } } ()).2.1

/-- a fresh paper account with the check and its approval -/
def beforeOpen : Memory :=
  { Memory.fresh plainPaper 0 with
    checksByKey := checkedMemory.checksByKey, approvals := checkedMemory.approvals }

/-- 10000 bought at 100 -/
def afterOpen : Memory :=
  (checkedMemory.checksByKey.lookup "d").elim beforeOpen fun check =>
    ((Operation.task plainPaper (.createOrder
      { decision := boughtDecision, riskCheck := check, currentPrice := 100 })).runAlone
      unanswered beforeOpen ()).2.1

/-- and sold at 99 -/
def afterClose : Memory :=
  (afterOpen.paper.openOrders.values.head?).elim afterOpen fun order =>
    ((Operation.task plainPaper (.closeOrder
      { paperOrderId := order.paperOrderId, exitPrice := 99 })).runAlone unanswered afterOpen ()).2.1

theorem afterClose_history : History plainPaper 0 afterClose := by
  have hopen : History plainPaper 0 afterOpen := by
    unfold afterOpen
    cases checkedMemory.checksByKey.lookup "d" with
    | none => exact .other .start rfl
    | some check => exact .run _ _ _ (.other .start rfl)
  unfold afterClose
  cases afterOpen.paper.openOrders.values.head? with
  | none => exact hopen
  | some order => exact .run _ _ _ hopen

/-- the trade costs 117.9796, of which 16 are fees -/
theorem performance_adds_up_one_trade :
    ((performance plainPaper afterClose).netPnl = -1179796 / 10000 ∧
      (performance plainPaper afterClose).feesTotal = 16) ∧
      ∃ trades, AddsUp plainPaper afterClose trades (performance plainPaper afterClose) :=
  ⟨by decide +kernel, performance_adds_up (.inr rfl) afterClose_history⟩

end PaperTradingEngine

end CapitalCipher
