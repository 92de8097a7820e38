/-
What the bounds of `schemas/backtest.py` promise about a simulated fill, and what a round trip returns.

Half spread, base slippage and volume impact are bounded one by one and then added. A buy only gets
dearer; a sell loses the sum of the three, which the bounds let reach 12000 basis points.

  • `adverse_iff`: a fill is adverse and positive exactly when it is a buy or its basis points stay
    below 10000.
  • `round_trip_le`: an order that is closed at the price it was opened at returns at most its funding.
  • `fills_adverse`: both, for every admitted model.
  • `funded_round_trip`: a round trip that its funding turns into a gain, and a sell below zero.
-/
import CapitalCipher.Lib.Result
import CapitalCipher.Paper.Engine

namespace CapitalCipher

/-! ## The schemas -/

/-- the field constraints of `BacktestExecutionAssumptions` -/
def BacktestExecutionAssumptions.check (a : BacktestExecutionAssumptions) :
    Except Error BacktestExecutionAssumptions :=
  validateModel
    [("taker_fee_bps", decide (0 ≤ a.takerFeeBps ∧ a.takerFeeBps ≤ 1000)),
     ("half_spread_bps", decide (0 ≤ a.halfSpreadBps ∧ a.halfSpreadBps ≤ 1000)),
     ("base_slippage_bps", decide (0 ≤ a.baseSlippageBps ∧ a.baseSlippageBps ≤ 1000)),
     ("volume_impact_bps", decide (0 ≤ a.volumeImpactBps ∧ a.volumeImpactBps ≤ 10000)),
     ("funding_rate_bps_per_8h",
       decide (-1000 ≤ a.fundingRateBpsPer8h ∧ a.fundingRateBpsPer8h ≤ 1000))]
    [] a

/-- the numeric constraints of `HistoricalExecutionObservation` -/
def HistoricalExecutionObservation.check (o : HistoricalExecutionObservation) :
    Except Error HistoricalExecutionObservation :=
  validateModel
    [("half_spread_bps", decide (0 ≤ o.halfSpreadBps ∧ o.halfSpreadBps ≤ 1000)),
     ("funding_rate_bps_per_8h",
       decide (-1000 ≤ o.fundingRateBpsPer8h ∧ o.fundingRateBpsPer8h ≤ 1000))]
    [] o

/-- the field constraints of `BacktestMarginAssumptions` -/
def BacktestMarginAssumptions.check (a : BacktestMarginAssumptions) :
    Except Error BacktestMarginAssumptions :=
  validateModel
    [("leverage", decide (1 ≤ a.leverage ∧ a.leverage ≤ 125)),
     ("maintenance_margin_ratio",
       decide (0 ≤ a.maintenanceMarginRatio ∧ a.maintenanceMarginRatio < 1 / 2)),
     ("liquidation_fee_bps", decide (0 ≤ a.liquidationFeeBps ∧ a.liquidationFeeBps ≤ 1000))]
    [] a

example : (BacktestExecutionAssumptions.check {}).isOk ∧ (BacktestMarginAssumptions.check {}).isOk := by
  decide +kernel

/-- a fill that is no better than its reference for the side that acts -/
structure SimulatedFill.Worse (f : SimulatedFill) (actionSide : OrderSide) (reference : ℚ) :
    Prop where
  worse : if actionSide = .buy then reference ≤ f.fillPrice else f.fillPrice ≤ reference
  spread : 0 ≤ f.spreadCost
  slippage : 0 ≤ f.slippageCost
  impact : 0 ≤ f.volumeImpactCost

/-- one at a positive price, whose fee is no rebate -/
structure SimulatedFill.Adverse (f : SimulatedFill) (actionSide : OrderSide) (reference : ℚ) :
    Prop extends f.Worse actionSide reference where
  positive : 0 < f.fillPrice
  fee : 0 ≤ f.feeCost

namespace RealisticExecutionModel

/-- what the schemas and the square root promise a model -/
structure Admitted (model : RealisticExecutionModel) : Prop where
  assumptions : model.assumptions.check = .ok model.assumptions
  observations : ∀ r ∈ model.historicalExecution, ∀ o ∈ r.observations, o.check = .ok o
  sqrt_nonneg : ∀ x, 0 ≤ x → 0 ≤ model.sqrt x

/-- the volume impact of a notional, in basis points -/
def impactBps (model : RealisticExecutionModel) (notional : ℚ) (candle : Option Candle) : ℚ :=
  model.assumptions.volumeImpactBps * model.sqrt (participation notional candle)

/-- half spread, base slippage and volume impact, added -/
def adverseBps (model : RealisticExecutionModel) (notional : ℚ) (candle : Option Candle)
    (spreadBps : ℚ) : ℚ :=
  spreadBps + model.assumptions.baseSlippageBps + model.impactBps notional candle

/-- the fill of a request at a half spread -/
def fillAt (model : RealisticExecutionModel) (actionSide : OrderSide) (reference notional : ℚ)
    (quantity : Option ℚ) (candle : Option Candle) (spreadBps : ℚ) : SimulatedFill :=
  let fillPrice := reference *
    (1 + (if actionSide = .buy then 1 else -1) * model.adverseBps notional candle spreadBps / 10000)
  { referencePrice := reference
    fillPrice
    feeCost := (quantity.elim notional (· * fillPrice)) * model.assumptions.takerFeeBps / 10000
    spreadCost := notional * spreadBps / 10000
    slippageCost := notional * model.assumptions.baseSlippageBps / 10000 +
      notional * model.impactBps notional candle / 10000
    volumeImpactCost := notional * model.impactBps notional candle / 10000
    participationRate := participation notional candle }

variable {model : RealisticExecutionModel}

/-- the bounds of the assumptions -/
theorem Admitted.bounds (h : model.Admitted) :
    (0 ≤ model.assumptions.takerFeeBps ∧ model.assumptions.takerFeeBps ≤ 1000) ∧
      (0 ≤ model.assumptions.halfSpreadBps ∧ model.assumptions.halfSpreadBps ≤ 1000) ∧
      (0 ≤ model.assumptions.baseSlippageBps ∧ model.assumptions.baseSlippageBps ≤ 1000) ∧
      0 ≤ model.assumptions.volumeImpactBps ∧ model.assumptions.volumeImpactBps ≤ 10000 := by
  obtain ⟨hf, -, -⟩ := validateModel_ok.1 h.assumptions
  simp only [List.forall_mem_cons, decide_eq_true_eq] at hf
  exact ⟨hf.1, hf.2.1, hf.2.2.1, hf.2.2.2.1⟩

/-- the observation a time resolves to is one of the dataset -/
theorem resolve_mem {r : HistoricalExecutionResolver} {t : Time}
    {o : HistoricalExecutionObservation} (h : r.resolve t = .ok o) : o ∈ r.observations := by
  unfold HistoricalExecutionResolver.resolve at h
  split at h
  · cases h
  · rename_i last hlast
    split_ifs at h
    cases h
    exact (List.takeWhile_sublist _).subset (List.mem_of_getLast? hlast)

/-- a half spread, assumed or observed, is within the schemas' bounds -/
theorem Admitted.halfSpread (h : model.Admitted) {candle : Option Candle} {bps : ℚ}
    (hbps : model.halfSpreadBps candle = .ok bps) : 0 ≤ bps ∧ bps ≤ 1000 := by
  unfold halfSpreadBps at hbps
  cases hr : model.historicalExecution with
  | none =>
    rw [hr] at hbps
    cases hbps
    exact h.bounds.2.1
  | some r =>
    rw [hr] at hbps
    cases candle with
    | none => cases hbps
    | some c =>
      cases ho : r.resolve c.closedAt with
      | error e =>
        simp [ho, Except.map] at hbps
      | ok o =>
        simp only [ho, Except.map, Except.ok.injEq] at hbps
        obtain ⟨hf, -, -⟩ := validateModel_ok.1 (h.observations r hr o (resolve_mem ho))
        simp only [List.forall_mem_cons, decide_eq_true_eq] at hf
        exact hbps ▸ hf.1

theorem participation_nonneg {notional : ℚ} (hn : 0 ≤ notional) (candle : Option Candle) :
    0 ≤ participation notional candle := by
  unfold participation
  split
  · split_ifs with hv
    · exact le_min zero_le_one (div_nonneg hn hv.2.le)
    · exact zero_le_one
  · exact zero_le_one

theorem Admitted.impact_nonneg (h : model.Admitted) {notional : ℚ} (hn : 0 ≤ notional)
    (candle : Option Candle) : 0 ≤ model.impactBps notional candle :=
  mul_nonneg h.bounds.2.2.2.1 (h.sqrt_nonneg _ (participation_nonneg hn candle))

theorem Admitted.adverse_nonneg (h : model.Admitted) {notional : ℚ} (hn : 0 ≤ notional)
    {candle : Option Candle} {bps : ℚ} (hbps : model.halfSpreadBps candle = .ok bps) :
    0 ≤ model.adverseBps notional candle bps := by
  have hspread := (h.halfSpread hbps).1
  have hslippage := h.bounds.2.2.1.1
  have himpact := h.impact_nonneg hn candle
  unfold adverseBps
  linarith

/-- what a request is filled with, when it is not rejected -/
theorem fill_ok {side : OrderSide} {reference notional : ℚ} {quantity : Option ℚ}
    {candle : Option Candle} {f : SimulatedFill} :
    model.fill side reference notional quantity candle = .ok f ↔
      0 < reference ∧ 0 ≤ notional ∧ ∃ bps, model.halfSpreadBps candle = .ok bps ∧
        f = model.fillAt side reference notional quantity candle bps := by
  unfold fill
  by_cases hr : reference ≤ 0
  · simp [if_pos hr, not_lt.2 hr]
  by_cases hn : notional < 0
  · simp [if_neg hr, if_pos hn, not_le.2 hn]
  rw [if_neg hr, if_neg hn]
  cases hs : model.halfSpreadBps candle with
  | error e => simp [bind, Except.bind]
  | ok bps =>
    simp only [bind, Except.bind]
    constructor
    · intro h
      refine ⟨not_le.1 hr, not_lt.1 hn, bps, rfl, (Except.ok.inj h).symm.trans ?_⟩
      cases quantity <;> rfl
    · rintro ⟨-, -, b, hb, rfl⟩
      cases hb
      cases quantity <;> rfl

theorem fillAt_buy {reference notional bps : ℚ} {quantity : Option ℚ} {candle : Option Candle} :
    (model.fillAt .buy reference notional quantity candle bps).fillPrice =
      reference * (1 + model.adverseBps notional candle bps / 10000) := by
  simp only [fillAt, if_true]
  ring

theorem fillAt_sell {reference notional bps : ℚ} {quantity : Option ℚ} {candle : Option Candle} :
    (model.fillAt .sell reference notional quantity candle bps).fillPrice =
      reference * (1 - model.adverseBps notional candle bps / 10000) := by
  simp only [fillAt, reduceCtorEq, if_false]
  ring

/-- a fill is never better than its reference, and its costs are non-negative but for the fee -/
theorem Admitted.fillAt_worse (h : model.Admitted) {side : OrderSide} {reference notional : ℚ}
    (hr : 0 < reference) (hn : 0 < notional) {quantity : Option ℚ} {candle : Option Candle} {bps : ℚ}
    (hbps : model.halfSpreadBps candle = .ok bps) :
    (model.fillAt side reference notional quantity candle bps).Worse side reference := by
  have hadverse : 0 ≤ reference * (model.adverseBps notional candle bps / 10000) :=
    mul_nonneg hr.le (div_nonneg (h.adverse_nonneg hn.le hbps) (by norm_num))
  have hspread := (h.halfSpread hbps).1
  have hslippage := h.bounds.2.2.1.1
  have himpact := h.impact_nonneg hn.le candle
  have hshare : ∀ {x : ℚ}, 0 ≤ x → 0 ≤ notional * x / 10000 := fun hx =>
    div_nonneg (mul_nonneg hn.le hx) (by norm_num)
  refine ⟨?_, hshare hspread, add_nonneg (hshare hslippage) (hshare himpact), hshare himpact⟩
  cases side with
  | buy =>
    rw [if_pos rfl, fillAt_buy]
    linarith
  | sell =>
    rw [if_neg (by decide), fillAt_sell]
    linarith

/-- at a positive price the fee is non-negative -/
theorem Admitted.fillAt_fee (h : model.Admitted) {side : OrderSide} {reference notional bps : ℚ}
    (hn : 0 < notional) {quantity : Option ℚ} (hq : ∀ q ∈ quantity, 0 < q) {candle : Option Candle}
    (hprice : 0 < (model.fillAt side reference notional quantity candle bps).fillPrice) :
    0 ≤ (model.fillAt side reference notional quantity candle bps).feeCost := by
  have hexecuted : 0 ≤ quantity.elim notional
      (· * (model.fillAt side reference notional quantity candle bps).fillPrice) := by
    cases quantity with
    | none => exact hn.le
    | some q => exact mul_nonneg (hq q rfl).le hprice.le
  exact div_nonneg (mul_nonneg hexecuted h.bounds.1.1) (by norm_num)

/-- **A single fill.** It is adverse and positive exactly when it is a buy or its basis points stay
below 10000. -/
theorem adverse_iff (h : model.Admitted) {side : OrderSide} {reference notional : ℚ}
    (hr : 0 < reference) (hn : 0 < notional) {quantity : Option ℚ} (hq : ∀ q ∈ quantity, 0 < q)
    {candle : Option Candle} {bps : ℚ} (hbps : model.halfSpreadBps candle = .ok bps) :
    (model.fillAt side reference notional quantity candle bps).Adverse side reference ↔
      side = .buy ∨ model.adverseBps notional candle bps < 10000 := by
  have hworse : ∀ side, (model.fillAt side reference notional quantity candle bps).Worse side
      reference := fun _ => h.fillAt_worse hr hn hbps
  cases side with
  | buy =>
    have hdearer := (hworse .buy).worse
    rw [if_pos rfl] at hdearer
    have hpos := hr.trans_le hdearer
    exact ⟨fun _ => .inl rfl, fun _ => ⟨hworse _, hpos, h.fillAt_fee hn hq hpos⟩⟩
  | sell =>
    constructor
    · intro hf
      have hpos := hf.positive
      rw [fillAt_sell] at hpos
      have hfactor := (mul_pos_iff_of_pos_left hr).1 hpos
      right
      linarith
    · rintro (hside | hlt)
      · cases hside
      have hpos : 0 < (model.fillAt .sell reference notional quantity candle bps).fillPrice := by
        rw [fillAt_sell]
        exact mul_pos hr (by linarith)
      exact ⟨hworse _, hpos, h.fillAt_fee hn hq hpos⟩

end RealisticExecutionModel

/-! ## Round trips -/

namespace PaperTradingEngine

variable {cfg : Config} {model : RealisticExecutionModel}

/-- a liquidation is charged a share of what it executes, of at most a tenth -/
theorem liquidationFee_eq (hmargin : ∀ x ∈ cfg.marginModel, x.assumptions.check = .ok x.assumptions)
    (b : CloseArgs) (order : PaperOrder) (price : ℚ) : ∃ rate : ℚ, 0 ≤ rate ∧ rate ≤ 1 / 10 ∧
      liquidationFee cfg b order price = order.positionSize / order.entryPrice * price * rate := by
  unfold liquidationFee
  cases hm : cfg.marginModel with
  | none => exact ⟨0, le_rfl, by norm_num, by simp⟩
  | some margin =>
    dsimp only
    split_ifs
    · obtain ⟨hf, -, -⟩ := validateModel_ok.1 (hmargin margin hm)
      simp only [List.forall_mem_cons, decide_eq_true_eq] at hf
      obtain ⟨hlow, hhigh⟩ := hf.2.2.1
      refine ⟨margin.assumptions.liquidationFeeBps / 10000, by linarith, by linarith, ?_⟩
      unfold IsolatedMarginModel.liquidationFee
      ring
    · exact ⟨0, le_rfl, by norm_num, by simp⟩

/-- what a position of `q` loses between the two adverse prices, and pays on the second one -/
theorem adverse_round_trip {r x y q rate : ℚ} (hr : 0 ≤ r) (hx : 0 ≤ x) (hy : 0 ≤ y) (hq : 0 ≤ q)
    (hrate : 0 ≤ rate) (hrate' : rate ≤ 1) :
    (r * (1 - y) - r * (1 + x)) * q - q * (r * (1 - y)) * rate ≤ 0 := by
  have hloss : 0 ≤ q * r * x := mul_nonneg (mul_nonneg hq hr) hx
  have hshare : 0 ≤ q * r * y * (1 - rate) :=
    mul_nonneg (mul_nonneg (mul_nonneg hq hr) hy) (by linarith)
  have hpaid : 0 ≤ q * r * rate := mul_nonneg (mul_nonneg hq hr) hrate
  calc (r * (1 - y) - r * (1 + x)) * q - q * (r * (1 - y)) * rate
      = -(q * r * x) - q * r * y * (1 - rate) - q * r * rate := by ring
    _ ≤ 0 := by linarith

/-- the price and the fee of an opening fill, in the terms of the model -/
theorem openFill_model (hmodel : cfg.executionModel = some model) {a : CreateArgs} {side : OrderSide}
    {size : ℚ} {opened : OpenFill} (h : openFill cfg a side size = .ok opened) :
    0 < a.currentPrice ∧ ∃ bps, model.halfSpreadBps a.marketCandle = .ok bps ∧
      opened.entryPrice = (model.fillAt side a.currentPrice size none a.marketCandle bps).fillPrice ∧
      opened.fees = size * model.assumptions.takerFeeBps / 10000 := by
  simp only [openFill, hmodel, RealisticExecutionModel.openFill] at h
  obtain ⟨f, hf, hopened⟩ := Lib.Result.bind_ok.1 h
  obtain ⟨hr, -, bps, hbps, rfl⟩ := RealisticExecutionModel.fill_ok.1 hf
  cases hopened
  exact ⟨hr, bps, hbps, rfl, rfl⟩

/-- the same of a close, whose fee is charged on the price it is filled at -/
theorem closeFill_model (hmodel : cfg.executionModel = some model) {b : CloseArgs}
    {order : PaperOrder} {ledger : ExecutionCostLedger} {closed : CloseFill}
    (h : closeFill cfg b order ledger = .ok closed) :
    0 ≤ order.positionSize / order.entryPrice * b.exitPrice ∧
    ∃ bps, model.halfSpreadBps b.marketCandle = .ok bps ∧
      closed.exitPrice = (model.fillAt (if order.side = .buy then .sell else .buy) b.exitPrice
        (order.positionSize / order.entryPrice * b.exitPrice)
        (some (order.positionSize / order.entryPrice)) b.marketCandle bps).fillPrice ∧
      closed.exitFees = order.positionSize / order.entryPrice * closed.exitPrice *
        model.assumptions.takerFeeBps / 10000 ∧
      closed.ledger.funding = ledger.funding := by
  simp only [closeFill, hmodel, RealisticExecutionModel.closeFill] at h
  obtain ⟨f, hf, hclosed⟩ := Lib.Result.bind_ok.1 h
  obtain ⟨-, hn, bps, hbps, rfl⟩ := RealisticExecutionModel.fill_ok.1 hf
  cases hclosed
  exact ⟨hn, bps, hbps, rfl, rfl, rfl⟩

/-- **A round trip.** An order whose entry and fees are those of its opening fill, closed at the price
it was opened at, returns at most the funding it received. -/
theorem round_trip_le (hmodel : cfg.executionModel = some model) (hm : model.Admitted)
    (hmargin : ∀ x ∈ cfg.marginModel, x.assumptions.check = .ok x.assumptions)
    {a : CreateArgs} {b : CloseArgs} {order : PaperOrder} {ledger : ExecutionCostLedger}
    {opened : OpenFill} {closed : CloseFill} (hsize : 0 < order.positionSize)
    (hopen : openFill cfg a order.side order.positionSize = .ok opened)
    (hentry : order.entryPrice = opened.entryPrice) (hfees : order.feesEstimated = opened.fees)
    (hsame : b.exitPrice = a.currentPrice) (hclose : closeFill cfg b order ledger = .ok closed) :
    netPnl order closed (liquidationFee cfg b order closed.exitPrice) ≤ -ledger.funding := by
  obtain ⟨hr, bps, hbps, hopened, hfee⟩ := openFill_model hmodel hopen
  obtain ⟨hn, bps', hbps', hclosed, hfee', hfunding⟩ := closeFill_model hmodel hclose
  obtain ⟨rate, hrate, hrate', hliquidation⟩ := liquidationFee_eq hmargin b order closed.exitPrice
  rw [netPnl, hliquidation, hfees, hfee, hfee', hfunding]
  rw [hsame] at hn hclosed
  have hq : 0 ≤ order.positionSize / order.entryPrice := nonneg_of_mul_nonneg_left hn hr
  have hx := div_nonneg (hm.adverse_nonneg hsize.le hbps) (by norm_num : (0 : ℚ) ≤ 10000)
  have hy := div_nonneg (hm.adverse_nonneg hn hbps') (by norm_num : (0 : ℚ) ≤ 10000)
  obtain ⟨⟨htaker, htaker'⟩, -⟩ := hm.bounds
  have htotal : 0 ≤ model.assumptions.takerFeeBps / 10000 + rate :=
    add_nonneg (div_nonneg htaker (by norm_num)) hrate
  have hopening : 0 ≤ order.positionSize * model.assumptions.takerFeeBps / 10000 :=
    div_nonneg (mul_nonneg hsize.le htaker) (by norm_num)
  rw [hopened] at hentry
  generalize order.positionSize / order.entryPrice = q at *
  cases hside : order.side with
  | buy =>
    -- the exit loses both adverse shares; its fee may be negative, but never by as much
    rw [hside, RealisticExecutionModel.fillAt_buy] at hentry
    rw [hside, if_pos rfl, RealisticExecutionModel.fillAt_sell] at hclosed
    have h := adverse_round_trip hr.le hx hy hq htotal (by linarith)
    rw [if_pos rfl, hentry, hclosed]
    linarith
  | sell =>
    -- the exit is dearer than the entry, and its fee is positive
    rw [hside, RealisticExecutionModel.fillAt_sell] at hentry
    rw [hside, if_neg (by decide), RealisticExecutionModel.fillAt_buy] at hclosed
    rw [if_neg (by decide), hentry, hclosed]
    have hlost := mul_nonneg (mul_nonneg hr.le (add_nonneg hx hy)) hq
    have hpaid := mul_nonneg (mul_nonneg hq (mul_nonneg hr.le (add_nonneg zero_le_one hy))) htotal
    linarith

/-- every order opened and closed at a price, at any size and side, on any candles -/
def RoundTripsLose (cfg : Config) (reference : ℚ) : Prop :=
  ∀ (a : CreateArgs) (b : CloseArgs) (order : PaperOrder) (ledger : ExecutionCostLedger)
    (opened : OpenFill) (closed : CloseFill), a.currentPrice = reference →
    b.exitPrice = reference → 0 < order.positionSize →
    openFill cfg a order.side order.positionSize = .ok opened →
    order.entryPrice = opened.entryPrice → order.feesEstimated = opened.fees →
    closeFill cfg b order ledger = .ok closed →
    netPnl order closed (liquidationFee cfg b order closed.exitPrice) ≤ -ledger.funding

/-- **Adverse fills.** A request within the bounds of the schemas is rejected or filled no better than
its reference, at a positive price if it is a buy or its half spread, slippage and impact stay below
10000 basis points together, and round trips at its price return at most their funding. -/
theorem fills_adverse (hmodel : cfg.executionModel = some model) (hm : model.Admitted)
    (hmargin : ∀ x ∈ cfg.marginModel, x.assumptions.check = .ok x.assumptions) (side : OrderSide)
    {reference notional : ℚ} (hr : 0 < reference) (hn : 0 < notional) {quantity : Option ℚ}
    (hq : ∀ q ∈ quantity, 0 < q) (candle : Option Candle) :
    (∀ f, model.fill side reference notional quantity candle = .ok f →
      f.Worse side reference ∧
        ((side = .buy ∨ ∀ bps, model.halfSpreadBps candle = .ok bps →
          model.adverseBps notional candle bps < 10000) → f.Adverse side reference)) ∧
      RoundTripsLose cfg reference := by
  constructor
  · intro f hf
    obtain ⟨-, -, bps, hbps, rfl⟩ := RealisticExecutionModel.fill_ok.1 hf
    refine ⟨hm.fillAt_worse hr hn hbps, fun hcond => ?_⟩
    exact (RealisticExecutionModel.adverse_iff hm hr hn hq hbps).2 (hcond.imp_right fun h => h bps hbps)
  · intro a b order ledger opened closed ha hb hsize hopen hentry hfees hclose
    exact round_trip_le hmodel hm hmargin hsize hopen hentry hfees (hb.trans ha.symm) hclose

/-! ## The bounds reached -/

/-- the square root, on the squares -/
def sampleSqrt (x : ℚ) : ℚ := (x.num.toNat.sqrt : ℚ) / x.den.sqrt

theorem sampleSqrt_nonneg (x : ℚ) (_ : 0 ≤ x) : 0 ≤ sampleSqrt x :=
  div_nonneg (Nat.cast_nonneg _) (Nat.cast_nonneg _)

/-- an impact of 10000 basis points at full participation, which the schema admits -/
def illiquid : RealisticExecutionModel where
  assumptions := { volumeImpactBps := 10000 }
  sqrt := sampleSqrt

/-- no cost but a funding of 1000 basis points that longs receive -/
def funded : RealisticExecutionModel where
  assumptions :=
    { takerFeeBps := 0, halfSpreadBps := 0, baseSlippageBps := 0, volumeImpactBps := 0
      fundingRateBpsPer8h := -1000 }
  sqrt := sampleSqrt

theorem illiquid_admitted : illiquid.Admitted where
  assumptions := by decide +kernel
  observations := by simp [illiquid]
  sqrt_nonneg := sampleSqrt_nonneg

theorem funded_admitted : funded.Admitted where
  assumptions := by decide +kernel
  observations := by simp [funded]
  sqrt_nonneg := sampleSqrt_nonneg

def trading (model : RealisticExecutionModel) : Config :=
  { Config.sample with executionModel := some model }

theorem trading_executionModel : (trading model).executionModel = some model := rfl

theorem trading_marginModel : (trading model).marginModel = none := rfl

/-- a sell of 1000 at 100 -/
theorem fills_adverse_sell :
    (∀ f, illiquid.fill .sell 100 1000 none none = .ok f → f.Worse .sell 100 ∧
      ((OrderSide.sell = .buy ∨ ∀ bps, illiquid.halfSpreadBps none = .ok bps →
        illiquid.adverseBps 1000 none bps < 10000) → f.Adverse .sell 100)) ∧
      RoundTripsLose (trading illiquid) 100 :=
  fills_adverse trading_executionModel illiquid_admitted (by simp [trading_marginModel]) .sell
    (by norm_num) (by norm_num) (by simp) none

/-- 1000 bought at 100 -/
def fundedOrder : PaperOrder where
  paperOrderId := "p"
  decisionId := "d"
  riskCheckId := "r"
  correlationId := "c"
  exchange := .binance
  symbol := "BTCUSDT"
  side := .buy
  entryPrice := 100
  positionSize := 1000
  status := .filled
  createdAt := 0

/-- what is left of an order closed at 100 eight hours after it was opened -/
def closedFunded : Except Error ℚ := do
  let cost ← funded.fundingCost fundedOrder 0 (8 * 3600 * 1000000)
  let fill ← closeFill (trading funded) { paperOrderId := "p", exitPrice := 100 } fundedOrder
    { funding := cost }
  .ok (netPnl fundedOrder fill 0)

/-- the position opened and closed at 100 gains the 100 it receives; a sell of 1000 at 100 into an
unknown volume is filled below 0 -/
theorem funded_round_trip :
    (funded.Admitted ∧
      (funded.openFill .buy 100 1000 none).toOption.map (fun f => (f.fillPrice, f.feeCost)) =
        some (100, 0) ∧
      closedFunded.toOption = some 100) ∧
    illiquid.Admitted ∧
      (illiquid.fill .sell 100 1000 none none).toOption.map SimulatedFill.fillPrice =
        some (-3 / 100) := by
  refine ⟨⟨funded_admitted, ?_, ?_⟩, illiquid_admitted, ?_⟩ <;> decide +kernel

end PaperTradingEngine

end CapitalCipher
