/-
Where a candle ends a paper position: the liquidation level of `IsolatedMarginModel` and the exits of
`on_candle`.

  • `liquidation_within_margin_iff`: the level lies on the losing side of the entry exactly when the
    maintenance margin is below the initial one; a candle that reaches it is filled inside its range.
  • `monitor_cons`: what `on_candle` does with one open order.
  • `exits_tradable_iff`: when the first exit of an order over a sequence of candles is tradable and
    causal.
  • `stop_gapped`: a candle that opens beyond the stop is filled above its high.
-/
import CapitalCipher.Paper.Adverse

namespace CapitalCipher

open Lib

/-- no better for the position than a level -/
def NoBetter (side : OrderSide) (level price : ℚ) : Prop :=
  if side = .buy then price ≤ level else level ≤ price

instance (side : OrderSide) (level price : ℚ) : Decidable (NoBetter side level price) :=
  inferInstanceAs (Decidable (if side = .buy then price ≤ level else level ≤ price))

/-- the candle moves against a position as far as a level -/
def Candle.Reaches (c : Candle) (side : OrderSide) (level : ℚ) : Prop :=
  if side = .buy then c.low ≤ level else level ≤ c.high

instance (c : Candle) (side : OrderSide) (level : ℚ) : Decidable (c.Reaches side level) :=
  inferInstanceAs (Decidable (if side = .buy then c.low ≤ level else level ≤ c.high))

/-- the candle trades at a price -/
def Candle.Trades (c : Candle) (price : ℚ) : Prop := c.low ≤ price ∧ price ≤ c.high

instance (c : Candle) (price : ℚ) : Decidable (c.Trades price) :=
  inferInstanceAs (Decidable (c.low ≤ price ∧ price ≤ c.high))

/-- a valid candle opens inside its range -/
theorem Candle.trades_open {c : Candle} (h : c.check = .ok c) : c.Trades c.openPrice := by
  obtain ⟨-, hrules, -⟩ := validateModel_ok.1 h
  simp only [List.forall_mem_cons, decide_eq_true_eq] at hrules
  exact ⟨hrules.2.1.1, hrules.1.1⟩

/-! ## The liquidation level -/

namespace IsolatedMarginModel

variable {model : IsolatedMarginModel}

/-- on the losing side of the entry, and no further than the margin -/
def WithinMargin (model : IsolatedMarginModel) (side : OrderSide) (entry price : ℚ) : Prop :=
  if side = .buy then entry * (1 - 1 / model.assumptions.leverage) ≤ price ∧ price < entry
  else entry < price ∧ price ≤ entry * (1 + 1 / model.assumptions.leverage)

theorem withinMargin_iff (h : model.assumptions.check = .ok model.assumptions) {entry : ℚ}
    (he : 0 < entry) (side : OrderSide) :
    model.WithinMargin side entry (model.liquidationPrice side entry) ↔
      model.assumptions.maintenanceMarginRatio * model.assumptions.leverage < 1 := by
  obtain ⟨hfields, -, -⟩ := validateModel_ok.1 h
  simp only [List.forall_mem_cons, decide_eq_true_eq] at hfields
  obtain ⟨⟨hleverage, -⟩, ⟨hratio, -⟩, -⟩ := hfields
  have hpos : 0 < model.assumptions.leverage := by linarith
  -- the condition, as a share of the entry
  have hshare : model.assumptions.maintenanceMarginRatio * model.assumptions.leverage < 1 ↔
      model.assumptions.maintenanceMarginRatio < 1 / model.assumptions.leverage :=
    (lt_div_iff₀ hpos).symm
  rw [hshare]
  unfold WithinMargin liquidationPrice
  generalize 1 / model.assumptions.leverage = inverse
  generalize model.assumptions.maintenanceMarginRatio = ratio at hratio ⊢
  have hentry : 0 ≤ entry * ratio := mul_nonneg he.le hratio
  cases side with
  | buy =>
    simp only [if_true]
    have hlow : entry * (1 - inverse) ≤ max 0 (entry * (1 - inverse + ratio)) := by
      apply le_max_of_le_right
      linarith
    have hlevel : max 0 (entry * (1 - inverse + ratio)) < entry ↔ ratio < inverse := by
      rw [max_lt_iff]
      constructor
      · rintro ⟨-, hlt⟩
        have hfactor := (mul_lt_iff_lt_one_right he).1 hlt
        linarith
      · intro hlt
        refine ⟨he, ?_⟩
        rw [mul_lt_iff_lt_one_right he]
        linarith
    rw [hlevel]
    exact and_iff_right hlow
  | sell =>
    simp only [reduceCtorEq, if_false]
    have hhigh : entry * (1 + inverse - ratio) ≤ entry * (1 + inverse) := by linarith
    have hlevel : entry < entry * (1 + inverse - ratio) ↔ ratio < inverse := by
      rw [lt_mul_iff_one_lt_right he]
      constructor <;> intro hlt <;> linarith
    rw [hlevel]
    exact and_iff_left hhigh

/-- a candle that reaches the level liquidates, inside its range and no better than the level -/
structure LiquidatesAt (order : PaperOrder) (level : ℚ) (candle : Candle) : Prop where
  reached : (liquidationReference order candle).isSome ↔ candle.Reaches order.side level
  inside : ∀ price, liquidationReference order candle = some price →
    candle.Trades price ∧ NoBetter order.side level price

theorem liquidatesAt {order : PaperOrder} {level : ℚ} {candle : Candle}
    (hc : candle.check = .ok candle) (hl : order.liquidationPrice = some level) (hpos : 0 < level) :
    LiquidatesAt order level candle := by
  obtain ⟨hlow, hhigh⟩ := Candle.trades_open hc
  have href : liquidationReference order candle =
      if order.side = .buy ∧ candle.low ≤ level then some (min level candle.openPrice)
      else if order.side = .sell ∧ level ≤ candle.high then some (max level candle.openPrice)
      else none := by
    simp only [liquidationReference, hl]
    rw [if_neg (not_le.2 hpos)]
  cases hside : order.side with
  | buy =>
    rw [hside] at href
    simp only [true_and, reduceCtorEq, false_and, if_false] at href
    constructor
    · rw [href, hside, Candle.Reaches, if_pos rfl]
      split_ifs with hreach <;> simp [hreach]
    · intro price hprice
      rw [href] at hprice
      split_ifs at hprice with hreach
      cases hprice
      rw [hside]
      exact ⟨⟨le_min hreach hlow, (min_le_right _ _).trans hhigh⟩, min_le_left _ _⟩
  | sell =>
    rw [hside] at href
    simp only [true_and, reduceCtorEq, false_and, if_false] at href
    constructor
    · rw [href, hside, Candle.Reaches, if_neg (show ¬ OrderSide.sell = OrderSide.buy by decide)]
      split_ifs with hreach <;> simp [hreach]
    · intro price hprice
      rw [href] at hprice
      split_ifs at hprice with hreach
      cases hprice
      rw [hside]
      exact ⟨⟨hlow.trans (le_max_right _ _), max_le hreach hhigh⟩, le_max_left _ _⟩

/-- **Isolated margin.** For admitted assumptions the liquidation level is within the margin, and is
filled where a candle reaches it, exactly when the maintenance ratio times the leverage is below 1. -/
theorem liquidation_within_margin_iff (h : model.assumptions.check = .ok model.assumptions)
    {entry : ℚ} (he : 0 < entry) (side : OrderSide) :
    (model.WithinMargin side entry (model.liquidationPrice side entry) ∧
      ∀ order level candle, candle.check = .ok candle → order.liquidationPrice = some level →
        0 < level → LiquidatesAt order level candle) ↔
      model.assumptions.maintenanceMarginRatio * model.assumptions.leverage < 1 := by
  rw [withinMargin_iff h he side]
  exact and_iff_left fun order level candle hc hl hpos => liquidatesAt hc hl hpos

/-- a leverage of 2 and half a percent, the ratios of the documents -/
theorem liquidation_within_margin_double :
    ((IsolatedMarginModel.mk { leverage := 2 }).WithinMargin .buy 100
        ((IsolatedMarginModel.mk { leverage := 2 }).liquidationPrice .buy 100) ∧
      ∀ order level candle, candle.check = .ok candle → order.liquidationPrice = some level →
        0 < level → LiquidatesAt order level candle) ↔
      (5 / 1000 : ℚ) * 2 < 1 :=
  liquidation_within_margin_iff
    (show BacktestMarginAssumptions.check { leverage := 2 } = .ok { leverage := 2 } by decide +kernel)
    (by norm_num) .buy

/-- a leverage of 10 with a maintenance ratio of a fifth, which the schema admits: the position is
below its level at its entry -/
theorem liquidated_at_entry :
    BacktestMarginAssumptions.check { leverage := 10, maintenanceMarginRatio := 1 / 5 } =
      .ok { leverage := 10, maintenanceMarginRatio := 1 / 5 } ∧
    (IsolatedMarginModel.mk { leverage := 10, maintenanceMarginRatio := 1 / 5 }).liquidationPrice
      .buy 100 = 110 ∧
    ¬ (IsolatedMarginModel.mk { leverage := 10, maintenanceMarginRatio := 1 / 5 }).WithinMargin
      .buy 100 110 := by
  refine ⟨by decide +kernel, by decide +kernel, ?_⟩
  rw [WithinMargin, if_pos rfl]
  norm_num

end IsolatedMarginModel

/-! ## Exits -/

namespace PaperTradingEngine

variable {cfg : Config}

/-- what ends an order on a candle of its symbol -/
def exitFor (cfg : Config) (order : PaperOrder) (candle : Candle) : Option (ℚ × String) :=
  if order.symbol ≠ candle.symbol then none else exitOf cfg order candle

/-- the close that `on_candle` asks for -/
def closeArgs (order : PaperOrder) (candle : Candle) (price : ℚ) (reason : String) : CloseArgs :=
  { paperOrderId := order.paperOrderId, exitPrice := price, exitReason := some reason
    marketCandle := some candle, occurredAt := some candle.closedAt }

/-- what is done with one open order of the candle's symbol -/
def monitorOne (cfg : Config) (candle : Candle) (order : PaperOrder)
    (rest : Program (List PaperOrder)) : Program (List PaperOrder) := do
  accrueFunding cfg order candle.closedAt
  Coro.modify fun m => { m with tape := m.tape ++ [.tested order.paperOrderId candle] }
  (exitFor cfg order candle).elim rest fun e => do
    let closed ← closeOrder cfg (closeArgs order candle e.1 e.2)
    let more ← rest
    Coro.ret (closed :: more)

/-- **Monitoring.** An order of the candle's symbol is funded and tested, and closed at the reference
price of its exit. -/
theorem monitor_cons (candle : Candle) (order : PaperOrder) (rest : List PaperOrder) :
    monitor cfg candle (order :: rest) =
      if order.symbol ≠ candle.symbol then monitor cfg candle rest
      else monitorOne cfg candle order (monitor cfg candle rest) := by
  rw [monitor]
  split_ifs with hsymbol
  · rfl
  · unfold monitorOne
    rw [exitFor, if_neg hsymbol]
    cases exitOf cfg order candle with
    | none => rfl
    | some e => rfl

/-- the seconds of a timeframe such as 15m -/
def timeframeLength (timeframe : String) : ℕ :=
  let amount := timeframe.toList.dropLast.foldl (fun n c => 10 * n + (c.toNat - '0'.toNat)) 0
  match timeframe.toList.getLast? with
  | some 'm' => amount * 60
  | some 'h' => amount * 3600
  | some 'd' => amount * 86400
  | some 'w' => amount * 604800
  | _ => 0

/-- where the interval of a candle starts -/
def intervalStart (c : Candle) : ℤ := c.closedAt - timeframeLength c.timeframe * 1000000

/-- the candle belongs to the order's market, and to the time after it was opened -/
structure Causal (order : PaperOrder) (candle : Candle) : Prop where
  exchange : candle.exchange = order.exchange
  opened : ∀ t ∈ order.openedAt, (t : ℤ) ≤ intervalStart candle

instance (order : PaperOrder) (candle : Candle) : Decidable (Causal order candle) :=
  decidable_of_iff (candle.exchange = order.exchange ∧
    ∀ t ∈ order.openedAt, (t : ℤ) ≤ intervalStart candle)
    ⟨fun h => ⟨h.1, h.2⟩, fun h => ⟨h.exchange, h.opened⟩⟩

/-- an exit that could have been traded, by what was known of the candle -/
structure Tradable (order : PaperOrder) (candle : Candle) (price : ℚ) (reason : String) : Prop
    extends Causal order candle where
  symbol : candle.symbol = order.symbol
  inside : candle.Trades price
  /-- of a stop and a target inside the candle, the worse one -/
  worse : reason ≠ "LIQUIDATION" → ∀ stop target, order.stopLoss = some stop →
    order.takeProfit = some target → candle.Trades stop → candle.Trades target →
    NoBetter order.side stop price ∧ NoBetter order.side target price

/-- the candle moves in favour of a position as far as a level -/
def Attains (side : OrderSide) (c : Candle) (level : ℚ) : Prop :=
  if side = .buy then level ≤ c.high else c.low ≤ level

instance (side : OrderSide) (c : Candle) (level : ℚ) : Decidable (Attains side c level) :=
  inferInstanceAs (Decidable (if side = .buy then level ≤ c.high else c.low ≤ level))

/-- the price a margin model liquidates at -/
def liquidates (cfg : Config) (order : PaperOrder) (candle : Candle) : Option ℚ :=
  cfg.marginModel.bind fun _ => IsolatedMarginModel.liquidationReference order candle

/-- the stop that a candle touches -/
def touchedStop (order : PaperOrder) (candle : Candle) : Option ℚ :=
  order.stopLoss.filter fun stop => decide (candle.Reaches order.side stop)

/-- the target that a candle touches -/
def touchedTarget (order : PaperOrder) (candle : Candle) : Option ℚ :=
  order.takeProfit.filter fun target => decide (Attains order.side candle target)

/-- liquidation before the stop, the stop before the target -/
def chosenExit : Option ℚ → Option ℚ → Option ℚ → Option (ℚ × String)
  | some price, _, _ => some (price, "LIQUIDATION")
  | none, some stop, _ => some (stop, "STOP_LOSS")
  | none, none, some target => some (target, "TAKE_PROFIT")
  | none, none, none => none

theorem exitOf_eq (order : PaperOrder) (candle : Candle) :
    exitOf cfg order candle = chosenExit (liquidates cfg order candle) (touchedStop order candle)
      (touchedTarget order candle) := by
  unfold exitOf liquidates touchedStop touchedTarget Candle.Reaches Attains
  cases cfg.marginModel.bind fun _ => IsolatedMarginModel.liquidationReference order candle with
  | some price => rfl
  | none =>
    cases order.side with
    | buy =>
      simp only [if_true]
      cases Option.filter (fun x => decide (candle.low ≤ x)) order.stopLoss with
      | some stop => rfl
      | none =>
        cases Option.filter (fun x => decide (x ≤ candle.high)) order.takeProfit with
        | some target => rfl
        | none => rfl
    | sell =>
      simp only [reduceCtorEq, if_false]
      cases Option.filter (fun x => decide (x ≤ candle.high)) order.stopLoss with
      | some stop => rfl
      | none =>
        cases Option.filter (fun x => decide (candle.low ≤ x)) order.takeProfit with
        | some target => rfl
        | none => rfl

/-- a candle of the order's symbol that reaches its liquidation level, its stop or its target -/
def Reached (cfg : Config) (order : PaperOrder) (candle : Candle) : Prop :=
  order.symbol = candle.symbol ∧ ((liquidates cfg order candle).isSome ∨
    (touchedStop order candle).isSome ∨ (touchedTarget order candle).isSome)

instance (order : PaperOrder) (candle : Candle) : Decidable (Reached cfg order candle) :=
  inferInstanceAs (Decidable (_ ∧ _))

/-- the candle is the order's own, and the level it ends the order at trades in it -/
structure Proper (cfg : Config) (order : PaperOrder) (candle : Candle) : Prop
    extends Causal order candle where
  /-- the stop is not gapped, and no better than a target in the same candle -/
  stop : liquidates cfg order candle = none → ∀ stop, touchedStop order candle = some stop →
    candle.Trades stop ∧ ∀ target, order.takeProfit = some target → candle.Trades target →
      NoBetter order.side target stop
  /-- a target reached alone is not gapped -/
  target : liquidates cfg order candle = none → touchedStop order candle = none →
    ∀ target, touchedTarget order candle = some target → candle.Trades target

theorem exitFor_isSome {order : PaperOrder} {candle : Candle} :
    (exitFor cfg order candle).isSome ↔ Reached cfg order candle := by
  unfold exitFor Reached
  by_cases hsymbol : order.symbol = candle.symbol
  · rw [if_neg (not_not.2 hsymbol), exitOf_eq]
    cases liquidates cfg order candle <;> cases touchedStop order candle <;>
      cases touchedTarget order candle <;> simp [chosenExit, hsymbol]
  · rw [if_pos hsymbol]
    simp [hsymbol]

/-- a liquidation trades in its candle -/
theorem liquidates_trades {order : PaperOrder} {candle : Candle} (hc : candle.check = .ok candle)
    {price : ℚ} (h : liquidates cfg order candle = some price) : candle.Trades price := by
  obtain ⟨-, -, href⟩ := Option.bind_eq_some_iff.1 h
  cases hl : order.liquidationPrice with
  | none =>
    rw [IsolatedMarginModel.liquidationReference, hl] at href
    cases href
  | some level =>
    by_cases hpos : level ≤ 0
    · simp only [IsolatedMarginModel.liquidationReference, hl, if_pos hpos] at href
      cases href
    · exact ((IsolatedMarginModel.liquidatesAt hc hl (not_le.1 hpos)).inside price href).1

theorem noBetter_refl (side : OrderSide) (level : ℚ) : NoBetter side level level := by
  unfold NoBetter
  split_ifs
  · exact le_rfl
  · exact le_rfl

/-- a stop inside the candle is touched -/
theorem reaches_of_trades {side : OrderSide} {candle : Candle} {stop : ℚ} (h : candle.Trades stop) :
    candle.Reaches side stop := by
  unfold Candle.Reaches
  split_ifs
  · exact h.1
  · exact h.2

/-- what a candle ends an order with is tradable exactly when the candle is proper -/
theorem tradable_iff {order : PaperOrder} {candle : Candle} (hc : candle.check = .ok candle)
    {price : ℚ} {reason : String} (h : exitFor cfg order candle = some (price, reason)) :
    Tradable order candle price reason ↔ Proper cfg order candle := by
  obtain ⟨hsymbol, -⟩ := exitFor_isSome.1 (Option.isSome_of_eq_some h)
  rw [exitFor, if_neg (not_not.2 hsymbol), exitOf_eq] at h
  cases hl : liquidates cfg order candle with
  | some liquidation =>
    rw [hl] at h
    cases h
    constructor
    · intro ht
      have hsome : ¬ liquidates cfg order candle = none := by
        rw [hl]
        exact Option.some_ne_none _
      exact ⟨ht.toCausal, fun hnone => absurd hnone hsome, fun hnone => absurd hnone hsome⟩
    · intro hp
      exact ⟨hp.toCausal, hsymbol.symm, liquidates_trades hc hl, fun hne => absurd rfl hne⟩
  | none =>
    rw [hl] at h
    cases hs : touchedStop order candle with
    | some stop =>
      rw [hs] at h
      cases h
      obtain ⟨hstop, -⟩ := Option.filter_eq_some_iff.1 hs
      constructor
      · intro ht
        refine ⟨ht.toCausal, fun _ s hs' => ?_, fun _ hnone => absurd (hs.symm.trans hnone)
          (Option.some_ne_none _)⟩
        cases hs.symm.trans hs'
        refine ⟨ht.inside, fun target htarget htrades => ?_⟩
        exact (ht.worse (by decide) _ target hstop htarget ht.inside htrades).2
      · intro hp
        obtain ⟨hinside, hworse⟩ := hp.stop hl price hs
        refine ⟨hp.toCausal, hsymbol.symm, hinside, fun _ s target hs' htarget _ htrades => ?_⟩
        cases hstop.symm.trans hs'
        exact ⟨noBetter_refl _ _, hworse target htarget htrades⟩
    | none =>
      rw [hs] at h
      -- a stop inside the candle would have been touched
      have hnostop : ∀ stop, order.stopLoss = some stop → ¬ candle.Trades stop := by
        intro stop hstop htrades
        have htouched : touchedStop order candle = some stop := by
          rw [touchedStop, hstop, Option.filter_some, if_pos (by simpa using reaches_of_trades htrades)]
        cases hs.symm.trans htouched
      cases ht : touchedTarget order candle with
      | none =>
        rw [ht] at h
        cases h
      | some target =>
        rw [ht] at h
        cases h
        constructor
        · intro htr
          refine ⟨htr.toCausal, fun _ s hs' => absurd (hs.symm.trans hs').symm
            (Option.some_ne_none _), fun _ _ t ht' => ?_⟩
          cases ht.symm.trans ht'
          exact htr.inside
        · intro hp
          refine ⟨hp.toCausal, hsymbol.symm, hp.target hl hs price ht, ?_⟩
          intro _ stop _ hstop _ htrades
          exact absurd htrades (hnostop stop hstop)

/-! ## A sequence of candles -/

/-- the candle that ends an order, with the reference price and the reason -/
def firstExit (cfg : Config) (order : PaperOrder) (candles : List Candle) :
    Option (Candle × ℚ × String) :=
  candles.findSome? fun c => (exitFor cfg order c).map fun e => (c, e)

/-- **Candle exits.** Over any sequence of candles, the exit of an order is tradable and causal exactly
when the first candle that reaches one of its levels is proper. -/
theorem exits_tradable_iff (order : PaperOrder) {candles : List Candle}
    (hvalid : ∀ c ∈ candles, c.check = .ok c) :
    (∀ c price reason, firstExit cfg order candles = some (c, price, reason) →
      Tradable order c price reason) ↔
      ∀ c, candles.find? (fun c => decide (Reached cfg order c)) = some c → Proper cfg order c := by
  induction candles with
  | nil => simp [firstExit]
  | cons c candles ih =>
    have hc := hvalid c List.mem_cons_self
    specialize ih fun x hx => hvalid x (List.mem_cons_of_mem c hx)
    rw [firstExit, List.findSome?_cons, List.find?_cons]
    cases he : exitFor cfg order c with
    | none =>
      have hreached : ¬ Reached cfg order c := by
        rw [← exitFor_isSome, he]
        simp
      simpa [hreached, firstExit] using ih
    | some e =>
      have hreached : Reached cfg order c := exitFor_isSome.1 (Option.isSome_of_eq_some he)
      have hiff := tradable_iff hc (show exitFor cfg order c = some (e.1, e.2) from he)
      simp only [Option.map_some, hreached, decide_true]
      constructor
      · intro h x hx
        cases hx
        exact hiff.1 (h c e.1 e.2 rfl)
      · intro h x price reason hx
        cases hx
        exact hiff.2 (h c rfl)

/-- 1000 bought at 100 at minute 1, with a stop at 95 and a target at 110 -/
def watched : PaperOrder :=
  { fundedOrder with stopLoss := some 95, takeProfit := some 110, openedAt := some 60000000 }

/-- a candle of the second minute -/
def secondMinute (exchange : Exchange) (openPrice high low : ℚ) : Candle where
  exchange := exchange
  symbol := "BTCUSDT"
  timeframe := "1m"
  openPrice := openPrice
  high := high
  low := low
  close := openPrice
  volume := 1
  closedAt := 120000000
  receivedAt := 120000000

/-- the stop is touched from above -/
theorem exits_tradable_stop :
    (∀ c price reason, firstExit .sample watched [secondMinute .binance 99 100 94] =
      some (c, price, reason) → Tradable watched c price reason) ↔
      ∀ c, [secondMinute .binance 99 100 94].find? (fun c => decide (Reached .sample watched c)) =
        some c → Proper .sample watched c :=
  exits_tradable_iff watched (by decide +kernel)

/-- the candle opens at 90, below the stop: it is closed at 95, above the candle's high of 92; and a
candle of another exchange closes it too -/
theorem stop_gapped :
    (secondMinute .binance 90 92 88).check = .ok (secondMinute .binance 90 92 88) ∧
    firstExit .sample watched [secondMinute .binance 90 92 88] =
      some (secondMinute .binance 90 92 88, 95, "STOP_LOSS") ∧
    ¬ (secondMinute .binance 90 92 88).Trades 95 ∧
    firstExit .sample watched [secondMinute .bybit 99 100 94] =
      some (secondMinute .bybit 99 100 94, 95, "STOP_LOSS") ∧
    (secondMinute .bybit 99 100 94).exchange ≠ watched.exchange := by
  decide +kernel

end PaperTradingEngine

end CapitalCipher
