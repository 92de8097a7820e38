/-
Portfolio exposure and Value-at-Risk, from `risk/portfolio.py`, in exact arithmetic.

  • `remainingNotionalCapacity`: what is left under the five absolute limits, and which of them bind.
  • `portfolioVar`: historical when every position has enough returns, a proxy otherwise.
-/
import Mathlib.Data.List.Lex
import Mathlib.Data.String.Basic
import CapitalCipher.Core.Process

namespace CapitalCipher

open Lib

/-- `CandleStore.get`: the closes of the last candles of a venue, symbol and timeframe -/
abbrev CandleStore := (venue symbol timeframe : String) → (limit : ℕ) → List ℚ

namespace Portfolio

def signedNotional (p : PositionExposure) : ℚ :=
  if p.side = .buy then p.notional else -p.notional

def total (ps : List PositionExposure) : ℚ := (ps.map PositionExposure.notional).sum

def net (ps : List PositionExposure) : ℚ := (ps.map signedNotional).sum

def ofSymbol (ps : List PositionExposure) (symbol : String) : List PositionExposure :=
  ps.filter fun p => p.symbol == symbol

def ofStrategy (ps : List PositionExposure) (strategy : String) : List PositionExposure :=
  ps.filter fun p => p.strategy == strategy

def round8 (x : ℚ) : ℚ := Decimal.round x 8

def exposureSnapshot (positions : List PositionExposure) (proposed : PositionExposure)
    (balance : ℚ) : PortfolioRiskSnapshot :=
  let symbolResulting := total (ofSymbol positions proposed.symbol) + proposed.notional
  let resultingGross := total positions + proposed.notional
  { balance
    positionCount := positions.length
    grossExposure := round8 (total positions)
    netExposure := round8 (net positions)
    proposedNotional := round8 proposed.notional
    resultingGrossExposure := round8 resultingGross
    resultingNetExposure := round8 (net positions + signedNotional proposed)
    symbolExposure := round8 symbolResulting
    strategyExposure :=
      round8 (total (ofStrategy positions proposed.strategy) + proposed.notional)
    symbolConcentrationPercent :=
      round8 (if resultingGross = 0 then 0 else symbolResulting / resultingGross * 100) }

/-- the five absolute capacities, by the name of their limit -/
def capacities (positions : List PositionExposure) (proposed : PositionExposure) (balance : ℚ)
    (limits : RiskLimits) (strategyLimitPercent : ℚ) : List (String × ℚ) :=
  [("GROSS_EXPOSURE_LIMIT", balance * limits.maxGrossExposurePercent / 100 - total positions),
   ("NET_EXPOSURE_LIMIT",
     if proposed.side = .buy then balance * limits.maxNetExposurePercent / 100 - net positions
     else balance * limits.maxNetExposurePercent / 100 + net positions),
   ("SYMBOL_EXPOSURE_LIMIT", balance * limits.maxSymbolExposurePercent / 100 -
     total (ofSymbol positions proposed.symbol)),
   ("STRATEGY_EXPOSURE_LIMIT", balance * strategyLimitPercent / 100 -
     total (ofStrategy positions proposed.strategy)),
   ("SINGLE_POSITION_LIMIT", balance * limits.maxSinglePositionPercent / 100)]

def textLe (a b : String) : Bool := decide (a.toList ≤ b.toList)

/-- `sorted(...)` on texts -/
def sortTexts (l : List String) : List String := l.insertionSort fun a b => textLe a b = true

/-- the notional all limits still allow, and the names of the limits that bind -/
def remainingNotionalCapacity (positions : List PositionExposure) (proposed : PositionExposure)
    (balance : ℚ) (limits : RiskLimits) (strategyLimitPercent : ℚ) : ℚ × List String :=
  let caps := capacities positions proposed balance limits strategyLimitPercent
  let maximum := (caps.map Prod.snd).foldl min proposed.notional
  let binding := (caps.filter fun c => decide (c.2 ≤ maximum + 1 / 10 ^ 9)).map Prod.fst
  (max 0 maximum, sortTexts binding)

/-! ## Value-at-Risk -/

/-- the last `lookback` simple returns of a position's symbol -/
def returnsFor (store : CandleStore) (p : PositionExposure) (lookback : ℕ) : List ℚ :=
  let closes := store "BINANCE" p.symbol p.timeframe (lookback + 1)
  let returns := (closes.zip closes.tail).filterMap fun (previous, current) =>
    if 0 < previous then some (current / previous - 1) else none
  returns.drop (returns.length - lookback)

def normalZ99 : ℚ := 2326347874 / 10 ^ 9

/-- the losses of the last `observations` common returns -/
def historicalLosses (positions : List PositionExposure) (series : List (List ℚ))
    (observations : ℕ) : List ℚ :=
  (List.range observations).map fun i =>
    max 0 (-((positions.zip series).map fun (p, returns) =>
      signedNotional p * returns.getD (returns.length - observations + i) 0).sum)

def portfolioVar (positions : List PositionExposure) (balance : ℚ) (limits : RiskLimits)
    (store : Option CandleStore) : VaRResult :=
  if positions = [] then
    { method := "no-exposure", confidence := limits.varConfidence, observations := 0
      valueAtRisk := 0, valueAtRiskPercent := 0, expectedShortfall := 0 }
  else
    let series := match store with
      | none => []
      | some s => positions.map fun p => returnsFor s p limits.varLookback
    let observations := ((series.map List.length).min?).getD 0
    if limits.varMinObservations ≤ observations then
      let ordered := (historicalLosses positions series observations).insertionSort (· ≤ ·)
      let quantile := min (ordered.length - 1)
        (⌈limits.varConfidence * ordered.length⌉.toNat - 1)
      let value := ordered.getD quantile 0
      let tail := ordered.filter fun loss => decide (value ≤ loss)
      let shortfall := if tail = [] then value else tail.sum / tail.length
      { method := "historical-v1", confidence := limits.varConfidence, observations
        valueAtRisk := round8 value
        valueAtRiskPercent := round8 (value / balance * 100)
        expectedShortfall := round8 shortfall }
    else
      let value := total positions * (limits.fallbackVolatilityPercent / 100) * normalZ99
      { method := "proxy-v1", confidence := limits.varConfidence, observations
        valueAtRisk := round8 value
        valueAtRiskPercent := round8 (value / balance * 100)
        expectedShortfall := round8 value
        warnings := ["VAR_PROXY_USED", "INSUFFICIENT_RETURN_HISTORY"] }

/-- the 24 bisection rounds that shrink a notional under the VaR limit -/
def bisectNotional (admits : ℚ → Bool) : ℕ → ℚ → ℚ → ℚ
  | 0, low, _ => low
  | n + 1, low, high =>
    if admits ((low + high) / 2) then bisectNotional admits n ((low + high) / 2) high
    else bisectNotional admits n low ((low + high) / 2)

end Portfolio

end CapitalCipher
