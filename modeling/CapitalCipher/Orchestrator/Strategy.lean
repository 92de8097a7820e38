/-
The strategy engine of `strategy/engine.py` with the schemas of `schemas/strategy.py`.

Strategies are kept in the order of their first registration, under their versioned ids. The agents a
strategy lists and the regimes it allows are read by no code and left out.

  • `evaluate_allowed`: what an allowed evaluation says of the strategy that is selected.
  • `selection_stable`: a new version, registered and switched at will, takes nothing over from the
    strategy that is selected.
-/
import CapitalCipher.Lib.OrderedDict
import CapitalCipher.Lib.Run
import CapitalCipher.Schemas.Common

namespace CapitalCipher

open Lib

inductive MarketRegime where
  | bullTrend | bearTrend | range | highVolatility | lowVolatility | undefined
  deriving DecidableEq, Repr

def MarketRegime.value : MarketRegime → String
  | .bullTrend => "BULL_TREND"
  | .bearTrend => "BEAR_TREND"
  | .range => "RANGE"
  | .highVolatility => "HIGH_VOLATILITY"
  | .lowVolatility => "LOW_VOLATILITY"
  | .undefined => "UNDEFINED"

def MarketRegime.all : List MarketRegime :=
  [.bullTrend, .bearTrend, .range, .highVolatility, .lowVolatility, .undefined]

/-- `MarketRegime(value)`, UNDEFINED for any other text -/
def MarketRegime.ofValue (value : String) : MarketRegime :=
  (all.find? fun r => r.value = value).getD .undefined

inductive RiskProfileName where
  | conservative | moderate | aggressive
  deriving DecidableEq, Repr

structure RiskProfile where
  riskPerTradePercent : ℚ
  maxOpenPositions : ℤ
  riskRewardMin : ℚ
  maxStrategyExposurePercent : ℚ
  maxPortfolioVarPercent : ℚ
  deriving DecidableEq

/-- `RISK_PROFILES` -/
def riskProfiles : RiskProfileName → RiskProfile
  | .conservative => ⟨1 / 2, 3, 18 / 10, 50, 25 / 10⟩
  | .moderate => ⟨1, 8, 22 / 10, 100, 5⟩
  | .aggressive => ⟨15 / 10, 15, 28 / 10, 150, 75 / 10⟩

/-- a versioned strategy definition -/
structure StrategyConfig where
  strategyId : String
  version : String := "v1"
  enabled : Bool := true
  symbols : List String
  timeframe : String
  minimumConfidence : ℤ := 75
  confidenceBounds : 0 ≤ minimumConfidence ∧ minimumConfidence ≤ 100 := by decide
  riskProfile : RiskProfileName := .moderate
  reducedRegimes : List MarketRegime := [.range]
  blockedRegimes : List MarketRegime := [.highVolatility]
  rangeConfidencePenalty : ℤ := 10
  deriving DecidableEq

namespace StrategyConfig

def versionedId (s : StrategyConfig) : String := s.strategyId ++ "_" ++ s.version

/-- the strategy is on and made for this market -/
def serves (symbol timeframe : String) (s : StrategyConfig) : Bool :=
  s.enabled && s.timeframe == timeframe && s.symbols.contains symbol.toUpper

end StrategyConfig

/-- what the strategy rules say of a market -/
structure StrategyEvaluation where
  strategyId : String
  versionedId : String
  allowed : Bool
  reduced : Bool := false
  minimumConfidence : ℤ
  riskProfile : RiskProfileName
  reason : String

/-- `_strategies` -/
abbrev Strategies := OrderedDict StrategyConfig.versionedId

namespace StrategyEngine

def defaultSymbols : List String := ["BTCUSDT", "ETHUSDT", "SOLUSDT"]

def defaultStrategies : List StrategyConfig :=
  [{ strategyId := "SCALP_15M", symbols := defaultSymbols, timeframe := "15m" },
   { strategyId := "DAY_1H", symbols := defaultSymbols, timeframe := "1h" },
   { strategyId := "SWING_4H", symbols := defaultSymbols, timeframe := "4h", minimumConfidence := 70,
     riskProfile := .conservative }]

def register (d : Strategies) (s : StrategyConfig) : Strategies := d.put s

/-- the engine as it is constructed -/
def initial (strategies : List StrategyConfig := defaultStrategies) : Strategies :=
  strategies.foldl register ∅

def setEnabled (d : Strategies) (versionedId : String) (enabled : Bool) :
    Except Error (Strategies × StrategyConfig) :=
  match d.get? versionedId with
  | none => .error ⟨.transport, "KeyError: " ++ versionedId⟩
  | some strategy =>
    let updated := { strategy with enabled := enabled }
    .ok (d.put updated, updated)

/-- the first registered strategy that serves the market -/
def select (d : Strategies) (symbol timeframe : String) : Option StrategyConfig :=
  d.rows.find? (StrategyConfig.serves symbol timeframe)

def evaluate (d : Strategies) (symbol timeframe : String) (regime : MarketRegime) :
    StrategyEvaluation :=
  match select d symbol timeframe with
  | none =>
    { strategyId := "NONE", versionedId := "NONE", allowed := false, minimumConfidence := 100
      riskProfile := .conservative
      reason := "No enabled strategy for " ++ symbol ++ " " ++ timeframe }
  | some s =>
    if regime ∈ s.blockedRegimes then
      { strategyId := s.strategyId, versionedId := s.versionedId, allowed := false
        minimumConfidence := s.minimumConfidence, riskProfile := s.riskProfile
        reason := "Regime " ++ regime.value ++ " blocked for " ++ s.versionedId }
    else if regime ∈ s.reducedRegimes then
      { strategyId := s.strategyId, versionedId := s.versionedId, allowed := true, reduced := true
        minimumConfidence := min 100 (s.minimumConfidence + s.rangeConfidencePenalty)
        riskProfile := s.riskProfile
        reason := "Regime " ++ regime.value ++ ": reduced aggressiveness" }
    else
      { strategyId := s.strategyId, versionedId := s.versionedId, allowed := true
        minimumConfidence := s.minimumConfidence, riskProfile := s.riskProfile
        reason := "Regime " ++ regime.value ++ " allowed" }

/-- an allowed evaluation is one of the strategy selected, outside its blocked regimes -/
theorem evaluate_allowed {d : Strategies} {symbol timeframe : String} {regime : MarketRegime}
    (h : (evaluate d symbol timeframe regime).allowed = true) : ∃ s,
      select d symbol timeframe = some s ∧ regime ∉ s.blockedRegimes ∧
        (evaluate d symbol timeframe regime).versionedId = s.versionedId := by
  unfold evaluate at h ⊢
  cases hselect : select d symbol timeframe with
  | none => simp [hselect] at h
  | some s =>
    simp only [hselect] at h ⊢
    split_ifs at h ⊢ with hblocked hreduced
    · exact ⟨s, rfl, hblocked, rfl⟩
    · exact ⟨s, rfl, hblocked, rfl⟩

/-! ## Who is selected -/

/-- a call of the management endpoints -/
inductive StrategyOp where
  | register (s : StrategyConfig)
  | setEnabled (versionedId : String) (enabled : Bool)

def StrategyOp.versionedId : StrategyOp → String
  | .register s => s.versionedId
  | .setEnabled i _ => i

/-- a call, accepted or not -/
def manage (d : Strategies) : StrategyOp → Strategies
  | .register s => register d s
  | .setEnabled i enabled =>
    match setEnabled d i enabled with
    | .ok (d', _) => d'
    | .error _ => d

/-- the strategies that were registered before `s` -/
def ahead (d : Strategies) (s : StrategyConfig) : List StrategyConfig :=
  d.rows.takeWhile fun r => r.versionedId ≠ s.versionedId

/-- rows in front of the one that is put stay -/
theorem rows_put_behind {d : Strategies} {front back : List StrategyConfig} {s : StrategyConfig}
    (hrows : d.rows = front ++ back) (hnew : ∀ r ∈ front, r.versionedId ≠ s.versionedId) :
    ∃ back', (d.put s).rows = front ++ back' := by
  unfold OrderedDict.put
  split_ifs with hknown
  · refine ⟨back.map fun r => if r.versionedId = s.versionedId then s else r, ?_⟩
    have hfront : front.map (fun r => if r.versionedId = s.versionedId then s else r) = front := by
      calc front.map (fun r => if r.versionedId = s.versionedId then s else r) = front.map id :=
            List.map_congr_left fun r hr => if_neg (hnew r hr)
        _ = front := List.map_id front
    simp only [hrows, List.map_append, hfront]
  · exact ⟨back ++ [s], by simp [hrows]⟩

theorem manage_setEnabled (d : Strategies) (i : String) (enabled : Bool) :
    manage d (.setEnabled i enabled) = d ∨ ∃ s : StrategyConfig, s.versionedId = i ∧
      manage d (.setEnabled i enabled) = d.put { s with enabled := enabled } := by
  simp only [manage, setEnabled]
  cases hget : d.get? i with
  | none => exact .inl rfl
  | some s => exact .inr ⟨s, (OrderedDict.get?_eq_some.1 hget).2, rfl⟩

theorem manage_behind {d : Strategies} {front back : List StrategyConfig} {op : StrategyOp}
    (hrows : d.rows = front ++ back) (hnew : ∀ r ∈ front, r.versionedId ≠ op.versionedId) :
    ∃ back', (manage d op).rows = front ++ back' := by
  cases op with
  | register s => exact rows_put_behind hrows hnew
  | setEnabled i enabled =>
    rcases manage_setEnabled d i enabled with hsame | ⟨s, hs, hput⟩
    · exact ⟨back, by rw [hsame, hrows]⟩
    · rw [hput]
      refine rows_put_behind hrows fun r hr => ?_
      have hne := hnew r hr
      rwa [StrategyOp.versionedId, ← hs] at hne

/-- where the strategy that is selected stands -/
theorem rows_of_select {d : Strategies} {symbol timeframe : String} {s : StrategyConfig}
    (h : select d symbol timeframe = some s) :
    (∃ back, d.rows = (ahead d s ++ [s]) ++ back) ∧ s.serves symbol timeframe = true ∧
      ∀ r ∈ ahead d s, r.serves symbol timeframe = false := by
  obtain ⟨hserves, front, back, hrows, hfront⟩ := List.find?_eq_some_iff_append.1 h
  have hkeys := d.nodup
  rw [hrows, List.map_append, List.map_cons, List.nodup_append] at hkeys
  have hdiffer : ∀ r ∈ front, r.versionedId ≠ s.versionedId := fun r hr =>
    hkeys.2.2 r.versionedId (List.mem_map_of_mem hr) s.versionedId List.mem_cons_self
  have hahead : ahead d s = front := by
    rw [ahead, hrows, List.takeWhile_append_of_pos (by simpa using hdiffer)]
    simp
  rw [hahead]
  exact ⟨⟨back, by simp [hrows]⟩, hserves, fun r hr => by simpa using hfront r hr⟩

/-- **Selections are stable.** Whatever is registered or switched, as long as it is neither the selected
strategy nor one that was registered before it, the market keeps its strategy. -/
theorem selection_stable {d : Strategies} {symbol timeframe : String} {s : StrategyConfig}
    (h : select d symbol timeframe = some s) {ops : List StrategyOp}
    (hops : ∀ op ∈ ops, ∀ r ∈ ahead d s ++ [s], r.versionedId ≠ op.versionedId) :
    select (run manage d ops) symbol timeframe = some s := by
  obtain ⟨hrows, hserves, hahead⟩ := rows_of_select h
  have hkept : ∃ back, (run manage d ops).rows = (ahead d s ++ [s]) ++ back := by
    generalize ahead d s ++ [s] = front at hops hrows
    clear h hahead
    induction ops generalizing d with
    | nil => exact hrows
    | cons op ops ih =>
      obtain ⟨back, hback⟩ := hrows
      refine ih (fun op' hop' => hops op' (List.mem_cons_of_mem op hop')) ?_
      exact manage_behind hback (hops op List.mem_cons_self)
  obtain ⟨back, hback⟩ := hkept
  rw [select, hback, List.append_assoc, List.find?_append,
    List.find?_eq_none.2 fun r hr => by simp [hahead r hr], Option.none_or, List.cons_append,
    List.find?_cons_of_pos hserves]

/-- a new version of the 15-minute strategy, registered and switched off and on again -/
theorem new_version_waits :
    (select (run manage (initial defaultStrategies)
      [.register { strategyId := "SCALP_15M", version := "v2", symbols := ["BTCUSDT"], timeframe := "15m",
                   minimumConfidence := 60 },
       .setEnabled "SCALP_15M_v2" false, .setEnabled "SCALP_15M_v2" true]) "BTCUSDT" "15m").map
      StrategyConfig.versionedId = some "SCALP_15M_v1" := by
  have hselect : select (initial defaultStrategies) "BTCUSDT" "15m" = some
      { strategyId := "SCALP_15M", symbols := defaultSymbols, timeframe := "15m" } := by
    decide +kernel
  rw [selection_stable hselect]
  · decide +kernel
  · decide +kernel

end StrategyEngine

end CapitalCipher
