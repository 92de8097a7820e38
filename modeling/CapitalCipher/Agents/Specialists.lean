/-
The twelve candle specialists of `agents/specialists.py`, in exact arithmetic, with every operation
that can raise.

An analysis reads its window off the store, judges it and hands the judgement to the output contract.

  • `Specialist.analyze_returns`: a specialist with a valid judgement returns an output.
  • `momentumAgent_returns` to `dataQualityAgent_returns`: when each judgement does.
  • `untraded_raises`: no volume before the latest candle is an `AssertionError`.
  • `gated_window_iff`: the momentum agent sells at an index of 0, which it takes for none.
-/
import CapitalCipher.Agents.Quant
import CapitalCipher.Agents.Windows

namespace CapitalCipher

open Lib Builtins

/-- what an analysis hands to `_output` -/
structure Judgement where
  status : AgentStatus := .completed
  signal : Signal
  confidence : ℤ
  reason : String
  evidence : List (String × Json) := []
  warnings : List String := []

/-- what the output contract asks of a judgement -/
structure Judgement.Valid (f : Judgement) : Prop where
  confidence_nonneg : 0 ≤ f.confidence
  confidence_le : f.confidence ≤ 100
  reason_pos : 1 ≤ f.reason.length
  reason_le : f.reason.length ≤ 1000

theorem Judgement.valid {f : Judgement} (hconfidence : 0 ≤ f.confidence ∧ f.confidence ≤ 100)
    (hreason : 1 ≤ f.reason.length ∧ f.reason.length ≤ 1000) : f.Valid :=
  ⟨hconfidence.1, hconfidence.2, hreason.1, hreason.2⟩

/-- `CandleSpecialistAgent`: a window of the latest candles and the judgement on it -/
structure Specialist where
  name : String
  limit : ℕ := 200
  judge : List Candle → Except Error Judgement

namespace Specialist

/-- `_output` -/
def output (s : Specialist) (f : Judgement) (now : Time) : Except Error AgentOutput :=
  if f.confidence < 0 then .error ⟨.schema, "confidence"⟩
  else
    (AgentOutput.construct s.name f.status f.signal f.confidence.toNat f.reason f.warnings 0 now).map
      fun o => { o with evidence := f.evidence }

/-- `_candles` -/
def window (s : Specialist) (store : CandleBuckets) (input : AgentInput) :
    Except Error (List Candle) := do
  let exchange ← QuantAgent.marketExchange input
  return store.get exchange input.symbol input.timeframe s.limit

/-- `_analyze` -/
def analyze (s : Specialist) (store : CandleBuckets) (input : AgentInput) (now : Time) :
    Except Error AgentOutput := do
  let candles ← s.window store input
  let judgement ← s.judge candles
  s.output judgement now

end Specialist

/-- `_insufficient` -/
def insufficient (actual required : ℕ) : Judgement where
  signal := .wait
  confidence := 0
  reason := "Insufficient candles (" ++ (toString actual ++ "/" ++ toString required) ++ ")"
  evidence := [("candle_count", .num actual), ("required_candles", .num required)]
  warnings := ["INSUFFICIENT_HISTORY"]

/-- `round` in the evidence -/
def rounded (value : ℚ) (digits : ℕ) : Json := .num (Decimal.round value digits)

def closePrices (candles : List Candle) : List ℚ := candles.map Candle.close

namespace Specialists

/-- the gates of `MomentumAgent` -/
def momentumSignal (momentum rsiValue : ℚ) : Signal :=
  if 1 / 2 < momentum ∧ rsiValue < 75 then .buy
  else if momentum < -(1 / 2) ∧ 25 < rsiValue then .sell else .hold

def momentumAgent : Specialist where
  name := "MomentumAgent"
  judge candles :=
    if candles.length < 15 then .ok (insufficient candles.length 15)
    else do
      let latest ← fromEnd (closePrices candles) 1
      let earlier ← fromEnd (closePrices candles) 11
      let ratio ← divide latest earlier
      let momentum := (ratio - 1) * 100
      let rsi ← Indicators.rsiOrRaise (closePrices candles) 14
      let rsiValue := orDefault rsi 50
      return {
        signal := momentumSignal momentum rsiValue
        confidence := min 90 (truncate (45 + |momentum| * 10))
        reason := "10-candle momentum " ++
          (Numeric.fixed 3 momentum ++ "% with RSI " ++ Numeric.fixed 2 rsiValue) ++ ""
        evidence := [("momentum_percent", rounded momentum 6), ("rsi", rounded rsiValue 4)] }

def volatilityAgent : Specialist where
  name := "VolatilityAgent"
  judge candles :=
    if candles.length < 15 then .ok (insufficient candles.length 15)
    else do
      let atr ← assertSome (Indicators.atr candles 14)
      let latest ← fromEnd candles 1
      let ratio ← divide atr latest.close
      let atrPercent := ratio * 100
      let state := if 3 < atrPercent then "HIGH" else if atrPercent < 15 / 100 then "LOW" else "NORMAL"
      return {
        signal := if 3 < atrPercent then .wait else if atrPercent < 15 / 100 then .hold else .neutral
        confidence := if 3 < atrPercent then 85 else if atrPercent < 15 / 100 then 70 else 75
        reason := "ATR is " ++ Numeric.fixed 3 atrPercent ++ ("% of price (" ++ state ++ ")")
        evidence := [("atr", rounded atr 6), ("atr_percent", rounded atrPercent 6),
          ("volatility_state", .str state)] }

def volumeAgent : Specialist where
  name := "VolumeAgent"
  judge candles :=
    if candles.length < 21 then .ok (insufficient candles.length 21)
    else do
      let volumeRatio ← Indicators.volumeRatioOrRaise candles 20
      let ratio ← assertSome volumeRatio
      let latest ← fromEnd candles 1
      let direction := latest.close - latest.openPrice
      return {
        signal := if 3 / 2 ≤ ratio ∧ 0 < direction then .buy
          else if 3 / 2 ≤ ratio ∧ direction < 0 then .sell else .neutral
        confidence := min 90 (truncate (45 + ratio * 20))
        reason := "Latest volume is " ++ Numeric.fixed 3 ratio ++ "x its 20-candle baseline"
        evidence := [("volume_ratio", rounded ratio 6)]
        warnings := if ratio < 1 / 2 then ["LOW_VOLUME"] else [] }

def vwapAgent : Specialist where
  name := "VWAPAgent"
  limit := 50
  judge candles :=
    if candles.length < 20 then .ok (insufficient candles.length 20)
    else do
      match ← Indicators.vwapOrRaise candles with
      | none =>
        return {
          signal := .wait
          confidence := 0
          reason := "VWAP unavailable because aggregate volume is zero"
          warnings := ["LOW_VOLUME"] }
      | some vwap =>
        let latest ← fromEnd candles 1
        let ratio ← divide latest.close vwap
        let displacement := (ratio - 1) * 100
        return {
          signal := if 2 / 10 < displacement then .buy
            else if displacement < -(2 / 10) then .sell else .hold
          confidence := min 90 (truncate (50 + |displacement| * 20))
          reason := "Price is " ++ Numeric.fixed 3 displacement ++ "% from rolling VWAP"
          evidence := [("vwap", rounded vwap 6), ("displacement_percent", rounded displacement 6)] }

def macdAgent : Specialist where
  name := "MACDAgent"
  judge candles := do
    match ← Indicators.macdOrRaise (closePrices candles) 12 26 9 with
    | none => return insufficient candles.length 35
    | some (line, signalLine, histogram) =>
      let latest ← fromEnd candles 1
      let ratio ← divide |histogram| latest.close
      let relative := ratio * 10000
      return {
        signal := if 0 < histogram then .buy else if histogram < 0 then .sell else .hold
        confidence := min 90 (truncate (50 + relative * 3))
        reason := "MACD histogram " ++ Numeric.fixed 6 histogram ++ ""
        evidence := [("macd_line", rounded line 8), ("signal_line", rounded signalLine 8),
          ("histogram", rounded histogram 8)] }

def emaAlignmentAgent : Specialist where
  name := "EMAAlignmentAgent"
  judge candles :=
    if candles.length < 50 then .ok (insufficient candles.length 50)
    else do
      let ema9 ← fromEnd (Indicators.ema (closePrices candles) 9) 1
      let ema21 ← fromEnd (Indicators.ema (closePrices candles) 21) 1
      let ema50 ← fromEnd (Indicators.ema (closePrices candles) 50) 1
      let alignment := if ema21 < ema9 ∧ ema50 < ema21 then "BULLISH"
        else if ema9 < ema21 ∧ ema21 < ema50 then "BEARISH" else "MIXED"
      let ratio ← divide |ema9 - ema50| ema50
      let spread := ratio * 100
      return {
        signal := if ema21 < ema9 ∧ ema50 < ema21 then .buy
          else if ema9 < ema21 ∧ ema21 < ema50 then .sell else .hold
        confidence := min 90 (truncate (50 + spread * 15))
        reason := "EMA alignment is " ++ alignment ++ ""
        evidence := [("ema_9", rounded ema9 6), ("ema_21", rounded ema21 6),
          ("ema_50", rounded ema50 6), ("alignment", .str alignment)] }

def meanReversionAgent : Specialist where
  name := "MeanReversionAgent"
  limit := 50
  judge candles :=
    if candles.length < 30 then .ok (insufficient candles.length 30)
    else do
      let closes := closePrices (lastOf 30 candles)
      let average ← mean closes
      let deviation ← pstdev closes
      let latest ← fromEnd closes 1
      let zScore ← divideIfPos (latest - average) deviation 0
      return {
        signal := if 2 ≤ zScore then .sell else if zScore ≤ -2 then .buy else .hold
        confidence := min 90 (truncate (45 + |zScore| * 20))
        reason := "30-candle close z-score " ++ Numeric.fixed 3 zScore ++ ""
        evidence := [("z_score", rounded zScore 6), ("mean_close", rounded average 6),
          ("standard_deviation", rounded deviation 6)] }

def breakoutAgent : Specialist where
  name := "BreakoutAgent"
  limit := 30
  judge candles :=
    if candles.length < 21 then .ok (insufficient candles.length 21)
    else do
      let prior := (lastOf 21 candles).dropLast
      let resistance ← largest (prior.map Candle.high)
      let support ← smallest (prior.map Candle.low)
      let latest ← fromEnd candles 1
      let state := if resistance < latest.close then "UPSIDE_BREAKOUT"
        else if latest.close < support then "DOWNSIDE_BREAKOUT" else "INSIDE_RANGE"
      let signal : Signal := if resistance < latest.close then .buy
        else if latest.close < support then .sell else .hold
      return {
        signal := signal
        confidence := if signal = .buy ∨ signal = .sell then 80 else 55
        reason := "Close classified as " ++ state ++ ""
        evidence := [("support", rounded support 6), ("resistance", rounded resistance 6),
          ("state", .str state)] }

def supportResistanceAgent : Specialist where
  name := "SupportResistanceAgent"
  limit := 60
  judge candles :=
    if candles.length < 30 then .ok (insufficient candles.length 30)
    else do
      let window := lastOf 30 candles
      let support ← smallest (window.map Candle.low)
      let resistance ← largest (window.map Candle.high)
      let latest ← fromEnd window 1
      let location ← divide (latest.close - support)
        (max (resistance - support) (latest.close / 10 ^ 9))
      return {
        signal := if location ≤ 15 / 100 then .buy else if 85 / 100 ≤ location then .sell else .hold
        confidence := truncate (55 + |location - 1 / 2| * 50)
        reason := "Price location within 30-candle range is " ++ Numeric.fixed 3 location ++ ""
        evidence := [("support", rounded support 6), ("resistance", rounded resistance 6),
          ("range_location", rounded location 6)] }

def candleStructureAgent : Specialist where
  name := "CandleStructureAgent"
  limit := 2
  judge candles :=
    if candles = [] then .ok (insufficient 0 1)
    else do
      let candle ← fromEnd candles 1
      let candleRange := max (candle.high - candle.low) (candle.close / 10 ^ 9)
      let body := candle.close - candle.openPrice
      let bodyRatio ← divide |body| candleRange
      let upperWick ← divide (candle.high - max candle.openPrice candle.close) candleRange
      let lowerWick ← divide (min candle.openPrice candle.close - candle.low) candleRange
      let shape := if 6 / 10 ≤ bodyRatio ∧ 0 < body then "BULLISH_IMPULSE"
        else if 6 / 10 ≤ bodyRatio ∧ body < 0 then "BEARISH_IMPULSE" else "INDECISION"
      return {
        signal := if 6 / 10 ≤ bodyRatio ∧ 0 < body then .buy
          else if 6 / 10 ≤ bodyRatio ∧ body < 0 then .sell else .hold
        confidence := min 85 (truncate (45 + bodyRatio * 50))
        reason := "Latest candle structure is " ++ shape ++ ""
        evidence := [("body_ratio", rounded bodyRatio 6), ("upper_wick_ratio", rounded upperWick 6),
          ("lower_wick_ratio", rounded lowerWick 6), ("structure", .str shape)] }

def liquidityProxyAgent : Specialist where
  name := "LiquidityProxyAgent"
  limit := 30
  judge candles :=
    if candles.length < 21 then .ok (insufficient candles.length 21)
    else do
      let volumeRatio ← Indicators.volumeRatioOrRaise candles 20
      let ratio ← assertSome volumeRatio
      let ranges ← (lastOf 21 candles).dropLast.mapM fun c => divide (c.high - c.low) c.close
      let baselineRange ← mean ranges
      let latest ← fromEnd candles 1
      let latestRange ← divide (latest.high - latest.low) latest.close
      let stress ← divideIfPos latestRange baselineRange 1
      return {
        signal := if 2 < stress ∧ ratio < 8 / 10 then .wait else .neutral
        confidence := min 90 (truncate (50 + |stress - 1| * 20))
        reason := "OHLCV liquidity stress proxy is " ++ Numeric.fixed 3 stress ++ ""
        evidence := [("range_stress_ratio", rounded stress 6), ("volume_ratio", rounded ratio 6),
          ("proxy_only", .bool true)]
        warnings := ["OHLCV_LIQUIDITY_PROXY"] }

def dataQualityAgent : Specialist where
  name := "DataQualityAgent"
  judge candles :=
    if candles = [] then .ok {
      status := .blocked
      signal := .block
      confidence := 0
      reason := "No candles available for independent quality validation"
      warnings := ["DATA_QUALITY_ISSUE"] }
    else
      let timestamps := candles.map Candle.closedAt
      let ordered := decide (timestamps = timestamps.insertionSort (· ≤ ·))
      let unique := decide timestamps.Nodup
      let valid := ordered && unique
      .ok {
        status := if valid then .completed else .blocked
        signal := if valid then .neutral else .block
        confidence := if valid then 100 else 0
        reason := if valid then "Runtime candle window is ordered and duplicate-free"
          else "Runtime candle window failed quality invariants"
        evidence := [("candle_count", .num candles.length), ("strictly_ordered", .bool ordered),
          ("unique_timestamps", .bool unique)]
        warnings := if valid then [] else ["DATA_QUALITY_ISSUE"] }

end Specialists

open Specialists in
/-- `build_shadow_specialists` -/
def buildShadowSpecialists : List Specialist :=
  [momentumAgent, volatilityAgent, volumeAgent, vwapAgent, macdAgent, emaAlignmentAgent,
   meanReversionAgent, breakoutAgent, supportResistanceAgent, candleStructureAgent,
   liquidityProxyAgent, dataQualityAgent]

/-! ## Valid judgements become outputs -/

namespace Specialist

variable {s : Specialist} {store : CandleBuckets} {input : AgentInput} {exchange : String}
  {now : Time} {f : Judgement}

theorem output_returns (hname : 1 ≤ s.name.length) (hf : f.Valid) :
    Returns (s.output f now) fun o =>
      o.agentName = s.name ∧ o.signal = f.signal ∧ o.confidence ≤ 100 := by
  have hconfidence : f.confidence.toNat ≤ 100 := by
    have := hf.confidence_le
    omega
  have haccepted : ∀ field ∈ agentOutputFields s.name f.confidence.toNat f.reason,
      field.2 = true := by
    simp [agentOutputFields, hname, hconfidence, hf.reason_pos, hf.reason_le]
  rw [output, if_neg (not_lt.2 hf.confidence_nonneg), AgentOutput.construct_accepted haccepted]
  exact .ok ⟨rfl, rfl, hconfidence⟩

theorem window_eq (h : QuantAgent.marketExchange input = .ok exchange) :
    s.window store input = .ok (store.get exchange input.symbol input.timeframe s.limit) := by
  rw [window, h]
  rfl

/-- a valid judgement on the window is an output -/
theorem analyze_returns {P : Judgement → Prop} (hname : 1 ≤ s.name.length)
    (hexchange : QuantAgent.marketExchange input = .ok exchange)
    (hjudge : Returns (s.judge (store.get exchange input.symbol input.timeframe s.limit))
      fun f => f.Valid ∧ P f) :
    Returns (s.analyze store input now) fun o =>
      o.agentName = s.name ∧ o.confidence ≤ 100 ∧ ∃ f, P f ∧ o.signal = f.signal := by
  rw [analyze, window_eq hexchange]
  refine hjudge.bind fun f hf => ?_
  exact (output_returns hname hf.1).imp fun o ho => ⟨ho.1, ho.2.2, f, hf.2, ho.2.1⟩

/-- an exception of the judgement is one of the analysis -/
theorem analyze_error {e : Error} (hexchange : QuantAgent.marketExchange input = .ok exchange)
    (hjudge : s.judge (store.get exchange input.symbol input.timeframe s.limit) = .error e) :
    s.analyze store input now = .error e := by
  rw [analyze, window_eq hexchange]
  change s.judge _ >>= _ = _
  rw [hjudge]
  rfl

end Specialist

namespace Specialists

variable {candles : List Candle}

/-! ## Parts of a judgement -/

/-- a text between two short ones is a valid reason -/
theorem reason_valid {before text after : String} (hbefore : 1 ≤ before.length ∧ before.length ≤ 100)
    (htext : text.length ≤ 700) (hafter : after.length ≤ 100) :
    1 ≤ (before ++ text ++ after).length ∧ (before ++ text ++ after).length ≤ 1000 := by
  rw [String.length_append, String.length_append]
  omega

theorem capped_valid {x : ℚ} {cap : ℤ} (h : 0 ≤ x) (hcap : 0 ≤ cap) (hcap' : cap ≤ 100) :
    0 ≤ min cap (truncate x) ∧ min cap (truncate x) ≤ 100 := by
  have := truncate_nonneg h
  omega

theorem length_fixed {digits : ℕ} (hpos : 0 < digits) (h : digits ≤ 6) (q : ℚ) :
    (Numeric.fixed digits q).length ≤ 700 := (Numeric.length_fixed_le hpos h q).trans (by decide)

theorem insufficient_valid {actual required : ℕ} (h : actual < required) (hrequired : required ≤ 50) :
    (insufficient actual required).Valid := by
  have hactual : (toString actual).length ≤ 2 := Numeric.length_toString_le (by decide) (by omega)
  have hneeded : (toString required).length ≤ 2 := Numeric.length_toString_le (by decide) (by omega)
  refine Judgement.valid ⟨le_rfl, by simp [insufficient]⟩ (reason_valid (by decide) ?_ (by decide))
  rw [String.length_append, String.length_append, show ("/").length = 1 from rfl]
  omega

/-- too few candles are a valid judgement, so only a full window has to be judged -/
theorem enough_returns {required : ℕ} {x : Except Error Judgement} (hrequired : required ≤ 50)
    (h : required ≤ candles.length → Returns x Judgement.Valid) :
    Returns (if candles.length < required then .ok (insufficient candles.length required) else x)
      Judgement.Valid := by
  apply Returns.ite
  · intro hshort
    exact .ok (insufficient_valid hshort hrequired)
  · intro hlong
    exact h (not_lt.1 hlong)

theorem latest_returns (hvalid : ∀ c ∈ candles, c.Sound) (h : 1 ≤ candles.length) :
    Returns (fromEnd candles 1) Candle.Sound :=
  (fromEnd_returns (by decide) h).imp hvalid

theorem close_mem {n : ℕ} (h : n < candles.length) :
    (closePrices candles).reverse.getD n 0 ∈ closePrices candles := by
  have hlen : n < (closePrices candles).reverse.length := by
    rwa [List.length_reverse, closePrices, List.length_map]
  rw [List.getD_eq_getElem?_getD, List.getElem?_eq_getElem hlen, Option.getD_some]
  exact List.mem_reverse.1 (List.getElem_mem hlen)

theorem closes_pos (hvalid : ∀ c ∈ candles, c.Sound) : ∀ v ∈ closePrices candles, 0 < v := by
  intro v hv
  obtain ⟨c, hc, rfl⟩ := List.mem_map.1 hv
  exact (hvalid c hc).close_pos

/-! ## The twelve -/

/-- the rise over the last ten candles, in percent -/
def momentumOf (candles : List Candle) : ℚ :=
  ((closePrices candles).reverse.getD 0 0 / (closePrices candles).reverse.getD 10 0 - 1) * 100

theorem fromEnd_eq {n : ℕ} (hpos : 0 < n) (h : n ≤ (closePrices candles).length) :
    fromEnd (closePrices candles) n = .ok ((closePrices candles).reverse.getD (n - 1) 0) := by
  have hlen : n - 1 < (closePrices candles).reverse.length := by
    rw [List.length_reverse]
    omega
  rw [fromEnd, entry, List.getD_eq_getElem?_getD, List.getElem?_eq_getElem hlen]
  rfl

theorem momentumAgent_returns (hvalid : ∀ c ∈ candles, c.Sound) (hlong : 15 ≤ candles.length) :
    Returns (momentumAgent.judge candles) fun f => f.Valid ∧
      f.signal = momentumSignal (momentumOf candles)
        (orDefault (Indicators.rsi (closePrices candles) 14) 50) := by
  have hlen : (closePrices candles).length = candles.length := List.length_map _
  have hlatest : fromEnd (closePrices candles) 1 = .ok ((closePrices candles).reverse.getD 0 0) :=
    fromEnd_eq (by decide) (by omega)
  have hearlier : fromEnd (closePrices candles) 11 = .ok ((closePrices candles).reverse.getD 10 0) :=
    fromEnd_eq (by decide) (by omega)
  have hpos := closes_pos hvalid _ (close_mem (show 10 < candles.length by omega))
  refine Returns.ite (fun hshort => absurd hlong (not_le.2 hshort)) fun _ => ?_
  rw [hlatest, hearlier, Indicators.rsiOrRaise_eq (by decide)]
  refine (divide_returns hpos.ne').bind fun ratio hratio => ?_
  subst hratio
  refine .ok ⟨Judgement.valid (capped_valid (by positivity) (by decide) (by decide))
    (reason_valid (by decide) ?_ (by decide)), rfl⟩
  have hmomentum := Numeric.length_fixed_le (show 0 < 3 by decide) (by decide)
    (((closePrices candles).reverse.getD 0 0 / (closePrices candles).reverse.getD 10 0 - 1) * 100)
  have hrsi := Numeric.length_fixed_le (show 0 < 2 by decide) (by decide)
    (orDefault (Indicators.rsi (closePrices candles) 14) 50)
  rw [String.length_append, String.length_append, show ("% with RSI ").length = 11 from rfl]
  omega

theorem volatilityAgent_returns (hvalid : ∀ c ∈ candles, c.Sound) :
    Returns (volatilityAgent.judge candles) Judgement.Valid := by
  refine enough_returns (by decide) fun hlong => ?_
  refine (assertSome_returns (Indicators.atr_some hlong)).bind fun atr _ => ?_
  refine (latest_returns hvalid (by omega)).bind fun latest hlatest => ?_
  refine (divide_returns hlatest.close_pos.ne').bind fun ratio _ => ?_
  refine .ok (Judgement.valid ?_ (reason_valid (by decide) (length_fixed (by decide) (by decide) _) ?_))
  · dsimp only
    split_ifs <;> decide
  · split_ifs <;> decide

theorem volumeRatio_some (hvalid : ∀ c ∈ candles, c.Sound) (hlong : 21 ≤ candles.length)
    (htraded : ∃ c ∈ (lastOf 21 candles).dropLast, c.volume ≠ 0) :
    Indicators.volumeRatio candles 20 ≠ none := by
  rw [Ne, Indicators.volumeRatio_eq_none_iff (by decide) hvalid]
  obtain ⟨c, hc, hvolume⟩ := htraded
  exact not_or.2 ⟨by omega, fun hall => hvolume (hall c hc)⟩

/-- a volume before the latest candle is all that is needed -/
theorem volumeAgent_returns (hvalid : ∀ c ∈ candles, c.Sound)
    (htraded : 21 ≤ candles.length → ∃ c ∈ (lastOf 21 candles).dropLast, c.volume ≠ 0) :
    Returns (volumeAgent.judge candles) Judgement.Valid := by
  refine enough_returns (by decide) fun hlong => ?_
  rw [Indicators.volumeRatioOrRaise_eq]
  have hsome := volumeRatio_some hvalid hlong (htraded hlong)
  refine (assertSome_returns hsome).bind fun ratio hratio => ?_
  have hnonneg := Indicators.volumeRatio_nonneg hvalid hratio
  refine (latest_returns hvalid (by omega)).bind fun latest hlatest => ?_
  exact .ok (Judgement.valid (capped_valid (by positivity) (by decide) (by decide))
    (reason_valid (by decide) (length_fixed (by decide) (by decide) _) (by decide)))

theorem vwapAgent_returns (hvalid : ∀ c ∈ candles, c.Sound) :
    Returns (vwapAgent.judge candles) Judgement.Valid := by
  refine enough_returns (by decide) fun hlong => ?_
  rw [Indicators.vwapOrRaise_eq]
  cases hvwap : Indicators.vwap candles with
  | none => exact .ok (Judgement.valid (by decide) (by decide))
  | some vwap =>
    have hpos := Indicators.vwap_pos hvalid hvwap
    refine (latest_returns hvalid (by omega)).bind fun latest hlatest => ?_
    refine (divide_returns hpos.ne').bind fun ratio _ => ?_
    exact .ok (Judgement.valid (capped_valid (by positivity) (by decide) (by decide))
      (reason_valid (by decide) (length_fixed (by decide) (by decide) _) (by decide)))

theorem macdAgent_returns (hvalid : ∀ c ∈ candles, c.Sound) :
    Returns (macdAgent.judge candles) Judgement.Valid := by
  have hlen : (closePrices candles).length = candles.length := List.length_map _
  dsimp only [macdAgent]
  rw [Indicators.macdOrRaise_eq (by decide)]
  cases hmacd : Indicators.macd (closePrices candles) 12 26 9 with
  | none =>
    have hshort : candles.length < 35 := by
      by_contra hlong
      have hsome : ∃ m, Indicators.macd (closePrices candles) 12 26 9 = some m :=
        Indicators.macd_some (by decide) (by decide) (by omega)
      obtain ⟨m, hm⟩ := hsome
      rw [hm] at hmacd
      cases hmacd
    exact .ok (insufficient_valid hshort (by decide))
  | some m =>
    have hlong : 35 ≤ candles.length := by
      by_contra hshort
      rw [Indicators.macd, if_pos (by omega)] at hmacd
      cases hmacd
    refine (latest_returns hvalid (by omega)).bind fun latest hlatest => ?_
    have := hlatest.close_pos
    refine (divide_returns hlatest.close_pos.ne').bind fun ratio hratio => ?_
    subst hratio
    exact .ok (Judgement.valid (capped_valid (by positivity) (by decide) (by decide))
      (reason_valid (by decide) (length_fixed (by decide) (by decide) _) (by decide)))

theorem emaAlignmentAgent_returns (hvalid : ∀ c ∈ candles, c.Sound) :
    Returns (emaAlignmentAgent.judge candles) Judgement.Valid := by
  refine enough_returns (by decide) fun hlong => ?_
  have hlen : (closePrices candles).length = candles.length := List.length_map _
  have hema : ∀ period, 0 < period → period ≤ 50 →
      Returns (fromEnd (Indicators.ema (closePrices candles) period) 1) (0 < ·) := by
    intro period hpos hle
    have hne : Indicators.ema (closePrices candles) period ≠ [] := Indicators.ema_ne_nil (by omega)
    exact (fromEnd_returns (by decide) (List.length_pos_iff.2 hne)).imp
      (Indicators.ema_pos hpos (closes_pos hvalid))
  refine (hema 9 (by decide) (by decide)).bind fun ema9 _ => ?_
  refine (hema 21 (by decide) (by decide)).bind fun ema21 _ => ?_
  refine (hema 50 (by decide) (by decide)).bind fun ema50 hema50 => ?_
  refine (divide_returns hema50.ne').bind fun ratio hratio => ?_
  subst hratio
  refine .ok (Judgement.valid (capped_valid (by positivity) (by decide) (by decide))
    (reason_valid (by decide) ?_ (by decide)))
  split_ifs <;> decide

theorem meanReversionAgent_returns :
    Returns (meanReversionAgent.judge candles) Judgement.Valid := by
  refine enough_returns (by decide) fun hlong => ?_
  have hlen : (closePrices (lastOf 30 candles)).length = 30 := by
    rw [closePrices, List.length_map, length_lastOf]
    omega
  have hne : closePrices (lastOf 30 candles) ≠ [] := by
    rw [← List.length_pos_iff]
    omega
  refine (mean_returns hne).bind fun average _ => ?_
  refine (pstdev_returns hne).bind fun deviation _ => ?_
  refine (fromEnd_returns (by decide) (by omega)).bind fun latest _ => ?_
  refine divideIfPos_returns.bind fun zScore _ => ?_
  exact .ok (Judgement.valid (capped_valid (by positivity) (by decide) (by decide))
    (reason_valid (by decide) (length_fixed (by decide) (by decide) _) (by decide)))

theorem breakoutAgent_returns (hvalid : ∀ c ∈ candles, c.Sound) :
    Returns (breakoutAgent.judge candles) Judgement.Valid := by
  refine enough_returns (by decide) fun hlong => ?_
  have hprior : (lastOf 21 candles).dropLast ≠ [] := by
    rw [← List.length_pos_iff, List.length_dropLast, length_lastOf]
    omega
  refine (largest_returns (mt List.map_eq_nil_iff.1 hprior)).bind fun resistance _ => ?_
  refine (smallest_returns (mt List.map_eq_nil_iff.1 hprior)).bind fun support _ => ?_
  refine (latest_returns hvalid (by omega)).bind fun latest _ => ?_
  refine .ok (Judgement.valid ?_ (reason_valid (by decide) ?_ (by decide)))
  · dsimp only
    split_ifs <;> decide
  · split_ifs <;> decide

/-- the close lies within the range of the window, so the location is between 0 and 1 -/
theorem supportResistanceAgent_returns (hvalid : ∀ c ∈ candles, c.Sound) :
    Returns (supportResistanceAgent.judge candles) Judgement.Valid := by
  refine enough_returns (by decide) fun hlong => ?_
  have hwindow : 1 ≤ (lastOf 30 candles).length := by
    rw [length_lastOf]
    omega
  have hne : lastOf 30 candles ≠ [] := List.length_pos_iff.1 hwindow
  refine (smallest_returns (mt List.map_eq_nil_iff.1 hne)).bind fun support hsupport => ?_
  refine (largest_returns (mt List.map_eq_nil_iff.1 hne)).bind fun resistance hresistance => ?_
  refine (fromEnd_returns (by decide) hwindow).bind fun latest hlatest => ?_
  have hsound := hvalid latest (mem_of_mem_lastOf hlatest)
  have hlow := hsupport.2 _ (List.mem_map_of_mem hlatest)
  have hhigh := hresistance.2 _ (List.mem_map_of_mem hlatest)
  have hclose := hsound.close_pos
  have hrange : 0 < max (resistance - support) (latest.close / 10 ^ 9) :=
    lt_max_of_lt_right (by positivity)
  refine (divide_returns hrange.ne').bind fun location hlocation => ?_
  have hnonneg : 0 ≤ location := by
    rw [hlocation]
    refine div_nonneg ?_ hrange.le
    linarith [hsound.low_le_close]
  have hle : location ≤ 1 := by
    rw [hlocation, div_le_one hrange]
    refine le_max_of_le_left ?_
    linarith [hsound.close_le_high]
  have hdistance : |location - 1 / 2| ≤ 1 / 2 := by
    rw [abs_le]
    constructor <;> linarith
  refine .ok (Judgement.valid ⟨truncate_nonneg (by positivity), ?_⟩
    (reason_valid (by decide) (length_fixed (by decide) (by decide) _) (by decide)))
  have hbound : truncate (55 + |location - 1 / 2| * 50) ≤ (100 : ℕ) := by
    refine truncate_le ?_
    push_cast
    linarith
  exact_mod_cast hbound

theorem candleStructureAgent_returns (hvalid : ∀ c ∈ candles, c.Sound) :
    Returns (candleStructureAgent.judge candles) Judgement.Valid := by
  apply Returns.ite
  · intro _
    exact .ok (insufficient_valid (by decide) (by decide))
  · intro hne
    refine (latest_returns hvalid (List.length_pos_iff.2 hne)).bind fun candle hcandle => ?_
    have hclose := hcandle.close_pos
    have hrange : 0 < max (candle.high - candle.low) (candle.close / 10 ^ 9) :=
      lt_max_of_lt_right (by positivity)
    refine (divide_returns hrange.ne').bind fun bodyRatio hratio => ?_
    refine (divide_returns hrange.ne').bind fun upperWick _ => ?_
    refine (divide_returns hrange.ne').bind fun lowerWick _ => ?_
    have hnonneg : 0 ≤ bodyRatio := by
      rw [hratio]
      positivity
    refine .ok (Judgement.valid (capped_valid (by positivity) (by decide) (by decide))
      (reason_valid (by decide) ?_ (by decide)))
    split_ifs <;> decide

/-- again a volume before the latest candle is all that is needed -/
theorem liquidityProxyAgent_returns (hvalid : ∀ c ∈ candles, c.Sound)
    (htraded : 21 ≤ candles.length → ∃ c ∈ (lastOf 21 candles).dropLast, c.volume ≠ 0) :
    Returns (liquidityProxyAgent.judge candles) Judgement.Valid := by
  refine enough_returns (by decide) fun hlong => ?_
  rw [Indicators.volumeRatioOrRaise_eq]
  refine (assertSome_returns (volumeRatio_some hvalid hlong (htraded hlong))).bind fun ratio _ => ?_
  have hprior : (lastOf 21 candles).dropLast ≠ [] := by
    rw [← List.length_pos_iff, List.length_dropLast, length_lastOf]
    omega
  have hranges : ∀ c ∈ (lastOf 21 candles).dropLast,
      Returns (divide (c.high - c.low) c.close) fun _ => True := by
    intro c hc
    have hsound := hvalid c (mem_of_mem_lastOf (List.mem_of_mem_dropLast hc))
    exact (divide_returns hsound.close_pos.ne').any
  refine (Returns.mapM hranges).bind fun ranges hrange => ?_
  have hne : ranges ≠ [] := by
    rw [← List.length_pos_iff, ← hrange.length_eq]
    exact List.length_pos_iff.2 hprior
  refine (mean_returns hne).bind fun baselineRange _ => ?_
  refine (latest_returns hvalid (by omega)).bind fun latest hlatest => ?_
  refine (divide_returns hlatest.close_pos.ne').bind fun latestRange _ => ?_
  refine divideIfPos_returns.bind fun stress _ => ?_
  exact .ok (Judgement.valid (capped_valid (by positivity) (by decide) (by decide))
    (reason_valid (by decide) (length_fixed (by decide) (by decide) _) (by decide)))

theorem dataQualityAgent_returns : Returns (dataQualityAgent.judge candles) Judgement.Valid := by
  apply Returns.ite
  · intro _
    exact .ok (Judgement.valid (by decide) (by decide))
  · intro _
    refine .ok (Judgement.valid ?_ ?_)
    · dsimp only
      split_ifs <;> decide
    · dsimp only
      split_ifs <;> decide

/-! ## Windows without volume -/

/-- no volume before the latest candle stops the agents that measure it -/
theorem untraded_raises (hvalid : ∀ c ∈ candles, c.Sound) (hlong : 21 ≤ candles.length)
    (hvolume : ∀ c ∈ (lastOf 21 candles).dropLast, c.volume = 0) :
    volumeAgent.judge candles = .error ⟨.transport, "AssertionError"⟩ ∧
    liquidityProxyAgent.judge candles = .error ⟨.transport, "AssertionError"⟩ := by
  have hnone : Indicators.volumeRatio candles 20 = none :=
    (Indicators.volumeRatio_eq_none_iff (by decide) hvalid).2 (.inr hvolume)
  constructor
  · dsimp only [volumeAgent]
    rw [if_neg (not_lt.2 hlong), Indicators.volumeRatioOrRaise_eq, hnone]
    rfl
  · dsimp only [liquidityProxyAgent]
    rw [if_neg (not_lt.2 hlong), Indicators.volumeRatioOrRaise_eq, hnone]
    rfl

/-! ## The gates of the momentum agent -/

theorem momentumSignal_buy {momentum value : ℚ} :
    momentumSignal momentum value = .buy ↔ 1 / 2 < momentum ∧ value < 75 := by
  unfold momentumSignal
  split_ifs with hbuy hsell
  · exact iff_of_true rfl hbuy
  · exact iff_of_false (by decide) hbuy
  · exact iff_of_false (by decide) hbuy

theorem momentumSignal_sell {momentum value : ℚ} :
    momentumSignal momentum value = .sell ↔ momentum < -(1 / 2) ∧ 25 < value := by
  unfold momentumSignal
  split_ifs with hbuy hsell
  · refine iff_of_false (by decide) fun hfalling => ?_
    linarith [hbuy.1, hfalling.1]
  · exact iff_of_true rfl hsell
  · exact iff_of_false (by decide) hsell

/-- equal closes have no momentum -/
theorem momentumOf_equal (hvalid : ∀ c ∈ candles, c.Sound) (hlong : 15 ≤ candles.length)
    (h : ∀ x ∈ closePrices candles, ∀ y ∈ closePrices candles, x = y) : momentumOf candles = 0 := by
  have hsame := h _ (close_mem (show 0 < candles.length by omega)) _
    (close_mem (show 10 < candles.length by omega))
  have hpos := closes_pos hvalid _ (close_mem (show 10 < candles.length by omega))
  rw [momentumOf, hsame, div_self hpos.ne', sub_self, zero_mul]

/-- no SELL at an index of 25 or less, no BUY at 75 or more -/
def Gated (momentum : ℚ) (rsi : Option ℚ) : Prop :=
  ∀ value, rsi = some value →
    (value ≤ 25 → momentumSignal momentum (orDefault rsi 50) ≠ .sell) ∧
    (75 ≤ value → momentumSignal momentum (orDefault rsi 50) ≠ .buy)

/-- an index of 0 is taken for none -/
theorem gated_iff {momentum : ℚ} {rsi : Option ℚ} (hnonneg : ∀ value, rsi = some value → 0 ≤ value) :
    Gated momentum rsi ↔ ¬ (rsi = some 0 ∧ momentum < -(1 / 2)) := by
  unfold Gated
  constructor
  · rintro hgate ⟨rfl, hfalling⟩
    refine (hgate 0 rfl).1 (by norm_num) (momentumSignal_sell.2 ⟨hfalling, ?_⟩)
    norm_num [orDefault]
  · rintro hzero value rfl
    by_cases hvalue : value = 0
    · have hrising : ¬ momentum < -(1 / 2) := fun h => hzero ⟨by rw [hvalue], h⟩
      refine ⟨fun _ hsell => hrising (momentumSignal_sell.1 hsell).1, fun htop => ?_⟩
      rw [hvalue] at htop
      norm_num at htop
    · have hindex : orDefault (some value) 50 = value := if_neg hvalue
      rw [hindex]
      constructor
      · intro hlow hsell
        exact not_lt.2 hlow (momentumSignal_sell.1 hsell).2
      · intro hhigh hbuy
        exact not_lt.2 hhigh (momentumSignal_buy.1 hbuy).2

/-- the gates hold where some close is above the one before it, or the fall is small -/
theorem gated_window_iff (hvalid : ∀ c ∈ candles, c.Sound) (hlong : 15 ≤ candles.length) :
    Gated (momentumOf candles) (Indicators.rsi (closePrices candles) 14) ↔
      (∃ d ∈ Indicators.changes (closePrices candles), 0 < d) ∨ -(1 / 2) ≤ momentumOf candles := by
  have hlen : (closePrices candles).length = candles.length := List.length_map _
  rw [gated_iff fun value h => (Indicators.rsi_range (by decide) h).1,
    Indicators.rsi_eq_zero_iff (by decide) (by omega)]
  constructor
  · intro hzero
    by_contra hnone
    obtain ⟨hrise, hfall⟩ := not_or.1 hnone
    refine hzero ⟨⟨fun d hd => ?_, fun hequal => ?_⟩, not_le.1 hfall⟩
    · exact not_lt.1 fun hd' => hrise ⟨d, hd, hd'⟩
    · rw [momentumOf_equal hvalid hlong hequal] at hfall
      norm_num at hfall
  · rintro h ⟨⟨hdown, -⟩, hfalling⟩
    rcases h with h | h
    · obtain ⟨d, hd, hd'⟩ := h
      exact not_lt.2 (hdown d hd) hd'
    · exact not_lt.2 h hfalling

end Specialists

end CapitalCipher
