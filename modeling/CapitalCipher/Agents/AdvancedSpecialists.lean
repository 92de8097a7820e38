/-
The twenty-five specialists of `agents/advanced_specialists.py`: one metric each, over the latest
thirty candles.

  • `metricInputs_returns`: thirty valid candles give a metric everything it reads.
  • `metric_returns`: every metric returns on such a window.
  • `advancedSpecialist_returns`: so every advanced specialist is total.
-/
import CapitalCipher.Agents.Specialists
import Mathlib.Data.List.MinMax

namespace CapitalCipher

open Lib Builtins

structure SpecialistDefinition where
  name : String
  capability : String
  metricIndex : ℕ

/-- `DEFINITIONS` -/
def definitions : List SpecialistDefinition :=
  [⟨"ReturnDistributionAgent", "return-distribution", 0⟩,
   ⟨"DownsideVolatilityAgent", "downside-volatility", 1⟩,
   ⟨"UpsideCaptureAgent", "upside-capture", 2⟩,
   ⟨"DrawdownAgent", "rolling-drawdown", 3⟩,
   ⟨"TrendStrengthAgent", "trend-strength", 4⟩,
   ⟨"EfficiencyRatioAgent", "efficiency-ratio", 5⟩,
   ⟨"AutocorrelationAgent", "return-autocorrelation", 6⟩,
   ⟨"SkewProxyAgent", "return-skew", 7⟩,
   ⟨"TailRiskAgent", "empirical-tail-risk", 8⟩,
   ⟨"GapAgent", "candle-gap", 9⟩,
   ⟨"RangeExpansionAgent", "range-expansion", 10⟩,
   ⟨"CompressionAgent", "range-compression", 11⟩,
   ⟨"VolumeTrendAgent", "volume-trend", 12⟩,
   ⟨"VolumeVolatilityAgent", "volume-volatility", 13⟩,
   ⟨"PriceVolumeCorrelationAgent", "price-volume-correlation", 14⟩,
   ⟨"MoneyFlowProxyAgent", "money-flow-proxy", 15⟩,
   ⟨"CloseLocationAgent", "close-location-value", 16⟩,
   ⟨"WickImbalanceAgent", "wick-imbalance", 17⟩,
   ⟨"ConsecutiveRunsAgent", "directional-runs", 18⟩,
   ⟨"RegimePersistenceAgent", "regime-persistence", 19⟩,
   ⟨"FractalDimensionProxyAgent", "path-complexity", 20⟩,
   ⟨"EntropyAgent", "directional-entropy", 21⟩,
   ⟨"ShockRecoveryAgent", "shock-recovery", 22⟩,
   ⟨"DataFreshnessAgent", "window-freshness", 23⟩,
   ⟨"CrossWindowConsensusAgent", "multi-window-consensus", 24⟩]

/-- what `_analyze` hands to `_metric` -/
structure MetricInputs where
  closes : List ℚ
  volumes : List ℚ
  returns : List ℚ
  ranges : List ℚ
  bodies : List ℚ
  candles : List Candle

namespace AdvancedSpecialist

/-- `1e-12` -/
def tiny : ℚ := 1 / 10 ^ 12

/-- the inputs of a window -/
def metricInputs (window : List Candle) : Except Error MetricInputs := do
  let closes := closePrices window
  let returns ← ((closes.zip closes.tail).filter fun pair => decide (0 < pair.1)).mapM fun pair =>
    (divide pair.2 pair.1).map fun ratio => ratio - 1
  let ranges ← window.mapM fun c => divide (c.high - c.low) c.close
  let bodies ← window.mapM fun c => divide (c.close - c.openPrice) c.openPrice
  return ⟨closes, window.map Candle.volume, returns, ranges, bodies, window⟩

/-- `_correlation` -/
def correlation (left right : List ℚ) : Except Error ℚ :=
  if left.length ≠ right.length ∨ left.length < 2 then .ok 0
  else do
    let leftMean ← mean left
    let rightMean ← mean right
    let numerator := (List.zipWith (fun a b => (a - leftMean) * (b - rightMean)) left right).sum
    let denominator ← sqrt ((left.map fun value => (value - leftMean) ^ 2).sum *
      (right.map fun value => (value - rightMean) ^ 2).sum)
    if denominator = 0 then .ok 0 else divide numerator denominator

/-- the entropy of a share of rising returns -/
def entropy (probability : ℚ) : Except Error ℚ :=
  if probability = 0 ∨ probability = 1 then .ok 0
  else do
    let rising ← log2 probability
    let falling ← log2 (1 - probability)
    return -(probability * rising + (1 - probability) * falling)

/-- `1 if value > 0 else -1` -/
def direction (value : ℚ) : ℚ := if 0 < value then 1 else -1

/-- `_metric` once it has the mean and the deviation of the returns -/
def metricOf (index : ℕ) (w : MetricInputs) (meanReturn volatility : ℚ) : Except Error ℚ :=
  let downside := w.returns.filter fun value => decide (value < 0)
  let upside := w.returns.filter fun value => decide (0 < value)
  match index with
  | 0 => divide meanReturn volatility
  | 1 =>
    if downside = [] then .ok 0
    else do
      let deviation ← pstdev downside
      return -deviation * 100
  | 2 => do
    let capture ← divide upside.sum (|downside.sum| + tiny)
    return capture - 1
  | 3 => do
    let peak ← largest w.closes
    let latest ← fromEnd w.closes 1
    let fall ← divide (-(peak - latest)) peak
    return fall * 100
  | 4 => do
    let latest ← fromEnd w.closes 1
    let first ← entry w.closes 0
    let ratio ← divide latest first
    divide (ratio - 1) volatility
  | 5 => do
    let path := (w.returns.map fun value => |value|).sum + tiny
    let latest ← fromEnd w.closes 1
    let first ← entry w.closes 0
    let ratio ← divide latest first
    divide (ratio - 1) path
  | 6 => correlation w.returns.dropLast w.returns.tail
  | 7 => do
    let centered := w.returns.map fun value => value - meanReturn
    let skew ← mean (centered.map fun value => value ^ 3)
    divide skew (volatility ^ 3)
  | 8 => do
    let ordered := w.returns.insertionSort (· ≤ ·)
    let cutoff := max 1 (ordered.length / 10)
    let tail ← mean (ordered.take cutoff)
    return tail * 100
  | 9 => do
    let gaps ← (w.candles.zip w.candles.tail).mapM fun pair =>
      (divide pair.2.openPrice pair.1.close).map fun ratio => ratio - 1
    let latest ← fromEnd gaps 1
    return latest * 100
  | 10 => do
    let latest ← fromEnd w.ranges 1
    let baseline ← mean w.ranges.dropLast
    let ratio ← divide latest (baseline + tiny)
    return ratio - 1
  | 11 => do
    let recent ← mean (lastOf 5 w.ranges)
    let baseline ← mean (w.ranges.take (w.ranges.length - 5))
    let ratio ← divide recent (baseline + tiny)
    return 1 - ratio
  | 12 => do
    let latest ← fromEnd w.volumes 1
    let baseline ← mean (w.volumes.take 10)
    let ratio ← divide latest (baseline + tiny)
    return ratio - 1
  | 13 => do
    let deviation ← pstdev w.volumes
    let baseline ← mean w.volumes
    divide (-deviation) (baseline + tiny)
  | 14 => correlation w.returns w.volumes.tail
  | 15 => do
    let signedVolume := List.zipWith (fun volume body => if 0 ≤ body then volume else -volume)
      w.volumes w.bodies
    let flow ← mean signedVolume
    let baseline ← mean w.volumes
    divide flow (baseline + tiny)
  | 16 => do
    let candle ← fromEnd w.candles 1
    divide (2 * candle.close - candle.high - candle.low) (candle.high - candle.low + tiny)
  | 17 => do
    let candle ← fromEnd w.candles 1
    let upper := candle.high - max candle.openPrice candle.close
    let lower := min candle.openPrice candle.close - candle.low
    divide (lower - upper) (candle.high - candle.low + tiny)
  | 18 => do
    let latest ← fromEnd w.bodies 1
    let run := (w.bodies.reverse.takeWhile fun body =>
      decide (0 < body) == decide (0 < direction latest)).length
    return direction latest * run / 10
  | 19 => do
    let aligned := w.returns.countP fun value => decide (0 < value) == decide (0 < meanReturn)
    let share ← divide aligned w.returns.length
    return (share - 1 / 2) * (if 0 ≤ meanReturn then 1 else -1)
  | 20 => do
    let latest ← fromEnd w.closes 1
    let first ← entry w.closes 0
    let path := ((Indicators.changes w.closes).map fun change => |change|).sum
    let ratio ← divide (|latest - first| + tiny) (path + tiny)
    return ratio - 1 / 2
  | 21 => do
    let probability ← divide (w.returns.countP fun value => decide (0 < value)) w.returns.length
    let value ← entropy probability
    return 1 / 2 - value
  | 22 => do
    let shockIndex ← orRaise "ValueError"
      ((List.range w.returns.length).argmax fun item => |w.returns.getD item 0|)
    let shock ← entry w.returns shockIndex
    return (w.returns.drop (shockIndex + 1)).sum * (if shock < 0 then -1 else 1) * 100
  | 23 => do
    let intervals := List.zipWith (fun previous current : Candle =>
      ((current.closedAt - previous.closedAt : ℤ) : ℚ) / 10 ^ 6) w.candles w.candles.tail
    let deviation ← pstdev intervals
    let average ← mean intervals
    divide (-deviation) (average + tiny)
  | _ => do
    let latest ← fromEnd w.closes 1
    let short ← divide latest (← fromEnd w.closes 6)
    let medium ← divide latest (← fromEnd w.closes 16)
    let long ← divide latest (← entry w.closes 0)
    return (direction (short - 1) + direction (medium - 1) + direction (long - 1)) / 3

/-- `_metric` -/
def metric (index : ℕ) (w : MetricInputs) : Except Error ℚ := do
  let meanReturn ← mean w.returns
  let deviation ← pstdev w.returns
  metricOf index w meanReturn (orDefault (some deviation) tiny)

end AdvancedSpecialist

open AdvancedSpecialist in
/-- `AdvancedOHLCVSpecialist` -/
def advancedSpecialist (d : SpecialistDefinition) : Specialist where
  name := d.name
  limit := 80
  judge candles :=
    if candles.length < 30 then .ok (insufficient candles.length 30)
    else do
      let window := lastOf 30 candles
      let inputs ← metricInputs window
      let value ← metric d.metricIndex inputs
      let threshold : ℚ := if d.metricIndex ∈ [6, 7, 14, 17] then 5 / 100 else 0
      return {
        signal := if threshold < value then .buy else if value < -threshold then .sell else .hold
        confidence := min 90 (max 40 (truncate (50 + |value| * 20)))
        reason := d.capability ++ (" metric is " ++ Numeric.fixed 6 value) ++ ""
        evidence := [("metric", rounded value 8), ("metric_name", .str d.capability),
          ("observations", .num window.length), ("source", .str "normalized-ohlcv"),
          ("read_only", .bool true)] }

/-- `build_advanced_shadow_specialists` -/
def buildAdvancedShadowSpecialists : List Specialist := definitions.map advancedSpecialist

/-- thirty candles and what is computed of them -/
structure MetricInputs.Sound (w : MetricInputs) : Prop where
  closes_length : w.closes.length = 30
  closes_pos : ∀ v ∈ w.closes, 0 < v
  volumes_length : w.volumes.length = 30
  volumes_nonneg : ∀ v ∈ w.volumes, 0 ≤ v
  returns_length : w.returns.length = 29
  ranges_length : w.ranges.length = 30
  ranges_nonneg : ∀ v ∈ w.ranges, 0 ≤ v
  bodies_length : w.bodies.length = 30
  candles_length : w.candles.length = 30
  candles_sound : ∀ c ∈ w.candles, c.Sound

namespace AdvancedSpecialist

variable {window : List Candle} {w : MetricInputs} (meanReturn volatility : ℚ)

theorem ne_nil_of_length {α : Type} {xs : List α} {n : ℕ} (h : xs.length = n + 1) : xs ≠ [] := by
  rw [← List.length_pos_iff]
  omega

/-! ## The inputs -/

/-- thirty valid candles have every input -/
theorem metricInputs_returns (hlen : window.length = 30) (hvalid : ∀ c ∈ window, c.Sound) :
    Returns (metricInputs window) MetricInputs.Sound := by
  have hcloses : (closePrices window).length = 30 := by rwa [closePrices, List.length_map]
  have hpairs : ∀ pair ∈ (closePrices window).zip (closePrices window).tail, 0 < pair.1 := by
    intro pair hpair
    exact Specialists.closes_pos hvalid _ (List.of_mem_zip hpair).1
  have hfilter : (((closePrices window).zip (closePrices window).tail).filter fun pair =>
      decide (0 < pair.1)) = (closePrices window).zip (closePrices window).tail :=
    List.filter_eq_self.2 fun pair hpair => decide_eq_true (hpairs pair hpair)
  have hreturns : ∀ pair ∈ (closePrices window).zip (closePrices window).tail,
      Returns ((divide pair.2 pair.1).map fun ratio => ratio - 1) fun _ => True := by
    intro pair hpair
    exact (divide_returns (hpairs pair hpair).ne').map fun _ _ => trivial
  have hranges : ∀ c ∈ window, Returns (divide (c.high - c.low) c.close) (0 ≤ ·) := by
    intro c hc
    have hsound := hvalid c hc
    refine (divide_returns hsound.close_pos.ne').imp fun range hrange => ?_
    rw [hrange]
    exact div_nonneg (sub_nonneg.2 hsound.low_le_high) hsound.close_pos.le
  have hbodies : ∀ c ∈ window, Returns (divide (c.close - c.openPrice) c.openPrice) fun _ => True := by
    intro c hc
    exact (divide_returns (hvalid c hc).open_pos.ne').any
  dsimp only [metricInputs]
  rw [hfilter]
  refine (Returns.mapM hreturns).bind fun returns hreturned => ?_
  refine (Returns.mapM hranges).bind fun ranges hranged => ?_
  refine (Returns.mapM hbodies).bind fun bodies hbodied => ?_
  refine .ok ⟨hcloses, Specialists.closes_pos hvalid, ?_, ?_, ?_, ?_, ?_, ?_, hlen, hvalid⟩
  · rwa [List.length_map]
  · intro v hv
    obtain ⟨c, hc, rfl⟩ := List.mem_map.1 hv
    exact (hvalid c hc).volume_nonneg
  · rw [← hreturned.length_eq, List.length_zip, List.length_tail]
    omega
  · rw [← hranged.length_eq, hlen]
  · intro v hv
    obtain ⟨c, -, hv'⟩ := Result.forall₂_mem hranged hv
    exact hv'
  · rw [← hbodied.length_eq, hlen]

theorem close_returns {n : ℕ} (hw : w.Sound) (hpos : 0 < n) (h : n ≤ 30) :
    Returns (fromEnd w.closes n) (0 < ·) := by
  have hlen := hw.closes_length
  exact (fromEnd_returns hpos (by omega)).imp hw.closes_pos

theorem first_returns (hw : w.Sound) : Returns (entry w.closes 0) (0 < ·) := by
  have hlen := hw.closes_length
  exact (entry_returns (by omega)).imp hw.closes_pos

theorem candle_returns (hw : w.Sound) : Returns (fromEnd w.candles 1) Candle.Sound := by
  have hlen := hw.candles_length
  exact (fromEnd_returns (by decide) (by omega)).imp hw.candles_sound

/-- a mean of numbers that are not negative is a divisor once the least summand is added -/
theorem baseline_returns {values : List ℚ} (hne : values ≠ []) (h : ∀ v ∈ values, 0 ≤ v) :
    Returns (mean values) fun m => m + tiny ≠ 0 := by
  refine (mean_returns hne).imp fun m hm => ?_
  rw [hm]
  have := fmean_nonneg h
  unfold tiny
  positivity

/-! ## The metrics -/

theorem correlation_returns (left right : List ℚ) :
    Returns (correlation left right) fun _ => True := by
  apply Returns.ite
  · intro _
    exact .ok trivial
  · intro hlong
    obtain ⟨hsame, hfull⟩ := not_or.1 hlong
    have hleft : left ≠ [] := by
      rw [← List.length_pos_iff]
      omega
    have hright : right ≠ [] := by
      rw [← List.length_pos_iff]
      omega
    refine (mean_returns hleft).bind fun leftMean _ => ?_
    refine (mean_returns hright).bind fun rightMean _ => ?_
    have hsquares : ∀ (l : List ℚ) (m : ℚ), 0 ≤ (l.map fun value => (value - m) ^ 2).sum := by
      intro l m
      refine List.sum_nonneg fun v hv => ?_
      obtain ⟨x, -, rfl⟩ := List.mem_map.1 hv
      positivity
    have hproduct := mul_nonneg (hsquares left leftMean) (hsquares right rightMean)
    refine (sqrt_returns hproduct).bind fun denominator _ => ?_
    apply Returns.ite
    · intro _
      exact .ok trivial
    · intro hnonzero
      exact (divide_returns hnonzero).any

theorem entropy_returns {probability : ℚ} (h : 0 ≤ probability) (h' : probability ≤ 1) :
    Returns (entropy probability) fun _ => True := by
  apply Returns.ite
  · intro _
    exact .ok trivial
  · intro hinside
    obtain ⟨hzero, hone⟩ := not_or.1 hinside
    refine (log2_returns (lt_of_le_of_ne h (Ne.symm hzero))).bind fun rising _ => ?_
    refine (log2_returns (sub_pos.2 (lt_of_le_of_ne h' hone))).bind fun falling _ => ?_
    exact .ok trivial

/-- a share of the returns -/
theorem share_returns (hw : w.Sound) (p : ℚ → Bool) :
    Returns (divide (w.returns.countP p) w.returns.length) fun share => 0 ≤ share ∧ share ≤ 1 := by
  have hlen : (0 : ℚ) < w.returns.length := by
    rw [hw.returns_length]
    norm_num
  refine (divide_returns hlen.ne').imp fun share hshare => ?_
  rw [hshare]
  refine ⟨by positivity, ?_⟩
  rw [div_le_one hlen]
  exact_mod_cast List.countP_le_length

theorem downside_returns : Returns (metricOf 1 w meanReturn volatility) fun _ => True := by
  apply Returns.ite
  · intro _
    exact .ok trivial
  · intro hsome
    exact (pstdev_returns hsome).bind fun deviation _ => .ok trivial

theorem capture_returns : Returns (metricOf 2 w meanReturn volatility) fun _ => True := by
  have hpos : |(w.returns.filter fun value => decide (value < 0)).sum| + tiny ≠ 0 := by
    unfold tiny
    positivity
  exact (divide_returns hpos).bind fun capture _ => .ok trivial

theorem drawdown_returns (hw : w.Sound) :
    Returns (metricOf 3 w meanReturn volatility) fun _ => True := by
  refine (largest_returns (ne_nil_of_length hw.closes_length)).bind fun peak hpeak => ?_
  refine (close_returns hw (by decide) (by decide)).bind fun latest _ => ?_
  refine (divide_returns (hw.closes_pos peak hpeak.1).ne').bind fun fall _ => ?_
  exact .ok trivial

theorem trend_returns (hw : w.Sound) (hvolatility : volatility ≠ 0) :
    Returns (metricOf 4 w meanReturn volatility) fun _ => True := by
  refine (close_returns hw (by decide) (by decide)).bind fun latest _ => ?_
  refine (first_returns hw).bind fun first hfirst => ?_
  refine (divide_returns hfirst.ne').bind fun ratio _ => ?_
  exact (divide_returns hvolatility).any

theorem sum_abs_nonneg (values : List ℚ) : 0 ≤ (values.map fun value => |value|).sum := by
  refine List.sum_nonneg fun v hv => ?_
  obtain ⟨x, -, rfl⟩ := List.mem_map.1 hv
  exact abs_nonneg x

theorem efficiency_returns (hw : w.Sound) :
    Returns (metricOf 5 w meanReturn volatility) fun _ => True := by
  have hpath : (w.returns.map fun value => |value|).sum + tiny ≠ 0 := by
    have hsum := sum_abs_nonneg w.returns
    unfold tiny
    positivity
  refine (close_returns hw (by decide) (by decide)).bind fun latest _ => ?_
  refine (first_returns hw).bind fun first hfirst => ?_
  refine (divide_returns hfirst.ne').bind fun ratio _ => ?_
  exact (divide_returns hpath).any

theorem skew_returns (hw : w.Sound) (hvolatility : volatility ≠ 0) :
    Returns (metricOf 7 w meanReturn volatility) fun _ => True := by
  have hlen := hw.returns_length
  have hne : ((w.returns.map fun value => value - meanReturn).map fun value => value ^ 3) ≠ [] := by
    rw [← List.length_pos_iff, List.length_map, List.length_map]
    omega
  refine (mean_returns hne).bind fun skew _ => ?_
  exact (divide_returns (pow_ne_zero 3 hvolatility)).any

theorem tail_returns (hw : w.Sound) :
    Returns (metricOf 8 w meanReturn volatility) fun _ => True := by
  have hlen : (w.returns.insertionSort (· ≤ ·)).length = 29 := by
    rw [List.length_insertionSort, hw.returns_length]
  have hne : (w.returns.insertionSort (· ≤ ·)).take
      (max 1 ((w.returns.insertionSort (· ≤ ·)).length / 10)) ≠ [] := by
    rw [← List.length_pos_iff, List.length_take]
    omega
  exact (mean_returns hne).bind fun tail _ => .ok trivial

theorem gap_returns (hw : w.Sound) :
    Returns (metricOf 9 w meanReturn volatility) fun _ => True := by
  have hlen := hw.candles_length
  have hgaps : ∀ pair ∈ w.candles.zip w.candles.tail,
      Returns ((divide pair.2.openPrice pair.1.close).map fun ratio => ratio - 1) fun _ => True := by
    intro pair hpair
    have hsound := hw.candles_sound pair.1 (List.of_mem_zip hpair).1
    exact (divide_returns hsound.close_pos.ne').map fun _ _ => trivial
  refine (Returns.mapM hgaps).bind fun gaps hgap => ?_
  have hsome : 1 ≤ gaps.length := by
    rw [← hgap.length_eq, List.length_zip, List.length_tail]
    omega
  exact (fromEnd_returns (by decide) hsome).bind fun latest _ => .ok trivial

theorem expansion_returns (hw : w.Sound) :
    Returns (metricOf 10 w meanReturn volatility) fun _ => True := by
  have hlen := hw.ranges_length
  have hne : w.ranges.dropLast ≠ [] := by
    rw [← List.length_pos_iff, List.length_dropLast]
    omega
  refine (fromEnd_returns (by decide) (by omega)).bind fun latest _ => ?_
  refine (baseline_returns hne fun v hv => hw.ranges_nonneg v (List.mem_of_mem_dropLast hv)).bind
    fun baseline hbaseline => ?_
  exact (divide_returns hbaseline).bind fun ratio _ => .ok trivial

theorem compression_returns (hw : w.Sound) :
    Returns (metricOf 11 w meanReturn volatility) fun _ => True := by
  have hlen := hw.ranges_length
  have hrecent : lastOf 5 w.ranges ≠ [] := lastOf_ne_nil (by decide) (ne_nil_of_length hlen)
  have hearlier : w.ranges.take (w.ranges.length - 5) ≠ [] := by
    rw [← List.length_pos_iff, List.length_take]
    omega
  refine (mean_returns hrecent).bind fun recent _ => ?_
  refine (baseline_returns hearlier fun v hv => hw.ranges_nonneg v (List.mem_of_mem_take hv)).bind
    fun baseline hbaseline => ?_
  exact (divide_returns hbaseline).bind fun ratio _ => .ok trivial

theorem volumeTrend_returns (hw : w.Sound) :
    Returns (metricOf 12 w meanReturn volatility) fun _ => True := by
  have hlen := hw.volumes_length
  have hne : w.volumes.take 10 ≠ [] := by
    rw [← List.length_pos_iff, List.length_take]
    omega
  refine (fromEnd_returns (by decide) (by omega)).bind fun latest _ => ?_
  refine (baseline_returns hne fun v hv => hw.volumes_nonneg v (List.mem_of_mem_take hv)).bind
    fun baseline hbaseline => ?_
  exact (divide_returns hbaseline).bind fun ratio _ => .ok trivial

theorem volumeBaseline_returns (hw : w.Sound) :
    Returns (mean w.volumes) fun m => m + tiny ≠ 0 :=
  baseline_returns (ne_nil_of_length hw.volumes_length) hw.volumes_nonneg

theorem volumeVolatility_returns (hw : w.Sound) :
    Returns (metricOf 13 w meanReturn volatility) fun _ => True := by
  refine (pstdev_returns (ne_nil_of_length hw.volumes_length)).bind fun deviation _ => ?_
  refine (volumeBaseline_returns hw).bind fun baseline hbaseline => ?_
  exact (divide_returns hbaseline).any

theorem flow_returns (hw : w.Sound) :
    Returns (metricOf 15 w meanReturn volatility) fun _ => True := by
  have hsigned : List.zipWith (fun volume body => if 0 ≤ body then volume else -volume)
      w.volumes w.bodies ≠ [] := by
    rw [← List.length_pos_iff, List.length_zipWith, hw.volumes_length, hw.bodies_length]
    decide
  refine (mean_returns hsigned).bind fun flow _ => ?_
  refine (volumeBaseline_returns hw).bind fun baseline hbaseline => ?_
  exact (divide_returns hbaseline).any

theorem range_ne_zero {c : Candle} (h : c.Sound) : c.high - c.low + tiny ≠ 0 := by
  have := sub_nonneg.2 h.low_le_high
  unfold tiny
  positivity

theorem location_returns (hw : w.Sound) :
    Returns (metricOf 16 w meanReturn volatility) fun _ => True := by
  refine (candle_returns hw).bind fun candle hcandle => ?_
  exact (divide_returns (range_ne_zero hcandle)).any

theorem wick_returns (hw : w.Sound) :
    Returns (metricOf 17 w meanReturn volatility) fun _ => True := by
  refine (candle_returns hw).bind fun candle hcandle => ?_
  exact (divide_returns (range_ne_zero hcandle)).any

theorem run_returns (hw : w.Sound) :
    Returns (metricOf 18 w meanReturn volatility) fun _ => True := by
  have hlen := hw.bodies_length
  exact (fromEnd_returns (by decide) (by omega)).bind fun latest _ => .ok trivial

theorem persistence_returns (hw : w.Sound) :
    Returns (metricOf 19 w meanReturn volatility) fun _ => True :=
  (share_returns hw _).bind fun _ _ => .ok trivial

theorem complexity_returns (hw : w.Sound) :
    Returns (metricOf 20 w meanReturn volatility) fun _ => True := by
  have hpath : ((Indicators.changes w.closes).map fun change => |change|).sum + tiny ≠ 0 := by
    have hsum := sum_abs_nonneg (Indicators.changes w.closes)
    unfold tiny
    positivity
  refine (close_returns hw (by decide) (by decide)).bind fun latest _ => ?_
  refine (first_returns hw).bind fun first _ => ?_
  exact (divide_returns hpath).bind fun ratio _ => .ok trivial

theorem directional_returns (hw : w.Sound) :
    Returns (metricOf 21 w meanReturn volatility) fun _ => True := by
  refine (share_returns hw _).bind fun probability hshare => ?_
  exact (entropy_returns hshare.1 hshare.2).bind fun value _ => .ok trivial

theorem recovery_returns (hw : w.Sound) :
    Returns (metricOf 22 w meanReturn volatility) fun _ => True := by
  have hlen := hw.returns_length
  have hsome : (List.range w.returns.length).argmax (fun item => |w.returns.getD item 0|) ≠ none := by
    rw [Ne, List.argmax_eq_none, List.range_eq_nil]
    omega
  obtain ⟨shockIndex, hshock⟩ := Option.ne_none_iff_exists'.1 hsome
  have hindex : shockIndex < w.returns.length := List.mem_range.1 (List.argmax_mem hshock)
  have hraise : Returns (orRaise "ValueError"
      ((List.range w.returns.length).argmax fun item => |w.returns.getD item 0|)) (· = shockIndex) := by
    rw [hshock]
    exact .ok rfl
  refine hraise.bind fun index hindex' => ?_
  rw [hindex']
  exact (entry_returns hindex).bind fun shock _ => .ok trivial

/-- close times lie whole microseconds apart, so no mean of them cancels the least summand -/
theorem interval_ne_zero {n : ℕ} (k : ℤ) (hn : 0 < n) (h : n < 10 ^ 6) :
    (k : ℚ) / 10 ^ 6 / n + tiny ≠ 0 := by
  intro hzero
  have hn' : (n : ℚ) ≠ 0 := by exact_mod_cast hn.ne'
  unfold tiny at hzero
  field_simp at hzero
  have hint : k * 10 ^ 6 + n = 0 := by
    have : (k * 10 ^ 6 + n : ℚ) = 0 := by linarith
    exact_mod_cast this
  omega

theorem sum_microseconds (values : List ℤ) :
    (values.map fun value : ℤ => (value : ℚ) / 10 ^ 6).sum = ((values.sum : ℤ) : ℚ) / 10 ^ 6 := by
  induction values with
  | nil => simp
  | cons value values ih =>
    rw [List.map_cons, List.sum_cons, ih, List.sum_cons, Int.cast_add, add_div]

theorem freshness_returns (hw : w.Sound) :
    Returns (metricOf 23 w meanReturn volatility) fun _ => True := by
  have hlen : (List.zipWith (fun previous current : Candle =>
      ((current.closedAt - previous.closedAt : ℤ) : ℚ) / 10 ^ 6) w.candles w.candles.tail).length =
        29 := by
    rw [List.length_zipWith, List.length_tail, hw.candles_length]
    decide
  refine (pstdev_returns (ne_nil_of_length hlen)).bind fun deviation _ => ?_
  refine (mean_returns (ne_nil_of_length hlen)).bind fun average haverage => ?_
  have hnonzero : average + tiny ≠ 0 := by
    have hmap : List.zipWith (fun previous current : Candle =>
        ((current.closedAt - previous.closedAt : ℤ) : ℚ) / 10 ^ 6) w.candles w.candles.tail =
          (List.zipWith (fun previous current : Candle =>
            (current.closedAt - previous.closedAt : ℤ)) w.candles w.candles.tail).map
              fun value : ℤ => (value : ℚ) / 10 ^ 6 := by
      rw [List.map_zipWith]
    rw [haverage, fmean, hlen, hmap, sum_microseconds]
    exact interval_ne_zero _ (by decide) (by decide)
  exact (divide_returns hnonzero).any

theorem consensus_returns (hw : w.Sound) :
    Returns (metricOf 24 w meanReturn volatility) fun _ => True := by
  refine (close_returns hw (by decide) (by decide)).bind fun latest _ => ?_
  refine (close_returns hw (by decide) (by decide)).bind fun earlier hearlier => ?_
  refine (divide_returns hearlier.ne').bind fun short _ => ?_
  refine (close_returns hw (by decide) (by decide)).bind fun older holder => ?_
  refine (divide_returns holder.ne').bind fun medium _ => ?_
  refine (first_returns hw).bind fun first hfirst => ?_
  exact (divide_returns hfirst.ne').bind fun long _ => .ok trivial

/-- **Every metric is total.** On thirty valid candles no metric divides by zero, looks for a missing
entry or takes the mean, the extreme or the logarithm of nothing. -/
theorem metricOf_returns (index : ℕ) (hw : w.Sound) (hvolatility : volatility ≠ 0) :
    Returns (metricOf index w meanReturn volatility) fun _ => True := by
  unfold metricOf
  dsimp only
  split
  · exact (divide_returns hvolatility).any
  · exact downside_returns meanReturn volatility
  · exact capture_returns meanReturn volatility
  · exact drawdown_returns meanReturn volatility hw
  · exact trend_returns meanReturn volatility hw hvolatility
  · exact efficiency_returns meanReturn volatility hw
  · exact correlation_returns _ _
  · exact skew_returns meanReturn volatility hw hvolatility
  · exact tail_returns meanReturn volatility hw
  · exact gap_returns meanReturn volatility hw
  · exact expansion_returns meanReturn volatility hw
  · exact compression_returns meanReturn volatility hw
  · exact volumeTrend_returns meanReturn volatility hw
  · exact volumeVolatility_returns meanReturn volatility hw
  · exact correlation_returns _ _
  · exact flow_returns meanReturn volatility hw
  · exact location_returns meanReturn volatility hw
  · exact wick_returns meanReturn volatility hw
  · exact run_returns meanReturn volatility hw
  · exact persistence_returns meanReturn volatility hw
  · exact complexity_returns meanReturn volatility hw
  · exact directional_returns meanReturn volatility hw
  · exact recovery_returns meanReturn volatility hw
  · exact freshness_returns meanReturn volatility hw
  · exact consensus_returns meanReturn volatility hw

theorem metric_returns (index : ℕ) (hw : w.Sound) : Returns (metric index w) fun _ => True := by
  have hreturns := ne_nil_of_length hw.returns_length
  refine (mean_returns hreturns).bind fun meanReturn _ => ?_
  refine (pstdev_returns hreturns).bind fun deviation _ => ?_
  have htiny : tiny ≠ 0 := by norm_num [tiny]
  exact metricOf_returns _ _ index hw (orDefault_ne_zero htiny)

/-- a definition with a capability that fits the reason makes a total specialist -/
theorem advancedSpecialist_returns {d : SpecialistDefinition} {candles : List Candle}
    (hcapability : 1 ≤ d.capability.length ∧ d.capability.length ≤ 100)
    (hvalid : ∀ c ∈ candles, c.Sound) :
    Returns ((advancedSpecialist d).judge candles) Judgement.Valid := by
  refine Specialists.enough_returns (by decide) fun hlong => ?_
  have hwindow : (lastOf 30 candles).length = 30 := by
    rw [length_lastOf]
    omega
  refine (metricInputs_returns hwindow fun c hc => hvalid c (mem_of_mem_lastOf hc)).bind
    fun inputs hinputs => ?_
  refine (metric_returns d.metricIndex hinputs).bind fun value _ => ?_
  refine .ok (Judgement.valid ?_ (Specialists.reason_valid hcapability ?_ (by decide)))
  · dsimp only
    omega
  · have hfixed := Numeric.length_fixed_le (show 0 < 6 by decide) le_rfl value
    rw [String.length_append, show (" metric is ").length = 11 from rfl]
    omega

end AdvancedSpecialist

end CapitalCipher
