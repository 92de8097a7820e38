/-
The technical indicators of `agents/indicators.py`, in exact arithmetic, and what they give on a window
of prices seen in a mirror (every price `p` replaced by `c - p`).

  • `ema_affine`: an exponential moving average commutes with affine maps of its values.
  • `vwap_mirror`, `macd_mirror`, `atr_mirror`: the level, the sign and nothing of an indicator change.
  • `rsi_mirror`: gains and losses change places, so the index is reflected at 50, unless no close
    differs from another.
  • `rsi_range`: the index lies between 0 and 100.
-/
import Mathlib.Tactic.FieldSimp
import Mathlib.Tactic.Linarith
import Mathlib.Tactic.Positivity
import Mathlib.Tactic.Ring
import CapitalCipher.Schemas.Market

namespace CapitalCipher

/-- `xs[-n:]`, for `n` other than 0 -/
def lastOf {α : Type} (n : ℕ) (xs : List α) : List α := xs.drop (xs.length - n)

theorem lastOf_map {α β : Type} (n : ℕ) (f : α → β) (xs : List α) :
    lastOf n (xs.map f) = (lastOf n xs).map f := by
  rw [lastOf, lastOf, List.length_map, List.map_drop]

theorem length_lastOf {α : Type} (n : ℕ) (xs : List α) :
    (lastOf n xs).length = min n xs.length := by
  rw [lastOf, List.length_drop]
  omega

namespace Indicators

/-- the loop of `ema` -/
def emaFrom (k : ℚ) : (last : ℚ) → List ℚ → List ℚ
  | last, [] => [last]
  | last, value :: values => last :: emaFrom k (value * k + last * (1 - k)) values

/-- `ema` -/
def ema (values : List ℚ) (period : ℕ) : List ℚ :=
  if values.length < period then []
  else emaFrom (2 / (period + 1)) ((values.take period).sum / period) (values.drop period)

/-- one step of Wilder's smoothing -/
def smooth (period : ℕ) (average value : ℚ) : ℚ := (average * (period - 1) + value) / period

/-- the mean of the first values, then Wilder's smoothing over the rest -/
def wilder (period : ℕ) (values : List ℚ) : ℚ :=
  (values.drop period).foldl (smooth period) ((values.take period).sum / period)

/-- `curr - prev` over neighbours -/
def changes (closes : List ℚ) : List ℚ :=
  List.zipWith (fun prev curr => curr - prev) closes closes.tail

def averageGain (closes : List ℚ) (period : ℕ) : ℚ :=
  wilder period ((changes closes).map fun change => max change 0)

def averageLoss (closes : List ℚ) (period : ℕ) : ℚ :=
  wilder period ((changes closes).map fun change => max (-change) 0)

/-- `rsi` -/
def rsi (closes : List ℚ) (period : ℕ) : Option ℚ :=
  if closes.length < period + 1 then none
  else if averageLoss closes period = 0 then some 100
  else some (100 - 100 / (1 + averageGain closes period / averageLoss closes period))

/-- one true range of `atr` -/
def trueRange (prev curr : Candle) : ℚ :=
  max (max (curr.high - curr.low) |curr.high - prev.close|) |curr.low - prev.close|

/-- `atr` -/
def atr (candles : List Candle) (period : ℕ) : Option ℚ :=
  if candles.length < period + 1 then none
  else some (wilder period (List.zipWith trueRange candles candles.tail))

/-- the price `vwap` weighs -/
def typicalPrice (c : Candle) : ℚ := (c.high + c.low + c.close) / 3

/-- `vwap` -/
def vwap (candles : List Candle) : Option ℚ :=
  if (candles.map Candle.volume).sum = 0 then none
  else some ((candles.map fun c => typicalPrice c * c.volume).sum / (candles.map Candle.volume).sum)

/-- the tails of two averages, subtracted -/
def macdLine (closes : List ℚ) (fast slow : ℕ) : List ℚ :=
  let size := min (ema closes fast).length (ema closes slow).length
  List.zipWith (fun f s => f - s) (lastOf size (ema closes fast)) (lastOf size (ema closes slow))

/-- `macd`: the line, the signal line and the histogram at the latest close -/
def macd (closes : List ℚ) (fast slow signalPeriod : ℕ) : Option (ℚ × ℚ × ℚ) :=
  if closes.length < slow + signalPeriod then none
  else
    let signalSeries := ema (macdLine closes fast slow) signalPeriod
    if signalSeries.isEmpty then none
    else
      let macdValue := (macdLine closes fast slow).getLastD 0
      let signalValue := signalSeries.getLastD 0
      some (macdValue, signalValue, macdValue - signalValue)

/-- `volume_ratio` -/
def volumeRatio (candles : List Candle) (period : ℕ) : Option ℚ :=
  if candles.length < period + 1 then none
  else
    let average := ((lastOf (period + 1) candles).dropLast.map Candle.volume).sum / period
    if average = 0 then none
    else some (((candles.map Candle.volume).getLastD 0) / average)

/-! ## Affine maps of the values -/

theorem sum_affine (a b : ℚ) (values : List ℚ) :
    (values.map fun v => a + b * v).sum = a * values.length + b * values.sum := by
  induction values with
  | nil => simp
  | cons v values ih =>
    rw [List.map_cons, List.sum_cons, ih, List.sum_cons, List.length_cons]
    push_cast
    ring

theorem emaFrom_affine (k a b last : ℚ) (values : List ℚ) :
    emaFrom k (a + b * last) (values.map fun v => a + b * v) =
      (emaFrom k last values).map fun v => a + b * v := by
  induction values generalizing last with
  | nil => rfl
  | cons v values ih =>
    have hstep : (a + b * v) * k + (a + b * last) * (1 - k) =
        a + b * (v * k + last * (1 - k)) := by ring
    rw [List.map_cons, emaFrom, emaFrom, List.map_cons, hstep, ih]

theorem length_emaFrom (k last : ℚ) (values : List ℚ) :
    (emaFrom k last values).length = values.length + 1 := by
  induction values generalizing last with
  | nil => rfl
  | cons v values ih => rw [emaFrom, List.length_cons, ih, List.length_cons]

/-- an average commutes with affine maps -/
theorem ema_affine (a b : ℚ) {period : ℕ} (hpos : 0 < period) (values : List ℚ) :
    ema (values.map fun v => a + b * v) period = (ema values period).map fun v => a + b * v := by
  unfold ema
  rw [List.length_map]
  split_ifs with hshort
  · rfl
  · have hlength : (values.take period).length = period := by
      rw [List.length_take]
      omega
    have hperiod : (period : ℚ) ≠ 0 := by exact_mod_cast hpos.ne'
    have hseed : (((values.map fun v => a + b * v).take period).sum) / period =
        a + b * ((values.take period).sum / period) := by
      rw [← List.map_take, sum_affine, hlength]
      field_simp
    rw [hseed, ← List.map_drop, emaFrom_affine]

theorem length_ema {values : List ℚ} {period : ℕ} (h : period ≤ values.length) :
    (ema values period).length = values.length - period + 1 := by
  rw [ema, if_neg (not_lt.2 h), length_emaFrom, List.length_drop]

theorem getLastD_map {α β : Type} (f : α → β) (d : α) (d' : β) {xs : List α} (h : xs ≠ []) :
    (xs.map f).getLastD d' = f (xs.getLastD d) := by
  rw [List.getLastD_eq_getLast?, List.getLastD_eq_getLast?, List.getLast?_map,
    List.getLast?_eq_some_getLast h]
  rfl

/-! ## In the mirror -/

/-- the candle with every price `p` replaced by `c - p`, high and low exchanged -/
def mirrored (c : ℚ) (k : Candle) : Candle :=
  { k with openPrice := c - k.openPrice, high := c - k.low, low := c - k.high, close := c - k.close }

/-- a valid candle below `c` stays valid -/
theorem mirrored_check {c : ℚ} {k : Candle} (h : k.check = .ok k) (hc : k.high < c) :
    (mirrored c k).check = .ok (mirrored c k) := by
  rw [Candle.check, validateModel_ok] at h ⊢
  simp only [List.forall_mem_cons, List.not_mem_nil, false_imp_iff, implies_true, and_true,
    decide_eq_true_eq] at h ⊢
  obtain ⟨⟨hsymbol, htimeframe, -, -, -, -, hvolume⟩, ⟨hhigh, hlow⟩⟩ := h
  refine ⟨⟨hsymbol, htimeframe, ?_, ?_, ?_, ?_, hvolume⟩, ⟨?_, ?_, ?_⟩, ?_, ?_, ?_⟩
  all_goals simp only [mirrored]; linarith [hhigh.1, hhigh.2.1, hhigh.2.2, hlow.1, hlow.2.1]

variable {c : ℚ} {closes : List ℚ} {candles : List Candle} {period : ℕ}

theorem closes_mirrored : (candles.map (mirrored c)).map Candle.close =
    (candles.map Candle.close).map fun p => c - p := by
  rw [List.map_map, List.map_map]
  rfl

theorem volumes_mirrored :
    (candles.map (mirrored c)).map Candle.volume = candles.map Candle.volume := by
  rw [List.map_map]
  rfl

/-- `c - p` as an affine map -/
theorem mirror_eq_affine : (fun p : ℚ => c - p) = fun p => c + (-1) * p := by
  funext p
  ring

/-- a moving average is reflected -/
theorem ema_mirror (hpos : 0 < period) :
    ema (closes.map fun p => c - p) period = (ema closes period).map fun p => c - p := by
  rw [mirror_eq_affine]
  exact ema_affine c (-1) hpos closes

/-- the line changes its sign -/
theorem macdLine_mirror {fast slow : ℕ} (hfast : 0 < fast) (hslow : 0 < slow) :
    macdLine (closes.map fun p => c - p) fast slow = (macdLine closes fast slow).map fun v => -v := by
  unfold macdLine
  dsimp only
  rw [ema_mirror hfast, ema_mirror hslow, List.length_map, List.length_map, lastOf_map, lastOf_map,
    List.zipWith_map, List.map_zipWith]
  congr 1
  funext f s
  ring

theorem ema_neg (hpos : 0 < period) (values : List ℚ) :
    ema (values.map fun v => -v) period = (ema values period).map fun v => -v := by
  have haffine : (fun v : ℚ => -v) = fun v => 0 + (-1) * v := by
    funext v
    ring
  rw [haffine]
  exact ema_affine 0 (-1) hpos values

theorem macdLine_ne_nil {fast slow : ℕ} (hfast : fast ≤ closes.length) (hslow : slow ≤ closes.length) :
    macdLine closes fast slow ≠ [] := by
  intro h
  have hlength := congrArg List.length h
  simp only [macdLine, List.length_zipWith, length_lastOf, length_ema hfast, length_ema hslow,
    List.length_nil] at hlength
  omega

/-- enough closes for the slow average and the signal line give a histogram -/
theorem macd_some {fast slow signalPeriod : ℕ} (hslow : fast ≤ slow) (hsignal : 0 < signalPeriod)
    (h : slow + signalPeriod ≤ closes.length) : ∃ m, macd closes fast slow signalPeriod = some m := by
  have hline : signalPeriod ≤ (macdLine closes fast slow).length := by
    simp only [macdLine, List.length_zipWith, length_lastOf, length_ema (show fast ≤ closes.length by omega),
      length_ema (show slow ≤ closes.length by omega)]
    omega
  have hseries : (ema (macdLine closes fast slow) signalPeriod).isEmpty = false := by
    rw [List.isEmpty_eq_false_iff]
    intro hnil
    have hlength := length_ema hline
    rw [hnil, List.length_nil] at hlength
    omega
  unfold macd
  dsimp only
  rw [if_neg (not_lt.2 h), hseries]
  exact ⟨_, rfl⟩

/-- line, signal line and histogram change their signs -/
theorem macd_mirror {fast slow signalPeriod : ℕ} (hfast : 0 < fast) (hslow : fast ≤ slow)
    (hsignal : 0 < signalPeriod) :
    macd (closes.map fun p => c - p) fast slow signalPeriod =
      (macd closes fast slow signalPeriod).map fun m => (-m.1, -m.2.1, -m.2.2) := by
  unfold macd
  rw [List.length_map]
  split_ifs with hshort
  · rfl
  · have hline : macdLine closes fast slow ≠ [] := macdLine_ne_nil (by omega) (by omega)
    dsimp only
    rw [macdLine_mirror hfast (by omega), ema_neg hsignal]
    by_cases hseries : ema (macdLine closes fast slow) signalPeriod = []
    · rw [hseries]
      rfl
    · have hfull : (ema (macdLine closes fast slow) signalPeriod).isEmpty = false := by
        rwa [List.isEmpty_eq_false_iff]
      rw [List.isEmpty_map, hfull, getLastD_map _ 0 0 hline, getLastD_map _ 0 0 hseries]
      simp only [Bool.false_eq_true, if_false, Option.map_some]
      rw [neg_sub_neg, neg_sub]

/-- the average price is reflected -/
theorem vwap_mirror : vwap (candles.map (mirrored c)) = (vwap candles).map fun v => c - v := by
  have hsum : ∀ l : List Candle,
      ((l.map (mirrored c)).map fun k => typicalPrice k * k.volume).sum =
        c * (l.map Candle.volume).sum - (l.map fun k => typicalPrice k * k.volume).sum := by
    intro l
    induction l with
    | nil => simp
    | cons k l ih =>
      simp only [List.map_cons, List.sum_cons] at ih ⊢
      rw [ih]
      simp only [typicalPrice, mirrored]
      ring
  unfold vwap
  rw [volumes_mirrored]
  split_ifs with hzero
  · rfl
  · rw [hsum, sub_div, mul_div_assoc, div_self hzero, mul_one]
    rfl

theorem volumeRatio_mirror :
    volumeRatio (candles.map (mirrored c)) period = volumeRatio candles period := by
  unfold volumeRatio
  rw [List.length_map, lastOf_map, volumes_mirrored, ← List.map_dropLast, volumes_mirrored]

theorem trueRange_mirror (prev curr : Candle) :
    trueRange (mirrored c prev) (mirrored c curr) = trueRange prev curr := by
  have h1 : c - curr.low - (c - curr.high) = curr.high - curr.low := by ring
  have h2 : c - curr.low - (c - prev.close) = -(curr.low - prev.close) := by ring
  have h3 : c - curr.high - (c - prev.close) = -(curr.high - prev.close) := by ring
  simp only [trueRange, mirrored, h1, h2, h3, abs_neg]
  rw [max_assoc, max_comm |curr.low - prev.close|, ← max_assoc]

/-- the range of the prices is kept -/
theorem atr_mirror : atr (candles.map (mirrored c)) period = atr candles period := by
  unfold atr
  rw [List.length_map, ← List.map_tail, List.zipWith_map]
  simp only [trueRange_mirror]

theorem changes_mirror : changes (closes.map fun p => c - p) = (changes closes).map fun d => -d := by
  unfold changes
  rw [← List.map_tail, List.zipWith_map, List.map_zipWith]
  congr 1
  funext a b
  ring

/-- gains become losses -/
theorem averageGain_mirror : averageGain (closes.map fun p => c - p) period = averageLoss closes period := by
  rw [averageGain, averageLoss, changes_mirror, List.map_map]
  rfl

theorem averageLoss_mirror : averageLoss (closes.map fun p => c - p) period = averageGain closes period := by
  rw [averageGain, averageLoss, changes_mirror, List.map_map]
  simp only [Function.comp_def, neg_neg]

/-! ## Wilder's averages -/

theorem smoothed_nonneg {average : ℚ} {values : List ℚ} (hpos : 0 < period) (h : 0 ≤ average)
    (hvalues : ∀ v ∈ values, 0 ≤ v) :
    0 ≤ values.foldl (smooth period) average := by
  induction values generalizing average with
  | nil => exact h
  | cons v values ih =>
    have hperiod : (1 : ℚ) ≤ period := by exact_mod_cast hpos
    have hv := hvalues v List.mem_cons_self
    refine ih ?_ fun x hx => hvalues x (List.mem_cons_of_mem v hx)
    exact div_nonneg (add_nonneg (mul_nonneg h (by linarith)) hv) (by linarith)

theorem wilder_nonneg {values : List ℚ} (hpos : 0 < period) (hvalues : ∀ v ∈ values, 0 ≤ v) :
    0 ≤ wilder period values := by
  refine smoothed_nonneg hpos ?_ fun v hv => hvalues v (List.mem_of_mem_drop hv)
  refine div_nonneg (List.sum_nonneg fun v hv => hvalues v (List.mem_of_mem_take hv)) ?_
  exact Nat.cast_nonneg period

theorem averageGain_nonneg (hpos : 0 < period) : 0 ≤ averageGain closes period := by
  refine wilder_nonneg hpos fun v hv => ?_
  obtain ⟨d, -, rfl⟩ := List.mem_map.1 hv
  exact le_max_right d 0

theorem averageLoss_nonneg (hpos : 0 < period) : 0 ≤ averageLoss closes period := by
  refine wilder_nonneg hpos fun v hv => ?_
  obtain ⟨d, -, rfl⟩ := List.mem_map.1 hv
  exact le_max_right (-d) 0

/-- the index is a share of the gains -/
theorem rsi_eq {value : ℚ} (hpos : 0 < period) (h : rsi closes period = some value)
    (hmoved : averageGain closes period ≠ 0 ∨ averageLoss closes period ≠ 0) :
    value = 100 * averageGain closes period /
      (averageGain closes period + averageLoss closes period) := by
  have hgain : 0 ≤ averageGain closes period := averageGain_nonneg hpos
  have hloss : 0 ≤ averageLoss closes period := averageLoss_nonneg hpos
  unfold rsi at h
  split_ifs at h with hshort hzero
  · cases h
    have hgain' : averageGain closes period ≠ 0 := hmoved.resolve_right fun h => h hzero
    rw [hzero, add_zero, mul_div_assoc, div_self hgain', mul_one]
  · cases h
    have hsum : averageGain closes period + averageLoss closes period ≠ 0 := by positivity
    have hsum' : averageLoss closes period + averageGain closes period ≠ 0 := by positivity
    field_simp
    ring

theorem rsi_range {value : ℚ} (hpos : 0 < period) (h : rsi closes period = some value) :
    0 ≤ value ∧ value ≤ 100 := by
  have hgain : 0 ≤ averageGain closes period := averageGain_nonneg hpos
  have hloss : 0 ≤ averageLoss closes period := averageLoss_nonneg hpos
  by_cases hmoved : averageGain closes period = 0 ∧ averageLoss closes period = 0
  · rw [rsi, if_pos hmoved.2] at h
    split_ifs at h
    cases h
    norm_num
  · have hsome : averageGain closes period ≠ 0 ∨ averageLoss closes period ≠ 0 := by
      by_contra hnone
      obtain ⟨hno, hno'⟩ := not_or.1 hnone
      exact hmoved ⟨not_not.1 hno, not_not.1 hno'⟩
    have hsum : 0 < averageGain closes period + averageLoss closes period := by
      rcases hsome with h | h
      · exact add_pos_of_pos_of_nonneg (lt_of_le_of_ne hgain h.symm) hloss
      · exact add_pos_of_nonneg_of_pos hgain (lt_of_le_of_ne hloss h.symm)
    rw [rsi_eq hpos h hsome]
    constructor
    · positivity
    · rw [div_le_iff₀ hsum]
      linarith

/-- the index is reflected at 50 as soon as one close differs from the one before it -/
theorem rsi_mirror (hpos : 0 < period)
    (hmoved : averageGain closes period ≠ 0 ∨ averageLoss closes period ≠ 0) :
    rsi (closes.map fun p => c - p) period = (rsi closes period).map fun v => 100 - v := by
  have hgain : 0 ≤ averageGain closes period := averageGain_nonneg hpos
  have hloss : 0 ≤ averageLoss closes period := averageLoss_nonneg hpos
  cases h : rsi closes period with
  | none =>
    have hshort : closes.length < period + 1 := by
      by_contra hlong
      rw [rsi, if_neg hlong] at h
      split_ifs at h
    rw [rsi, List.length_map, if_pos hshort]
    rfl
  | some value =>
    obtain ⟨value', h'⟩ : ∃ value', rsi (closes.map fun p => c - p) period = some value' := by
      have hlong : ¬ closes.length < period + 1 := by
        intro hshort
        rw [rsi, if_pos hshort] at h
        cases h
      unfold rsi
      rw [List.length_map, if_neg hlong]
      split_ifs
      · exact ⟨_, rfl⟩
      · exact ⟨_, rfl⟩
    have hmoved' : averageGain (closes.map fun p => c - p) period ≠ 0 ∨
        averageLoss (closes.map fun p => c - p) period ≠ 0 := by
      rw [averageGain_mirror, averageLoss_mirror]
      exact hmoved.symm
    have hvalue := rsi_eq hpos h hmoved
    have hvalue' := rsi_eq hpos h' hmoved'
    rw [averageGain_mirror, averageLoss_mirror] at hvalue'
    have hsum : averageGain closes period + averageLoss closes period ≠ 0 := by
      rcases hmoved with h | h
      · positivity
      · positivity
    have hsum' : averageLoss closes period + averageGain closes period ≠ 0 := by
      rwa [add_comm]
    rw [h', hvalue, hvalue', Option.map_some]
    congr 1
    field_simp
    ring

/-! ## A market that never moved -/

theorem smoothed_eq_zero {average : ℚ} {values : List ℚ} (hpos : 1 < period) (h : 0 ≤ average)
    (hvalues : ∀ v ∈ values, 0 ≤ v) (hzero : values.foldl (smooth period) average = 0) :
    average = 0 ∧ ∀ v ∈ values, v = 0 := by
  induction values generalizing average with
  | nil => exact ⟨hzero, fun v hv => absurd hv List.not_mem_nil⟩
  | cons v values ih =>
    have hperiod : (1 : ℚ) < period := by exact_mod_cast hpos
    have hv := hvalues v List.mem_cons_self
    have hscaled : 0 ≤ average * (period - 1) := mul_nonneg h (by linarith)
    have hnext : 0 ≤ smooth period average v := div_nonneg (add_nonneg hscaled hv) (by linarith)
    obtain ⟨hsmooth, hrest⟩ := ih hnext (fun x hx => hvalues x (List.mem_cons_of_mem v hx)) hzero
    have hsum : average * (period - 1) + v = 0 := by
      rcases div_eq_zero_iff.1 hsmooth with h | h
      · exact h
      · linarith
    have haverage : average * (period - 1) = 0 := by linarith
    refine ⟨(mul_eq_zero.1 haverage).resolve_right (by linarith), fun x hx => ?_⟩
    rcases List.mem_cons.1 hx with rfl | hx
    · linarith
    · exact hrest x hx

/-- an average of numbers that are not negative is zero when all of them are -/
theorem wilder_eq_zero {values : List ℚ} (hpos : 1 < period) (hvalues : ∀ v ∈ values, 0 ≤ v) :
    wilder period values = 0 ↔ ∀ v ∈ values, v = 0 := by
  have hperiod : (1 : ℚ) < period := by exact_mod_cast hpos
  constructor
  · intro hzero v hv
    have htake : ∀ x ∈ values.take period, 0 ≤ x := fun x hx => hvalues x (List.mem_of_mem_take hx)
    have hseed : 0 ≤ (values.take period).sum / period :=
      div_nonneg (List.sum_nonneg htake) (by linarith)
    obtain ⟨hfirst, hrest⟩ := smoothed_eq_zero hpos hseed
      (fun x hx => hvalues x (List.mem_of_mem_drop hx)) hzero
    have hsum : (values.take period).sum = 0 := by
      rcases div_eq_zero_iff.1 hfirst with h | h
      · exact h
      · linarith
    rw [← List.take_append_drop period values] at hv
    rcases List.mem_append.1 hv with hv | hv
    · exact List.all_zero_of_le_zero_le_of_sum_eq_zero htake hsum hv
    · exact hrest v hv
  · intro hzero
    have hreplicate : values = List.replicate values.length 0 := List.eq_replicate_iff.2 ⟨rfl, hzero⟩
    have hfold : ∀ n, (List.replicate n (0 : ℚ)).foldl (smooth period) 0 = 0 := by
      intro n
      induction n with
      | zero => rfl
      | succ n ih =>
        rw [List.replicate_succ, List.foldl_cons]
        simpa [smooth] using ih
    rw [hreplicate, wilder, List.take_replicate, List.drop_replicate, List.sum_replicate, smul_zero,
      zero_div, hfold]

theorem changes_cons (a b : ℚ) (rest : List ℚ) :
    changes (a :: b :: rest) = (b - a) :: changes (b :: rest) := rfl

/-- closes without a change are all equal -/
theorem equal_of_changes : (∀ d ∈ changes closes, d = 0) → ∀ x ∈ closes, ∀ y ∈ closes, x = y := by
  have hhead : ∀ (a : ℚ) (rest : List ℚ), (∀ d ∈ changes (a :: rest), d = 0) →
      ∀ x ∈ a :: rest, x = a := by
    intro a rest
    induction rest generalizing a with
    | nil => exact fun _ x hx => List.mem_singleton.1 hx
    | cons b rest ih =>
      intro h x hx
      rw [changes_cons] at h
      have hab : b - a = 0 := h (b - a) List.mem_cons_self
      rcases List.mem_cons.1 hx with rfl | hx
      · rfl
      · rw [ih b (fun d hd => h d (List.mem_cons_of_mem _ hd)) x hx]
        linarith
  intro h x hx y hy
  cases closes with
  | nil => cases hx
  | cons a rest => rw [hhead a rest h x hx, hhead a rest h y hy]

/-- equal closes look the same in the mirror at twice their price -/
theorem eq_mirror_of_equal {p : ℚ} (h : ∀ x ∈ closes, x = p) :
    closes.map (fun x => 2 * p - x) = closes := by
  conv_rhs => rw [← List.map_id closes]
  apply List.map_congr_left
  intro x hx
  rw [h x hx, id]
  ring

theorem changes_eq_zero {p : ℚ} (h : ∀ x ∈ closes, x = p) : ∀ d ∈ changes closes, d = 0 := by
  induction closes with
  | nil => exact fun d hd => absurd hd List.not_mem_nil
  | cons a rest ih =>
    cases rest with
    | nil => exact fun d hd => absurd hd List.not_mem_nil
    | cons b rest =>
      intro d hd
      rw [changes_cons] at hd
      rcases List.mem_cons.1 hd with rfl | hd
      · rw [h a List.mem_cons_self, h b (List.mem_cons_of_mem a List.mem_cons_self), sub_self]
      · exact ih (fun x hx => h x (List.mem_cons_of_mem a hx)) d hd

/-- no average moves when and only when no close differs from another -/
theorem unmoved_iff (hpos : 1 < period) :
    (averageGain closes period = 0 ∧ averageLoss closes period = 0) ↔
      ∀ x ∈ closes, ∀ y ∈ closes, x = y := by
  have hgain : ∀ v ∈ (changes closes).map fun d => max d 0, 0 ≤ v := by
    intro v hv
    obtain ⟨d, -, rfl⟩ := List.mem_map.1 hv
    exact le_max_right d 0
  have hloss : ∀ v ∈ (changes closes).map fun d => max (-d) 0, 0 ≤ v := by
    intro v hv
    obtain ⟨d, -, rfl⟩ := List.mem_map.1 hv
    exact le_max_right (-d) 0
  rw [averageGain, averageLoss, wilder_eq_zero hpos hgain, wilder_eq_zero hpos hloss]
  constructor
  · rintro ⟨hup, hdown⟩
    refine equal_of_changes fun d hd => le_antisymm ?_ ?_
    · exact max_eq_right_iff.1 (hup _ (List.mem_map_of_mem hd))
    · exact neg_nonpos.1 (max_eq_right_iff.1 (hdown _ (List.mem_map_of_mem hd)))
  · intro h
    have hzero : ∀ d ∈ changes closes, d = 0 := by
      cases closes with
      | nil => exact fun d hd => absurd hd List.not_mem_nil
      | cons a rest => exact changes_eq_zero fun x hx => h x hx a List.mem_cons_self
    constructor
    · intro v hv
      obtain ⟨d, hd, rfl⟩ := List.mem_map.1 hv
      rw [hzero d hd, max_self]
    · intro v hv
      obtain ⟨d, hd, rfl⟩ := List.mem_map.1 hv
      rw [hzero d hd, neg_zero, max_self]

/-- an index without gains and losses is at its top -/
theorem rsi_equal {p : ℚ} (h : ∀ x ∈ closes, x = p) (hpos : 1 < period)
    (hlong : period < closes.length) : rsi closes period = some 100 := by
  have hunmoved := (unmoved_iff hpos).2 fun x hx y hy => (h x hx).trans (h y hy).symm
  rw [rsi, if_neg (by omega), if_pos hunmoved.2]

/-- averages of equal closes are the close -/
theorem ema_equal {p : ℚ} (h : ∀ x ∈ closes, x = p) (hpos : 0 < period)
    (hlong : period ≤ closes.length) : (ema closes period).getLastD 0 = p := by
  have hne : ema closes period ≠ [] := by
    intro hnil
    have hlength := length_ema hlong
    rw [hnil, List.length_nil] at hlength
    omega
  have hmirror : ema (closes.map fun x => 2 * p - x) period = _ := ema_mirror hpos
  rw [eq_mirror_of_equal h] at hmirror
  have hlast := congrArg (fun l => l.getLastD 0) hmirror
  rw [getLastD_map (fun x => 2 * p - x) 0 0 hne] at hlast
  linarith

/-- and their histogram is zero -/
theorem macd_equal {p : ℚ} {fast slow signalPeriod : ℕ} {m : ℚ × ℚ × ℚ} (h : ∀ x ∈ closes, x = p)
    (hfast : 0 < fast) (hslow : fast ≤ slow) (hsignal : 0 < signalPeriod)
    (hm : macd closes fast slow signalPeriod = some m) : m.2.2 = 0 := by
  have hmirror : macd (closes.map fun x => 2 * p - x) fast slow signalPeriod = _ :=
    macd_mirror hfast hslow hsignal
  rw [eq_mirror_of_equal h, hm, Option.map_some, Option.some.injEq] at hmirror
  have hhistogram : m.2.2 = -m.2.2 := congrArg (fun m => m.2.2) hmirror
  linarith

end Indicators

end CapitalCipher
