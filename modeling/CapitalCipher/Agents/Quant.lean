/-
The verdict of `QuantAgent` (`agents/quant.py`) on a window of candles, in exact arithmetic.

Points for moving averages, average price, MACD and RSI are added up to a score; a tie between the
price and its average, or a MACD histogram of zero, counts as bearish, and the RSI of a market that
never moved counts as overbought.

  • `score_eq`: the score is what the readings say, less one for every tie.
  • `judge_ok`: a long enough window always gets an output.
  • `mirror_symmetric_iff`: the mirrored window gets the mirrored signal exactly when the closes are
    not all equal and there is no tie, or one tie while everything else cancels.
  • `equal_prices_sell`: sixty candles at one price are a SELL.
-/
import CapitalCipher.Agents.Indicators
import CapitalCipher.Lib.Decimal
import CapitalCipher.Schemas.Agents

namespace CapitalCipher

open Lib

/-- the buckets of `market_data/store.py`, by exchange, symbol and timeframe -/
structure CandleBuckets where
  buckets : String × String × String → List Candle

/-- `CandleStore.get` -/
def CandleBuckets.get (s : CandleBuckets) (exchange symbol timeframe : String) (limit : ℕ) :
    List Candle :=
  lastOf limit (s.buckets (exchange.toUpper, symbol.toUpper, timeframe))

/-- accepted fields build an output -/
theorem AgentOutput.construct_accepted {agentName reason : String} {status : AgentStatus}
    {signal : Signal} {confidence latencyMs : ℕ} {warnings : List String} {createdAt : Time}
    (h : ∀ f ∈ agentOutputFields agentName confidence reason, f.2 = true) :
    construct agentName status signal confidence reason warnings latencyMs createdAt =
      .ok ⟨agentName, status, signal, confidence, reason, [], warnings, latencyMs, createdAt, h⟩ :=
  dif_pos h

/-- what `_analyze` reads off its window -/
structure Readings where
  price : ℚ
  ema9 : ℚ
  ema21 : ℚ
  ema50 : ℚ
  rsi : Option ℚ
  atr : Option ℚ
  vwap : Option ℚ
  macd : Option (ℚ × ℚ × ℚ)
  volumeRatio : Option ℚ

namespace Readings

def bullishPoints (r : Readings) : ℤ :=
  (if r.ema21 < r.ema9 ∧ r.ema50 < r.ema21 then 2 else 0) +
  r.vwap.elim 0 (fun v => if v < r.price then 1 else 0) +
  r.macd.elim 0 (fun m => if 0 < m.2.2 then 1 else 0) -
  r.rsi.elim 0 (fun v => if 70 ≤ v then 1 else 0)

def bearishPoints (r : Readings) : ℤ :=
  (if r.ema9 < r.ema21 ∧ r.ema21 < r.ema50 then 2 else 0) +
  r.vwap.elim 0 (fun v => if v < r.price then 0 else 1) +
  r.macd.elim 0 (fun m => if 0 < m.2.2 then 0 else 1) -
  r.rsi.elim 0 (fun v => if 70 ≤ v then 0 else if v ≤ 30 then 1 else 0)

def score (r : Readings) : ℤ := r.bullishPoints - r.bearishPoints

def warnings (r : Readings) : List String :=
  r.rsi.elim [] (fun v =>
    if 70 ≤ v then ["RSI_OVERBOUGHT"] else if v ≤ 30 then ["RSI_OVERSOLD"] else []) ++
  r.volumeRatio.elim [] (fun v => if v < 1 / 2 then ["LOW_VOLUME"] else [])

/-- the signal of a score -/
def signalOf (score : ℤ) : Signal :=
  if 2 ≤ score then .buy else if score ≤ -2 then .sell else .hold

/-- the confidence of a score, lowered for every warning -/
def confidenceOf (score : ℤ) (warnings : List String) : ℕ :=
  let confidence := if signalOf score = .hold then 50 else min 95 (40 + score.natAbs * 15)
  if warnings.isEmpty then confidence else confidence - 10 * warnings.length

/-- one decimal place of a number that is not negative -/
def oneDecimal (q : ℚ) : String :=
  let tenths := (Decimal.nearest (q * 10)).toNat
  toString (tenths / 10) ++ "." ++ toString (tenths % 10)

/-- the joined `reason_parts` -/
def reason (r : Readings) : String :=
  "EMA alignment " ++
  (if r.ema21 < r.ema9 then "bullish" else if r.ema9 < r.ema21 then "bearish" else "flat") ++
  ", price " ++ (if r.vwap.any fun v => v ≠ 0 ∧ v < r.price then "above" else "below") ++ " VWAP" ++
  r.rsi.elim "" fun v => ", RSI " ++ oneDecimal v

def rounded (digits : ℕ) (q : Option ℚ) : Json :=
  q.elim .null fun v => .num (Decimal.round v digits)

def evidence (r : Readings) : List (String × Json) :=
  [("ema_9", rounded 4 (some r.ema9)), ("ema_21", rounded 4 (some r.ema21)),
   ("ema_50", rounded 4 (some r.ema50)), ("rsi", rounded 2 r.rsi), ("atr", rounded 4 r.atr),
   ("vwap", rounded 4 r.vwap), ("macd_histogram", rounded 6 (r.macd.map fun m => m.2.2)),
   ("volume_ratio", rounded 3 r.volumeRatio), ("price", .num r.price)]

end Readings

namespace QuantAgent

/-- `MIN_CANDLES` -/
def minCandles : ℕ := 60

def readings (candles : List Candle) : Readings :=
  let closes := candles.map Candle.close
  { price := closes.getLastD 0
    ema9 := (Indicators.ema closes 9).getLastD 0
    ema21 := (Indicators.ema closes 21).getLastD 0
    ema50 := (Indicators.ema closes 50).getLastD 0
    rsi := Indicators.rsi closes 14
    atr := Indicators.atr candles 14
    vwap := Indicators.vwap (lastOf 50 candles)
    macd := Indicators.macd closes 12 26 9
    volumeRatio := Indicators.volumeRatio candles 20 }

/-- `_analyze` once it has its window -/
def judge (candles : List Candle) (now : Time) : Except Error AgentOutput :=
  if candles.length < minCandles then
    AgentOutput.construct "QuantAgent" .completed .wait 0
      ("Insufficient candles (" ++ toString candles.length ++ "/" ++ toString minCandles ++
        ") for reliable indicators") ["DATA_QUALITY_ISSUE"] 0 now
  else
    let r := readings candles
    (AgentOutput.construct "QuantAgent" .completed (Readings.signalOf r.score)
      (Readings.confidenceOf r.score r.warnings) r.reason r.warnings 0 now).map
      fun output => { output with evidence := r.evidence }

/-- `market_context.get("exchange", "BINANCE")`, which has to be a text -/
def marketExchange (input : AgentInput) : Except Error String :=
  match input.marketContext.lookup "exchange" with
  | none => .ok "BINANCE"
  | some (.str exchange) => .ok exchange
  | some _ => .error ⟨.transport, "object has no attribute 'upper'"⟩

/-- `_analyze` -/
def analyze (store : CandleBuckets) (input : AgentInput) (now : Time) : Except Error AgentOutput := do
  let exchange ← marketExchange input
  judge (store.get exchange input.symbol input.timeframe 200) now

end QuantAgent

namespace Readings

variable {r : Readings} {c : ℚ}

/-! ## The score -/

/-- 1 if the value is there and equal to `y` -/
def tie (value : Option ℚ) (y : ℚ) : ℤ := if value = some y then 1 else 0

theorem tie_nonneg (value : Option ℚ) (y : ℚ) : 0 ≤ tie value y := by
  unfold tie
  split_ifs
  all_goals omega

/-- the price is its own average -/
def vwapTie (r : Readings) : ℤ := tie r.vwap r.price

/-- the histogram is zero -/
def macdTie (r : Readings) : ℤ := tie (r.macd.map fun m => m.2.2) 0

def ties (r : Readings) : ℤ := r.vwapTie + r.macdTie

/-- the points for a value above or below another one -/
def side (x y : ℚ) : ℤ := if x < y then 1 else if y < x then -1 else 0

def emaPoints (r : Readings) : ℤ :=
  if r.ema21 < r.ema9 ∧ r.ema50 < r.ema21 then 2
  else if r.ema9 < r.ema21 ∧ r.ema21 < r.ema50 then -2 else 0

def rsiPoints (r : Readings) : ℤ :=
  r.rsi.elim 0 fun v => if 70 ≤ v then -1 else if v ≤ 30 then 1 else 0

/-- the points of everything that is no tie -/
def rest (r : Readings) : ℤ :=
  r.emaPoints + r.vwap.elim 0 (fun v => side v r.price) + r.macd.elim 0 (fun m => side 0 m.2.2) +
  r.rsiPoints

theorem emaPoints_eq : r.emaPoints =
    (if r.ema21 < r.ema9 ∧ r.ema50 < r.ema21 then 2 else 0) -
      (if r.ema9 < r.ema21 ∧ r.ema21 < r.ema50 then 2 else 0) := by
  unfold emaPoints
  by_cases hup : r.ema21 < r.ema9 ∧ r.ema50 < r.ema21
  · have hdown : ¬ (r.ema9 < r.ema21 ∧ r.ema21 < r.ema50) := fun h => lt_asymm hup.1 h.1
    rw [if_pos hup, if_pos hup, if_neg hdown, sub_zero]
  · rw [if_neg hup, if_neg hup, zero_sub]
    split_ifs
    · rfl
    · rfl

/-- a side is won, lost or a tie that counts as lost -/
theorem side_eq (x y : ℚ) :
    side x y - (if x = y then 1 else 0) = (if x < y then 1 else 0) - (if x < y then 0 else 1) := by
  unfold side
  rcases lt_trichotomy x y with h | h | h
  · simp [h, h.ne]
  · simp [h]
  · simp [h, h.ne', not_lt.2 h.le]

theorem vwap_eq : r.vwap.elim 0 (fun v => side v r.price) - r.vwapTie =
    r.vwap.elim 0 (fun v => if v < r.price then 1 else 0) -
      r.vwap.elim 0 (fun v => if v < r.price then 0 else 1) := by
  unfold vwapTie tie
  cases r.vwap with
  | none => simp
  | some v => simpa using side_eq v r.price

theorem macd_eq : r.macd.elim 0 (fun m => side 0 m.2.2) - r.macdTie =
    r.macd.elim 0 (fun m => if 0 < m.2.2 then 1 else 0) -
      r.macd.elim 0 (fun m => if 0 < m.2.2 then 0 else 1) := by
  unfold macdTie tie
  cases r.macd with
  | none => simp
  | some m => simpa [eq_comm] using side_eq 0 m.2.2

theorem rsiPoints_eq : r.rsiPoints =
    r.rsi.elim 0 (fun v => if 70 ≤ v then 0 else if v ≤ 30 then 1 else 0) -
      r.rsi.elim 0 (fun v => if 70 ≤ v then 1 else 0) := by
  unfold rsiPoints
  cases r.rsi with
  | none => rfl
  | some v =>
    by_cases h : 70 ≤ v
    · simp [h]
    · simp [h]

/-- the score is what the readings say, less one for every tie -/
theorem score_eq : r.score = r.rest - r.ties := by
  have h1 := r.emaPoints_eq
  have h2 := r.vwap_eq
  have h3 := r.macd_eq
  have h4 := r.rsiPoints_eq
  unfold score bullishPoints bearishPoints rest ties
  omega

theorem abs_side_le (x y : ℚ) : |side x y| + (if x = y then 1 else 0) ≤ 1 := by
  unfold side
  rcases lt_trichotomy x y with h | h | h
  · simp [h, h.ne]
  · simp [h]
  · simp [h, h.ne', not_lt.2 h.le]

/-- a tie leaves fewer points for the rest -/
theorem rest_bounds : r.rest ≤ 5 - r.ties ∧ r.ties - 5 ≤ r.rest ∧ 0 ≤ r.ties ∧ r.ties ≤ 2 := by
  have hema : r.emaPoints ≤ 2 ∧ -2 ≤ r.emaPoints := by
    unfold emaPoints
    split_ifs
    all_goals omega
  have hrsi : r.rsiPoints ≤ 1 ∧ -1 ≤ r.rsiPoints := by
    unfold rsiPoints
    cases r.rsi with
    | none => decide
    | some v =>
      dsimp only [Option.elim]
      split_ifs
      all_goals omega
  have hvwap : |r.vwap.elim 0 fun v => side v r.price| + r.vwapTie ≤ 1 := by
    unfold vwapTie tie
    cases r.vwap with
    | none => simp
    | some v => simpa using abs_side_le v r.price
  have hmacd : |r.macd.elim 0 fun m => side 0 m.2.2| + r.macdTie ≤ 1 := by
    unfold macdTie tie
    cases r.macd with
    | none => simp
    | some m => simpa [eq_comm] using abs_side_le 0 m.2.2
  have h1 := abs_le.1 (le_sub_iff_add_le.2 hvwap)
  have h2 := abs_le.1 (le_sub_iff_add_le.2 hmacd)
  unfold rest ties
  have h3 := tie_nonneg r.vwap r.price
  have h4 := tie_nonneg (r.macd.map fun m => m.2.2) 0
  have h5 := abs_nonneg (r.vwap.elim 0 fun v => side v r.price)
  have h6 := abs_nonneg (r.macd.elim 0 fun m => side 0 m.2.2)
  unfold vwapTie macdTie at *
  omega

/-! ## In the mirror -/

/-- the readings of a market that moved, seen in the mirror -/
def mirrored (c : ℚ) (r : Readings) : Readings where
  price := c - r.price
  ema9 := c - r.ema9
  ema21 := c - r.ema21
  ema50 := c - r.ema50
  rsi := r.rsi.map fun v => 100 - v
  atr := r.atr
  vwap := r.vwap.map fun v => c - v
  macd := r.macd.map fun m => (-m.1, -m.2.1, -m.2.2)
  volumeRatio := r.volumeRatio

theorem side_mirrored (c x y : ℚ) : side (c - x) (c - y) = -side x y := by
  unfold side
  simp only [sub_lt_sub_iff_left]
  rcases lt_trichotomy x y with h | h | h
  · simp [h, h.asymm]
  · simp [h]
  · simp [h, h.asymm]

theorem tie_mirrored (c y : ℚ) (value : Option ℚ) :
    tie (value.map fun v => c - v) (c - y) = tie value y := by
  unfold tie
  cases value with
  | none => rfl
  | some v => simp

theorem vwapTie_mirrored : (r.mirrored c).vwapTie = r.vwapTie := tie_mirrored c r.price r.vwap

theorem macdTie_mirrored : (r.mirrored c).macdTie = r.macdTie := by
  unfold macdTie tie
  cases h : r.macd with
  | none => simp [mirrored, h]
  | some m => simp [mirrored, h]

theorem ties_mirrored : (r.mirrored c).ties = r.ties := by
  rw [ties, ties, vwapTie_mirrored, macdTie_mirrored]

theorem emaPoints_mirrored : (r.mirrored c).emaPoints = -r.emaPoints := by
  unfold emaPoints mirrored
  simp only [sub_lt_sub_iff_left]
  by_cases hup : r.ema21 < r.ema9 ∧ r.ema50 < r.ema21
  · have hdown : ¬ (r.ema9 < r.ema21 ∧ r.ema21 < r.ema50) := fun h => lt_asymm hup.1 h.1
    rw [if_pos hup, if_neg hdown, if_pos hup]
  · rw [if_neg hup, if_neg hup]
    split_ifs
    · rfl
    · rfl

theorem rsiPoints_mirrored : (r.mirrored c).rsiPoints = -r.rsiPoints := by
  unfold rsiPoints mirrored
  cases r.rsi with
  | none => rfl
  | some v =>
    show (if 70 ≤ 100 - v then -1 else if 100 - v ≤ 30 then 1 else 0) =
      -(if 70 ≤ v then -1 else if v ≤ 30 then 1 else 0 : ℤ)
    rcases le_or_gt 70 v with hhigh | hhigh
    · rw [if_neg (by linarith), if_pos (by linarith), if_pos hhigh, neg_neg]
    · rcases le_or_gt v 30 with hlow | hlow
      · rw [if_pos (by linarith), if_neg (by linarith), if_pos hlow]
      · rw [if_neg (by linarith), if_neg (by linarith), if_neg (by linarith), if_neg (by linarith),
          neg_zero]

/-- the points of everything that is no tie change their sign -/
theorem rest_mirrored : (r.mirrored c).rest = -r.rest := by
  have hvwap : (r.mirrored c).vwap.elim 0 (fun v => side v (r.mirrored c).price) =
      -r.vwap.elim 0 fun v => side v r.price := by
    unfold mirrored
    cases r.vwap with
    | none => rfl
    | some v => exact side_mirrored c v r.price
  have hmacd : (r.mirrored c).macd.elim 0 (fun m => side 0 m.2.2) =
      -r.macd.elim 0 fun m => side 0 m.2.2 := by
    unfold mirrored
    cases r.macd with
    | none => rfl
    | some m =>
      have hside := side_mirrored 0 0 m.2.2
      rwa [sub_zero, zero_sub] at hside
  unfold rest at *
  rw [emaPoints_mirrored, rsiPoints_mirrored, hvwap, hmacd]
  ring

theorem warnings_mirrored : (r.mirrored c).warnings.length = r.warnings.length := by
  have hrsi : ((r.mirrored c).rsi.elim [] fun v =>
      if 70 ≤ v then ["RSI_OVERBOUGHT"] else if v ≤ 30 then ["RSI_OVERSOLD"] else []).length =
      (r.rsi.elim [] fun v =>
        if 70 ≤ v then ["RSI_OVERBOUGHT"] else if v ≤ 30 then ["RSI_OVERSOLD"] else []).length := by
    unfold mirrored
    cases r.rsi with
    | none => rfl
    | some v =>
      show (if 70 ≤ 100 - v then ["RSI_OVERBOUGHT"] else
          if 100 - v ≤ 30 then ["RSI_OVERSOLD"] else []).length =
        (if 70 ≤ v then ["RSI_OVERBOUGHT"] else if v ≤ 30 then ["RSI_OVERSOLD"] else []).length
      rcases le_or_gt 70 v with hhigh | hhigh
      · rw [if_neg (by linarith), if_pos (by linarith), if_pos hhigh]
        rfl
      · rcases le_or_gt v 30 with hlow | hlow
        · rw [if_pos (by linarith), if_neg (by linarith), if_pos hlow]
          rfl
        · rw [if_neg (by linarith), if_neg (by linarith), if_neg (by linarith), if_neg (by linarith)]
  rw [warnings, warnings, List.length_append, List.length_append, hrsi]
  rfl

theorem warnings_le : r.warnings.length ≤ 2 := by
  have hrsi : (r.rsi.elim [] fun v =>
      if 70 ≤ v then ["RSI_OVERBOUGHT"] else if v ≤ 30 then ["RSI_OVERSOLD"] else []).length ≤ 1 := by
    cases r.rsi with
    | none => decide
    | some v =>
      dsimp only [Option.elim]
      split_ifs
      all_goals decide
  have hvolume : (r.volumeRatio.elim [] fun v => if v < 1 / 2 then ["LOW_VOLUME"] else []).length ≤ 1 := by
    cases r.volumeRatio with
    | none => decide
    | some v =>
      dsimp only [Option.elim]
      split_ifs
      all_goals decide
  rw [warnings, List.length_append]
  omega

/-! ## Signals and confidence -/

/-- what a mirrored window has to give -/
structure Mirrors (score score' : ℤ) (warnings warnings' : List String) : Prop where
  buy : signalOf score = .buy → signalOf score' = .sell ∧
    confidenceOf score' warnings' = confidenceOf score warnings
  sell : signalOf score = .sell → signalOf score' = .buy ∧
    confidenceOf score' warnings' = confidenceOf score warnings
  hold : signalOf score = .hold → signalOf score' = .hold

theorem signalOf_buy {s : ℤ} : signalOf s = .buy ↔ 2 ≤ s := by
  unfold signalOf
  split_ifs
  all_goals simp; omega

theorem signalOf_sell {s : ℤ} : signalOf s = .sell ↔ s ≤ -2 := by
  unfold signalOf
  split_ifs
  all_goals simp; omega

theorem signalOf_hold {s : ℤ} : signalOf s = .hold ↔ -2 < s ∧ s < 2 := by
  unfold signalOf
  split_ifs
  all_goals simp; omega

theorem confidenceOf_eq (s : ℤ) (w : List String) : confidenceOf s w =
    (if -2 < s ∧ s < 2 then 50 else min 95 (40 + s.natAbs * 15)) - 10 * w.length := by
  simp only [confidenceOf, signalOf_hold]
  by_cases hw : w = []
  · rw [hw]
    rfl
  · rw [if_neg (by simpa using hw)]

/-- a score and the one in the mirror, each less one for every tie -/
theorem mirrors_iff {x t : ℤ} {w w' : List String} (hw : w'.length = w.length) (hfew : w.length ≤ 2)
    (hbounds : x ≤ 5 - t ∧ t - 5 ≤ x ∧ 0 ≤ t) :
    Mirrors (x - t) (-x - t) w w' ↔ t = 0 ∨ (t = 1 ∧ x = 0) := by
  obtain ⟨hhigh, hlow, hnonneg⟩ := hbounds
  constructor
  · rintro ⟨hbuy, hsell, hhold⟩
    simp only [signalOf_buy, signalOf_sell, signalOf_hold, confidenceOf_eq, hw] at hbuy hsell hhold
    rcases le_or_gt 2 (x - t) with h2 | h2
    · obtain ⟨-, hconfidence⟩ := hbuy h2
      rw [if_neg (by omega), if_neg (by omega)] at hconfidence
      omega
    · rcases le_or_gt (x - t) (-2) with h3 | h3
      · obtain ⟨h4, hconfidence⟩ := hsell h3
        rw [if_neg (by omega), if_neg (by omega)] at hconfidence
        omega
      · have hmiddle := hhold ⟨h3, h2⟩
        omega
  · intro h
    have hscore : (-x - t).natAbs = (x - t).natAbs := by
      rcases h with h | h
      all_goals omega
    refine ⟨fun hs => ?_, fun hs => ?_, fun hs => ?_⟩
    · rw [signalOf_buy] at hs
      rw [signalOf_sell, confidenceOf_eq, confidenceOf_eq, hw, hscore, if_neg (by omega),
        if_neg (by omega)]
      exact ⟨by omega, rfl⟩
    · rw [signalOf_sell] at hs
      rw [signalOf_buy, confidenceOf_eq, confidenceOf_eq, hw, hscore, if_neg (by omega),
        if_neg (by omega)]
      exact ⟨by omega, rfl⟩
    · rw [signalOf_hold] at hs ⊢
      omega

end Readings

namespace QuantAgent

open Readings

/-! ## Windows -/

/-- no close differs from another -/
def Flat (candles : List Candle) : Prop := ∀ k ∈ candles, ∀ k' ∈ candles, k.close = k'.close

instance (candles : List Candle) : Decidable (Flat candles) :=
  inferInstanceAs (Decidable (∀ k ∈ candles, _))

variable {c : ℚ} {candles : List Candle} {now : Time}

theorem flat_iff : Flat candles ↔
    ∀ x ∈ candles.map Candle.close, ∀ y ∈ candles.map Candle.close, x = y := by
  simp only [Flat, List.forall_mem_map]

theorem readings_mirrored (hlong : minCandles ≤ candles.length) (hmoved : ¬ Flat candles) :
    readings (candles.map (Indicators.mirrored c)) = (readings candles).mirrored c := by
  have hlong' : 60 ≤ (candles.map Candle.close).length := by
    rw [List.length_map]
    exact hlong
  have hne : candles.map Candle.close ≠ [] := by
    intro hnil
    rw [hnil] at hlong'
    exact absurd hlong' (by decide)
  have hema : ∀ period, 0 < period → period ≤ 60 →
      Indicators.ema (candles.map Candle.close) period ≠ [] := by
    intro period hpos hshort hnil
    have hlength := Indicators.length_ema (hshort.trans hlong')
    rw [hnil, List.length_nil] at hlength
    omega
  have haverages : Indicators.averageGain (candles.map Candle.close) 14 ≠ 0 ∨
      Indicators.averageLoss (candles.map Candle.close) 14 ≠ 0 := by
    rw [← not_and_or, Indicators.unmoved_iff (by decide), ← flat_iff]
    exact hmoved
  unfold readings Readings.mirrored
  dsimp only
  rw [Indicators.closes_mirrored, Indicators.ema_mirror (by decide), Indicators.ema_mirror (by decide),
    Indicators.ema_mirror (by decide), Indicators.rsi_mirror (by decide) haverages,
    Indicators.atr_mirror, lastOf_map, Indicators.vwap_mirror,
    Indicators.macd_mirror (by decide) (by decide) (by decide), Indicators.volumeRatio_mirror,
    Indicators.getLastD_map _ 0 0 hne, Indicators.getLastD_map _ 0 0 (hema 9 (by decide) (by decide)),
    Indicators.getLastD_map _ 0 0 (hema 21 (by decide) (by decide)),
    Indicators.getLastD_map _ 0 0 (hema 50 (by decide) (by decide))]

/-- price and average price of the mirrored window, whether the market moved or not -/
theorem readings_price_mirrored (hlong : minCandles ≤ candles.length) :
    (readings (candles.map (Indicators.mirrored c))).price = c - (readings candles).price ∧
    (readings (candles.map (Indicators.mirrored c))).vwap =
      (readings candles).vwap.map fun v => c - v := by
  have hne : candles.map Candle.close ≠ [] := by
    intro hnil
    rw [List.map_eq_nil_iff.1 hnil] at hlong
    exact absurd hlong (by decide)
  constructor
  · show ((candles.map (Indicators.mirrored c)).map Candle.close).getLastD 0 = _
    rw [Indicators.closes_mirrored, Indicators.getLastD_map _ 0 0 hne]
    rfl
  · show Indicators.vwap (lastOf 50 (candles.map (Indicators.mirrored c))) = _
    rw [lastOf_map, Indicators.vwap_mirror]
    rfl

theorem flat_mirrored (h : Flat candles) : Flat (candles.map (Indicators.mirrored c)) := by
  intro k hk k' hk'
  obtain ⟨a, ha, rfl⟩ := List.mem_map.1 hk
  obtain ⟨b, hb, rfl⟩ := List.mem_map.1 hk'
  show c - a.close = c - b.close
  rw [h a ha b hb]

/-- the points for the average price -/
def vwapPoints (r : Readings) : ℤ := r.vwap.elim 0 fun v => side v r.price

theorem vwapPoints_le (r : Readings) : |vwapPoints r| + r.vwapTie ≤ 1 := by
  unfold vwapPoints vwapTie tie
  cases r.vwap with
  | none => simp
  | some v => simpa using abs_side_le v r.price

/-- a market that never moved loses two points -/
theorem flat_score (hlong : minCandles ≤ candles.length) (h : Flat candles) :
    (readings candles).score = vwapPoints (readings candles) - ((readings candles).vwapTie + 2) := by
  obtain ⟨k, hk⟩ : ∃ k, k ∈ candles := by
    cases candles with
    | nil => exact absurd hlong (by decide)
    | cons k rest => exact ⟨k, List.mem_cons_self⟩
  have hequal : ∀ x ∈ candles.map Candle.close, x = k.close := by
    intro x hx
    obtain ⟨a, ha, rfl⟩ := List.mem_map.1 hx
    exact h a ha k hk
  have hlong' : 60 ≤ (candles.map Candle.close).length := by
    rw [List.length_map]
    exact hlong
  have hema : (readings candles).emaPoints = 0 := by
    have h9 : (readings candles).ema9 = k.close := Indicators.ema_equal hequal (by decide) (by omega)
    have h21 : (readings candles).ema21 = k.close := Indicators.ema_equal hequal (by decide) (by omega)
    rw [emaPoints, h9, h21, if_neg (fun h => lt_irrefl _ h.1), if_neg (fun h => lt_irrefl _ h.1)]
  have hrsi : (readings candles).rsiPoints = -1 := by
    have h100 : (readings candles).rsi = some 100 := Indicators.rsi_equal hequal (by decide) (by omega)
    rw [rsiPoints, h100]
    norm_num
  obtain ⟨m, hm⟩ : ∃ m, (readings candles).macd = some m :=
    Indicators.macd_some (by decide) (by decide) (by omega)
  have hzero : m.2.2 = 0 := Indicators.macd_equal hequal (by decide) (by decide) (by decide) hm
  have hmacd : (readings candles).macd.elim 0 (fun m => side 0 m.2.2) = 0 := by
    rw [hm, Option.elim, hzero]
    decide +kernel
  have htie : (readings candles).macdTie = 1 := by
    rw [macdTie, tie, hm, Option.map_some, hzero, if_pos rfl]
  rw [score_eq, rest, ties, hema, hrsi, hmacd, htie, vwapPoints]
  ring

/-! ## The verdict -/

theorem length_oneDecimal {q : ℚ} (h : q ≤ 100) : (oneDecimal q).length ≤ 6 := by
  have hnearest : Decimal.nearest (q * 10) ≤ Decimal.nearest (100 * 10) :=
    Decimal.nearest_mono (by linarith)
  have htop : Decimal.nearest (100 * 10) = 1000 := by decide +kernel
  have hdigits : ∀ n < 1001, (toString (n / 10) ++ "." ++ toString (n % 10) : String).length ≤ 6 := by
    decide +kernel
  exact hdigits _ (by omega)

/-- texts of one of two lengths -/
theorem length_ite_le {p : Prop} [Decidable p] {a b : String} {n : ℕ} (ha : a.length ≤ n)
    (hb : b.length ≤ n) : (if p then a else b).length ≤ n := by
  split_ifs
  · exact ha
  · exact hb

theorem length_reason {r : Readings} (hrsi : ∀ v, r.rsi = some v → v ≤ 100) :
    1 ≤ r.reason.length ∧ r.reason.length ≤ 1000 := by
  have htail : (r.rsi.elim "" fun v => ", RSI " ++ oneDecimal v).length ≤ 12 := by
    cases h : r.rsi with
    | none => decide
    | some v =>
      have hlabel : (", RSI ").length = 6 := by decide
      have hshort := length_oneDecimal (hrsi v h)
      rw [Option.elim, String.length_append, hlabel]
      omega
  have hema : (if r.ema21 < r.ema9 then "bullish" else
      if r.ema9 < r.ema21 then "bearish" else "flat").length ≤ 7 :=
    length_ite_le (by decide) (length_ite_le (by decide) (by decide))
  have hvwap : (if r.vwap.any fun v => v ≠ 0 ∧ v < r.price then "above" else "below").length ≤ 5 :=
    length_ite_le (by decide) (by decide)
  have h1 : ("EMA alignment ").length = 14 := by decide
  have h2 : (", price ").length = 8 := by decide
  have h3 : (" VWAP").length = 5 := by decide
  unfold reason
  rw [String.length_append, String.length_append, String.length_append, String.length_append,
    String.length_append, h1, h2, h3]
  generalize (r.rsi.elim "" fun v => ", RSI " ++ oneDecimal v).length = tail at *
  generalize (if r.vwap.any fun v => v ≠ 0 ∧ v < r.price then "above" else "below").length = vwap at *
  generalize (if r.ema21 < r.ema9 then "bullish" else
    if r.ema9 < r.ema21 then "bearish" else "flat").length = ema at *
  omega

/-- a long enough window gets an output -/
theorem judge_ok (hlong : minCandles ≤ candles.length) : ∃ output, judge candles now = .ok output ∧
    output.signal = signalOf (readings candles).score ∧
    output.confidence = confidenceOf (readings candles).score (readings candles).warnings := by
  have hreason : 1 ≤ (readings candles).reason.length ∧ (readings candles).reason.length ≤ 1000 :=
    length_reason fun v hv => (Indicators.rsi_range (by decide) hv).2
  have hconfidence : confidenceOf (readings candles).score (readings candles).warnings ≤ 100 := by
    rw [confidenceOf_eq]
    split_ifs
    all_goals omega
  have haccepted : ∀ f ∈ agentOutputFields "QuantAgent"
      (confidenceOf (readings candles).score (readings candles).warnings) (readings candles).reason,
      f.2 = true := by
    simp only [agentOutputFields, List.forall_mem_cons, decide_eq_true_eq]
    exact ⟨by decide, hconfidence, hreason, fun f hf => absurd hf List.not_mem_nil⟩
  rw [judge, if_neg (not_lt.2 hlong)]
  dsimp only
  rw [AgentOutput.construct_accepted haccepted]
  exact ⟨_, rfl, rfl, rfl⟩

/-- the store in the mirror -/
def mirroredStore (c : ℚ) (store : CandleBuckets) : CandleBuckets :=
  ⟨fun key => (store.buckets key).map (Indicators.mirrored c)⟩

theorem get_mirrored {store : CandleBuckets} {exchange symbol timeframe : String} {limit : ℕ} :
    (mirroredStore c store).get exchange symbol timeframe limit =
      (store.get exchange symbol timeframe limit).map (Indicators.mirrored c) :=
  lastOf_map _ _ _

/-- a mirrored output: BUY and SELL change places with the same confidence, HOLD stays -/
structure MirrorImage (o o' : AgentOutput) : Prop where
  buy : o.signal = .buy → o'.signal = .sell ∧ o'.confidence = o.confidence
  sell : o.signal = .sell → o'.signal = .buy ∧ o'.confidence = o.confidence
  hold : o.signal = .hold → o'.signal = .hold

/-- every price of the window is the same -/
def EqualPrices (candles : List Candle) : Prop :=
  ∃ p, ∀ k ∈ candles, k.openPrice = p ∧ k.high = p ∧ k.low = p ∧ k.close = p

/-- the closes differ, and there is no tie, or one while the other points cancel -/
def EvenHanded (candles : List Candle) : Prop :=
  ¬ Flat candles ∧ ((readings candles).ties = 0 ∨
    ((readings candles).ties = 1 ∧ (readings candles).rest = 0))

/-- the scores of a window and of its mirror image -/
theorem mirrors_readings (hlong : minCandles ≤ candles.length) :
    Mirrors (readings candles).score (readings (candles.map (Indicators.mirrored c))).score
      (readings candles).warnings (readings (candles.map (Indicators.mirrored c))).warnings ↔
        EvenHanded candles := by
  have hlong' : minCandles ≤ (candles.map (Indicators.mirrored c)).length := by
    rwa [List.length_map]
  by_cases hflat : Flat candles
  · -- a market that never moved loses two points on either side of the mirror
    refine ⟨fun h => ?_, fun h => absurd hflat h.1⟩
    have hscore := flat_score hlong hflat
    have hscore' := flat_score hlong' (flat_mirrored (c := c) hflat)
    obtain ⟨hprice, hvwap⟩ := readings_price_mirrored (c := c) hlong
    have htie : (readings (candles.map (Indicators.mirrored c))).vwapTie = (readings candles).vwapTie := by
      rw [vwapTie, hprice, hvwap, tie_mirrored, vwapTie]
    have hpoints : vwapPoints (readings (candles.map (Indicators.mirrored c))) =
        -vwapPoints (readings candles) := by
      rw [vwapPoints, vwapPoints, hprice, hvwap]
      cases (readings candles).vwap with
      | none => rfl
      | some v => exact side_mirrored c v (readings candles).price
    have hbound : |vwapPoints (readings candles)| + (readings candles).vwapTie ≤ 1 :=
      vwapPoints_le (readings candles)
    obtain ⟨hlow, hhigh⟩ := abs_le.1 (le_sub_iff_add_le.2 hbound)
    have hnonneg : 0 ≤ (readings candles).vwapTie := tie_nonneg _ _
    rw [hpoints, htie] at hscore'
    rcases le_or_gt (readings candles).score (-2) with hsell | hsell
    · have hbuy := signalOf_buy.1 (h.sell (signalOf_sell.2 hsell)).1
      omega
    · have hhold := signalOf_hold.1 (h.hold (signalOf_hold.2 ⟨hsell, by omega⟩))
      omega
  · rw [readings_mirrored hlong hflat, score_eq, score_eq, rest_mirrored, ties_mirrored]
    have hbounds := (readings candles).rest_bounds
    rw [mirrors_iff warnings_mirrored warnings_le ⟨hbounds.1, hbounds.2.1, hbounds.2.2.1⟩]
    exact (and_iff_right hflat).symm

/-- **Mirror symmetry.** A window of valid candles and its mirror image get mirrored verdicts, and a
window of equal prices a HOLD, if and only if the closes are not all equal and there is no tie, or one
while the other points cancel. -/
theorem mirror_symmetric_iff {store : CandleBuckets} {input : AgentInput} {exchange : String}
    (hexchange : marketExchange input = .ok exchange)
    (hcandles : store.get exchange input.symbol input.timeframe 200 = candles)
    (hlong : minCandles ≤ candles.length) (hvalid : ∀ k ∈ candles, k.check = .ok k)
    (habove : ∀ k ∈ candles, k.high < c) :
    (∀ k ∈ candles.map (Indicators.mirrored c), k.check = .ok k) ∧
    (((∃ o o', analyze store input now = .ok o ∧ analyze (mirroredStore c store) input now = .ok o' ∧
        MirrorImage o o') ∧
      (EqualPrices candles → ∃ o, analyze store input now = .ok o ∧ o.signal = .hold)) ↔
        EvenHanded candles) := by
  have hjudge : ∀ store' : CandleBuckets, ∀ window,
      store'.get exchange input.symbol input.timeframe 200 = window →
      analyze store' input now = judge window now := by
    intro store' window hget
    rw [analyze, hexchange, ← hget]
    exact pure_bind exchange fun e => judge (store'.get e input.symbol input.timeframe 200) now
  have hmirrored : (mirroredStore c store).get exchange input.symbol input.timeframe 200 =
      candles.map (Indicators.mirrored c) := by
    rw [get_mirrored, hcandles]
  rw [hjudge store candles hcandles, hjudge (mirroredStore c store) _ hmirrored]
  have hlong' : minCandles ≤ (candles.map (Indicators.mirrored c)).length := by
    rwa [List.length_map]
  obtain ⟨o, ho, hsignal, hconfidence⟩ :
      ∃ o, judge candles now = .ok o ∧ o.signal = signalOf (readings candles).score ∧
        o.confidence = confidenceOf (readings candles).score (readings candles).warnings :=
    judge_ok hlong
  obtain ⟨o', ho', hsignal', hconfidence'⟩ :
      ∃ o', judge (candles.map (Indicators.mirrored c)) now = .ok o' ∧ _ := judge_ok hlong'
  have himage : (∃ a a', judge candles now = .ok a ∧
      judge (candles.map (Indicators.mirrored c)) now = .ok a' ∧ MirrorImage a a') ↔
      EvenHanded candles := by
    rw [← mirrors_readings (c := c) hlong]
    constructor
    · rintro ⟨a, a', ha, ha', himage⟩
      cases ho.symm.trans ha
      cases ho'.symm.trans ha'
      refine ⟨?_, ?_, ?_⟩
      · rw [← hsignal, ← hsignal', ← hconfidence, ← hconfidence']
        exact himage.buy
      · rw [← hsignal, ← hsignal', ← hconfidence, ← hconfidence']
        exact himage.sell
      · rw [← hsignal, ← hsignal']
        exact himage.hold
    · intro h
      refine ⟨o, o', ho, ho', ?_, ?_, ?_⟩
      · rw [hsignal, hsignal', hconfidence, hconfidence']
        exact h.buy
      · rw [hsignal, hsignal', hconfidence, hconfidence']
        exact h.sell
      · rw [hsignal, hsignal']
        exact h.hold
  refine ⟨fun k hk => ?_, ?_⟩
  · obtain ⟨k', hk', rfl⟩ := List.mem_map.1 hk
    exact Indicators.mirrored_check (hvalid k' hk') (habove k' hk')
  · rw [himage]
    refine and_iff_left_of_imp fun heven hequal => ?_
    -- equal prices are no even-handed window
    obtain ⟨p, hp⟩ := hequal
    refine absurd (fun k hk k' hk' => ?_) heven.1
    rw [(hp k hk).2.2.2, (hp k' hk').2.2.2]

/-- a window of equal prices is a SELL, whatever its volumes -/
theorem equal_prices_signal (hlong : minCandles ≤ candles.length) (h : EqualPrices candles) :
    signalOf (readings candles).score = .sell := by
  obtain ⟨p, hp⟩ := h
  have hflat : Flat candles := fun k hk k' hk' => by rw [(hp k hk).2.2.2, (hp k' hk').2.2.2]
  have hsame : candles.map (Indicators.mirrored (2 * p)) = candles := by
    conv_rhs => rw [← List.map_id candles]
    apply List.map_congr_left
    intro k hk
    obtain ⟨h1, h2, h3, h4⟩ := hp k hk
    have htwice : 2 * p - p = p := by ring
    rw [Indicators.mirrored, h1, h2, h3, h4, htwice, id]
    cases k
    simp_all
  obtain ⟨hprice, hvwap⟩ : (readings (candles.map (Indicators.mirrored (2 * p)))).price = _ ∧ _ :=
    readings_price_mirrored hlong
  rw [hsame] at hprice hvwap
  have htied : vwapPoints (readings candles) - (readings candles).vwapTie ≤ 0 := by
    unfold vwapPoints vwapTie tie
    cases hv : (readings candles).vwap with
    | none => simp
    | some v =>
      rw [hv, Option.map_some, Option.some.injEq] at hvwap
      have hequal : v = (readings candles).price := by linarith
      rw [← hequal, if_pos rfl, Option.elim, side, if_neg (lt_irrefl v), if_neg (lt_irrefl v)]
      decide
  rw [signalOf_sell, flat_score hlong hflat]
  omega

def candleAt (price : ℚ) (minute : ℕ) : Candle where
  exchange := .binance
  symbol := "BTCUSDT"
  timeframe := "1m"
  openPrice := price
  high := price
  low := price
  close := price
  volume := 1
  closedAt := minute * 60000000
  receivedAt := minute * 60000000

/-- an hour of candles -/
def anHour (price : ℕ → ℚ) : List Candle := (List.range 60).map fun i => candleAt (price i) i

def hourStore (price : ℕ → ℚ) : CandleBuckets := ⟨fun _ => anHour price⟩

def bitcoinInput : AgentInput :=
  ⟨"request-1", "cycle-1", "QuantAgent", 0, "BTCUSDT", "1m", [], [], by decide +kernel⟩

/-- an hour of rising prices -/
theorem mirror_symmetric_rising :
    (∀ k ∈ (anHour fun i => 100 + i).map (Indicators.mirrored 200), k.check = .ok k) ∧
    (((∃ o o', analyze (hourStore fun i => 100 + i) bitcoinInput 0 = .ok o ∧
        analyze (mirroredStore 200 (hourStore fun i => 100 + i)) bitcoinInput 0 = .ok o' ∧
        MirrorImage o o') ∧
      (EqualPrices (anHour fun i => 100 + i) →
        ∃ o, analyze (hourStore fun i => 100 + i) bitcoinInput 0 = .ok o ∧ o.signal = .hold)) ↔
        EvenHanded (anHour fun i => 100 + i)) :=
  @mirror_symmetric_iff 200 (anHour fun i => 100 + i) 0 (hourStore fun i => 100 + i) bitcoinInput "BINANCE" rfl (by decide +kernel) (by decide +kernel)
    (by decide +kernel) (by decide +kernel)

/-- an hour at one price is a SELL, and so is its mirror image -/
theorem equal_prices_sell :
    (∀ k ∈ anHour fun _ => 100, k.check = .ok k ∧ k.high < 200) ∧
    EqualPrices (anHour fun _ => 100) ∧
    (analyze (hourStore fun _ => 100) bitcoinInput 0).map AgentOutput.signal = .ok .sell ∧
    (analyze (mirroredStore 200 (hourStore fun _ => 100)) bitcoinInput 0).map AgentOutput.signal =
      .ok .sell := by
  refine ⟨by decide +kernel, ⟨100, by decide +kernel⟩, ?_, ?_⟩
  · decide +kernel
  · decide +kernel

end QuantAgent

end CapitalCipher
