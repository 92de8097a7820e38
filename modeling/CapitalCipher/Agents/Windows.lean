/-
What an agent reads off a window of valid candles: the fields of a candle, the latest candles, and the
indicators with Python's own operators.

  • `Candle.sound`: what an accepted candle promises about its prices.
  • `lastOf_lastOf`: the latest candles of a longer window.
  • `rsiOrRaise_eq`, `vwapOrRaise_eq`, `macdOrRaise_eq`, `volumeRatioOrRaise_eq`: no indicator raises.
  • `rsi_eq_zero_iff`: the index is 0 when prices fell and never rose.
  • `vwap_pos`, `ema_pos`: averages of prices are positive.
-/
import CapitalCipher.Agents.Indicators
import CapitalCipher.Core.Builtins

namespace CapitalCipher

open Lib Builtins

/-- the prices of an accepted candle -/
structure Candle.Sound (c : Candle) : Prop where
  open_pos : 0 < c.openPrice
  high_pos : 0 < c.high
  low_pos : 0 < c.low
  close_pos : 0 < c.close
  volume_nonneg : 0 ≤ c.volume
  open_le_high : c.openPrice ≤ c.high
  close_le_high : c.close ≤ c.high
  low_le_high : c.low ≤ c.high
  low_le_open : c.low ≤ c.openPrice
  low_le_close : c.low ≤ c.close

theorem Candle.sound {c : Candle} (h : c.check = .ok c) : c.Sound := by
  rw [Candle.check, validateModel_ok] at h
  simp only [List.forall_mem_cons, List.not_mem_nil, false_imp_iff, implies_true, and_true,
    decide_eq_true_eq] at h
  obtain ⟨⟨-, -, hopen, hhigh, hlow, hclose, hvolume⟩, ⟨hopenHigh, hcloseHigh, hlowHigh⟩,
    hlowOpen, hlowClose, -⟩ := h
  exact ⟨hopen, hhigh, hlow, hclose, hvolume, hopenHigh, hcloseHigh, hlowHigh, hlowOpen, hlowClose⟩

/-! ## The latest entries -/

section Latest

variable {α : Type} {xs : List α} {n m : ℕ}

theorem lastOf_lastOf (h : n ≤ m) : lastOf n (lastOf m xs) = lastOf n xs := by
  rw [lastOf, length_lastOf, lastOf, lastOf, List.drop_drop]
  congr 1
  omega

theorem lastOf_ne_nil (hpos : 0 < n) (h : xs ≠ []) : lastOf n xs ≠ [] := by
  have hlen := List.length_pos_iff.2 h
  rw [← List.length_pos_iff, length_lastOf]
  omega

theorem mem_of_mem_lastOf {a : α} (h : a ∈ lastOf n xs) : a ∈ xs := List.mem_of_mem_drop h

theorem fromEnd_one (d : α) (h : xs ≠ []) : fromEnd xs 1 = .ok (xs.getLastD d) := by
  rw [fromEnd, entry, Nat.sub_self, ← List.head?_eq_getElem?, List.head?_reverse,
    List.getLast?_eq_some_getLast h, List.getLastD_eq_getLast?, List.getLast?_eq_some_getLast h]
  rfl

end Latest

namespace Indicators

variable {closes : List ℚ} {candles : List Candle} {period : ℕ}

/-! ## Indicators that could raise -/

/-- `rsi` -/
def rsiOrRaise (closes : List ℚ) (period : ℕ) : Except Error (Option ℚ) :=
  if closes.length < period + 1 then .ok none
  else if averageLoss closes period = 0 then .ok (some 100)
  else do
    let rs ← divide (averageGain closes period) (averageLoss closes period)
    let part ← divide 100 (1 + rs)
    return some (100 - part)

theorem rsiOrRaise_eq (hpos : 0 < period) : rsiOrRaise closes period = .ok (rsi closes period) := by
  unfold rsiOrRaise rsi
  split_ifs with hshort hzero
  · rfl
  · rfl
  · have hgain : 0 ≤ averageGain closes period := averageGain_nonneg hpos
    have hloss : 0 ≤ averageLoss closes period := averageLoss_nonneg hpos
    have hsum : 1 + averageGain closes period / averageLoss closes period ≠ 0 := by positivity
    rw [divide, if_neg hzero]
    simp only [bind, Except.bind, divide, if_neg hsum]
    rfl

/-- `vwap` -/
def vwapOrRaise (candles : List Candle) : Except Error (Option ℚ) :=
  if (candles.map Candle.volume).sum = 0 then .ok none
  else do
    let price ← divide (candles.map fun c => typicalPrice c * c.volume).sum
      (candles.map Candle.volume).sum
    return some price

theorem vwapOrRaise_eq : vwapOrRaise candles = .ok (vwap candles) := by
  unfold vwapOrRaise vwap
  split_ifs with hzero
  · rfl
  · rw [divide, if_neg hzero]
    rfl

/-- `macd` -/
def macdOrRaise (closes : List ℚ) (fast slow signalPeriod : ℕ) :
    Except Error (Option (ℚ × ℚ × ℚ)) :=
  if closes.length < slow + signalPeriod then .ok none
  else
    let signalSeries := ema (macdLine closes fast slow) signalPeriod
    if signalSeries.isEmpty then .ok none
    else do
      let macdValue ← fromEnd (macdLine closes fast slow) 1
      let signalValue ← fromEnd signalSeries 1
      return some (macdValue, signalValue, macdValue - signalValue)

theorem macdOrRaise_eq {fast slow signalPeriod : ℕ} (hslow : fast ≤ slow) :
    macdOrRaise closes fast slow signalPeriod = .ok (macd closes fast slow signalPeriod) := by
  unfold macdOrRaise macd
  split_ifs with hshort
  · rfl
  · have hline : macdLine closes fast slow ≠ [] := macdLine_ne_nil (by omega) (by omega)
    dsimp only
    split_ifs with hempty
    · rfl
    · have hseries : ema (macdLine closes fast slow) signalPeriod ≠ [] := by
        intro hnil
        exact hempty (List.isEmpty_iff.2 hnil)
      rw [fromEnd_one 0 hline, fromEnd_one 0 hseries]
      rfl

/-- `volume_ratio` -/
def volumeRatioOrRaise (candles : List Candle) (period : ℕ) : Except Error (Option ℚ) :=
  if candles.length < period + 1 then .ok none
  else
    let average := ((lastOf (period + 1) candles).dropLast.map Candle.volume).sum / period
    if average = 0 then .ok none
    else do
      let latest ← fromEnd (candles.map Candle.volume) 1
      let ratio ← divide latest average
      return some ratio

theorem volumeRatioOrRaise_eq :
    volumeRatioOrRaise candles period = .ok (volumeRatio candles period) := by
  unfold volumeRatioOrRaise volumeRatio
  split_ifs with hshort
  · rfl
  · dsimp only
    split_ifs with hzero
    · rfl
    · have hvolumes : candles.map Candle.volume ≠ [] := by
        rw [← List.length_pos_iff, List.length_map]
        omega
      rw [fromEnd_one 0 hvolumes]
      simp only [bind, Except.bind, divide, if_neg hzero]
      rfl

/-! ## When they are nothing, zero or positive -/

/-- no ratio without a volume before the latest candle -/
theorem volumeRatio_eq_none_iff (hpos : 0 < period) (hvalid : ∀ c ∈ candles, c.Sound) :
    volumeRatio candles period = none ↔
      candles.length < period + 1 ∨ ∀ c ∈ (lastOf (period + 1) candles).dropLast, c.volume = 0 := by
  have hperiod : (period : ℚ) ≠ 0 := by exact_mod_cast hpos.ne'
  have hnonneg : ∀ v ∈ (lastOf (period + 1) candles).dropLast.map Candle.volume, 0 ≤ v := by
    intro v hv
    obtain ⟨c, hc, rfl⟩ := List.mem_map.1 hv
    exact (hvalid c (mem_of_mem_lastOf (List.mem_of_mem_dropLast hc))).volume_nonneg
  have hzero : ((lastOf (period + 1) candles).dropLast.map Candle.volume).sum / period = 0 ↔
      ∀ c ∈ (lastOf (period + 1) candles).dropLast, c.volume = 0 := by
    rw [div_eq_zero_iff, or_iff_left hperiod]
    constructor
    · intro hsum c hc
      exact List.all_zero_of_le_zero_le_of_sum_eq_zero hnonneg hsum (List.mem_map_of_mem hc)
    · intro hall
      refine List.sum_eq_zero fun v hv => ?_
      obtain ⟨c, hc, rfl⟩ := List.mem_map.1 hv
      exact hall c hc
  rw [← hzero, volumeRatio]
  by_cases hshort : candles.length < period + 1
  · rw [if_pos hshort]
    exact iff_of_true rfl (.inl hshort)
  · rw [if_neg hshort, or_iff_right hshort]
    dsimp only
    split_ifs with haverage
    · exact iff_of_true rfl haverage
    · exact iff_of_false id haverage

theorem volumeRatio_nonneg {ratio : ℚ} (hvalid : ∀ c ∈ candles, c.Sound)
    (h : volumeRatio candles period = some ratio) : 0 ≤ ratio := by
  have hvolume : ∀ l : List Candle, (∀ c ∈ l, c.Sound) → ∀ v ∈ l.map Candle.volume, 0 ≤ v := by
    intro l hl v hv
    obtain ⟨c, hc, rfl⟩ := List.mem_map.1 hv
    exact (hl c hc).volume_nonneg
  unfold volumeRatio at h
  split_ifs at h with hshort
  dsimp only at h
  split_ifs at h with hzero
  cases h
  have hne : candles.map Candle.volume ≠ [] := by
    rw [← List.length_pos_iff, List.length_map]
    omega
  refine div_nonneg ?_ (div_nonneg (List.sum_nonneg ?_) (Nat.cast_nonneg period))
  · rw [List.getLastD_eq_getLast?, List.getLast?_eq_some_getLast hne]
    exact hvolume candles hvalid _ (List.getLast_mem hne)
  · refine hvolume _ fun c hc => hvalid c (mem_of_mem_lastOf (List.mem_of_mem_dropLast hc))

theorem vwap_pos {price : ℚ} (hvalid : ∀ c ∈ candles, c.Sound) (h : vwap candles = some price) :
    0 < price := by
  unfold vwap at h
  split_ifs at h with hzero
  cases h
  have hvolumes : ∀ v ∈ candles.map Candle.volume, 0 ≤ v := by
    intro v hv
    obtain ⟨c, hc, rfl⟩ := List.mem_map.1 hv
    exact (hvalid c hc).volume_nonneg
  have htypical : ∀ c ∈ candles, 0 < typicalPrice c := by
    intro c hc
    have hsound := hvalid c hc
    have := hsound.high_pos
    have := hsound.low_pos
    have := hsound.close_pos
    unfold typicalPrice
    positivity
  have hweighted : ∀ v ∈ candles.map fun c => typicalPrice c * c.volume, 0 ≤ v := by
    intro v hv
    obtain ⟨c, hc, rfl⟩ := List.mem_map.1 hv
    exact mul_nonneg (htypical c hc).le (hvalid c hc).volume_nonneg
  refine div_pos ?_ (lt_of_le_of_ne (List.sum_nonneg hvolumes) (Ne.symm hzero))
  refine lt_of_le_of_ne (List.sum_nonneg hweighted) fun hsum => hzero ?_
  -- a weighted sum of zero leaves every candle without volume
  refine List.sum_eq_zero fun v hv => ?_
  obtain ⟨c, hc, rfl⟩ := List.mem_map.1 hv
  have hterm := List.all_zero_of_le_zero_le_of_sum_eq_zero hweighted hsum.symm
    (List.mem_map_of_mem hc)
  exact (mul_eq_zero.1 hterm).resolve_left (htypical c hc).ne'

theorem emaFrom_pos {k last : ℚ} {values : List ℚ} (hk : 0 ≤ k) (hk1 : k ≤ 1) (hlast : 0 < last)
    (hvalues : ∀ v ∈ values, 0 < v) : ∀ v ∈ emaFrom k last values, 0 < v := by
  induction values generalizing last with
  | nil =>
    intro v hv
    rw [List.mem_singleton.1 hv]
    exact hlast
  | cons value values ih =>
    have hvalue := hvalues value List.mem_cons_self
    have hnext : 0 < value * k + last * (1 - k) := by
      rcases hk.eq_or_lt with h | h
      · rw [← h]
        linarith
      · exact add_pos_of_pos_of_nonneg (mul_pos hvalue h) (mul_nonneg hlast.le (by linarith))
    intro v hv
    rcases List.mem_cons.1 hv with rfl | hv
    · exact hlast
    · exact ih hnext (fun x hx => hvalues x (List.mem_cons_of_mem value hx)) v hv

theorem ema_pos (hpos : 0 < period) (hcloses : ∀ v ∈ closes, 0 < v) :
    ∀ v ∈ ema closes period, 0 < v := by
  intro v hv
  unfold ema at hv
  split_ifs at hv with hshort
  · cases hv
  · have hperiod : (1 : ℚ) ≤ period := by exact_mod_cast hpos
    have htake : closes.take period ≠ [] := by
      rw [← List.length_pos_iff, List.length_take]
      omega
    refine emaFrom_pos ?_ ?_ ?_ (fun x hx => hcloses x (List.mem_of_mem_drop hx)) v hv
    · positivity
    · rw [div_le_one (by linarith)]
      linarith
    · refine div_pos (List.sum_pos _ (fun x hx => hcloses x (List.mem_of_mem_take hx)) htake) ?_
      linarith

theorem ema_ne_nil (h : period ≤ closes.length) : ema closes period ≠ [] := by
  rw [← List.length_pos_iff, length_ema h]
  omega

theorem atr_some (h : period + 1 ≤ candles.length) : atr candles period ≠ none := by
  rw [atr, if_neg (not_lt.2 h)]
  exact Option.some_ne_none _

/-- no gain without a close above the one before it -/
theorem averageGain_eq_zero_iff (hpos : 1 < period) :
    averageGain closes period = 0 ↔ ∀ d ∈ changes closes, d ≤ 0 := by
  have hgains : ∀ v ∈ (changes closes).map fun change => max change 0, 0 ≤ v := by
    intro v hv
    obtain ⟨d, -, rfl⟩ := List.mem_map.1 hv
    exact le_max_right d 0
  rw [averageGain, wilder_eq_zero hpos hgains]
  simp only [List.mem_map, forall_exists_index, and_imp, forall_apply_eq_imp_iff₂, max_eq_right_iff]

/-- the index is 0 when prices fell and never rose -/
theorem rsi_eq_zero_iff (hpos : 1 < period) (hlong : period < closes.length) :
    rsi closes period = some 0 ↔
      (∀ d ∈ changes closes, d ≤ 0) ∧ ¬ ∀ x ∈ closes, ∀ y ∈ closes, x = y := by
  rw [← averageGain_eq_zero_iff hpos, ← unmoved_iff hpos]
  have hgain : 0 ≤ averageGain closes period := averageGain_nonneg (by omega)
  have hloss : 0 ≤ averageLoss closes period := averageLoss_nonneg (by omega)
  constructor
  · intro h
    have hnonzero : averageLoss closes period ≠ 0 := by
      intro hzero
      rw [rsi, if_neg (by omega), if_pos hzero] at h
      simp at h
    have heq := rsi_eq (by omega) h (Or.inr hnonzero)
    have hsum : averageGain closes period + averageLoss closes period ≠ 0 := by positivity
    have hzero : 100 * averageGain closes period = 0 :=
      (div_eq_zero_iff.1 heq.symm).resolve_right hsum
    refine ⟨by linarith, fun hboth => hnonzero hboth.2⟩
  · rintro ⟨hzero, hmoved⟩
    have hnonzero : averageLoss closes period ≠ 0 := fun h => hmoved ⟨hzero, h⟩
    rw [rsi, if_neg (by omega), if_neg hnonzero, hzero]
    norm_num

end Indicators

end CapitalCipher
