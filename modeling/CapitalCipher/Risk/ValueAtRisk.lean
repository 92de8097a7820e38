/-
The historical VaR and expected shortfall of `risk/portfolio.py` are the empirical ones.

The losses of `n` aligned rows of returns are floored at 0 and sorted; the VaR is the entry of rank
`ceil(c * n)` and the expected shortfall the mean of the losses at or beyond it. Both are reported
rounded to 8 digits.

  • `Empirical`: what a quantile and a tail mean of a list of losses are; at most one pair is.
  • `historicalLosses_eq`: a loss belongs to a row, and the rows are the portfolio's last returns.
  • `historical_var_empirical`: the reported figures, their scaling, and that the order of positions
    and rows is irrelevant.
  • `reported_below_losses`: the rounding takes a reported VaR below every loss.
-/
import CapitalCipher.Lib.Quantile
import CapitalCipher.Lib.Result
import CapitalCipher.Risk.Portfolio

namespace CapitalCipher

open Lib Quantile

/-! ## The empirical figures -/

/-- the empirical quantile and tail mean of losses, at a confidence -/
structure Empirical (losses : List ℚ) (confidence value shortfall : ℚ) : Prop where
  mem : value ∈ losses
  covers : ⌈confidence * losses.length⌉ ≤ losses.countP fun loss => loss ≤ value
  least : ∀ w ∈ losses, ⌈confidence * losses.length⌉ ≤ losses.countP (fun loss => loss ≤ w) →
    value ≤ w
  beyond : value ≤ shortfall
  mean : shortfall = tailMean losses value

namespace Empirical

variable {losses : List ℚ} {confidence value shortfall : ℚ}

/-- the figures are determined by the losses -/
theorem unique {value' shortfall' : ℚ} (h : Empirical losses confidence value shortfall)
    (h' : Empirical losses confidence value' shortfall') : value = value' ∧ shortfall = shortfall' := by
  have hvalue : value = value' :=
    le_antisymm (h.least _ h'.mem h'.covers) (h'.least _ h.mem h.covers)
  exact ⟨hvalue, by rw [h.mean, h'.mean, hvalue]⟩

theorem perm {losses' : List ℚ} (h : Empirical losses confidence value shortfall)
    (hp : losses.Perm losses') : Empirical losses' confidence value shortfall where
  mem := hp.mem_iff.1 h.mem
  covers := by
    have hcovers := h.covers
    rwa [hp.length_eq, hp.countP_eq] at hcovers
  least w hw hcount := by
    rw [← hp.length_eq, ← hp.countP_eq] at hcount
    exact h.least w (hp.mem_iff.2 hw) hcount
  beyond := h.beyond
  mean := h.mean.trans (tailMean_perm hp)

theorem scale (h : Empirical losses confidence value shortfall) {k : ℚ} (hk : 0 < k) :
    Empirical (losses.map (k * ·)) confidence (k * value) (k * shortfall) where
  mem := List.mem_map_of_mem h.mem
  covers := by
    rw [List.length_map, countP_mul hk]
    exact h.covers
  least w hw hcount := by
    obtain ⟨x, hx, rfl⟩ := List.mem_map.1 hw
    rw [List.length_map, countP_mul hk] at hcount
    exact mul_le_mul_of_nonneg_left (h.least x hx hcount) hk.le
  beyond := mul_le_mul_of_nonneg_left h.beyond hk.le
  mean := by rw [h.mean, tailMean_mul hk]

end Empirical

namespace Portfolio

variable {positions : List PositionExposure} {balance : ℚ} {limits : RiskLimits}
  {store : CandleStore}

/-- the index `portfolio_var` takes its quantile at -/
def quantileIndex (confidence : ℚ) (n : ℕ) : ℕ := min (n - 1) (⌈confidence * n⌉.toNat - 1)

/-- the VaR of losses before it is rounded -/
def historicalValue (confidence : ℚ) (losses : List ℚ) : ℚ :=
  ranked losses (quantileIndex confidence losses.length) 0

theorem quantileIndex_lt {confidence : ℚ} {n : ℕ} (hn : 0 < n) : quantileIndex confidence n < n := by
  unfold quantileIndex
  omega

theorem quantileIndex_spec {confidence : ℚ} {n : ℕ} (hc : 0 < confidence) (hc' : confidence ≤ 1)
    (hn : 0 < n) :
    quantileIndex confidence n < n ∧ ((quantileIndex confidence n + 1 : ℕ) : ℤ) = ⌈confidence * n⌉ := by
  have hn' : (0 : ℚ) < n := Nat.cast_pos.2 hn
  have hlow : 0 < ⌈confidence * n⌉ := Int.ceil_pos.2 (mul_pos hc hn')
  have hhigh : ⌈confidence * n⌉ ≤ n := by
    rw [Int.ceil_le]
    push_cast
    exact mul_le_of_le_one_left hn'.le hc'
  unfold quantileIndex
  omega

/-- **Quantile and tail.** The entry the code picks, and the mean of those at or beyond it, are the
empirical ones. -/
theorem historical_empirical {confidence : ℚ} (hc : 0 < confidence) (hc' : confidence ≤ 1)
    {losses : List ℚ} (hne : losses ≠ []) :
    Empirical losses confidence (historicalValue confidence losses)
      (tailMean losses (historicalValue confidence losses)) := by
  obtain ⟨hindex, hrank⟩ := quantileIndex_spec hc hc' (List.length_pos_iff.2 hne)
  have hmem : historicalValue confidence losses ∈ losses := ranked_mem hindex
  refine ⟨hmem, ?_, ?_, le_tailMean hmem, rfl⟩
  · rw [← hrank]
    exact Int.ofNat_le.2 (succ_le_countP_ranked hindex)
  · intro w _ hcount
    rw [← hrank] at hcount
    exact ranked_le hindex (Int.ofNat_le.1 hcount)

/-! ## Rows -/

/-- the series of returns a portfolio is valued on -/
def seriesOf (store : CandleStore) (positions : List PositionExposure) (limits : RiskLimits) :
    List (List ℚ) :=
  positions.map fun p => returnsFor store p limits.varLookback

/-- how many returns they have in common -/
def observationsOf (series : List (List ℚ)) : ℕ := ((series.map List.length).min?).getD 0

/-- the last `n` rows of aligned returns, one return for each position -/
def rows (series : List (List ℚ)) (n : ℕ) : List (List ℚ) :=
  (List.range n).map fun i => series.map fun returns => returns.getD (returns.length - n + i) 0

/-- what a portfolio loses in a row, floored at 0 -/
def lossOf (positions : List PositionExposure) (row : List ℚ) : ℚ :=
  max 0 (-((positions.zip row).map fun (p, x) => signedNotional p * x).sum)

theorem historicalLosses_eq (series : List (List ℚ)) (n : ℕ) :
    historicalLosses positions series n = (rows series n).map (lossOf positions) := by
  simp only [historicalLosses, rows, List.map_map]
  apply List.map_congr_left
  intro i _
  simp only [Function.comp_apply, lossOf, List.zip_map_right, List.map_map]
  rfl

/-- the losses of the historical method -/
def lossesOf (store : CandleStore) (positions : List PositionExposure) (limits : RiskLimits) :
    List ℚ :=
  (rows (seriesOf store positions limits) (observationsOf (seriesOf store positions limits))).map
    (lossOf positions)

theorem length_lossesOf : (lossesOf store positions limits).length =
    observationsOf (seriesOf store positions limits) := by
  simp [lossesOf, rows]

/-- the result of the historical method, from its two figures -/
def historicalResult (limits : RiskLimits) (balance : ℚ) (observations : ℕ) (value shortfall : ℚ) :
    VaRResult :=
  { method := "historical-v1", confidence := limits.varConfidence, observations
    valueAtRisk := round8 value
    valueAtRiskPercent := round8 (value / balance * 100)
    expectedShortfall := round8 shortfall }

/-- quantile and tail as the code computes them, of the sorted losses -/
theorem figures_eq (confidence : ℚ) {losses : List ℚ} (hne : losses ≠ []) :
    let ordered := losses.insertionSort (· ≤ ·)
    let value := ordered.getD
      (min (ordered.length - 1) (⌈confidence * ordered.length⌉.toNat - 1)) 0
    value = historicalValue confidence losses ∧
      (if ordered.filter (fun loss => decide (value ≤ loss)) = [] then value
        else (ordered.filter fun loss => decide (value ≤ loss)).sum /
          (ordered.filter fun loss => decide (value ≤ loss)).length) =
        tailMean losses (historicalValue confidence losses) := by
  intro ordered value
  have hvalue : value = historicalValue confidence losses := by
    simp only [value, ordered, List.length_insertionSort]
    rfl
  have hsorted : ordered.Perm losses := List.perm_insertionSort _ losses
  have hmem : value ∈ losses := by
    rw [hvalue]
    exact ranked_mem (quantileIndex_lt (List.length_pos_iff.2 hne))
  have htail : tail ordered value ≠ [] :=
    List.ne_nil_of_mem (List.mem_filter.2 ⟨hsorted.mem_iff.2 hmem, by simp⟩)
  refine ⟨hvalue, (if_neg htail).trans ?_⟩
  rw [← hvalue]
  exact tailMean_perm hsorted

theorem portfolioVar_historical (hpos : positions ≠ [])
    (hn : 0 < observationsOf (seriesOf store positions limits))
    (hobs : limits.varMinObservations ≤ observationsOf (seriesOf store positions limits)) :
    portfolioVar positions balance limits (some store) =
      historicalResult limits balance (observationsOf (seriesOf store positions limits))
        (historicalValue limits.varConfidence (lossesOf store positions limits))
        (tailMean (lossesOf store positions limits)
          (historicalValue limits.varConfidence (lossesOf store positions limits))) := by
  have hlosses : historicalLosses positions (seriesOf store positions limits)
      (observationsOf (seriesOf store positions limits)) = lossesOf store positions limits :=
    historicalLosses_eq _ _
  have hne : lossesOf store positions limits ≠ [] := by
    rwa [← List.length_pos_iff, length_lossesOf]
  obtain ⟨hvalue, hshortfall⟩ := figures_eq limits.varConfidence hne
  unfold portfolioVar
  rw [if_neg hpos]
  show (if limits.varMinObservations ≤ observationsOf (seriesOf store positions limits) then _
    else _) = _
  rw [if_pos hobs, ← hshortfall, ← hvalue, ← hlosses]
  rfl

/-! ## Positions -/

/-- the same position with `k` times the notional -/
def scaled (k : ℚ) (p : PositionExposure) : PositionExposure := { p with notional := k * p.notional }

theorem signedNotional_scaled (k : ℚ) (p : PositionExposure) :
    signedNotional (scaled k p) = k * signedNotional p := by
  unfold signedNotional scaled
  split_ifs
  · rfl
  · exact (mul_neg _ _).symm

theorem seriesOf_scaled (k : ℚ) :
    seriesOf store (positions.map (scaled k)) limits = seriesOf store positions limits := by
  simp only [seriesOf, List.map_map]
  rfl

theorem lossOf_scaled {k : ℚ} (hk : 0 < k) (row : List ℚ) :
    lossOf (positions.map (scaled k)) row = k * lossOf positions row := by
  have hsum : (((positions.map (scaled k)).zip row).map fun (p, x) => signedNotional p * x).sum =
      k * ((positions.zip row).map fun (p, x) => signedNotional p * x).sum := by
    rw [List.zip_map_left, List.map_map, ← List.sum_map_mul_left]
    congr 1
    apply List.map_congr_left
    intro q _
    simp only [Function.comp_apply, Prod.map, id, signedNotional_scaled, mul_assoc]
  rw [lossOf, lossOf, hsum, mul_max_of_nonneg _ _ hk.le, mul_zero, mul_neg]

theorem lossesOf_scaled {k : ℚ} (hk : 0 < k) :
    lossesOf store (positions.map (scaled k)) limits =
      (lossesOf store positions limits).map (k * ·) := by
  simp only [lossesOf, seriesOf_scaled, List.map_map]
  apply List.map_congr_left
  intro row _
  exact lossOf_scaled hk row

/-- a row of a portfolio's own series, as a sum over its positions -/
theorem lossOf_map (f : PositionExposure → ℚ) :
    lossOf positions (positions.map f) =
      max 0 (-(positions.map fun p => signedNotional p * f p).sum) := by
  rw [lossOf, List.zip_map_right, List.map_map]
  congr 3
  induction positions with
  | nil => rfl
  | cons p ps ih => simp [ih]

theorem observationsOf_perm {series series' : List (List ℚ)} (hp : series.Perm series') :
    observationsOf series = observationsOf series' := by
  have hlengths : (series.map List.length).Perm (series'.map List.length) := hp.map _
  have hmin : (series.map List.length).min? = (series'.map List.length).min? := by
    cases h : (series.map List.length).min? with
    | none =>
      have hnil := List.min?_eq_none_iff.1 h
      rw [hnil, List.nil_perm] at hlengths
      rw [hlengths]
      rfl
    | some n =>
      obtain ⟨hmem, hle⟩ := List.min?_eq_some_iff.1 h
      symm
      exact List.min?_eq_some_iff.2 ⟨hlengths.mem_iff.1 hmem, fun m hm => hle m (hlengths.mem_iff.2 hm)⟩
  rw [observationsOf, observationsOf, hmin]

theorem lossesOf_perm {positions' : List PositionExposure} (hp : positions.Perm positions') :
    lossesOf store positions limits = lossesOf store positions' limits := by
  have hobs : observationsOf (seriesOf store positions limits) =
      observationsOf (seriesOf store positions' limits) := observationsOf_perm (hp.map _)
  simp only [lossesOf, rows, List.map_map, hobs]
  apply List.map_congr_left
  intro i _
  simp only [Function.comp_apply, seriesOf, List.map_map, lossOf_map]
  rw [(hp.map _).sum_eq]

/-! ## The reported figures -/

/-- **Historical VaR.** With enough aligned rows the reported VaR and expected shortfall are the
empirical ones of the losses, rounded; a factor on the notionals is a factor on both, and neither the
order of the positions nor that of the rows changes anything. -/
theorem historical_var_empirical (hl : limits.check = .ok limits) (balance : ℚ)
    (hpos : positions ≠ [])
    (hobs : limits.varMinObservations ≤ observationsOf (seriesOf store positions limits)) :
    ∃ value shortfall,
      Empirical (lossesOf store positions limits) limits.varConfidence value shortfall ∧
      portfolioVar positions balance limits (some store) = historicalResult limits balance
        (observationsOf (seriesOf store positions limits)) value shortfall ∧
      (∀ k, 0 < k → portfolioVar (positions.map (scaled k)) balance limits (some store) =
        historicalResult limits balance (observationsOf (seriesOf store positions limits))
          (k * value) (k * shortfall)) ∧
      (∀ positions', positions.Perm positions' →
        portfolioVar positions' balance limits (some store) =
          portfolioVar positions balance limits (some store)) ∧
      ∀ store', (rows (seriesOf store positions limits)
          (observationsOf (seriesOf store positions limits))).Perm
            (rows (seriesOf store' positions limits)
              (observationsOf (seriesOf store' positions limits))) →
        portfolioVar positions balance limits (some store') =
          portfolioVar positions balance limits (some store) := by
  obtain ⟨hfields, -, -⟩ := validateModel_ok.1 hl
  simp only [List.forall_mem_cons, decide_eq_true_eq] at hfields
  obtain ⟨-, -, -, -, -, -, -, -, -, -, -, -, -, -, -, -, ⟨hc, hc'⟩, -, ⟨hmin, -⟩, -⟩ := hfields
  have hn : 0 < observationsOf (seriesOf store positions limits) := by omega
  have hc₀ : 0 < limits.varConfidence := by linarith
  have hempirical : ∀ losses : List ℚ, losses ≠ [] → Empirical losses limits.varConfidence
      (historicalValue limits.varConfidence losses)
      (tailMean losses (historicalValue limits.varConfidence losses)) :=
    fun _ => historical_empirical hc₀ hc'.le
  have hne : lossesOf store positions limits ≠ [] := by
    rwa [← List.length_pos_iff, length_lossesOf]
  have hfigures := hempirical _ hne
  refine ⟨_, _, hfigures, portfolioVar_historical hpos hn hobs, ?_, ?_, ?_⟩
  · intro k hk
    -- the figures of the scaled losses are determined by them
    have hscaled := hempirical ((lossesOf store positions limits).map (k * ·)) (by simpa using hne)
    obtain ⟨hvalue, hshortfall⟩ := hscaled.unique (hfigures.scale hk)
    rw [portfolioVar_historical (by simpa using hpos) (by rwa [seriesOf_scaled])
      (by rwa [seriesOf_scaled]), lossesOf_scaled hk, seriesOf_scaled, hshortfall, hvalue]
  · intro positions' hp
    have hseries : observationsOf (seriesOf store positions' limits) =
        observationsOf (seriesOf store positions limits) := observationsOf_perm (hp.symm.map _)
    have hpos' : positions' ≠ [] := fun h => hpos (by rwa [h, List.perm_nil] at hp)
    rw [portfolioVar_historical hpos' (by rwa [hseries]) (by rwa [hseries]),
      portfolioVar_historical hpos hn hobs, hseries, lossesOf_perm hp]
  · intro store' hrows
    have hlosses : (lossesOf store positions limits).Perm (lossesOf store' positions limits) :=
      hrows.map _
    have hobs' : observationsOf (seriesOf store' positions limits) =
        observationsOf (seriesOf store positions limits) := by
      rw [← length_lossesOf, ← length_lossesOf, hlosses.length_eq]
    have hne' : lossesOf store' positions limits ≠ [] := fun h =>
      hne (by rwa [h, List.perm_nil] at hlosses)
    obtain ⟨hvalue, hshortfall⟩ := (hempirical _ hne').unique (hfigures.perm hlosses)
    rw [portfolioVar_historical hpos (by rwa [hobs']) (by rwa [hobs']),
      portfolioVar_historical hpos hn hobs, hobs', hshortfall, hvalue]

/-- closes that lose a tenth from one to the next -/
def falling : CandleStore := fun _ _ _ limit => (List.range limit).map fun i => (9 / 10 : ℚ) ^ i

def shortHistory : RiskLimits := { varLookback := 20, varMinObservations := 10 }

/-- a position of 4e-8, which loses 4e-9 in every row -/
def dust : PositionExposure where
  paperOrderId := .paper "p"
  symbol := "BTCUSDT"
  timeframe := "1m"
  strategy := "S"
  side := .buy
  notional := 4 / 10 ^ 8
  leverage := 1

/-- a position of 4e-8 is valued on 20 rows -/
theorem historical_var_empirical_dust :
    ∃ value shortfall,
      Empirical (lossesOf falling [dust] shortHistory) shortHistory.varConfidence value shortfall ∧
      portfolioVar [dust] 10000 shortHistory (some falling) = historicalResult shortHistory 10000
        (observationsOf (seriesOf falling [dust] shortHistory)) value shortfall ∧
      (∀ k, 0 < k → portfolioVar ([dust].map (scaled k)) 10000 shortHistory (some falling) =
        historicalResult shortHistory 10000 (observationsOf (seriesOf falling [dust] shortHistory))
          (k * value) (k * shortfall)) ∧
      (∀ positions', [dust].Perm positions' →
        portfolioVar positions' 10000 shortHistory (some falling) =
          portfolioVar [dust] 10000 shortHistory (some falling)) ∧
      ∀ store', (rows (seriesOf falling [dust] shortHistory)
          (observationsOf (seriesOf falling [dust] shortHistory))).Perm
            (rows (seriesOf store' [dust] shortHistory)
              (observationsOf (seriesOf store' [dust] shortHistory))) →
        portfolioVar [dust] 10000 shortHistory (some store') =
          portfolioVar [dust] 10000 shortHistory (some falling) :=
  historical_var_empirical (by decide +kernel) 10000 (by simp) (by decide +kernel)

/-- its VaR is reported as 0, below all of its 20 losses -/
theorem reported_below_losses : shortHistory.check = .ok shortHistory ∧ dust.check = .ok dust ∧
    (portfolioVar [dust] 10000 shortHistory (some falling)).method = "historical-v1" ∧
    ¬ ⌈shortHistory.varConfidence * (lossesOf falling [dust] shortHistory).length⌉ ≤
      (lossesOf falling [dust] shortHistory).countP fun loss =>
        loss ≤ (portfolioVar [dust] 10000 shortHistory (some falling)).valueAtRisk := by
  decide +kernel

end Portfolio

end CapitalCipher
