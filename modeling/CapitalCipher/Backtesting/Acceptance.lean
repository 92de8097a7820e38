/-
The acceptance gate of `backtesting/acceptance.py` over the fold summaries of
`backtesting/walk_forward.py`.

A summary keeps the fields that `_aggregate` reads. A reason of refusal keeps the two figures it
compares; its text formats them.

  • `aggregate_mono`: what better folds do to each figure of the aggregate.
  • `acceptance_gate`: a gate that passes still passes with better folds and a smaller budget, and
    few win/loss patterns pass the sign test by chance.
-/
import CapitalCipher.Lib.Quantile
import CapitalCipher.Lib.Result
import CapitalCipher.Lib.SignTest
import CapitalCipher.Schemas.Common

namespace CapitalCipher

open Lib

/-! ## Schemas -/

structure WalkForwardResearchPlan where
  candidateIndex : ℕ := 1
  candidateBudget : ℕ := 1
  familywiseAlpha : ℚ := 5 / 100
  deriving DecidableEq

/-- the numeric constraints and `validate_candidate_budget` -/
def WalkForwardResearchPlan.check (p : WalkForwardResearchPlan) :
    Except Error WalkForwardResearchPlan :=
  validateModel
    [("candidate_index", decide (1 ≤ p.candidateIndex ∧ p.candidateIndex ≤ 10000)),
     ("candidate_budget", decide (1 ≤ p.candidateBudget ∧ p.candidateBudget ≤ 10000)),
     ("familywise_alpha", decide (0 < p.familywiseAlpha ∧ p.familywiseAlpha ≤ 1 / 4))]
    [("candidate_index must not exceed candidate_budget",
       decide (p.candidateIndex ≤ p.candidateBudget))] p

structure WalkForwardAcceptanceCriteria where
  minimumFolds : ℕ := 3
  minimumTrades : ℕ := 30
  minimumProfitableFoldRatio : ℚ := 6 / 10
  minimumMedianNetPnlPercent : ℚ := 0
  minimumMeanExpectancy : ℚ := 0
  maximumWorstDrawdownPercent : ℚ := 10
  requireZeroLiquidations : Bool := true
  deriving DecidableEq

structure WalkForwardBacktestSummary where
  totalTrades : ℕ
  netPnl : ℚ
  netPnlPercent : ℚ
  expectancy : ℚ
  maxDrawdown : ℚ
  liquidations : ℕ := 0
  drawdown_nonneg : 0 ≤ maxDrawdown
  deriving DecidableEq

structure WalkForwardAggregate where
  folds : ℕ
  totalTrades : ℕ
  profitableFolds : ℕ
  profitableFoldRatio : ℚ
  meanNetPnlPercent : ℚ
  medianNetPnlPercent : ℚ
  worstMaxDrawdown : ℚ
  meanExpectancy : ℚ
  totalLiquidations : ℕ
  deriving DecidableEq

def WalkForwardAggregate.check (a : WalkForwardAggregate) : Except Error WalkForwardAggregate :=
  validateModel
    [("profitable_fold_ratio", decide (0 ≤ a.profitableFoldRatio ∧ a.profitableFoldRatio ≤ 1)),
     ("worst_max_drawdown", decide (0 ≤ a.worstMaxDrawdown))] [] a

/-- why a gate refuses: the figure observed and the one it is compared with -/
inductive GateReason where
  | folds (observed minimum : ℕ)
  | trades (observed minimum : ℕ)
  | profitableFoldRatio (observed minimum : ℚ)
  | medianNetPnlPercent (observed minimum : ℚ)
  | meanExpectancy (observed minimum : ℚ)
  | worstMaxDrawdown (observed maximum : ℚ)
  | liquidations (observed : ℕ)
  | adjustedPValue (observed alpha : ℚ)
  deriving DecidableEq

inductive GatePhase where
  | validation | test
  deriving DecidableEq, Repr

structure WalkForwardGateResult where
  phase : GatePhase
  passed : Bool
  reasons : List GateReason
  rawSignTestPValue : ℚ
  adjustedPValue : ℚ
  familywiseAlpha : ℚ
  observed : WalkForwardAggregate
  candidateBudget : ℕ
  deriving DecidableEq

/-! ## The gate -/

namespace WalkForward

/-- `statistics.median` of data that is not empty -/
def median (data : List ℚ) : ℚ :=
  let ordered := data.insertionSort (· ≤ ·)
  if ordered.length % 2 = 1 then ordered.getD (ordered.length / 2) 0
  else (ordered.getD (ordered.length / 2 - 1) 0 + ordered.getD (ordered.length / 2) 0) / 2

def profitable (s : WalkForwardBacktestSummary) : Bool := decide (0 < s.netPnl)

/-- the figures of summaries that are not empty -/
def aggregateOf (summaries : List WalkForwardBacktestSummary) : WalkForwardAggregate where
  folds := summaries.length
  totalTrades := (summaries.map (·.totalTrades)).sum
  profitableFolds := summaries.countP profitable
  profitableFoldRatio := Decimal.round ((summaries.countP profitable : ℚ) / summaries.length) 4
  meanNetPnlPercent := Decimal.round (fmean (summaries.map (·.netPnlPercent))) 4
  medianNetPnlPercent := Decimal.round (median (summaries.map (·.netPnlPercent))) 4
  worstMaxDrawdown := Decimal.round ((summaries.map (·.maxDrawdown)).max?.getD 0) 4
  meanExpectancy := Decimal.round (fmean (summaries.map (·.expectancy))) 4
  totalLiquidations := (summaries.map (·.liquidations)).sum

/-- `_aggregate`; without summaries the ratio divides by zero -/
def aggregate (summaries : List WalkForwardBacktestSummary) : Except Error WalkForwardAggregate :=
  if summaries = [] then .error ⟨.transport, "ZeroDivisionError"⟩ else (aggregateOf summaries).check

/-- `_one_sided_sign_test_p_value` -/
def oneSidedSignTestPValue (profitableFolds folds : ℕ) : ℚ :=
  if folds = 0 then 1
  else (((List.range' profitableFolds (folds + 1 - profitableFolds)).map folds.choose).sum : ℕ) /
    2 ^ folds

/-- the p-value after the Bonferroni correction -/
def adjustedPValue (plan : WalkForwardResearchPlan) (profitableFolds folds : ℕ) : ℚ :=
  min 1 (oneSidedSignTestPValue profitableFolds folds * plan.candidateBudget)

/-- the `reasons` of `evaluate_walk_forward_gate`, in its order -/
def gateReasons (a : WalkForwardAggregate) (criteria : WalkForwardAcceptanceCriteria)
    (plan : WalkForwardResearchPlan) : List GateReason :=
  (if a.folds < criteria.minimumFolds then [.folds a.folds criteria.minimumFolds] else []) ++
  (if a.totalTrades < criteria.minimumTrades then [.trades a.totalTrades criteria.minimumTrades]
    else []) ++
  (if a.profitableFoldRatio < criteria.minimumProfitableFoldRatio then
    [.profitableFoldRatio a.profitableFoldRatio criteria.minimumProfitableFoldRatio] else []) ++
  (if a.medianNetPnlPercent < criteria.minimumMedianNetPnlPercent then
    [.medianNetPnlPercent a.medianNetPnlPercent criteria.minimumMedianNetPnlPercent] else []) ++
  (if a.meanExpectancy < criteria.minimumMeanExpectancy then
    [.meanExpectancy a.meanExpectancy criteria.minimumMeanExpectancy] else []) ++
  (if criteria.maximumWorstDrawdownPercent < a.worstMaxDrawdown then
    [.worstMaxDrawdown a.worstMaxDrawdown criteria.maximumWorstDrawdownPercent] else []) ++
  (if criteria.requireZeroLiquidations ∧ 0 < a.totalLiquidations then
    [.liquidations a.totalLiquidations] else []) ++
  (if plan.familywiseAlpha < adjustedPValue plan a.profitableFolds a.folds then
    [.adjustedPValue (adjustedPValue plan a.profitableFolds a.folds) plan.familywiseAlpha] else [])

/-- `evaluate_walk_forward_gate` -/
def evaluateWalkForwardGate (phase : GatePhase) (a : WalkForwardAggregate)
    (criteria : WalkForwardAcceptanceCriteria) (plan : WalkForwardResearchPlan) :
    WalkForwardGateResult :=
  { phase
    passed := (gateReasons a criteria plan).isEmpty
    reasons := gateReasons a criteria plan
    rawSignTestPValue := Decimal.round (oneSidedSignTestPValue a.profitableFolds a.folds) 8
    adjustedPValue := Decimal.round (adjustedPValue plan a.profitableFolds a.folds) 8
    familywiseAlpha := plan.familywiseAlpha
    observed := a
    candidateBudget := plan.candidateBudget }

/-- the gate of a phase over its fold summaries, as `run` applies it -/
def gateOf (phase : GatePhase) (summaries : List WalkForwardBacktestSummary)
    (criteria : WalkForwardAcceptanceCriteria) (plan : WalkForwardResearchPlan) :
    Except Error WalkForwardGateResult := do
  let a ← aggregate summaries
  .ok (evaluateWalkForwardGate phase a criteria plan)

/-! ## Better folds -/

/-- a summary at least as good as another -/
structure AtLeastAsGood (s s' : WalkForwardBacktestSummary) : Prop where
  netPnl : s.netPnl ≤ s'.netPnl
  netPnlPercent : s.netPnlPercent ≤ s'.netPnlPercent
  expectancy : s.expectancy ≤ s'.expectancy
  maxDrawdown : s'.maxDrawdown ≤ s.maxDrawdown
  totalTrades : s.totalTrades ≤ s'.totalTrades
  liquidations : s'.liquidations ≤ s.liquidations

/-- an aggregate that no criterion holds anything against -/
structure Accepts (a : WalkForwardAggregate) (criteria : WalkForwardAcceptanceCriteria)
    (plan : WalkForwardResearchPlan) : Prop where
  folds : criteria.minimumFolds ≤ a.folds
  trades : criteria.minimumTrades ≤ a.totalTrades
  ratio : criteria.minimumProfitableFoldRatio ≤ a.profitableFoldRatio
  median : criteria.minimumMedianNetPnlPercent ≤ a.medianNetPnlPercent
  expectancy : criteria.minimumMeanExpectancy ≤ a.meanExpectancy
  drawdown : a.worstMaxDrawdown ≤ criteria.maximumWorstDrawdownPercent
  liquidations : criteria.requireZeroLiquidations = true → a.totalLiquidations = 0
  significant : adjustedPValue plan a.profitableFolds a.folds ≤ plan.familywiseAlpha

theorem gateReasons_eq_nil {a : WalkForwardAggregate} {criteria : WalkForwardAcceptanceCriteria}
    {plan : WalkForwardResearchPlan} : gateReasons a criteria plan = [] ↔ Accepts a criteria plan := by
  have hnone : ∀ (c : Prop) [Decidable c] (r : GateReason), (if c then [r] else []) = [] ↔ ¬ c := by
    intro c _ r
    split_ifs with h
    · simp [h]
    · simp [h]
  simp only [gateReasons, List.append_eq_nil_iff, hnone, not_lt, not_and, Nat.le_zero]
  constructor
  · rintro ⟨⟨⟨⟨⟨⟨⟨h1, h2⟩, h3⟩, h4⟩, h5⟩, h6⟩, h7⟩, h8⟩
    exact ⟨h1, h2, h3, h4, h5, h6, h7, h8⟩
  · rintro ⟨h1, h2, h3, h4, h5, h6, h7, h8⟩
    exact ⟨⟨⟨⟨⟨⟨⟨h1, h2⟩, h3⟩, h4⟩, h5⟩, h6⟩, h7⟩, h8⟩

variable {l l' : List ℚ} {summaries summaries' : List WalkForwardBacktestSummary}

theorem sum_mono (h : List.Forall₂ (· ≤ ·) l l') : l.sum ≤ l'.sum := h.sum_le_sum

theorem fmean_mono (h : List.Forall₂ (· ≤ ·) l l') : fmean l ≤ fmean l' := by
  rw [fmean, fmean, h.length_eq]
  exact div_le_div_of_nonneg_right (sum_mono h) (Nat.cast_nonneg _)

theorem median_mono (h : List.Forall₂ (· ≤ ·) l l') : median l ≤ median l' := by
  have hranked : ∀ i, Quantile.ranked l i 0 ≤ Quantile.ranked l' i 0 :=
    fun i => Quantile.ranked_mono h i 0
  simp only [median, List.length_insertionSort, h.length_eq]
  split_ifs
  · exact hranked _
  · have h1 := hranked (l'.length / 2 - 1)
    have h2 := hranked (l'.length / 2)
    simp only [Quantile.ranked] at h1 h2
    linarith

/-- the maximum of better entries -/
theorem max_mono (h : List.Forall₂ (· ≤ ·) l l') : l.max?.getD 0 ≤ l'.max?.getD 0 := by
  cases hm : l.max? with
  | none =>
    have hnil := List.max?_eq_none_iff.1 hm
    subst hnil
    cases h
    exact le_rfl
  | some m =>
    obtain ⟨hmem, -⟩ := List.max?_eq_some_iff.1 hm
    obtain ⟨m', hm', hle⟩ := Result.forall₂_mem (List.Forall₂.flip h) hmem
    cases hmax : l'.max? with
    | none =>
      rw [List.max?_eq_none_iff.1 hmax] at hm'
      exact absurd hm' List.not_mem_nil
    | some x =>
      obtain ⟨-, hx⟩ := List.max?_eq_some_iff.1 hmax
      exact le_trans hle (hx m' hm')

/-! ## Monotonicity -/

theorem countP_profitable_mono (h : List.Forall₂ AtLeastAsGood summaries summaries') :
    summaries.countP profitable ≤ summaries'.countP profitable := by
  induction h with
  | nil => exact le_rfl
  | cons hs _ ih =>
    rw [List.countP_cons, List.countP_cons]
    refine add_le_add ih ?_
    simp only [profitable, decide_eq_true_eq]
    split_ifs with hpos hpos'
    · exact le_rfl
    · exact absurd (hpos.trans_le hs.netPnl) hpos'
    · exact Nat.zero_le _
    · exact le_rfl

/-- a field of better summaries, entry by entry -/
theorem forall₂_field {R : ℚ → ℚ → Prop} {f : WalkForwardBacktestSummary → ℚ}
    (h : List.Forall₂ AtLeastAsGood summaries summaries')
    (hf : ∀ s s', AtLeastAsGood s s' → R (f s) (f s')) :
    List.Forall₂ R (summaries.map f) (summaries'.map f) := by
  rw [List.forall₂_map_left_iff, List.forall₂_map_right_iff]
  exact h.imp hf

/-- the aggregate of better folds -/
structure BetterAggregate (a a' : WalkForwardAggregate) : Prop where
  folds : a'.folds = a.folds
  trades : a.totalTrades ≤ a'.totalTrades
  profitable : a.profitableFolds ≤ a'.profitableFolds
  ratio : a.profitableFoldRatio ≤ a'.profitableFoldRatio
  median : a.medianNetPnlPercent ≤ a'.medianNetPnlPercent
  expectancy : a.meanExpectancy ≤ a'.meanExpectancy
  drawdown : a'.worstMaxDrawdown ≤ a.worstMaxDrawdown
  liquidations : a'.totalLiquidations ≤ a.totalLiquidations

theorem aggregate_mono (h : List.Forall₂ AtLeastAsGood summaries summaries') :
    BetterAggregate (aggregateOf summaries) (aggregateOf summaries') where
  folds := h.length_eq.symm
  trades := by
    refine List.Forall₂.sum_le_sum ?_
    rw [List.forall₂_map_left_iff, List.forall₂_map_right_iff]
    exact h.imp fun _ _ hs => hs.totalTrades
  profitable := countP_profitable_mono h
  ratio := by
    refine Decimal.round_mono ?_ 4
    rw [h.length_eq]
    exact div_le_div_of_nonneg_right (Nat.cast_le.2 (countP_profitable_mono h)) (Nat.cast_nonneg _)
  median := Decimal.round_mono (median_mono (forall₂_field h fun _ _ hs => hs.netPnlPercent)) 4
  expectancy := Decimal.round_mono (fmean_mono (forall₂_field h fun _ _ hs => hs.expectancy)) 4
  drawdown := Decimal.round_mono (max_mono (forall₂_field h fun _ _ hs => hs.maxDrawdown).flip) 4
  liquidations := by
    refine List.Forall₂.sum_le_sum ?_
    rw [List.forall₂_map_left_iff, List.forall₂_map_right_iff]
    exact List.Forall₂.flip (h.imp fun _ _ hs => hs.liquidations)

/-- the figures of valid summaries make a valid aggregate -/
theorem aggregateOf_check (hne : summaries ≠ []) :
    (aggregateOf summaries).check = .ok (aggregateOf summaries) := by
  have hlength : (0 : ℚ) < summaries.length := Nat.cast_pos.2 (List.length_pos_iff.2 hne)
  have hcount : (summaries.countP profitable : ℚ) ≤ summaries.length :=
    Nat.cast_le.2 List.countP_le_length
  have hone : Decimal.round 1 4 = 1 := by decide +kernel
  have hworst : 0 ≤ (summaries.map (·.maxDrawdown)).max?.getD 0 := by
    cases hmax : (summaries.map (·.maxDrawdown)).max? with
    | none => exact le_rfl
    | some x =>
      obtain ⟨s, -, rfl⟩ := List.mem_map.1 (List.max?_eq_some_iff.1 hmax).1
      exact s.drawdown_nonneg
  refine validateModel_ok.2 ⟨?_, by simp, rfl⟩
  simp only [List.forall_mem_cons, decide_eq_true_eq]
  refine ⟨⟨Decimal.round_nonneg (div_nonneg (Nat.cast_nonneg _) hlength.le) 4, ?_⟩,
    Decimal.round_nonneg hworst 4, by simp⟩
  calc Decimal.round ((summaries.countP profitable : ℚ) / summaries.length) 4
      ≤ Decimal.round 1 4 := Decimal.round_mono ((div_le_one hlength).2 hcount) 4
    _ = 1 := hone

/-- the sign test is the upper binomial tail -/
theorem oneSidedSignTestPValue_eq {k n : ℕ} (hn : n ≠ 0) :
    oneSidedSignTestPValue k n = (SignTest.upperTail n k : ℚ) / 2 ^ n := by
  -- an interval of naturals is the list the code sums over
  have hsum : ((List.range' k (n + 1 - k)).map n.choose).sum = SignTest.upperTail n k := rfl
  rw [oneSidedSignTestPValue, if_neg hn, hsum]

theorem oneSidedSignTestPValue_anti {k k' : ℕ} (h : k ≤ k') (n : ℕ) :
    oneSidedSignTestPValue k' n ≤ oneSidedSignTestPValue k n := by
  by_cases hn : n = 0
  · rw [oneSidedSignTestPValue, oneSidedSignTestPValue, if_pos hn, if_pos hn]
  · rw [oneSidedSignTestPValue_eq hn, oneSidedSignTestPValue_eq hn]
    exact div_le_div_of_nonneg_right (Nat.cast_le.2 (SignTest.upperTail_anti h)) (by positivity)

theorem oneSidedSignTestPValue_nonneg (k n : ℕ) : 0 ≤ oneSidedSignTestPValue k n := by
  unfold oneSidedSignTestPValue
  split_ifs
  · exact zero_le_one
  · positivity

/-- a gate that passes still passes when folds are replaced by ones at least as good, and with a
smaller candidate budget -/
theorem gate_monotone {phase : GatePhase} {criteria : WalkForwardAcceptanceCriteria}
    {plan plan' : WalkForwardResearchPlan} {r : WalkForwardGateResult}
    (hbetter : List.Forall₂ AtLeastAsGood summaries summaries')
    (hbudget : plan'.candidateBudget ≤ plan.candidateBudget)
    (halpha : plan'.familywiseAlpha = plan.familywiseAlpha)
    (hr : gateOf phase summaries criteria plan = .ok r) (hpassed : r.passed = true) :
    ∃ r', gateOf phase summaries' criteria plan' = .ok r' ∧ r'.passed = true := by
  obtain ⟨a, ha, heq⟩ := Result.bind_ok.1 hr
  cases heq
  have hne : summaries ≠ [] := by
    intro hnil
    rw [aggregate, if_pos hnil] at ha
    cases ha
  have hne' : summaries' ≠ [] := by
    rw [← List.length_pos_iff, ← hbetter.length_eq, List.length_pos_iff]
    exact hne
  rw [aggregate, if_neg hne] at ha
  obtain ⟨-, -, rfl⟩ := validateModel_ok.1 ha
  have haccepts : Accepts (aggregateOf summaries) criteria plan := by
    rw [← gateReasons_eq_nil, ← List.isEmpty_iff]
    exact hpassed
  have hmono := aggregate_mono hbetter
  have hsignificant : adjustedPValue plan' (aggregateOf summaries').profitableFolds
      (aggregateOf summaries').folds ≤ plan'.familywiseAlpha := by
    rw [halpha]
    refine le_trans (min_le_min le_rfl ?_) haccepts.significant
    rw [hmono.folds]
    exact mul_le_mul (oneSidedSignTestPValue_anti hmono.profitable _) (Nat.cast_le.2 hbudget)
      (Nat.cast_nonneg _) (oneSidedSignTestPValue_nonneg _ _)
  refine ⟨evaluateWalkForwardGate phase (aggregateOf summaries') criteria plan', ?_, ?_⟩
  · rw [gateOf, aggregate, if_neg hne', aggregateOf_check hne']
    rfl
  · rw [evaluateWalkForwardGate, List.isEmpty_iff, gateReasons_eq_nil]
    exact
      { folds := hmono.folds ▸ haccepts.folds
        trades := haccepts.trades.trans hmono.trades
        ratio := haccepts.ratio.trans hmono.ratio
        median := haccepts.median.trans hmono.median
        expectancy := haccepts.expectancy.trans hmono.expectancy
        drawdown := hmono.drawdown.trans haccepts.drawdown
        liquidations := fun h => Nat.le_zero.1 (haccepts.liquidations h ▸ hmono.liquidations)
        significant := hsignificant }

/-- of the win/loss patterns of `n` folds, the share whose adjusted p-value does not exceed the
family-wise level is at most that level over the budget -/
theorem gate_controls_error {plan : WalkForwardResearchPlan} (hplan : plan.check = .ok plan) (n : ℕ) :
    ((Finset.univ.filter fun w : Fin n → Bool =>
        adjustedPValue plan (SignTest.wins w) n ≤ plan.familywiseAlpha).card : ℚ) / 2 ^ n ≤
      plan.familywiseAlpha / plan.candidateBudget := by
  obtain ⟨hfields, -, -⟩ := validateModel_ok.1 hplan
  simp only [List.forall_mem_cons, decide_eq_true_eq] at hfields
  obtain ⟨-, ⟨hbudget, -⟩, ⟨halpha, halpha'⟩, -⟩ := hfields
  have hb : (0 : ℚ) < plan.candidateBudget := Nat.cast_pos.2 hbudget
  have hbound : 0 ≤ plan.familywiseAlpha / plan.candidateBudget := (div_pos halpha hb).le
  -- the correction only binds below 1
  have hraw : ∀ k, adjustedPValue plan k n ≤ plan.familywiseAlpha →
      oneSidedSignTestPValue k n ≤ plan.familywiseAlpha / plan.candidateBudget := by
    intro k hk
    rw [le_div_iff₀ hb]
    rcases min_le_iff.1 hk with hone | hle
    · exact absurd (hone.trans halpha') (by norm_num)
    · exact hle
  rw [div_le_iff₀ (by positivity)]
  by_cases hn : n = 0
  · have hnone : (Finset.univ.filter fun w : Fin n → Bool =>
        adjustedPValue plan (SignTest.wins w) n ≤ plan.familywiseAlpha) = ∅ := by
      refine Finset.filter_eq_empty_iff.2 fun w _ hw => ?_
      have hone : (1 : ℚ) ≤ plan.candidateBudget := Nat.one_le_cast.2 hbudget
      rw [adjustedPValue, oneSidedSignTestPValue, if_pos hn, one_mul, min_eq_left hone] at hw
      exact absurd (hw.trans halpha') (by norm_num)
    rw [hnone, Finset.card_empty, Nat.cast_zero]
    exact mul_nonneg hbound (by positivity)
  · have hsub : (Finset.univ.filter fun w : Fin n → Bool =>
        adjustedPValue plan (SignTest.wins w) n ≤ plan.familywiseAlpha) ⊆
        Finset.univ.filter fun w : Fin n → Bool => SignTest.upperTail n (SignTest.wins w) ≤
          ⌊plan.familywiseAlpha / plan.candidateBudget * 2 ^ n⌋₊ := by
      intro w hw
      refine Finset.mem_filter.2 ⟨Finset.mem_univ w, ?_⟩
      have hle := hraw _ (Finset.mem_filter.1 hw).2
      rw [oneSidedSignTestPValue_eq hn, div_le_iff₀ (by positivity)] at hle
      exact Nat.le_floor hle
    have hcard := (Finset.card_le_card hsub).trans (SignTest.card_tail_le _)
    exact (Nat.cast_le.2 hcard).trans (Nat.floor_le (mul_nonneg hbound (by positivity)))

/-- **The acceptance gate.** A gate that passes still passes with folds at least as good and a
smaller candidate budget, and for every number of folds the sign test lets at most the family-wise
level over the budget of all win/loss patterns through. -/
theorem acceptance_gate {plan : WalkForwardResearchPlan} (hplan : plan.check = .ok plan) :
    (∀ phase criteria summaries summaries' plan' r,
      List.Forall₂ AtLeastAsGood summaries summaries' →
      plan'.candidateBudget ≤ plan.candidateBudget →
      plan'.familywiseAlpha = plan.familywiseAlpha →
      gateOf phase summaries criteria plan = .ok r → r.passed = true →
      ∃ r', gateOf phase summaries' criteria plan' = .ok r' ∧ r'.passed = true) ∧
    ∀ n, ((Finset.univ.filter fun w : Fin n → Bool =>
        adjustedPValue plan (SignTest.wins w) n ≤ plan.familywiseAlpha).card : ℚ) / 2 ^ n ≤
      plan.familywiseAlpha / plan.candidateBudget := by
  constructor
  · intro phase criteria summaries summaries' plan' r hbetter hbudget halpha hr hpassed
    exact gate_monotone hbetter hbudget halpha hr hpassed
  · exact gate_controls_error hplan

/-- a fold of ten trades that earns 1 -/
def soundFold : WalkForwardBacktestSummary where
  totalTrades := 10
  netPnl := 1
  netPnlPercent := 1 / 100
  expectancy := 1 / 10
  maxDrawdown := 2
  drawdown_nonneg := by norm_num

/-- the gate of five sound folds under the defaults -/
def soundGate : WalkForwardGateResult :=
  evaluateWalkForwardGate .test (aggregateOf (List.replicate 5 soundFold)) {} {}

/-- it passes, also with a fold that earns 2; and one of 32 patterns of five folds passes by chance -/
theorem acceptance_gate_five :
    (∃ r', gateOf .test ({ soundFold with netPnl := 2 } :: List.replicate 4 soundFold) {} {} = .ok r' ∧
      r'.passed = true) ∧
    ((Finset.univ.filter fun w : Fin 5 → Bool =>
        adjustedPValue {} (SignTest.wins w) 5 ≤ 5 / 100).card : ℚ) / 2 ^ 5 ≤ 5 / 100 / (1 : ℕ) := by
  have hgate : gateOf .test (List.replicate 5 soundFold) {} {} = .ok soundGate := by
    rw [gateOf, aggregate, if_neg (by simp), aggregateOf_check (by simp)]
    rfl
  have hsame : AtLeastAsGood soundFold soundFold := ⟨le_rfl, le_rfl, le_rfl, le_rfl, le_rfl, le_rfl⟩
  have hbetter : AtLeastAsGood soundFold { soundFold with netPnl := 2 } :=
    ⟨by norm_num [soundFold], le_rfl, le_rfl, le_rfl, le_rfl, le_rfl⟩
  have h := acceptance_gate (show WalkForwardResearchPlan.check {} = .ok {} by decide +kernel)
  refine ⟨h.1 .test {} (List.replicate 5 soundFold) _ {} soundGate ?_ le_rfl rfl hgate
    (by decide +kernel), h.2 5⟩
  exact .cons hbetter (.cons hsame (.cons hsame (.cons hsame (.cons hsame .nil))))

end WalkForward

end CapitalCipher
