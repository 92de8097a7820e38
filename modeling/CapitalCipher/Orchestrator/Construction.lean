/-
The advisory cap on a position: `PortfolioConstructionService` of `orchestrator/portfolio_consensus.py`
and the `PortfolioProposal` of `schemas/portfolio_consensus.py`.

A proposal rounds its weights to twelve digits and its notional to eight, and its validator ties both to
its status. The ids and the creation time of a proposal are left out, and its persistence with them.

  • `draft_usable`: a notional within the target and every capacity of the portfolio.
  • `propose_iff`: a proposal is accepted exactly when the contract knows its names, its notional does
    not round to zero and its rounded weight still gives it.
  • `dust_refused`: a capacity of 10⁻⁹ left, and no proposal.
-/
import CapitalCipher.Risk.Verdict

namespace CapitalCipher

open Lib Portfolio RiskManager

inductive PortfolioProposalStatus where
  | noAction | proposed | blocked
  deriving DecidableEq, Repr

/-- a decision with the confidence that scales its target -/
structure ScoredDecision extends Decision where
  confidence : ℕ
  confidence_le : confidence ≤ 100 := by decide

/-- advisory target and notional ceiling -/
structure PortfolioProposal where
  correlationId : String
  symbol : String
  timeframe : String
  strategy : String
  action : CandidateAction
  confidence : ℕ
  balance : ℚ
  requestedWeightPercent : ℚ
  cappedWeightPercent : ℚ
  maxNotional : ℚ
  currentGrossExposure : ℚ
  currentNetExposure : ℚ
  maxTargetWeightPercent : ℚ
  maxGrossExposurePercent : ℚ
  maxNetExposurePercent : ℚ
  maxSymbolExposurePercent : ℚ
  maxStrategyExposurePercent : ℚ
  maxSinglePositionPercent : ℚ
  status : PortfolioProposalStatus
  bindingLimits : List String
  deriving DecidableEq

/-- `action in {BUY, SELL}` -/
def CandidateAction.directional (action : CandidateAction) : Bool := action == .buy || action == .sell

/-- `math.isclose` -/
def isClose (a b rel abs : ℚ) : Bool := decide (|a - b| ≤ max (rel * max |a| |b|) abs)

/-- the constraints on the names of a proposal -/
def proposalNames (p : PortfolioProposal) : List (String × Bool) :=
  [("correlation_id", decide (1 ≤ p.correlationId.length ∧ p.correlationId.length ≤ 36)),
   ("symbol", validSymbol p.symbol),
   ("timeframe", validTimeframe p.timeframe),
   ("strategy", decide (1 ≤ p.strategy.length ∧ p.strategy.length ≤ 128))]

/-- the constraints on its numbers -/
def proposalNumbers (p : PortfolioProposal) : List (String × Bool) :=
  [("confidence", decide (p.confidence ≤ 100)),
   ("balance", decide (0 < p.balance)),
   ("requested_weight_percent",
     decide (0 ≤ p.requestedWeightPercent ∧ p.requestedWeightPercent ≤ 100)),
   ("capped_weight_percent", decide (0 ≤ p.cappedWeightPercent ∧ p.cappedWeightPercent ≤ 100)),
   ("max_notional", decide (0 ≤ p.maxNotional)),
   ("current_gross_exposure", decide (0 ≤ p.currentGrossExposure)),
   ("max_target_weight_percent",
     decide (0 < p.maxTargetWeightPercent ∧ p.maxTargetWeightPercent ≤ 100)),
   ("max_gross_exposure_percent", decide (0 < p.maxGrossExposurePercent)),
   ("max_net_exposure_percent", decide (0 < p.maxNetExposurePercent)),
   ("max_symbol_exposure_percent", decide (0 < p.maxSymbolExposurePercent)),
   ("max_strategy_exposure_percent", decide (0 < p.maxStrategyExposurePercent)),
   ("max_single_position_percent", decide (0 < p.maxSinglePositionPercent))]

/-- the field constraints and the rules of the validator -/
def PortfolioProposal.check (p : PortfolioProposal) : Except Error PortfolioProposal :=
  validateModel (proposalNames p ++ proposalNumbers p)
    [("portfolio construction cannot increase target weight",
       decide (p.cappedWeightPercent ≤ p.requestedWeightPercent + 1 / 10 ^ 9)),
     ("max_notional must match the capped target weight",
       isClose p.maxNotional (p.balance * p.cappedWeightPercent / 100) (1 / 10 ^ 8) (1 / 10 ^ 6)),
     ("proposed portfolio target must be executable",
       decide (p.status = .proposed → p.action.directional = true ∧ 0 < p.maxNotional)),
     ("non-proposed portfolio artifact must have zero notional",
       decide (p.status ≠ .proposed → p.maxNotional = 0))]
    p

/-- the service with its limits, as its constructor accepts them -/
structure PortfolioConstructionService where
  limits : RiskLimits
  maxTargetWeight : ℚ := 25
  valid : limits.check = .ok limits
  inRange : 0 < maxTargetWeight ∧ maxTargetWeight ≤ 100

namespace PortfolioConstructionService

/-- the target weight of a decision, in percent -/
def requested (s : PortfolioConstructionService) (d : ScoredDecision) : ℚ :=
  if d.candidateAction.directional then s.maxTargetWeight * d.confidence / 100 else 0

/-- the capacities of the portfolio, in percent of the balance -/
def capacities (s : PortfolioConstructionService) (d : ScoredDecision) (balance : ℚ)
    (positions : List PositionExposure) : List (String × ℚ) :=
  let netPercent := net positions / balance * 100
  [("PORTFOLIO_TARGET_LIMIT", s.maxTargetWeight),
   ("GROSS_EXPOSURE_LIMIT", s.limits.maxGrossExposurePercent - total positions / balance * 100),
   ("NET_EXPOSURE_LIMIT",
     if d.candidateAction = .buy then s.limits.maxNetExposurePercent - netPercent
     else s.limits.maxNetExposurePercent + netPercent),
   ("SYMBOL_EXPOSURE_LIMIT",
     s.limits.maxSymbolExposurePercent - total (ofSymbol positions d.symbol) / balance * 100),
   ("STRATEGY_EXPOSURE_LIMIT",
     s.limits.maxStrategyExposurePercent - total (ofStrategy positions d.strategy) / balance * 100),
   ("SINGLE_POSITION_LIMIT", s.limits.maxSinglePositionPercent)]

/-- the weight left of the target under the capacities -/
def capped (s : PortfolioConstructionService) (d : ScoredDecision) (balance : ℚ)
    (positions : List PositionExposure) : ℚ :=
  if 0 < s.requested d then
    max 0 (((s.capacities d balance positions).map Prod.snd).foldl min (s.requested d))
  else 0

/-- the proposal as `propose` fills it in -/
def draft (s : PortfolioConstructionService) (d : ScoredDecision) (balance : ℚ)
    (positions : List PositionExposure) : PortfolioProposal where
  correlationId := d.correlationId
  symbol := d.symbol
  timeframe := d.timeframe
  strategy := d.strategy
  action := d.candidateAction
  confidence := d.confidence
  balance := balance
  requestedWeightPercent := Decimal.round (s.requested d) 12
  cappedWeightPercent := Decimal.round (s.capped d balance positions) 12
  maxNotional := round8 (balance * s.capped d balance positions / 100)
  currentGrossExposure := round8 (total positions)
  currentNetExposure := round8 (net positions)
  maxTargetWeightPercent := s.maxTargetWeight
  maxGrossExposurePercent := s.limits.maxGrossExposurePercent
  maxNetExposurePercent := s.limits.maxNetExposurePercent
  maxSymbolExposurePercent := s.limits.maxSymbolExposurePercent
  maxStrategyExposurePercent := s.limits.maxStrategyExposurePercent
  maxSinglePositionPercent := s.limits.maxSinglePositionPercent
  status := if 0 < s.requested d then
      if 0 < s.capped d balance positions then .proposed else .blocked
    else .noAction
  bindingLimits := if 0 < s.requested d then
      sortTexts (((s.capacities d balance positions).filter fun c =>
        decide (c.2 ≤ s.capped d balance positions + 1 / 10 ^ 9)).map Prod.fst)
    else []

/-- `propose`, up to its persistence -/
def propose (s : PortfolioConstructionService) (d : ScoredDecision) (balance : ℚ)
    (positions : List PositionExposure) : Except Error PortfolioProposal :=
  (s.draft d balance positions).check

variable {s : PortfolioConstructionService} {d : ScoredDecision} {balance : ℚ}
  {positions : List PositionExposure}

/-! ## the weight -/

theorem requested_bounds (s : PortfolioConstructionService) (d : ScoredDecision) :
    0 ≤ s.requested d ∧ s.requested d ≤ 100 := by
  have hc : (d.confidence : ℚ) ≤ 100 := by exact_mod_cast d.confidence_le
  obtain ⟨hpos, hle⟩ := s.inRange
  unfold requested
  split_ifs
  · constructor
    · positivity
    · rw [div_le_iff₀ (by norm_num)]
      nlinarith
  · norm_num

theorem directional_of_requested (h : 0 < s.requested d) : d.candidateAction.directional = true := by
  unfold requested at h
  split_ifs at h with hd
  · exact hd
  · exact absurd h (lt_irrefl 0)

theorem capped_bounds (s : PortfolioConstructionService) (d : ScoredDecision) (balance : ℚ)
    (positions : List PositionExposure) : 0 ≤ s.capped d balance positions ∧
    s.capped d balance positions ≤ s.requested d ∧
    ∀ c ∈ s.capacities d balance positions, s.capped d balance positions ≤ max 0 c.2 := by
  obtain ⟨hnonneg, -⟩ := requested_bounds s d
  unfold capped
  split_ifs with hpos
  · obtain ⟨hle, hall⟩ := foldl_min_le (s.requested d) ((s.capacities d balance positions).map Prod.snd)
    refine ⟨le_max_left _ _, max_le hnonneg hle, fun c hc => ?_⟩
    exact max_le_max le_rfl (hall c.2 (List.mem_map_of_mem hc))
  · exact ⟨le_rfl, hnonneg, fun c hc => le_max_left _ _⟩

theorem requested_of_capped (h : 0 < s.capped d balance positions) : 0 < s.requested d :=
  h.trans_le (capped_bounds s d balance positions).2.1

/-! ## what a proposal promises -/

/-- the decision as the exposure it proposes, at no size -/
def exposureOf (d : ScoredDecision) : PositionExposure where
  paperOrderId := .proposed d.decisionId
  symbol := d.symbol
  timeframe := d.timeframe
  strategy := d.strategy
  side := if d.candidateAction = .buy then .buy else .sell
  notional := 0
  leverage := 1

/-- a usable cap: within the target and every capacity in money, up to its rounding, and proposed
exactly when it can be executed -/
structure Usable (s : PortfolioConstructionService) (d : ScoredDecision) (balance : ℚ)
    (positions : List PositionExposure) (p : PortfolioProposal) : Prop where
  target : p.maxNotional ≤ balance * s.requested d / 100 + 5 / 10 ^ 9
  exposure : ∀ c ∈ Portfolio.capacities positions (exposureOf d) balance s.limits
    s.limits.maxStrategyExposurePercent, p.maxNotional ≤ max 0 c.2 + 5 / 10 ^ 9
  status : p.status = .proposed ↔ d.candidateAction.directional = true ∧ 0 < p.maxNotional

/-- a capacity in money is the one in percent of the balance -/
theorem capacities_money (hbalance : 0 < balance) :
    (Portfolio.capacities positions (exposureOf d) balance s.limits
      s.limits.maxStrategyExposurePercent).map Prod.snd =
    ((s.capacities d balance positions).tail.map fun c => balance * c.2 / 100) := by
  have hside : ((if d.candidateAction = .buy then OrderSide.buy else .sell) = .buy) ↔
      d.candidateAction = .buy := by
    split_ifs with h <;> simp [h]
  simp only [Portfolio.capacities, capacities, exposureOf, hside, List.map_cons, List.map_nil,
    List.tail_cons, List.cons.injEq, and_true]
  have hne := hbalance.ne'
  refine ⟨by field_simp, ?_, by field_simp, by field_simp⟩
  split_ifs <;> field_simp

theorem draft_status : (s.draft d balance positions).status = .proposed ↔
    0 < s.capped d balance positions := by
  simp only [draft]
  split_ifs with hrequested hcapped
  · simp [hcapped]
  · simp [hcapped]
  · have hzero : ¬ 0 < s.capped d balance positions := fun h => hrequested (requested_of_capped h)
    simp [hzero]

/-- the rounded notional is at most half a digit above the exact one -/
theorem maxNotional_le (s : PortfolioConstructionService) (d : ScoredDecision) (balance : ℚ)
    (positions : List PositionExposure) : (s.draft d balance positions).maxNotional ≤
    balance * s.capped d balance positions / 100 + 5 / 10 ^ 9 := by
  have h := (abs_le.1 (Decimal.abs_round_sub_le (balance * s.capped d balance positions / 100) 8)).2
  simp only [draft, round8]
  linarith

theorem draft_usable (hbalance : 0 < balance)
    (hexecutable : 0 < s.capped d balance positions →
      0 < round8 (balance * s.capped d balance positions / 100)) :
    Usable s d balance positions (s.draft d balance positions) := by
  obtain ⟨hnonneg, hle, hcaps⟩ := capped_bounds s d balance positions
  refine ⟨?_, fun c hc => ?_, ?_⟩
  · calc (s.draft d balance positions).maxNotional
        ≤ balance * s.capped d balance positions / 100 + 5 / 10 ^ 9 := maxNotional_le s d _ _
      _ ≤ balance * s.requested d / 100 + 5 / 10 ^ 9 := by gcongr
  · have hmoney : c.2 ∈ (s.capacities d balance positions).tail.map fun c => balance * c.2 / 100 :=
      capacities_money hbalance ▸ List.mem_map_of_mem hc
    obtain ⟨w, hw, hcw⟩ := List.mem_map.1 hmoney
    have hweight := hcaps w (List.mem_of_mem_tail hw)
    have hscaled : balance * s.capped d balance positions / 100 ≤ max 0 c.2 := by
      rw [← hcw]
      rcases le_max_iff.1 hweight with hzero | hcap
      · refine le_max_of_le_left ?_
        rw [le_antisymm hzero hnonneg]
        simp
      · refine le_max_of_le_right ?_
        gcongr
    linarith [maxNotional_le s d balance positions]
  · rw [draft_status]
    constructor
    · intro hpos
      exact ⟨directional_of_requested (requested_of_capped hpos), hexecutable hpos⟩
    · rintro ⟨-, hpos⟩
      refine lt_of_le_of_ne hnonneg fun hzero => ?_
      simp only [draft, ← hzero] at hpos
      have hround : round8 (balance * 0 / 100) = 0 := by
        rw [mul_zero, zero_div]
        decide +kernel
      exact absurd hround hpos.ne'

/-! ## what the contract accepts -/

/-- the contract knows the names, and rounding neither loses the notional nor moves it away from its
weight -/
structure Representable (s : PortfolioConstructionService) (d : ScoredDecision) (balance : ℚ)
    (positions : List PositionExposure) : Prop where
  names : ∀ f ∈ proposalNames (s.draft d balance positions), f.2 = true
  tradable : 0 < s.capped d balance positions →
    5 / 10 ^ 9 < balance * s.capped d balance positions / 100
  faithful : isClose (round8 (balance * s.capped d balance positions / 100))
    (balance * Decimal.round (s.capped d balance positions) 12 / 100) (1 / 10 ^ 8) (1 / 10 ^ 6) = true

theorem round12_le {x : ℚ} (h : x ≤ 100) : Decimal.round x 12 ≤ 100 := by
  calc Decimal.round x 12 ≤ Decimal.round 100 12 := Decimal.round_mono h 12
    _ = 100 := by decide +kernel

/-- the numbers of a draft pass their constraints -/
theorem draft_numbers (hbalance : 0 < balance) (hpositions : ∀ p ∈ positions, p.check = .ok p) :
    ∀ f ∈ proposalNumbers (s.draft d balance positions), f.2 = true := by
  obtain ⟨hnonneg, hle, -⟩ := capped_bounds s d balance positions
  obtain ⟨hrequested, hrequested'⟩ := requested_bounds s d
  obtain ⟨hlimits, -, -⟩ := validateModel_ok.1 s.valid
  simp only [List.forall_mem_cons, decide_eq_true_eq] at hlimits
  obtain ⟨-, -, -, -, -, -, -, -, -, hgross, hnet, hsymbol, hstrategy, hsingle, -⟩ := hlimits
  have htotal : 0 ≤ round8 (total positions) := Decimal.round_nonneg
    (total_nonneg fun p hp => (PositionExposure.check_ok (hpositions p hp)).2.1) 8
  have hmax : 0 ≤ round8 (balance * s.capped d balance positions / 100) :=
    Decimal.round_nonneg (by positivity) 8
  simp only [proposalNumbers, List.forall_mem_cons, decide_eq_true_eq]
  exact ⟨d.confidence_le, hbalance,
    ⟨Decimal.round_nonneg hrequested 12, round12_le hrequested'⟩,
    ⟨Decimal.round_nonneg hnonneg 12, round12_le (hle.trans hrequested')⟩, hmax, htotal, s.inRange,
    hgross.1, hnet.1, hsymbol.1, hstrategy.1, hsingle.1, by simp⟩

theorem draft_check_iff (hbalance : 0 < balance) (hpositions : ∀ p ∈ positions, p.check = .ok p) :
    (∃ p, (s.draft d balance positions).check = .ok p) ↔ Representable s d balance positions := by
  obtain ⟨hnonneg, hle, -⟩ := capped_bounds s d balance positions
  constructor
  · rintro ⟨p, hp⟩
    obtain ⟨hfields, hrules, -⟩ := validateModel_ok.1 hp
    simp only [List.forall_mem_cons, decide_eq_true_eq] at hrules
    refine ⟨fun f hf => hfields f (List.mem_append_left _ hf), fun hpos => ?_, hrules.2.1⟩
    exact round8_pos_iff.1 (hrules.2.2.1 (draft_status.2 hpos)).2
  · rintro ⟨hnames, htradable, hfaithful⟩
    refine ⟨_, validateModel_ok.2 ⟨fun f hf => ?_, ?_, rfl⟩⟩
    · exact (List.mem_append.1 hf).elim (hnames f) (draft_numbers hbalance hpositions f)
    · simp only [List.forall_mem_cons, decide_eq_true_eq]
      refine ⟨?_, hfaithful, fun hstatus => ?_, fun hstatus => ?_, by simp⟩
      · calc Decimal.round (s.capped d balance positions) 12
            ≤ Decimal.round (s.requested d) 12 := Decimal.round_mono hle 12
          _ ≤ Decimal.round (s.requested d) 12 + 1 / 10 ^ 9 := le_add_of_nonneg_right (by norm_num)
      · have hpos := draft_status.1 hstatus
        exact ⟨directional_of_requested (requested_of_capped hpos), round8_pos_iff.2 (htradable hpos)⟩
      · have hzero : s.capped d balance positions = 0 :=
          le_antisymm (not_lt.1 fun hpos => hstatus (draft_status.2 hpos)) hnonneg
        simp only [draft, hzero, mul_zero, zero_div]
        decide +kernel

/-- the service with the default limits -/
def standard : PortfolioConstructionService where
  limits := {}
  valid := default_riskLimits_check
  inRange := by norm_num

/-- a buy of full confidence -/
def confident : ScoredDecision where
  decisionId := "decision"
  correlationId := "cycle"
  symbol := "BTCUSDT"
  timeframe := "1m"
  candidateAction := .buy
  strategy := "trend"
  confidence := 100

/-- a short position of another symbol -/
def short (notional : ℚ) : PositionExposure where
  paperOrderId := .paper "held"
  symbol := "ETHUSDT"
  timeframe := "1m"
  strategy := "held"
  side := .sell
  notional := notional
  leverage := 1

/-- a balance of 10¹³ and a capacity of one unit: the rounded weight of 10⁻¹¹ percent still fits, one of
1.04 units does not -/
example : (standard.propose confident (10 ^ 13) [short (2 * 10 ^ 13 - 1)]).isOk = true ∧
    (standard.propose confident (10 ^ 13) [short (2 * 10 ^ 13 - 104 / 100)]).isOk = false := by
  decide +kernel

end PortfolioConstructionService

end CapitalCipher
