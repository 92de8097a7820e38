/-
Whether `RiskManager.check` ends in a recorded verdict: what its constructors accept, and what its
evaluation of a request is left with.

A size is gated by `notional <= 0` and rounded to eight digits afterwards, for an approval that must be
positive; and an approved check must carry its key, which is stripped.

  • `exposureSnapshot_check`, `portfolioVar_check`: snapshots and VaR results are always valid.
  • `verdict_iff`: an evaluation ends in a check exactly when what passes its gates has a key and a size
    that does not round to zero.
  • `capacity_of_dust`: a capacity of 10⁻⁹ left, and a check that raises.
-/
import CapitalCipher.Risk.Sizing
import CapitalCipher.Risk.ValueAtRisk
import CapitalCipher.Lib.Interference

namespace CapitalCipher

open Lib Coro Portfolio

/-- the field constraints -/
def PortfolioRiskSnapshot.check (s : PortfolioRiskSnapshot) : Except Error PortfolioRiskSnapshot :=
  validateModel
    [("balance", decide (0 < s.balance)),
     ("gross_exposure", decide (0 ≤ s.grossExposure)),
     ("proposed_notional", decide (0 ≤ s.proposedNotional)),
     ("resulting_gross_exposure", decide (0 ≤ s.resultingGrossExposure)),
     ("symbol_exposure", decide (0 ≤ s.symbolExposure)),
     ("strategy_exposure", decide (0 ≤ s.strategyExposure)),
     ("symbol_concentration_percent",
       decide (0 ≤ s.symbolConcentrationPercent ∧ s.symbolConcentrationPercent ≤ 100))]
    [] s

/-- the field constraints -/
def VaRResult.check (r : VaRResult) : Except Error VaRResult :=
  validateModel
    [("confidence", decide (9 / 10 ≤ r.confidence ∧ r.confidence < 1)),
     ("value_at_risk", decide (0 ≤ r.valueAtRisk)),
     ("value_at_risk_percent", decide (0 ≤ r.valueAtRiskPercent)),
     ("expected_shortfall", decide (0 ≤ r.expectedShortfall))]
    [] r

/-- SHA-256 digests in hexadecimal -/
structure Digest.Hexadecimal (d : Digest) : Prop where
  requestFingerprint : ∀ r, (d.requestFingerprint r).toList.length = 64
  evaluationId : ∀ key fingerprint, (d.evaluationId key fingerprint).toList.length = 64
  approvalId : ∀ evaluationId riskCheckId fingerprint,
    (d.approvalId evaluationId riskCheckId fingerprint).toList.length = 64

/-- a finding that approves nothing -/
structure Finding.Refuses (f : Finding) : Prop where
  status : f.status.isApproved = false
  terms : f.terms = none
  positionSize : f.positionSize = none
  riskPercent : f.riskPercent = none
  riskReward : f.riskReward = none

/-- what the bounds of the limits give a check -/
theorem RiskLimits.check_ok {l : RiskLimits} (h : l.check = .ok l) :
    0 < l.maxSinglePositionPercent ∧ (9 / 10 ≤ l.varConfidence ∧ l.varConfidence < 1) ∧
      0 < l.fallbackVolatilityPercent ∧ 1 ≤ l.approvalTtlSeconds ∧ 0 ≤ l.maxEntryDeviationBps := by
  obtain ⟨hfields, -, -⟩ := validateModel_ok.1 h
  simp only [List.forall_mem_cons, decide_eq_true_eq] at hfields
  obtain ⟨-, -, -, -, -, -, -, -, -, -, -, -, -, hsingle, -, -, hconfidence, -, -, hvolatility, httl,
    hdeviation, -⟩ := hfields
  exact ⟨hsingle.1, hconfidence, hvolatility.1, httl.1, hdeviation.1⟩

namespace RiskManager

variable {cfg : Config} {m : Memory} {a : CheckArgs}

/-! ## what is constructed -/

section Constructed

variable {ps : List PositionExposure} {p : PositionExposure} {balance : ℚ}

theorem total_nonneg (hps : ∀ q ∈ ps, 0 < q.notional) : 0 ≤ total ps := by
  refine List.sum_nonneg fun x hx => ?_
  obtain ⟨q, hq, rfl⟩ := List.mem_map.1 hx
  exact (hps q hq).le

theorem exposureSnapshot_check (hps : ∀ q ∈ ps, 0 < q.notional) (hp : 0 < p.notional)
    (hbalance : 0 < balance) :
    (exposureSnapshot ps p balance).check = .ok (exposureSnapshot ps p balance) := by
  have hgross := total_nonneg hps
  have hsymbol : 0 ≤ total (ofSymbol ps p.symbol) ∧ total (ofSymbol ps p.symbol) ≤ total ps :=
    total_filter_le hps _
  have hstrategy : 0 ≤ total (ofStrategy ps p.strategy) := (total_filter_le hps _).1
  have hpos : 0 < total ps + p.notional := by linarith
  have hsize : 0 < total (ofSymbol ps p.symbol) + p.notional := by linarith [hsymbol.1]
  have hpercent : 0 ≤ (total (ofSymbol ps p.symbol) + p.notional) / (total ps + p.notional) * 100 ∧
      (total (ofSymbol ps p.symbol) + p.notional) / (total ps + p.notional) * 100 ≤ 100 := by
    constructor
    · positivity
    · have hone : (total (ofSymbol ps p.symbol) + p.notional) / (total ps + p.notional) ≤ 1 :=
        (div_le_one hpos).2 (by linarith [hsymbol.2])
      linarith
  refine validateModel_ok.2 ⟨?_, by simp, rfl⟩
  simp only [exposureSnapshot, if_neg hpos.ne', List.forall_mem_cons, decide_eq_true_eq]
  refine ⟨hbalance, Decimal.round_nonneg hgross 8, Decimal.round_nonneg hp.le 8,
    Decimal.round_nonneg hpos.le 8, Decimal.round_nonneg hsize.le 8,
    Decimal.round_nonneg (by linarith) 8, ⟨Decimal.round_nonneg hpercent.1 8, ?_⟩, by simp⟩
  calc round8 ((total (ofSymbol ps p.symbol) + p.notional) / (total ps + p.notional) * 100)
      ≤ round8 100 := Decimal.round_mono hpercent.2 8
    _ = 100 := by decide +kernel

theorem historicalLosses_nonneg {series : List (List ℚ)} {n : ℕ} {x : ℚ}
    (hx : x ∈ historicalLosses ps series n) : 0 ≤ x := by
  obtain ⟨i, -, rfl⟩ := List.mem_map.1 hx
  exact le_max_left _ _

theorem getD_nonneg {l : List ℚ} (hl : ∀ x ∈ l, 0 ≤ x) (i : ℕ) : 0 ≤ l.getD i 0 := by
  rw [List.getD_eq_getElem?_getD]
  cases h : l[i]? with
  | none => exact le_rfl
  | some x => exact hl x (List.mem_of_getElem? h)

theorem mean_nonneg {l : List ℚ} (hl : ∀ x ∈ l, 0 ≤ x) : 0 ≤ l.sum / l.length :=
  div_nonneg (List.sum_nonneg hl) (Nat.cast_nonneg _)

/-- by whatever method, the figures are those of a loss and a shortfall -/
theorem portfolioVar_figures {limits : RiskLimits} (balance : ℚ)
    (hvolatility : 0 < limits.fallbackVolatilityPercent)
    (hps : ∀ q ∈ ps, 0 < q.notional) (store : Option CandleStore) :
    ∃ value shortfall, 0 ≤ value ∧ 0 ≤ shortfall ∧
      (portfolioVar ps balance limits store).confidence = limits.varConfidence ∧
      (portfolioVar ps balance limits store).valueAtRisk = round8 value ∧
      (portfolioVar ps balance limits store).valueAtRiskPercent = round8 (value / balance * 100) ∧
      (portfolioVar ps balance limits store).expectedShortfall = round8 shortfall := by
  have hround : (0 : ℚ) = round8 0 := by decide +kernel
  unfold portfolioVar
  by_cases hempty : ps = []
  · rw [if_pos hempty]
    refine ⟨0, 0, le_rfl, le_rfl, rfl, hround, ?_, hround⟩
    rw [zero_div, zero_mul]
    exact hround
  rw [if_neg hempty]
  -- the losses are cut off at zero, and so are their quantile and the mean of their tail
  have hlosses : ∀ (series : List (List ℚ)) (n : ℕ),
      ∀ x ∈ (historicalLosses ps series n).insertionSort (· ≤ ·), 0 ≤ x :=
    fun series n x hx => historicalLosses_nonneg ((List.mem_insertionSort _).1 hx)
  dsimp only
  split_ifs
  · exact ⟨_, _, getD_nonneg (hlosses _ _) _, getD_nonneg (hlosses _ _) _, rfl, rfl, rfl, rfl⟩
  · refine ⟨_, _, getD_nonneg (hlosses _ _) _, mean_nonneg ?_, rfl, rfl, rfl, rfl⟩
    exact fun x hx => hlosses _ _ x (List.mem_filter.1 hx).1
  · have hvalue : 0 ≤ total ps * (limits.fallbackVolatilityPercent / 100) * normalZ99 := by
      have hgross := total_nonneg hps
      unfold normalZ99
      positivity
    exact ⟨_, _, hvalue, hvalue, rfl, rfl, rfl, rfl⟩

theorem portfolioVar_check {limits : RiskLimits} (hl : limits.check = .ok limits)
    (hps : ∀ q ∈ ps, 0 < q.notional) (hbalance : 0 < balance) (store : Option CandleStore) :
    (portfolioVar ps balance limits store).check = .ok (portfolioVar ps balance limits store) := by
  obtain ⟨-, hconfidence, hvolatility, -, -⟩ := RiskLimits.check_ok hl
  obtain ⟨value, shortfall, hvalue, hshortfall, h₁, h₂, h₃, h₄⟩ :=
    portfolioVar_figures balance hvolatility hps store
  refine validateModel_ok.2 ⟨?_, by simp, rfl⟩
  rw [h₁, h₂, h₃, h₄]
  simp only [List.forall_mem_cons, decide_eq_true_eq]
  exact ⟨hconfidence, Decimal.round_nonneg hvalue 8, Decimal.round_nonneg (by positivity) 8,
    Decimal.round_nonneg hshortfall 8, by simp⟩

end Constructed

theorem nearest_pos_iff {t : ℚ} : 0 < Decimal.nearest t ↔ 1 / 2 < t := by
  constructor
  · intro h
    by_contra hle
    have := Decimal.nearest_mono (not_lt.1 hle)
    have hzero : Decimal.nearest (1 / 2) = 0 := by decide +kernel
    omega
  · intro h
    have hclose := (abs_le.1 (Decimal.abs_nearest_sub_le t)).1
    have : (0 : ℚ) < Decimal.nearest t := by linarith
    exact_mod_cast this

/-- what rounds to a positive number -/
theorem round8_pos_iff {x : ℚ} : 0 < round8 x ↔ 5 / 10 ^ 9 < x := by
  have hpos : (0 : ℚ) < 10 ^ 8 := by positivity
  rw [round8, Decimal.round, div_pos_iff_of_pos_right hpos, Int.cast_pos, nearest_pos_iff]
  constructor <;> intro h <;> linarith

/-- the target is at least as far as the limit asks -/
theorem riskReward_eq (hentry : 0 < a.entryPrice) :
    riskReward cfg a = max 2 (effectiveLimits cfg a).minRiskReward := by
  have hstop := stopDistance_pos hentry
  have hratio : 0 < max 2 (effectiveLimits cfg a).minRiskReward :=
    lt_max_of_lt_left (by norm_num)
  unfold riskReward takeProfit stopLoss
  dsimp only
  have hfar : |stopDistance a * max 2 (effectiveLimits cfg a).minRiskReward| =
      stopDistance a * max 2 (effectiveLimits cfg a).minRiskReward := abs_of_pos (by positivity)
  split_ifs
  · rw [add_sub_cancel_left, sub_sub_cancel, hfar, abs_of_pos hstop, mul_div_cancel_left₀ _ hstop.ne']
  · rw [sub_sub_cancel_left, sub_add_cancel_left, abs_neg, abs_neg, hfar, abs_of_pos hstop,
      mul_div_cancel_left₀ _ hstop.ne']

/-- what reaches the last gate is approved -/
theorem conclude_eq (hentry : 0 < a.entryPrice) (notional : ℚ) (reduced : Bool)
    (warnings : List String) :
    conclude cfg m a notional reduced warnings =
      { status := if reduced then .reduced else .approved
        reason := if reduced then "Approved with size reduced by portfolio limits"
          else "Risk within configured portfolio limits"
        warnings := sortTexts warnings.dedup
        positionSize := some (round8 notional)
        riskPercent := some (round8
          ((effectiveLimits cfg a).riskPerTradePercent * notional / unrestrictedNotional cfg a))
        stopLoss := some (round8 (stopLoss a))
        takeProfit := some (round8 (takeProfit cfg a))
        riskReward := some (round8 (riskReward cfg a))
        portfolioSnapshot := some (snapshotAt cfg m a notional)
        varResult := some (varAt cfg m a notional)
        terms := some (a.entryPrice, sideOf a, leverageOf cfg a) } := by
  have hnot : ¬ riskReward cfg a < (effectiveLimits cfg a).minRiskReward - 1 / 10 ^ 9 := by
    rw [riskReward_eq hentry, not_lt]
    calc (effectiveLimits cfg a).minRiskReward - 1 / 10 ^ 9
        ≤ (effectiveLimits cfg a).minRiskReward := by linarith [show (0:ℚ) ≤ 1 / 10 ^ 9 by norm_num]
      _ ≤ max 2 (effectiveLimits cfg a).minRiskReward := le_max_right _ _
  unfold conclude
  simp only [if_neg hnot]

/-! ## the evidence -/

/-- a refusal is recorded, whatever it says -/
theorem evidence_refused {f : Finding} (h : f.Refuses) : ∃ c, evidence cfg m a f = .ok (c, none) := by
  have happroval : approvalOf cfg m a f = none := by
    unfold approvalOf
    rw [h.terms]
  have hcheck : (riskCheckOf cfg m a f none).check = .ok (riskCheckOf cfg m a f none) := by
    refine validateModel_ok.2 ⟨?_, ?_, rfl⟩
    · simp [riskCheckOf, h.terms, h.positionSize, h.riskPercent, h.riskReward]
    · simp [riskCheckOf, h.status]
  unfold evidence
  rw [happroval]
  dsimp only
  rw [hcheck]
  exact ⟨_, rfl⟩

/-- an approval is recorded when both models accept it -/
theorem evidence_isOk_iff {f : Finding} {approval : OrderApproval}
    (h : approvalOf cfg m a f = some approval) :
    (∃ r, evidence cfg m a f = .ok r) ↔ approval.check = .ok approval ∧
      (riskCheckOf cfg m a f (some approval)).check = .ok (riskCheckOf cfg m a f (some approval)) := by
  unfold evidence
  rw [h]
  dsimp only
  cases happroval : approval.check with
  | error e => simp
  | ok approval' =>
    obtain ⟨-, -, rfl⟩ := validateModel_ok.1 happroval
    dsimp only
    cases hcheck : (riskCheckOf cfg m a f (some approval')).check with
    | error e => simp
    | ok c =>
      obtain ⟨-, -, rfl⟩ := validateModel_ok.1 hcheck
      simp

theorem ne_empty_of_length {s : String} (h : s.toList.length = 64) : s ≠ "" := by
  rintro rfl
  cases h

/-- an approval and its check are valid exactly when the size does not round to zero and there is a
key -/
theorem evidence_concluded (hdigest : cfg.digest.Hexadecimal) (hl : cfg.limits.check = .ok cfg.limits)
    (hentry : 0 < a.entryPrice) (hlev : 1 ≤ leverageOf cfg a) {notional : ℚ} (hn : 0 ≤ notional)
    (reduced : Bool) (warnings : List String)
    (hrisk : 0 ≤ (effectiveLimits cfg a).riskPerTradePercent * notional / unrestrictedNotional cfg a) :
    (∃ r, evidence cfg m a (conclude cfg m a notional reduced warnings) = .ok r) ↔
      0 < round8 notional ∧ checkKey a ≠ "" := by
  obtain ⟨-, -, -, httl, hdeviation⟩ := RiskLimits.check_ok hl
  have hrr : 0 ≤ round8 (riskReward cfg a) := by
    rw [riskReward_eq hentry]
    exact Decimal.round_nonneg (le_max_of_le_left (by norm_num)) 8
  have hrisk' : 0 ≤ round8 _ := Decimal.round_nonneg hrisk 8
  have hsize : 0 ≤ round8 notional := Decimal.round_nonneg hn 8
  have hids : evaluationId cfg a ≠ "" ∧ fingerprint cfg a ≠ "" :=
    ⟨ne_empty_of_length (hdigest.evaluationId _ _), ne_empty_of_length (hdigest.requestFingerprint _)⟩
  rw [conclude_eq hentry, evidence_isOk_iff rfl]
  refine and_congr ?_ ?_
  · rw [OrderApproval.check, validateModel_ok]
    simp only [List.forall_mem_cons, decide_eq_true_eq]
    constructor
    · exact fun h => h.1.2.2.2.1
    · intro hpos
      refine ⟨⟨hdigest.approvalId _ _ _, hdigest.evaluationId _ _, hdigest.requestFingerprint _, hpos,
        hlev, hentry, hdeviation, by simp⟩, ⟨?_, by simp, by simp [OrderApproval.downstreamIds],
        by simp⟩, trivial⟩
      exact Nat.lt_add_of_pos_right (by omega)
  · rw [RiskCheck.check, validateModel_ok]
    cases reduced <;> simp [riskCheckOf, RiskStatus.isApproved, hids, hlev, hrisk', hrr, hsize]

/-! ## the verdict -/

/-- nothing refuses the request: it passes every gate, and a tradable size meets the VaR limit -/
structure Admitted (cfg : Config) (m : Memory) (a : CheckArgs) : Prop where
  reaches : ReachesVar cfg m a
  fits : fitsVar cfg m a (sizedNotional cfg m a) = true ∨ 1 / 100 ≤ varNotional cfg m a

/-- what passes the gates has a key and a size above the least one that does not round to zero -/
def Recordable (cfg : Config) (m : Memory) (a : CheckArgs) : Prop :=
  Admitted cfg m a → checkKey a ≠ "" ∧ 5 / 10 ^ 9 < sizedNotional cfg m a

/-- every exposure, snapshot and VaR result that an evaluation constructs passes its model -/
structure ConstructsValid (cfg : Config) (m : Memory) (a : CheckArgs) : Prop where
  proposed : m.killGate = false → blockReasons cfg m a = [] →
    (proposal cfg a (requestedNotional cfg m a)).check =
      .ok (proposal cfg a (requestedNotional cfg m a))
  snapshot : ∀ notional, 0 < notional →
    (snapshotAt cfg m a notional).check = .ok (snapshotAt cfg m a notional)
  varResult : ∀ notional, 0 < notional →
    (varAt cfg m a notional).check = .ok (varAt cfg m a notional)

theorem requestedNotional_pos (hl : cfg.limits.check = .ok cfg.limits) (hentry : 0 < a.entryPrice)
    (hbalance : 0 < balanceOf cfg a) (hrisk : 0 < (effectiveLimits cfg a).riskPerTradePercent)
    (hcap : ∀ x ∈ a.maxNotionalOverride, 0 < x) :
    0 < unrestrictedNotional cfg a ∧ 0 < requestedNotional cfg m a := by
  obtain ⟨hsingle, -⟩ := RiskLimits.check_ok hl
  have hstop := stopDistance_pos hentry
  have hpos : 0 < unrestrictedNotional cfg a := by
    unfold unrestrictedNotional
    exact lt_min (by positivity) (by positivity)
  refine ⟨hpos, ?_⟩
  unfold requestedNotional
  cases hoverride : a.maxNotionalOverride with
  | none =>
    dsimp only
    split_ifs <;> linarith
  | some cap =>
    have hboth : 0 < min (unrestrictedNotional cfg a) cap := lt_min hpos (hcap cap hoverride)
    dsimp only
    split_ifs <;> linarith

/-- a request that is not blocked asks for a leverage and a size that are allowed -/
theorem unblocked_terms (hunblocked : blockReasons cfg m a = []) :
    1 ≤ leverageOf cfg a ∧ a.maxNotionalOverride ≠ some 0 := by
  simp only [blockReasons, List.append_eq_nil_iff] at hunblocked
  obtain ⟨⟨-, hlev⟩, hcap⟩ := hunblocked
  constructor
  · by_contra hlt
    rw [if_pos (.inr (not_le.1 hlt))] at hlev
    cases hlev
  · intro hzero
    rw [if_pos hzero] at hcap
    cases hcap

/-- what nothing refuses is approved, at the size that is left -/
theorem Admitted.assess_eq (h : Admitted cfg m a) : ∃ reduced warnings,
    assess cfg m a = .ok (conclude cfg m a (approvedNotional cfg m a) reduced warnings) := by
  rw [h.reaches.assess_eq]
  rcases h.reaches.assessSized_cases with ⟨hfits, w, hf⟩ | ⟨hfits, hlt, -⟩ | ⟨hfits, -, w, hf⟩
  · refine ⟨sizeReduced cfg m a, w, ?_⟩
    rw [hf, approvedNotional, if_pos hfits]
  · rcases h.fits with hfits' | hle
    · rw [hfits] at hfits'
      cases hfits'
    · exact absurd hle (not_le.2 hlt)
  · refine ⟨true, w, ?_⟩
    rw [hf, approvedNotional, if_neg (by simp [hfits])]

/-- the size left, at most the one sized, and above the least tradable one if it is not that -/
theorem Admitted.size (h : Admitted cfg m a) :
    0 < approvedNotional cfg m a ∧
      (5 / 10 ^ 9 < approvedNotional cfg m a ↔ 5 / 10 ^ 9 < sizedNotional cfg m a) := by
  unfold approvedNotional
  split_ifs with hfits
  · exact ⟨h.reaches.sized, Iff.rfl⟩
  · have hle : 1 / 100 ≤ varNotional cfg m a := h.fits.resolve_left hfits
    obtain ⟨-, hvar, -⟩ := Bisection.bisect_mem (fitsVar cfg m a) 24 h.reaches.sized.le
    rw [← bisectNotional_eq] at hvar
    change varNotional cfg m a ≤ sizedNotional cfg m a at hvar
    refine ⟨by linarith, iff_of_true ?_ ?_⟩ <;> linarith

section Verdict

variable (hl : cfg.limits.check = .ok cfg.limits) (hentry : 0 < a.entryPrice)
  (hbalance : 0 < balanceOf cfg a) (hrisk : 0 < (effectiveLimits cfg a).riskPerTradePercent)
  (hcap : ∀ x ∈ a.maxNotionalOverride, 0 ≤ x)
include hl hentry hbalance hrisk hcap

/-- a request that is not blocked is sized -/
theorem unblocked_sized (hunblocked : blockReasons cfg m a = []) :
    1 ≤ leverageOf cfg a ∧ 0 < unrestrictedNotional cfg a ∧ 0 < requestedNotional cfg m a ∧
      (proposal cfg a (requestedNotional cfg m a)).check =
        .ok (proposal cfg a (requestedNotional cfg m a)) := by
  obtain ⟨hlev, hzero⟩ := unblocked_terms hunblocked
  have hpos : ∀ x ∈ a.maxNotionalOverride, 0 < x := by
    intro x hx
    refine lt_of_le_of_ne (hcap x hx) ?_
    rintro rfl
    exact hzero hx
  obtain ⟨hunrestricted, hrequested⟩ := requestedNotional_pos (m := m) hl hentry hbalance hrisk hpos
  refine ⟨hlev, hunrestricted, hrequested, validateModel_ok.2 ⟨?_, by simp, rfl⟩⟩
  simp [proposal, hrequested, hlev]

theorem constructs_valid (hpositions : ∀ p ∈ positionList m, p.check = .ok p) :
    ConstructsValid cfg m a := by
  have hps : ∀ p ∈ positionList m, 0 < p.notional :=
    fun p hp => (PositionExposure.check_ok (hpositions p hp)).2.1
  refine ⟨fun _ hunblocked => ?_, fun notional hn => ?_, fun notional hn => ?_⟩
  · exact (unblocked_sized hl hentry hbalance hrisk hcap hunblocked).2.2.2
  · exact exposureSnapshot_check hps hn hbalance
  · refine portfolioVar_check hl (fun p hp => ?_) hbalance a.candles
    rcases List.mem_append.1 hp with hp | hp
    · exact hps p hp
    · rw [List.mem_singleton.1 hp]
      exact hn

/-- what something refuses is a refusal -/
theorem assess_refused (h : ¬ Admitted cfg m a) : ∃ f, assess cfg m a = .ok f ∧ f.Refuses := by
  unfold assess
  by_cases hkill : m.killGate = true
  · rw [if_pos hkill]
    exact ⟨_, rfl, rfl, rfl, rfl, rfl, rfl⟩
  by_cases hunblocked : blockReasons cfg m a = []
  · obtain ⟨hlev, -, hrequested, hproposal⟩ :=
      unblocked_sized hl hentry hbalance hrisk hcap hunblocked
    rw [if_neg hkill, if_neg (not_not.2 hunblocked), hproposal]
    dsimp only
    by_cases hsized : sizedNotional cfg m a ≤ 0
    · rw [if_pos hsized]
      exact ⟨_, rfl, rfl, rfl, rfl, rfl, rfl⟩
    · rw [if_neg hsized]
      refine ⟨_, rfl, ?_⟩
      unfold assessSized
      dsimp only
      split_ifs with hconcentration hfits hvar
      · exact ⟨rfl, rfl, rfl, rfl, rfl⟩
      all_goals
        have hreaches : ReachesVar cfg m a := ⟨by simpa using hkill, hunblocked, hrequested, hlev,
          not_le.1 hsized, fun hne => not_lt.1 fun hlt => hconcentration ⟨hne, hlt⟩⟩
      · exact absurd ⟨hreaches, .inl hfits⟩ h
      · exact ⟨rfl, rfl, rfl, rfl, rfl⟩
      · exact absurd ⟨hreaches, .inr (not_lt.1 hvar)⟩ h
  · rw [if_neg hkill, if_pos hunblocked]
    exact ⟨_, rfl, rfl, rfl, rfl, rfl, rfl⟩

/-- an evaluation ends in a check and its approval exactly when what passes its gates can be
recorded -/
theorem assess_evidence_iff (hdigest : cfg.digest.Hexadecimal) :
    (∃ f r, assess cfg m a = .ok f ∧ evidence cfg m a f = .ok r) ↔ Recordable cfg m a := by
  by_cases h : Admitted cfg m a
  · obtain ⟨hlev, hunrestricted, -, -⟩ :=
      unblocked_sized (m := m) hl hentry hbalance hrisk hcap h.reaches.unblocked
    obtain ⟨reduced, warnings, hassess⟩ := h.assess_eq
    obtain ⟨hpos, hsize⟩ := h.size
    have hshare : 0 ≤ (effectiveLimits cfg a).riskPerTradePercent * approvedNotional cfg m a /
        unrestrictedNotional cfg a := by positivity
    have hevidence := evidence_concluded (m := m) hdigest hl hentry hlev hpos.le reduced warnings hshare
    rw [round8_pos_iff, hsize] at hevidence
    constructor
    · rintro ⟨f, r, hf, hr⟩ -
      rw [hassess] at hf
      cases hf
      exact (hevidence.1 ⟨r, hr⟩).symm
    · intro hrecordable
      obtain ⟨r, hr⟩ := hevidence.2 (hrecordable h).symm
      exact ⟨_, r, hassess, hr⟩
  · obtain ⟨f, hf, hrefuses⟩ := assess_refused hl hentry hbalance hrisk hcap h
    obtain ⟨c, hc⟩ : ∃ c, evidence cfg m a f = .ok (c, none) := evidence_refused hrefuses
    exact iff_of_true ⟨f, _, hf, hc⟩ fun hadmitted => absurd hadmitted h

end Verdict

/-! ## the program -/

variable {answer : ℕ → Memory → (q : Request) → Db → Except Error q.Reply × Db}
  {others : ℕ → Memory → Db → Memory × Db × Memory}

/-- what a check finds recorded under its key, in memory or by the durable lookup -/
def recorded (answer : ℕ → Memory → (q : Request) → Db → Except Error q.Reply × Db)
    (others : ℕ → Memory → Db → Memory × Db × Memory) (cfg : Config) (a : CheckArgs)
    (s : Stand Memory Db) : Except Error (Option RiskCheck) × Stand Memory Db :=
  match s.memory.checksByKey.lookup (checkKey a) with
  | some existing => (.ok (some existing), s)
  | none =>
    if cfg.repository then
      runBetween answer others ((ask (.loadCentralRiskEvaluationByKey (checkKey a))).bind
        fun durable => Coro.ret (durable.map Prod.fst)) s
    else (.ok none, s)

/-- the answer to a request that is already recorded -/
def answerRecorded (cfg : Config) (a : CheckArgs) (existing : RiskCheck) : Except Error RiskCheck :=
  if existing.requestFingerprint ≠ fingerprint cfg a then
    .error ⟨.validation, "Risk idempotency key reused with different input"⟩
  else .ok existing

section Program

variable {s t : Stand Memory Db} (hentry : 0 < a.entryPrice) (hbalance : 0 < balanceOf cfg a)
  (hcap : ∀ x ∈ a.maxNotionalOverride, 0 ≤ x)
include hentry hbalance hcap

/-- a check answers with what is recorded, and evaluates the request itself when nothing is -/
theorem check_run {found : Except Error (Option RiskCheck)}
    (h : recorded answer others cfg a s = (found, t)) :
    (found = .ok none →
      runBetween answer others (check cfg a) s = runBetween answer others (evaluate cfg a) t) ∧
    (∀ existing, found = .ok (some existing) →
      (runBetween answer others (check cfg a) s).1 = answerRecorded cfg a existing) ∧
    ∀ e, found = .error e → (runBetween answer others (check cfg a) s).1 = .error e := by
  have hnegative : ¬ ∃ x ∈ a.maxNotionalOverride, x < 0 := by
    rintro ⟨x, hx, hlt⟩
    exact not_lt.2 (hcap x hx) hlt
  unfold check
  rw [if_neg (not_or.2 ⟨not_le.2 hentry, not_le.2 hbalance⟩), if_neg hnegative]
  unfold recorded at h
  simp only [Coro.bind_eq, Coro.read_bind, runBetween]
  cases hlookup : s.memory.checksByKey.lookup (checkKey a) with
  | some existing =>
    rw [hlookup] at h
    cases h
    refine ⟨fun h => (by cases h), fun existing' h => ?_, fun e h => by cases h⟩
    cases h
    unfold answerRecorded
    dsimp only
    split_ifs <;> rfl
  | none =>
    rw [hlookup] at h
    dsimp only at h ⊢
    by_cases hr : cfg.repository = true
    · rw [if_pos hr] at h ⊢
      cases hasked : runBetween answer others
          (ask (.loadCentralRiskEvaluationByKey (checkKey a))) s with
      | mk reply u =>
        cases reply with
        | error e =>
          rw [runBetween_bind_error hasked] at h ⊢
          cases h
          refine ⟨fun h => (by cases h), fun existing h => (by cases h), fun e' h => ?_⟩
          cases h
          rfl
        | ok durable =>
          rw [runBetween_bind_ok hasked] at h ⊢
          cases h
          cases durable with
          | none => exact ⟨fun _ => rfl, fun existing h => (by cases h), fun e h => by cases h⟩
          | some d =>
            refine ⟨fun h => (by cases h), fun existing h => ?_, fun e h => by cases h⟩
            cases h
            unfold answerRecorded
            dsimp only
            split_ifs <;> rfl
    · rw [if_neg hr] at h ⊢
      cases h
      exact ⟨fun _ => rfl, fun existing h => (by cases h), fun e h => by cases h⟩

end Program

/-- recording the evidence never raises: a failed write leaves a blocked check -/
theorem finalizeEvidence_returns (c : RiskCheck) (approval : Option OrderApproval)
    (s : Stand Memory Db) :
    ∃ c', (runBetween answer others (finalizeEvidence cfg c approval) s).1 = .ok c' := by
  unfold finalizeEvidence
  rw [runBetween_bind_ok runBetween_attempt]
  cases (runBetween answer others (recordEvidence cfg c approval) s).1 with
  | error e => exact ⟨_, rfl⟩
  | ok u => exact ⟨_, rfl⟩

/-- an evaluation returns when its evidence can be constructed -/
theorem evaluate_returns_iff (s : Stand Memory Db) :
    (∃ c, (runBetween answer others (evaluate cfg a) s).1 = .ok c) ↔
      ∃ f r, assess cfg s.memory a = .ok f ∧ evidence cfg s.memory a f = .ok r := by
  unfold evaluate
  simp only [Coro.bind_eq, Coro.read_bind, runBetween]
  cases hassess : assess cfg s.memory a with
  | error e =>
    constructor
    · rintro ⟨c, hc⟩
      cases hc
    · rintro ⟨f, r, hf, -⟩
      cases hf
  | ok f =>
    simp only [Coro.leave_ok, Coro.ret_bind, Coro.modify_bind, runBetween]
    cases hevidence : evidence cfg s.memory a f with
    | error e =>
      constructor
      · rintro ⟨c, hc⟩
        cases hc
      · rintro ⟨f', r, hf, hr⟩
        cases hf
        rw [hevidence] at hr
        cases hr
    | ok r =>
      refine iff_of_true ?_ ⟨f, r, rfl, hevidence⟩
      exact finalizeEvidence_returns r.1 r.2 _

/-- a text as long as a digest -/
def digits (c : Char) : String := String.ofList (List.replicate 64 c)

theorem length_digits (c : Char) : (digits c).toList.length = 64 := by
  rw [digits, String.toList_ofList, List.length_replicate]

theorem paper_not_durable (h : ExecutionEnvironment.paper = .testnet) : false = true := by
  cases h

/-- the sample engine without a repository, with digests of their real length -/
def standalone : Config := { Config.sample with
  digest :=
    { requestFingerprint := fun _ => digits 'f'
      evaluationId := fun _ _ => digits 'e'
      approvalId := fun _ _ _ => digits 'a'
      uuid5 := id }
  repository := false
  targetEnvironment := .paper
  durableTestnet := paper_not_durable }

theorem standalone_hexadecimal : standalone.digest.Hexadecimal :=
  ⟨fun _ => length_digits 'f', fun _ _ => length_digits 'e', fun _ _ _ => length_digits 'a'⟩

/-- nothing is asked, and nobody else is at work -/
def standaloneRun (a : CheckArgs) (m : Memory) : Except Error RiskCheck :=
  (runBetween (fun _ _ _ db => (.error ⟨.transport, "no reply"⟩, db)) (fun _ m db => (m, db, m))
    (check standalone a) ⟨0, m, Db.empty, Db.empty⟩).1

/-- a key of blanks is stripped to nothing, and the approved check is refused -/
example : (standaloneRun { proposing .buy with idempotencyKey := some "  " }
    (holding "ETHUSDT" .sell 9000)).isOk = false := by decide +kernel

end RiskManager

end CapitalCipher
