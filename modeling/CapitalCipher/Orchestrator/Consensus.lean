/-
`WeightedConsensusService.evaluate` of `orchestrator/portfolio_consensus.py` and the consensus contracts
of `schemas/portfolio_consensus.py`.

A consensus carries its accepted constraints. What the service reads from the evaluation service, the
drift monitor and the experiments is one record; ids, creation times and the persistence of a consensus
are left out.

  • `evaluate_overlay`: a consensus leaves the baseline as it is or tightens it to WAIT, the latter
    exactly when a confirming experiment did not confirm a trade.
  • `evaluate_ok_iff`: exactly when an evaluation returns.
  • `evaluate_total`: a cap with room for the rounding is always enough; 0.34, the largest one an
    experiment may have, is not.
-/
import CapitalCipher.Orchestrator.Decision
import CapitalCipher.Orchestrator.Drift
import CapitalCipher.Orchestrator.Weights

namespace CapitalCipher

open Lib Lib.CappedShares

inductive ConsensusStatus where
  | insufficientData | ready
  deriving DecidableEq, Repr

structure ConsensusAgentWeight where
  agentName : String
  agentVersion : String
  sampleCount : ℕ
  directionalSampleCount : ℕ
  accuracy : ℚ
  meanBrierLoss : ℚ
  meanMarginalContribution : ℚ
  probabilityUp : ℚ
  rawScore : ℚ
  weight : ℚ
  deriving DecidableEq

/-- the field constraints of a `ConsensusAgentWeight` -/
def ConsensusAgentWeight.check (w : ConsensusAgentWeight) : Except Error ConsensusAgentWeight :=
  validateModel
    [("agent_name", decide (3 ≤ w.agentName.length ∧ w.agentName.length ≤ 128)),
     ("agent_version", validAgentVersion w.agentVersion),
     ("sample_count", decide (100 ≤ w.sampleCount)),
     ("directional_sample_count", decide (20 ≤ w.directionalSampleCount)),
     ("accuracy", within 0 1 w.accuracy),
     ("mean_brier_loss", within 0 1 w.meanBrierLoss),
     ("mean_marginal_contribution", within (-1) 1 w.meanMarginalContribution),
     ("probability_up", within 0 1 w.probabilityUp),
     ("raw_score", decide (0 < w.rawScore)),
     ("weight", decide (0 < w.weight ∧ w.weight ≤ 34 / 100))] [] w

/-- what the identity of a consensus digests, less its creation time -/
structure ConsensusEvidence where
  correlationId : String
  experimentId : String
  experimentVersion : String
  mode : ExperimentMode
  symbol : String
  timeframe : String
  status : ConsensusStatus
  baselineAction : CandidateAction
  baselineConfidence : ℕ
  probabilityUp : Option ℚ := none
  signal : Signal := .wait
  consensusConfidence : ℕ := 0
  eligibleAgentCount : ℕ
  excludedAgents : Dict String String
  weights : List ConsensusAgentWeight := []
  applied : Bool := false
  finalAction : CandidateAction
  finalConfidence : ℕ
  reason : String

/-- the constraints on its names and numbers -/
def consensusFields (e : ConsensusEvidence) : List (String × Bool) :=
  [("correlation_id", decide (1 ≤ e.correlationId.length ∧ e.correlationId.length ≤ 36)),
   ("experiment_version", validAgentVersion e.experimentVersion),
   ("symbol", validSymbol e.symbol),
   ("timeframe", validTimeframe e.timeframe),
   ("baseline_confidence", decide (e.baselineConfidence ≤ 100)),
   ("probability_up", e.probabilityUp.all (within 0 1)),
   ("consensus_confidence", decide (e.consensusConfidence ≤ 100)),
   ("eligible_agent_count", decide (e.eligibleAgentCount ≤ 200)),
   ("final_confidence", decide (e.finalConfidence ≤ 100)),
   ("reason", decide (3 ≤ e.reason.length ∧ e.reason.length ≤ 2000))]

/-- the rules of its validator -/
def consensusRules (e : ConsensusEvidence) : List (String × Bool) :=
  [("consensus overlay cannot increase confidence",
     decide (e.finalConfidence ≤ e.baselineConfidence)),
   ("consensus cannot create direction from a non-directional baseline",
     decide (e.baselineAction.directional = false → e.finalAction = e.baselineAction)),
   ("consensus cannot reverse a primary direction",
     decide (e.baselineAction.directional = true →
       e.finalAction = e.baselineAction ∨ e.finalAction = .wait)),
   ("shadow consensus cannot change the baseline",
     decide (e.mode = .shadow → e.applied = false ∧ e.finalAction = e.baselineAction ∧
       e.finalConfidence = e.baselineConfidence)),
   ("ready consensus requires probability and weights",
     decide (e.status = .ready → e.probabilityUp.isSome = true ∧ e.weights ≠ [])),
   ("eligible count must match weight evidence",
     decide (e.status = .ready → e.eligibleAgentCount = e.weights.length)),
   ("ready consensus weights must sum to one",
     decide (e.status = .ready →
       isClose (e.weights.map ConsensusAgentWeight.weight).sum 1 0 (1 / 10 ^ 6) = true)),
   ("insufficient consensus cannot expose probability or weights",
     decide (e.status = .insufficientData → e.probabilityUp = none ∧ e.weights = []))]

theorem consensusFields_iff {e : ConsensusEvidence} : (∀ f ∈ consensusFields e, f.2 = true) ↔
    (1 ≤ e.correlationId.length ∧ e.correlationId.length ≤ 36) ∧
      validAgentVersion e.experimentVersion = true ∧ validSymbol e.symbol = true ∧
      validTimeframe e.timeframe = true ∧ e.baselineConfidence ≤ 100 ∧
      (∀ x ∈ e.probabilityUp, 0 ≤ x ∧ x ≤ 1) ∧ e.consensusConfidence ≤ 100 ∧
      e.eligibleAgentCount ≤ 200 ∧ e.finalConfidence ≤ 100 ∧
      (3 ≤ e.reason.length ∧ e.reason.length ≤ 2000) := by
  have hprobability : e.probabilityUp.all (within 0 1) = true ↔
      ∀ x ∈ e.probabilityUp, 0 ≤ x ∧ x ≤ 1 := by
    cases e.probabilityUp <;> simp [within]
  simp only [consensusFields, List.forall_mem_cons, List.not_mem_nil, false_implies, implies_true,
    and_true, decide_eq_true_eq, hprobability]

theorem consensusRules_iff {e : ConsensusEvidence} : (∀ r ∈ consensusRules e, r.2 = true) ↔
    e.finalConfidence ≤ e.baselineConfidence ∧
      (e.baselineAction.directional = false → e.finalAction = e.baselineAction) ∧
      (e.baselineAction.directional = true →
        e.finalAction = e.baselineAction ∨ e.finalAction = .wait) ∧
      (e.mode = .shadow → e.applied = false ∧ e.finalAction = e.baselineAction ∧
        e.finalConfidence = e.baselineConfidence) ∧
      (e.status = .ready → e.probabilityUp.isSome = true ∧ e.weights ≠ []) ∧
      (e.status = .ready → e.eligibleAgentCount = e.weights.length) ∧
      (e.status = .ready →
        isClose (e.weights.map ConsensusAgentWeight.weight).sum 1 0 (1 / 10 ^ 6) = true) ∧
      (e.status = .insufficientData → e.probabilityUp = none ∧ e.weights = []) := by
  simp only [consensusRules, List.forall_mem_cons, List.not_mem_nil, false_implies, implies_true,
    and_true, decide_eq_true_eq]

/-- immutable consensus evidence and conservative overlay result -/
structure WeightedConsensus extends ConsensusEvidence where
  fields : ∀ f ∈ consensusFields toConsensusEvidence, f.2 = true
  rules : ∀ r ∈ consensusRules toConsensusEvidence, r.2 = true

/-- `WeightedConsensus(...)` -/
def WeightedConsensus.build (e : ConsensusEvidence) : Except Error WeightedConsensus :=
  match h : validateModel (consensusFields e) (consensusRules e) e with
  | .ok _ => .ok ⟨e, (validateModel_ok.1 h).1, (validateModel_ok.1 h).2.1⟩
  | .error err => .error err

theorem WeightedConsensus.build_ok {e : ConsensusEvidence} {c : WeightedConsensus} :
    build e = .ok c ↔ c.toConsensusEvidence = e := by
  unfold build
  split
  · constructor
    · intro heq
      cases heq
      rfl
    · rintro rfl
      rfl
  · rename_i err herr
    constructor
    · intro heq
      cases heq
    · rintro rfl
      rw [validateModel_ok.2 ⟨c.fields, c.rules, rfl⟩] at herr
      cases herr

theorem WeightedConsensus.exists_build {e : ConsensusEvidence} :
    (∃ c, build e = .ok c) ↔
      (∀ f ∈ consensusFields e, f.2 = true) ∧ ∀ r ∈ consensusRules e, r.2 = true := by
  constructor
  · rintro ⟨c, hc⟩
    rw [← build_ok.1 hc]
    exact ⟨c.fields, c.rules⟩
  · rintro ⟨hfields, hrules⟩
    exact ⟨⟨e, hfields, hrules⟩, build_ok.2 rfl⟩

/-! ## The evaluation -/

/-- what an evaluation reads: the active experiment, the scorecards, the drift of the registered agents
and their registrations -/
structure ConsensusPanel where
  experiment : ConsensusExperiment
  experimentId : String
  scorecards : List AgentScorecard
  drift : List DriftObservation
  registrations : Registrations
  accepted : ∀ card ∈ scorecards, card.check = .ok card

/-- an output that counts, with what is known of its agent -/
structure EligibleAgent where
  output : AgentOutput
  registration : RegisteredAgent
  card : AgentScorecard

/-- why an output does not count -/
def exclusion (p : ConsensusPolicy) (status : AgentStatus) (card : Option AgentScorecard)
    (drift : Option DriftObservation) : Option String :=
  if status ≠ .completed then some ("OUTPUT_" ++ status.value)
  else
    match card with
    | none => some "INSUFFICIENT_SAMPLE"
    | some card =>
      if card.sampleCount < p.minimumSamples then some "INSUFFICIENT_SAMPLE"
      else if card.directionalSampleCount < p.minimumDirectionalSamples then
        some "INSUFFICIENT_DIRECTIONAL_SAMPLE"
      else if (card.accuracy.all fun x => decide (x < p.minimumAccuracy)) = true then
        some "ACCURACY_BELOW_THRESHOLD"
      else if (card.meanBrierLoss.all fun x => decide (p.maximumBrierLoss < x)) = true then
        some "BRIER_LOSS_ABOVE_THRESHOLD"
      else if (card.meanMarginalContribution.all fun x =>
          decide (x ≤ p.minimumMarginalContribution)) = true then
        some "NON_POSITIVE_MARGINAL_CONTRIBUTION"
      else if (drift.any fun d => d.evidence.severity == .critical) = true then some "CRITICAL_DRIFT"
      else none

/-- `raw_score` -/
def AgentScorecard.rawScore (card : AgentScorecard) : ℚ :=
  max (1 / 10 ^ 9) (card.accuracy.getD 0 * (1 - card.meanBrierLoss.getD 0) *
    (1 + card.meanMarginalContribution.getD 0))

def consensusSignal (p : ConsensusPolicy) (probabilityUp : ℚ) : Signal :=
  if p.buyProbabilityThreshold ≤ probabilityUp then .buy
  else if probabilityUp ≤ p.sellProbabilityThreshold then .sell
  else .hold

def consensusConfidence (probabilityUp : ℚ) : ℕ :=
  min 100 (Decimal.nearest (|probabilityUp - 1 / 2| * 200)).toNat

/-- `_capped_weights`; its loop takes at most one round for each score and one more -/
def normalizedWeights (scores : List ℚ) (cap : ℚ) : Except Error (List ℚ) := do
  match ← cappedWeights scores cap (scores.length + 1) with
  | some weights => .ok weights
  | none => .error ⟨.transport, "the loop has not ended"⟩

/-- what a consensus makes of the baseline -/
structure Overlay where
  applied : Bool
  action : CandidateAction
  confidence : ℕ
  reason : String
  deriving DecidableEq

def Overlay.of (mode : ExperimentMode) (signal : Signal) (baseline : ScoredDecision) : Overlay :=
  if mode = .confirmation ∧ baseline.candidateAction.directional = true then
    if signal.value = baseline.candidateAction.value then
      ⟨true, baseline.candidateAction, baseline.confidence,
        "Eligible performance-weighted agents confirmed the primary direction"⟩
    else
      ⟨true, .wait, 0,
        "Consensus did not confirm the primary direction; candidate tightened to WAIT"⟩
  else
    ⟨false, baseline.candidateAction, baseline.confidence,
      "Weighted consensus recorded in shadow mode"⟩

namespace ConsensusPanel

variable (w : ConsensusPanel)

abbrev policy : ConsensusPolicy := w.experiment.policy

/-- `scorecards.get((name, version))`: the last one under that key -/
def card (agent : String × String) : Option AgentScorecard :=
  w.scorecards.reverse.find? fun c => decide ((c.agentName, c.agentVersion) = agent)

/-- `drift.get((name, version))` -/
def driftOf (agent : String × String) : Option DriftObservation :=
  w.drift.reverse.find? fun d => decide ((d.evidence.agentName, d.evidence.agentVersion) = agent)

/-- the SHADOW registration of an output's agent -/
def shadow (o : AgentOutput) : Option RegisteredAgent :=
  (w.registrations.get? o.agentName).filter fun r => r.1.decisionRole == .shadow

/-- why a registered agent's output does not count -/
def verdict (o : AgentOutput) (r : RegisteredAgent) : Option String :=
  exclusion w.policy o.status (w.card r.agent) (w.driftOf r.agent)

/-- `excluded` -/
def excluded (outputs : List AgentOutput) : Dict String String :=
  (outputs.filterMap fun o => do
    let r ← w.shadow o
    let reason ← w.verdict o r
    pure (o.agentName, reason)).foldl (fun d x => AList.insert x.1 x.2 d) ∅

/-- `candidates`, less their scores -/
def eligible (outputs : List AgentOutput) : List EligibleAgent :=
  outputs.filterMap fun o => do
    let r ← w.shadow o
    let card ← w.card r.agent
    if w.verdict o r = none then some ⟨o, r, card⟩ else none

def weight (a : EligibleAgent) (weight : ℚ) : ConsensusAgentWeight where
  agentName := a.registration.1.agentName
  agentVersion := a.registration.1.version
  sampleCount := a.card.sampleCount
  directionalSampleCount := a.card.directionalSampleCount
  accuracy := a.card.accuracy.getD 0
  meanBrierLoss := a.card.meanBrierLoss.getD 0
  meanMarginalContribution := a.card.meanMarginalContribution.getD 0
  probabilityUp := forecastProbability a.output
  rawScore := a.card.rawScore
  weight := weight

/-- a consensus without a quorum -/
def insufficient (baseline : ScoredDecision) (outputs : List AgentOutput) : ConsensusEvidence where
  correlationId := baseline.correlationId
  experimentId := w.experimentId
  experimentVersion := w.policy.version
  mode := w.policy.mode
  symbol := baseline.symbol
  timeframe := baseline.timeframe
  status := .insufficientData
  baselineAction := baseline.candidateAction
  baselineConfidence := baseline.confidence
  eligibleAgentCount := 0
  excludedAgents := w.excluded outputs
  finalAction := baseline.candidateAction
  finalConfidence := baseline.confidence
  reason := "Performance consensus unavailable; static primary decision preserved"

/-- `probability_up`, before its rounding -/
def probability (weights : List ConsensusAgentWeight) : ℚ :=
  (weights.map fun x => x.probabilityUp * x.weight).sum

/-- a consensus with one -/
def ready (baseline : ScoredDecision) (outputs : List AgentOutput)
    (weights : List ConsensusAgentWeight) : ConsensusEvidence :=
  let overlay := Overlay.of w.policy.mode (consensusSignal w.policy (probability weights)) baseline
  { w.insufficient baseline outputs with
    status := .ready
    probabilityUp := some (Decimal.round (probability weights) 12)
    signal := consensusSignal w.policy (probability weights)
    consensusConfidence := consensusConfidence (probability weights)
    eligibleAgentCount := weights.length
    weights := weights
    applied := overlay.applied
    finalAction := overlay.action
    finalConfidence := overlay.confidence
    reason := overlay.reason }

/-- `evaluate` -/
def evaluate (baseline : ScoredDecision) (outputs : List AgentOutput) :
    Except Error WeightedConsensus :=
  let candidates := w.eligible outputs
  if candidates.length < w.policy.minimumEligibleAgents then
    WeightedConsensus.build (w.insufficient baseline outputs)
  else do
    let normalized ← normalizedWeights (candidates.map fun a => a.card.rawScore)
      w.policy.maximumAgentWeight
    let weights ← (candidates.zip normalized).mapM fun x => (weight x.1 x.2).check
    WeightedConsensus.build (w.ready baseline outputs weights)

end ConsensusPanel

/-! ## What a consensus makes of the baseline -/

section

variable {w : ConsensusPanel} {baseline : ScoredDecision} {outputs : List AgentOutput}
  {c : WeightedConsensus}

/-- how an evaluation ended -/
theorem evaluate_cases (h : w.evaluate baseline outputs = .ok c) :
    (w.eligible outputs).length < w.policy.minimumEligibleAgents ∧
        c.toConsensusEvidence = w.insufficient baseline outputs ∨
      w.policy.minimumEligibleAgents ≤ (w.eligible outputs).length ∧
        ∃ normalized weights,
          normalizedWeights ((w.eligible outputs).map fun a => a.card.rawScore)
            w.policy.maximumAgentWeight = .ok normalized ∧
          (((w.eligible outputs).zip normalized).mapM
            fun x => (ConsensusPanel.weight x.1 x.2).check) = .ok weights ∧
          c.toConsensusEvidence = w.ready baseline outputs weights := by
  unfold ConsensusPanel.evaluate at h
  dsimp only at h
  by_cases hquorum : (w.eligible outputs).length < w.policy.minimumEligibleAgents
  · rw [if_pos hquorum] at h
    exact .inl ⟨hquorum, WeightedConsensus.build_ok.1 h⟩
  · rw [if_neg hquorum] at h
    obtain ⟨normalized, hnormalized, h⟩ := Result.bind_ok.1 h
    obtain ⟨weights, hweights, h⟩ := Result.bind_ok.1 h
    exact .inr ⟨not_lt.1 hquorum, normalized, weights, hnormalized, hweights,
      WeightedConsensus.build_ok.1 h⟩

/-- a consensus leaves the baseline alone, or a confirming one that did not confirm a trade makes it
WAIT -/
theorem evaluate_overlay (h : w.evaluate baseline outputs = .ok c) :
    c.finalAction = baseline.candidateAction ∧ c.finalConfidence = baseline.confidence ∨
      c.finalAction = .wait ∧ c.finalConfidence = 0 ∧ w.policy.mode = .confirmation ∧
        baseline.candidateAction.directional = true ∧ c.status = .ready ∧
        c.signal.value ≠ baseline.candidateAction.value := by
  rcases evaluate_cases h with ⟨-, hc⟩ | ⟨-, -, weights, -, -, hc⟩
  · rw [hc]
    exact .inl ⟨rfl, rfl⟩
  · rw [hc]
    simp only [ConsensusPanel.ready, Overlay.of]
    split_ifs with hconfirms hagrees
    · exact .inl ⟨rfl, rfl⟩
    · exact .inr ⟨rfl, rfl, hconfirms.1, hconfirms.2, trivial, hagrees⟩
    · exact .inl ⟨rfl, rfl⟩

end

/-! ## The agents that count -/

/-- what an experiment's constraints bound -/
structure PolicyBounds (p : ConsensusPolicy) : Prop where
  samples : 100 ≤ p.minimumSamples
  directional : 20 ≤ p.minimumDirectionalSamples
  accuracy : 1 / 2 ≤ p.minimumAccuracy
  brier : p.maximumBrierLoss ≤ 1 / 4
  marginal : 0 ≤ p.minimumMarginalContribution
  quorum : 3 ≤ p.minimumEligibleAgents ∧ p.minimumEligibleAgents ≤ 200
  cap : 0 < p.maximumAgentWeight ∧ p.maximumAgentWeight ≤ 34 / 100
  covers : 1 - 1 / 10 ^ 9 ≤ p.minimumEligibleAgents * p.maximumAgentWeight
  version : validAgentVersion p.version = true

theorem ConsensusExperiment.bounds (e : ConsensusExperiment) : PolicyBounds e.policy := by
  have h := e.accepted
  simp only [consensusExperimentFields, List.forall_mem_cons, decide_eq_true_eq] at h
  obtain ⟨-, hversion, hsamples, hdirectional, haccuracy, hbrier, hmarginal, hquorum, hcap, -, -, -, -,
    -, -, -, -, -, -, hcovers, -⟩ := h
  exact ⟨hsamples.1, hdirectional.1, haccuracy.1, by linarith [hbrier.2], hmarginal.1, hquorum, hcap,
    hcovers, hversion⟩

theorem exclusion_eq_none {p : ConsensusPolicy} {status : AgentStatus} {card : AgentScorecard}
    {drift : Option DriftObservation} (h : exclusion p status (some card) drift = none) :
    p.minimumSamples ≤ card.sampleCount ∧
      p.minimumDirectionalSamples ≤ card.directionalSampleCount ∧
      (∃ x, card.accuracy = some x ∧ p.minimumAccuracy ≤ x) ∧
      (∃ x, card.meanBrierLoss = some x ∧ x ≤ p.maximumBrierLoss) ∧
      ∃ x, card.meanMarginalContribution = some x ∧ p.minimumMarginalContribution < x := by
  unfold exclusion at h
  by_cases hstatus : status ≠ .completed
  · rw [if_pos hstatus] at h
    cases h
  rw [if_neg hstatus] at h
  dsimp only at h
  split_ifs at h with hsamples hdirectional haccuracy hbrier hmarginal hdrift
  refine ⟨not_lt.1 hsamples, not_lt.1 hdirectional, ?_, ?_, ?_⟩
  · cases hx : card.accuracy with
    | none => simp [hx] at haccuracy
    | some x => exact ⟨x, rfl, by simpa [hx] using haccuracy⟩
  · cases hx : card.meanBrierLoss with
    | none => simp [hx] at hbrier
    | some x => exact ⟨x, rfl, by simpa [hx] using hbrier⟩
  · cases hx : card.meanMarginalContribution with
    | none => simp [hx] at hmarginal
    | some x => exact ⟨x, rfl, by simpa [hx] using hmarginal⟩

/-- what the evidence of an agent that counts is like -/
structure EligibleAgent.Counted (a : EligibleAgent) : Prop where
  name : 3 ≤ a.registration.1.agentName.length ∧ a.registration.1.agentName.length ≤ 128
  version : validAgentVersion a.registration.1.version = true
  samples : 100 ≤ a.card.sampleCount
  directional : 20 ≤ a.card.directionalSampleCount
  accuracy : 1 / 2 ≤ a.card.accuracy.getD 0 ∧ a.card.accuracy.getD 0 ≤ 1
  brier : 0 ≤ a.card.meanBrierLoss.getD 0 ∧ a.card.meanBrierLoss.getD 0 ≤ 1 / 4
  marginal : 0 < a.card.meanMarginalContribution.getD 0 ∧
    a.card.meanMarginalContribution.getD 0 ≤ 1

theorem ConsensusPanel.eligible_counted {w : ConsensusPanel} {outputs : List AgentOutput}
    {a : EligibleAgent} (h : a ∈ w.eligible outputs) : a.Counted := by
  obtain ⟨o, -, ho⟩ := List.mem_filterMap.1 h
  obtain ⟨r, -, ho⟩ := Option.bind_eq_some_iff.1 ho
  obtain ⟨card, hcard, ho⟩ := Option.bind_eq_some_iff.1 ho
  by_cases hverdict : w.verdict o r = none
  · rw [if_pos hverdict] at ho
    cases ho
    have hchecked := w.accepted card (List.mem_reverse.1 (List.mem_of_find?_eq_some hcard))
    obtain ⟨⟨-, -, haccuracy, hbrier, hmarginal, -⟩, -, -⟩ := AgentScorecard.check_ok.1 hchecked
    have hregistered := (validateModel_ok.1 r.2).1
    simp only [List.forall_mem_cons, validAgentName, Bool.and_eq_true, decide_eq_true_eq]
      at hregistered
    rw [ConsensusPanel.verdict, hcard] at hverdict
    obtain ⟨hsamples, hdirectional, ⟨x, hx, hxle⟩, ⟨y, hy, hyle⟩, z, hz, hzlt⟩ :=
      exclusion_eq_none hverdict
    have hp := w.experiment.bounds
    refine ⟨hregistered.1.1, hregistered.2.1, hp.samples.trans hsamples,
      hp.directional.trans hdirectional, ?_, ?_, ?_⟩
    · rw [hx, Option.getD_some]
      exact ⟨hp.accuracy.trans hxle, (haccuracy x hx).2⟩
    · rw [hy, Option.getD_some]
      exact ⟨(hbrier y hy).1, hyle.trans hp.brier⟩
    · rw [hz, Option.getD_some]
      exact ⟨hp.marginal.trans_lt hzlt, (hmarginal z hz).2⟩
  · rw [if_neg hverdict] at ho
    cases ho

theorem forecastProbability_mem (o : AgentOutput) :
    0 ≤ forecastProbability o ∧ forecastProbability o ≤ 1 := by
  have h0 : (0 : ℚ) ≤ o.confidence := by positivity
  have h1 : (o.confidence : ℚ) ≤ 100 := by exact_mod_cast o.confidence_le
  unfold forecastProbability
  cases o.signal <;> dsimp only <;> constructor <;> linarith

namespace EligibleAgent.Counted

variable {a : EligibleAgent}

/-- eligible agents score alike, within a factor of six -/
theorem rawScore_bounds (h : a.Counted) : 3 / 8 ≤ a.card.rawScore ∧ a.card.rawScore ≤ 2 := by
  obtain ⟨ha, ha'⟩ := h.accuracy
  obtain ⟨hb, hb'⟩ := h.brier
  obtain ⟨hm, hm'⟩ := h.marginal
  unfold AgentScorecard.rawScore
  generalize a.card.accuracy.getD 0 = x at ha ha' ⊢
  generalize a.card.meanBrierLoss.getD 0 = y at hb hb' ⊢
  generalize a.card.meanMarginalContribution.getD 0 = z at hm hm' ⊢
  have hlow : 3 / 8 ≤ x * (1 - y) :=
    calc (3 / 8 : ℚ) = 1 / 2 * (3 / 4) := by norm_num
      _ ≤ x * (1 - y) := mul_le_mul ha (by linarith) (by norm_num) (by linarith)
  have hhigh : x * (1 - y) ≤ 1 := mul_le_one₀ ha' (by linarith) (by linarith)
  constructor
  · refine le_max_of_le_right ?_
    calc (3 / 8 : ℚ) ≤ x * (1 - y) := hlow
      _ ≤ x * (1 - y) * (1 + z) := le_mul_of_one_le_right (by linarith) (by linarith)
  · refine max_le (by norm_num) ?_
    calc x * (1 - y) * (1 + z) ≤ 1 * 2 := mul_le_mul hhigh (by linarith) (by linarith) (by norm_num)
      _ = 2 := by norm_num

/-- of its weight evidence only the weight itself can be refused -/
theorem weight_check (h : a.Counted) (x : ℚ) :
    (ConsensusPanel.weight a x).check = .ok (ConsensusPanel.weight a x) ↔
      0 < x ∧ x ≤ 34 / 100 := by
  have hscore := h.rawScore_bounds.1
  have hprobability := forecastProbability_mem a.output
  rw [ConsensusAgentWeight.check, validateModel_ok]
  simp only [List.forall_mem_cons, List.not_mem_nil, false_implies, implies_true, and_true,
    decide_eq_true_eq, within]
  constructor
  · exact fun hx => hx.2.2.2.2.2.2.2.2.2
  · intro hx
    have haccuracy : 0 ≤ a.card.accuracy.getD 0 := by linarith [h.accuracy.1]
    have hbrier : a.card.meanBrierLoss.getD 0 ≤ 1 := by linarith [h.brier.2]
    have hmarginal : -1 ≤ a.card.meanMarginalContribution.getD 0 := by linarith [h.marginal.1]
    have hpos : 0 < a.card.rawScore := by linarith
    exact ⟨h.name, h.version, h.samples, h.directional, ⟨haccuracy, h.accuracy.2⟩,
      ⟨h.brier.1, hbrier⟩, ⟨hmarginal, h.marginal.2⟩, hprobability, hpos, hx⟩

end EligibleAgent.Counted

/-! ## Their weights -/

theorem abs_sum_round_sub_le (l : List ℚ) (d : ℕ) :
    |(l.map fun x => Decimal.round x d).sum - l.sum| ≤ l.length * (1 / 2 / 10 ^ d) := by
  induction l with
  | nil => simp
  | cons x l ih =>
    have hx := Decimal.abs_round_sub_le x d
    simp only [List.map_cons, List.sum_cons, List.length_cons, Nat.cast_add, Nat.cast_one]
    calc |Decimal.round x d + (l.map fun x => Decimal.round x d).sum - (x + l.sum)|
        = |(Decimal.round x d - x) + ((l.map fun x => Decimal.round x d).sum - l.sum)| := by ring_nf
      _ ≤ |Decimal.round x d - x| + |(l.map fun x => Decimal.round x d).sum - l.sum| := abs_add_le _ _
      _ ≤ 1 / 2 / 10 ^ d + l.length * (1 / 2 / 10 ^ d) := add_le_add hx ih
      _ = (l.length + 1) * (1 / 2 / 10 ^ d) := by ring

/-- the weights are the rounded shares, with what is missing to one given to the last -/
theorem normalizedWeights_eq {init scores : List ℚ} {last cap : ℚ}
    (hshares : shares cap scores = init ++ [last]) (hpos : ∀ x ∈ scores, 0 < x) :
    normalizedWeights scores cap =
      .ok ((init.map fun x => Decimal.round x 12) ++
        [1 - (init.map fun x => Decimal.round x 12).sum]) := by
  have hne : scores ≠ [] := by
    rintro rfl
    have := congrArg List.length hshares
    simp [shares, allot] at this
  have hloop : cappingLoop scores cap (scores.length + 1) (Capping.start scores) =
      .ok (some (shares cap scores)) := by
    have hstart := Divided.start cap hne hpos
    rw [← Capping.slots_start] at hstart
    rw [cappingLoop_eq scores.length (Capping.tidy_start scores) hstart
      (by rw [Capping.slots_start, openScores_start]), Capping.slots_start]
    rfl
  obtain ⟨corrected, hcorrected⟩ : ∃ corrected,
      correctLast ((shares cap scores).map fun x => Decimal.round x 12) = .ok corrected := by
    simp [correctLast, hshares]
  have hsum := sum_correctLast hcorrected
  have hlist : ∃ x, corrected = (init.map fun x => Decimal.round x 12) ++ [x] := by
    rw [hshares, List.map_append, List.map_singleton, correctLast, List.getLast?_concat] at hcorrected
    refine ⟨Decimal.round (Decimal.round last 12 + (1 - ((init.map fun x => Decimal.round x 12) ++
      [Decimal.round last 12]).sum)) 12, ?_⟩
    rw [← Except.ok.inj hcorrected]
    simp [List.set_append_right]
  obtain ⟨x, hx⟩ := hlist
  have hlast : x = 1 - (init.map fun x => Decimal.round x 12).sum := by
    rw [hx, List.sum_append, List.sum_singleton] at hsum
    linarith
  unfold normalizedWeights cappedWeights
  rw [hloop]
  simp only [bind, Except.bind, hcorrected, Functor.map, Except.map, hx, hlast]

/-- scores that are alike under a cap that their number fills but for a rounding -/
structure Spread (scores : List ℚ) (cap : ℚ) : Prop where
  many : 3 ≤ scores.length
  few : scores.length ≤ 200
  alike : ∀ x ∈ scores, 3 / 8 ≤ x ∧ x ≤ 2
  bounded : 0 < cap ∧ cap ≤ 34 / 100
  covers : 1 - 1 / 10 ^ 9 ≤ scores.length * cap

namespace Spread

variable {scores init : List ℚ} {cap last : ℚ}

theorem ne_nil (h : Spread scores cap) : scores ≠ [] := by
  rintro rfl
  exact absurd h.many (by simp)

theorem pos (h : Spread scores cap) : ∀ x ∈ scores, 0 < x := fun x hx => by
  linarith [(h.alike x hx).1]

/-- no share is below a two-thousandth or above the cap, and together they are one or little less -/
theorem shares_bounds (h : Spread scores cap) :
    (∀ x ∈ shares cap scores, 1 / 2000 ≤ x ∧ x ≤ cap) ∧ (shares cap scores).sum ≤ 1 ∧
      1 - 1 / 10 ^ 9 ≤ (shares cap scores).sum ∧
      ((shares cap scores).sum = 1 ∨ cap * scores.length ≤ 1) := by
  obtain ⟨r, hr, heq, hsum⟩ := shares_spec cap h.ne_nil h.pos
  have hn : (scores.length : ℚ) ≤ 200 := by exact_mod_cast h.few
  have hn3 : (3 : ℚ) ≤ scores.length := by exact_mod_cast h.many
  have htotal : scores.sum ≤ 400 := by
    have := List.sum_le_card_nsmul scores 2 fun x hx => (h.alike x hx).2
    rw [nsmul_eq_mul] at this
    linarith
  have hpos : 0 < scores.sum := List.sum_pos _ h.pos h.ne_nil
  have hrate : 1 / 400 ≤ r := (one_div_le_one_div_of_le hpos htotal).trans hr
  have hcap : 1 / 2000 ≤ cap := by
    have hcovers := h.covers
    have := mul_le_mul_of_nonneg_right hn h.bounded.1.le
    norm_num at hcovers
    linarith
  have hbounds : ∀ x ∈ shares cap scores, 1 / 2000 ≤ x ∧ x ≤ cap := by
    intro x hx
    rw [heq, List.mem_map] at hx
    obtain ⟨y, hy, rfl⟩ := hx
    refine ⟨le_min hcap ?_, min_le_left _ _⟩
    calc (1 / 2000 : ℚ) ≤ 1 / 400 * (3 / 8) := by norm_num
      _ ≤ r * y := mul_le_mul hrate (h.alike y hy).1 (by norm_num) (by linarith)
  rcases hsum with hone | ⟨hcapped, hall⟩
  · exact ⟨hbounds, hone.le, by rw [hone]; norm_num, .inl hone⟩
  · have hcaps : (shares cap scores).sum = scores.length * cap := by
      rw [List.sum_eq_card_nsmul _ cap hall, nsmul_eq_mul, length_shares]
    rw [hcaps]
    exact ⟨hbounds, by rwa [mul_comm], h.covers, .inr hcapped⟩

/-- what the rounded shares leave for the last weight -/
theorem remainder_bounds (h : Spread scores cap) (hshares : shares cap scores = init ++ [last]) :
    0 < 1 - (init.map fun x => Decimal.round x 12).sum ∧
      (cap ≤ 34 / 100 - 2 / 10 ^ 10 →
        1 - (init.map fun x => Decimal.round x 12).sum ≤ 34 / 100) := by
  obtain ⟨hbounds, hle, hdeficit, hsum⟩ := h.shares_bounds
  have hround := abs_sum_round_sub_le init 12
  have hlength : init.length + 1 = scores.length := by
    have := congrArg List.length hshares
    rw [length_shares, List.length_append, List.length_singleton] at this
    exact this.symm
  have hn : (init.length : ℚ) + 1 ≤ 200 := by exact_mod_cast hlength ▸ h.few
  have hlast := hbounds last (by rw [hshares]; simp)
  rw [hshares, List.sum_append, List.sum_singleton] at hle hdeficit hsum
  have hsmall : (init.length : ℚ) * (1 / 2 / 10 ^ 12) ≤ 1 / 10 ^ 10 := by
    norm_num at hn ⊢
    linarith
  obtain ⟨hlow, hhigh⟩ := abs_le.1 (hround.trans hsmall)
  norm_num at hlow hhigh
  refine ⟨by linarith [hlast.1], fun hcap => ?_⟩
  norm_num at hcap
  rcases hsum with hone | hcapped
  · linarith [hlast.2]
  · -- every share is the cap, which is then at most a third
    have hn3 : (3 : ℚ) ≤ scores.length := by exact_mod_cast h.many
    have hthird : cap * 3 ≤ 1 := (mul_le_mul_of_nonneg_left hn3 h.bounded.1.le).trans hcapped
    norm_num at hdeficit
    linarith [hlast.2]

end Spread

/-! ## When an evaluation returns -/

/-- the names a consensus takes over from its baseline -/
def ScoredDecision.Named (d : ScoredDecision) : Prop :=
  (1 ≤ d.correlationId.length ∧ d.correlationId.length ≤ 36) ∧ validSymbol d.symbol = true ∧
    validTimeframe d.timeframe = true

/-- the scores of the agents that count -/
def ConsensusPanel.scores (w : ConsensusPanel) (outputs : List AgentOutput) : List ℚ :=
  (w.eligible outputs).map fun a => a.card.rawScore

theorem Overlay.spec (mode : ExperimentMode) (signal : Signal) (baseline : ScoredDecision) :
    (Overlay.of mode signal baseline).confidence ≤ baseline.confidence ∧
      (baseline.candidateAction.directional = false →
        (Overlay.of mode signal baseline).action = baseline.candidateAction) ∧
      ((Overlay.of mode signal baseline).action = baseline.candidateAction ∨
        (Overlay.of mode signal baseline).action = .wait) ∧
      (mode = .shadow → (Overlay.of mode signal baseline).applied = false ∧
        (Overlay.of mode signal baseline).action = baseline.candidateAction ∧
        (Overlay.of mode signal baseline).confidence = baseline.confidence) ∧
      3 ≤ (Overlay.of mode signal baseline).reason.length ∧
      (Overlay.of mode signal baseline).reason.length ≤ 2000 := by
  unfold Overlay.of
  split_ifs with hconfirms hagrees
  · refine ⟨le_refl _, fun _ => rfl, .inl rfl, fun h => by simp [h] at hconfirms, ?_⟩
    dsimp only
    decide
  · refine ⟨Nat.zero_le _, fun h => by simp [h] at hconfirms, .inr rfl,
      fun h => by simp [h] at hconfirms, ?_⟩
    dsimp only
    decide
  · refine ⟨le_refl _, fun _ => rfl, .inl rfl, fun _ => ⟨rfl, rfl, rfl⟩, ?_⟩
    dsimp only
    decide

section

variable {w : ConsensusPanel} {baseline : ScoredDecision} {outputs : List AgentOutput}
  {c : WeightedConsensus} {candidates : List EligibleAgent} {normalized : List ℚ}

theorem spread_of_quorum (hquorum : w.policy.minimumEligibleAgents ≤ (w.eligible outputs).length)
    (hfew : (w.eligible outputs).length ≤ 200) :
    Spread (w.scores outputs) w.policy.maximumAgentWeight := by
  have hp : PolicyBounds w.policy := w.experiment.bounds
  have hlength : (w.scores outputs).length = (w.eligible outputs).length := List.length_map _
  refine ⟨by have := hp.quorum.1; omega, by omega, fun x hx => ?_, hp.cap, ?_⟩
  · obtain ⟨a, ha, rfl⟩ := List.mem_map.1 hx
    exact (w.eligible_counted ha).rawScore_bounds
  · refine hp.covers.trans (mul_le_mul_of_nonneg_right ?_ hp.cap.1.le)
    rw [hlength]
    exact_mod_cast hquorum

/-- weight evidence is accepted when every weight is in range -/
theorem weights_checked (hcounted : ∀ a ∈ candidates, a.Counted)
    (hlength : candidates.length = normalized.length) {weights : List ConsensusAgentWeight} :
    ((candidates.zip normalized).mapM fun x => (ConsensusPanel.weight x.1 x.2).check) = .ok weights ↔
      (∀ x ∈ normalized, 0 < x ∧ x ≤ 34 / 100) ∧
        weights = (candidates.zip normalized).map fun x => ConsensusPanel.weight x.1 x.2 := by
  have hpair : ∀ x ∈ candidates.zip normalized, (∀ y, (ConsensusPanel.weight x.1 x.2).check = .ok y →
      0 < x.2 ∧ x.2 ≤ 34 / 100 ∧ y = ConsensusPanel.weight x.1 x.2) ∧
      (0 < x.2 ∧ x.2 ≤ 34 / 100 →
        (ConsensusPanel.weight x.1 x.2).check = .ok (ConsensusPanel.weight x.1 x.2)) := by
    intro x hx
    have ha := hcounted x.1 (List.of_mem_zip hx).1
    refine ⟨fun y hy => ?_, (ha.weight_check x.2).2⟩
    have heq : y = ConsensusPanel.weight x.1 x.2 := (validateModel_ok.1 hy).2.2
    rw [heq] at hy
    exact ⟨((ha.weight_check x.2).1 hy).1, ((ha.weight_check x.2).1 hy).2, heq⟩
  constructor
  · intro h
    have hall := Result.mapM_forall₂ h
    constructor
    · intro x hx
      rw [← List.map_snd_zip hlength.ge, List.mem_map] at hx
      obtain ⟨pair, hpairs, rfl⟩ := hx
      obtain ⟨i, hi, rfl⟩ := List.mem_iff_getElem.1 hpairs
      have hlt : i < weights.length := by rwa [← hall.length_eq]
      have := (hpair _ hpairs).1 _ (List.Forall₂.get hall hi hlt)
      exact ⟨this.1, this.2.1⟩
    · symm
      rw [← List.forall₂_eq_eq_eq, List.forall₂_map_left_iff]
      refine List.forall₂_iff_get.2 ⟨hall.length_eq, fun i hi hlt => ?_⟩
      exact ((hpair _ (List.getElem_mem hi)).1 _ (List.Forall₂.get hall hi hlt)).2.2.symm
  · rintro ⟨hrange, rfl⟩
    exact Result.mapM_ok fun x hx => (hpair x hx).2 (hrange x.2 (List.of_mem_zip hx).2)

theorem probability_mem (hrange : ∀ x ∈ normalized, 0 < x) (hsum : normalized.sum = 1)
    (hlength : candidates.length = normalized.length) :
    0 ≤ ConsensusPanel.probability ((candidates.zip normalized).map fun x =>
        ConsensusPanel.weight x.1 x.2) ∧
      ConsensusPanel.probability ((candidates.zip normalized).map fun x =>
        ConsensusPanel.weight x.1 x.2) ≤ 1 := by
  rw [ConsensusPanel.probability, List.map_map]
  have hterm : ∀ x ∈ candidates.zip normalized, 0 ≤ forecastProbability x.1.output * x.2 ∧
      forecastProbability x.1.output * x.2 ≤ x.2 := by
    intro x hx
    have h0 := (hrange x.2 (List.of_mem_zip hx).2).le
    obtain ⟨hp, hp'⟩ := forecastProbability_mem x.1.output
    exact ⟨mul_nonneg hp h0, mul_le_of_le_one_left h0 hp'⟩
  constructor
  · refine List.sum_nonneg fun y hy => ?_
    obtain ⟨x, hx, rfl⟩ := List.mem_map.1 hy
    exact (hterm x hx).1
  · calc ((candidates.zip normalized).map _).sum
        ≤ ((candidates.zip normalized).map Prod.snd).sum :=
          List.sum_le_sum fun x hx => (hterm x hx).2
      _ = normalized.sum := by rw [List.map_snd_zip hlength.ge]
      _ = 1 := hsum

theorem build_insufficient :
    (∃ c, WeightedConsensus.build (w.insufficient baseline outputs) = .ok c) ↔ baseline.Named := by
  have hreason : 3 ≤ "Performance consensus unavailable; static primary decision preserved".length ∧
      "Performance consensus unavailable; static primary decision preserved".length ≤ 2000 := by
    decide
  rw [WeightedConsensus.exists_build, consensusFields_iff, consensusRules_iff]
  constructor
  · rintro ⟨⟨hid, -, hsymbol, htimeframe, -⟩, -⟩
    exact ⟨hid, hsymbol, htimeframe⟩
  · rintro ⟨hid, hsymbol, htimeframe⟩
    refine ⟨⟨hid, w.experiment.bounds.version, hsymbol, htimeframe, baseline.confidence_le, ?_,
      Nat.zero_le _, Nat.zero_le _, baseline.confidence_le, hreason⟩, le_refl _, fun _ => rfl,
      fun _ => .inl rfl, fun _ => ⟨rfl, rfl, rfl⟩, fun h => (by cases h),
      fun h => (by cases h), fun h => (by cases h), fun _ => ⟨rfl, rfl⟩⟩
    intro x hx
    cases hx

theorem build_ready (hmany : candidates ≠ [])
    (hrange : ∀ x ∈ normalized, 0 < x) (hsum : normalized.sum = 1)
    (hlength : candidates.length = normalized.length) :
    (∃ c, WeightedConsensus.build (w.ready baseline outputs ((candidates.zip normalized).map fun x =>
        ConsensusPanel.weight x.1 x.2)) = .ok c) ↔
      baseline.Named ∧ candidates.length ≤ 200 := by
  have hzip : ((candidates.zip normalized).map fun x =>
      ConsensusPanel.weight x.1 x.2).length = candidates.length := by
    rw [List.length_map, List.length_zip, ← hlength, Nat.min_self]
  have hweights : (((candidates.zip normalized).map fun x => ConsensusPanel.weight x.1 x.2).map
      ConsensusAgentWeight.weight).sum = 1 := by
    rw [List.map_map]
    exact (congrArg List.sum (List.map_snd_zip hlength.ge)).trans hsum
  have hprobability := probability_mem hrange hsum hlength
  generalize (candidates.zip normalized).map (fun x => ConsensusPanel.weight x.1 x.2) = weights at *
  obtain ⟨hle, hkeeps, htightens, hshadow, hreason⟩ := Overlay.spec w.policy.mode
    (consensusSignal w.policy (ConsensusPanel.probability weights)) baseline
  rw [WeightedConsensus.exists_build, consensusFields_iff, consensusRules_iff]
  constructor
  · rintro ⟨⟨hid, -, hsymbol, htimeframe, -, -, -, hcount, -⟩, -⟩
    exact ⟨⟨hid, hsymbol, htimeframe⟩, hzip ▸ hcount⟩
  · rintro ⟨⟨hid, hsymbol, htimeframe⟩, hcount⟩
    refine ⟨⟨hid, w.experiment.bounds.version, hsymbol, htimeframe, baseline.confidence_le, ?_,
      min_le_left _ _, ?_, hle.trans baseline.confidence_le, hreason⟩, hle, hkeeps, fun _ => htightens,
      hshadow, fun _ => ⟨rfl, ?_⟩, fun _ => rfl, fun _ => ?_, ?_⟩
    · intro x hx
      cases hx
      refine ⟨Decimal.round_nonneg hprobability.1 12, ?_⟩
      calc Decimal.round (ConsensusPanel.probability weights) 12
          ≤ Decimal.round 1 12 := Decimal.round_mono hprobability.2 12
        _ = 1 := by decide +kernel
    · exact hzip.trans_le hcount
    · rintro rfl
      exact hmany (List.length_eq_zero_iff.1 hzip.symm)
    · simp [ConsensusPanel.ready, isClose, hweights]
    · intro h
      cases h

/-- with a quorum the loop ends and gives as many weights as agents count, which sum to one -/
theorem normalized_of_quorum
    (hquorum : w.policy.minimumEligibleAgents ≤ (w.eligible outputs).length) :
    ∃ init last, shares w.policy.maximumAgentWeight (w.scores outputs) = init ++ [last] ∧
      normalizedWeights (w.scores outputs) w.policy.maximumAgentWeight =
        .ok ((init.map fun x => Decimal.round x 12) ++
          [1 - (init.map fun x => Decimal.round x 12).sum]) ∧
      (w.eligible outputs).length = init.length + 1 := by
  have hp : PolicyBounds w.policy := w.experiment.bounds
  have hlength : (shares w.policy.maximumAgentWeight (w.scores outputs)).length =
      (w.eligible outputs).length := by
    rw [length_shares, ConsensusPanel.scores, List.length_map]
  have hpos : ∀ x ∈ w.scores outputs, 0 < x := by
    intro x hx
    obtain ⟨a, ha, rfl⟩ := List.mem_map.1 hx
    linarith [(w.eligible_counted ha).rawScore_bounds.1]
  rcases List.eq_nil_or_concat (shares w.policy.maximumAgentWeight (w.scores outputs)) with
    hnil | ⟨init, last, hshares⟩
  · rw [hnil, List.length_nil] at hlength
    have := hp.quorum.1
    omega
  · rw [List.concat_eq_append] at hshares
    refine ⟨init, last, hshares, normalizedWeights_eq hshares hpos, ?_⟩
    rw [← hlength, hshares, List.length_append, List.length_singleton]

theorem normalized_sum (hquorum : w.policy.minimumEligibleAgents ≤ (w.eligible outputs).length)
    (hn : normalizedWeights (w.scores outputs) w.policy.maximumAgentWeight = .ok normalized) :
    (w.eligible outputs).length = normalized.length ∧ normalized.sum = 1 := by
  obtain ⟨init, last, -, heq, hlength⟩ := normalized_of_quorum hquorum
  rw [heq] at hn
  cases hn
  rw [List.length_append, List.length_map, List.length_singleton, List.sum_append,
    List.sum_singleton]
  exact ⟨hlength, by ring⟩

theorem eligible_ne_nil (hquorum : w.policy.minimumEligibleAgents ≤ (w.eligible outputs).length) :
    w.eligible outputs ≠ [] := by
  have hp : PolicyBounds w.policy := w.experiment.bounds
  have := hp.quorum.1
  intro hnil
  rw [hnil, List.length_nil] at hquorum
  omega

/-- of up to 200 agents each has a positive weight, and none a weight above 0.34 under a cap that
leaves room for the rounding -/
theorem normalized_range
    (hquorum : w.policy.minimumEligibleAgents ≤ (w.eligible outputs).length)
    (hfew : (w.eligible outputs).length ≤ 200)
    (hweights : normalizedWeights (w.scores outputs) w.policy.maximumAgentWeight = .ok normalized) :
    (∀ x ∈ normalized, 0 < x) ∧ (w.policy.maximumAgentWeight ≤ 34 / 100 - 2 / 10 ^ 10 →
      ∀ x ∈ normalized, x ≤ 34 / 100) := by
  obtain ⟨init, last, hshares, heq, -⟩ := normalized_of_quorum hquorum
  rw [heq] at hweights
  cases hweights
  have hspread := spread_of_quorum hquorum hfew
  obtain ⟨hbounds, -⟩ := hspread.shares_bounds
  have hremainder := hspread.remainder_bounds hshares
  have hround : ∀ y ∈ init, 0 < Decimal.round y 12 ∧ Decimal.round y 12 ≤ 34 / 100 := by
    intro y hy
    obtain ⟨hlow, hhigh⟩ := hbounds y (by rw [hshares]; exact List.mem_append_left _ hy)
    constructor
    · calc (0 : ℚ) < Decimal.round (1 / 2000) 12 := by decide +kernel
        _ ≤ Decimal.round y 12 := Decimal.round_mono hlow 12
    · calc Decimal.round y 12 ≤ Decimal.round (34 / 100) 12 :=
            Decimal.round_mono (hhigh.trans hspread.bounded.2) 12
        _ = 34 / 100 := by decide +kernel
  have hmem : ∀ x ∈ (init.map fun x => Decimal.round x 12) ++
      [1 - (init.map fun x => Decimal.round x 12).sum],
      (∃ y ∈ init, Decimal.round y 12 = x) ∨ x = 1 - (init.map fun x => Decimal.round x 12).sum := by
    intro x hx
    rcases List.mem_append.1 hx with hx | hx
    · exact .inl (List.mem_map.1 hx)
    · exact .inr (List.mem_singleton.1 hx)
  constructor
  · intro x hx
    rcases hmem x hx with ⟨y, hy, rfl⟩ | rfl
    · exact (hround y hy).1
    · exact hremainder.1
  · intro hcap x hx
    rcases hmem x hx with ⟨y, hy, rfl⟩ | rfl
    · exact (hround y hy).2
    · exact hremainder.2 hcap

theorem exists_of_range (hnamed : baseline.Named)
    (hweights : w.policy.minimumEligibleAgents ≤ (w.eligible outputs).length →
      (w.eligible outputs).length ≤ 200 ∧
        ∃ weights, normalizedWeights (w.scores outputs) w.policy.maximumAgentWeight = .ok weights ∧
          ∀ x ∈ weights, x ≤ 34 / 100) : ∃ c, w.evaluate baseline outputs = .ok c := by
  unfold ConsensusPanel.evaluate
  dsimp only
  by_cases hlow : (w.eligible outputs).length < w.policy.minimumEligibleAgents
  · rw [if_pos hlow]
    exact build_insufficient.2 hnamed
  · have hquorum := not_lt.1 hlow
    obtain ⟨hfew, normalized, hn, hle⟩ := hweights hquorum
    obtain ⟨hlength, hsum⟩ := normalized_sum hquorum hn
    have hpos := (normalized_range hquorum hfew hn).1
    obtain ⟨c, hc⟩ := (build_ready (eligible_ne_nil hquorum) hpos hsum hlength).2 ⟨hnamed, hfew⟩
    have hw := (weights_checked (fun a ha => w.eligible_counted ha) hlength).2
      ⟨fun x hx => ⟨hpos x hx, hle x hx⟩, rfl⟩
    rw [if_neg hlow]
    exact ⟨c, Result.bind_ok.2 ⟨normalized, hn, Result.bind_ok.2 ⟨_, hw, hc⟩⟩⟩

/-- **When a consensus can be built.** An evaluation returns exactly when the contract knows the
baseline's names and, if a quorum of agents counts, at most 200 of them do and none of their
weights is above 0.34. -/
theorem evaluate_ok_iff (w : ConsensusPanel) (baseline : ScoredDecision) (outputs : List AgentOutput) :
    (∃ c, w.evaluate baseline outputs = .ok c) ↔ baseline.Named ∧
      (w.policy.minimumEligibleAgents ≤ (w.eligible outputs).length →
        (w.eligible outputs).length ≤ 200 ∧
          ∃ weights, normalizedWeights (w.scores outputs) w.policy.maximumAgentWeight = .ok weights ∧
            ∀ x ∈ weights, x ≤ 34 / 100) := by
  have hcounted : ∀ a ∈ w.eligible outputs, a.Counted := fun a ha => w.eligible_counted ha
  constructor
  · rintro ⟨c, hc⟩
    rcases evaluate_cases hc with ⟨hlow, hevidence⟩ | ⟨hquorum, normalized, weights, hn, hw, hevidence⟩
    · exact ⟨build_insufficient.1 ⟨c, WeightedConsensus.build_ok.2 hevidence⟩,
        fun hquorum => absurd hquorum (not_le.2 hlow)⟩
    · obtain ⟨hlength, hsum⟩ := normalized_sum hquorum hn
      obtain ⟨hrange, rfl⟩ := (weights_checked hcounted hlength).1 hw
      obtain ⟨hnamed, hfew⟩ := (build_ready (eligible_ne_nil hquorum) (fun x hx => (hrange x hx).1)
        hsum hlength).1 ⟨c, WeightedConsensus.build_ok.2 hevidence⟩
      exact ⟨hnamed, fun _ => ⟨hfew, normalized, hn, fun x hx => (hrange x hx).2⟩⟩
  · rintro ⟨hnamed, hweights⟩
    exact exists_of_range hnamed hweights

end

/-! ## A panel -/

def shadowDefinition (name : String) : AgentDefinition where
  agentName := name
  version := "1.0.0"
  description := "d"
  requiredInputs := []
  capabilities := []
  decisionRole := .shadow
  critical := false
  timeoutMs := 1000
  maxAttempts := 1

def shadowAgent (name : String) (h : validAgentName name = true := by decide +kernel) :
    RegisteredAgent :=
  ⟨{ shadowDefinition name with enabled := true, definitionHash := shadowDefinition name },
    validateModel_ok.2 ⟨by simp [shadowDefinition, h]; decide +kernel, by simp, rfl⟩⟩

def evaluatedCard (name : String) (accuracy marginal : ℚ) : AgentScorecard where
  agentName := name
  agentVersion := "1.0.0"
  sampleCount := 100
  directionalSampleCount := 50
  accuracy := some accuracy
  meanBrierLoss := some 0
  meanMarginalContribution := some marginal
  status := .evaluated
  minimumSamples := 30

def samplePolicy (cap : ℚ) : ConsensusPolicy where
  name := "sample"
  version := "1.0.0"
  minimumAccuracy := 1 / 2
  minimumEligibleAgents := 4
  maximumAgentWeight := cap
  createdBy := "platform"

theorem samplePolicy_accepted :
    ∀ f ∈ consensusExperimentFields (samplePolicy (3 / 10)), f.2 = true := by decide +kernel

/-- four agents of different merit -/
def sampleScorecards : List AgentScorecard :=
  [evaluatedCard "Alpha" (3 / 4) (1 / 5), evaluatedCard "Beta" (1 / 2) (1 / 5),
    evaluatedCard "Gamma" (1 / 2) (1 / 5), evaluatedCard "Delta" 1 (1 / 2)]

theorem sampleScorecards_accepted : ∀ card ∈ sampleScorecards, card.check = .ok card := by
  intro card hcard
  simp only [sampleScorecards, List.mem_cons, List.not_mem_nil, or_false] at hcard
  rcases hcard with rfl | rfl | rfl | rfl <;>
    exact validateModel_ok.2 ⟨by decide +kernel, by decide +kernel, rfl⟩

/-- the four of them under a cap -/
def samplePanel (cap : ℚ)
    (accepted : ∀ f ∈ consensusExperimentFields (samplePolicy cap), f.2 = true) :
    ConsensusPanel where
  experiment := ⟨samplePolicy cap, 0, accepted⟩
  experimentId := "e"
  scorecards := sampleScorecards
  drift := []
  registrations := OrderedDict.ofList _
    [shadowAgent "Alpha", shadowAgent "Beta", shadowAgent "Gamma", shadowAgent "Delta"]
  accepted := sampleScorecards_accepted

def sampleOpinions : List AgentOutput :=
  [⟨"Alpha", .completed, .buy, 80, "r", [], [], 0, 0, by decide +kernel⟩,
   ⟨"Beta", .completed, .sell, 60, "r", [], [], 0, 0, by decide +kernel⟩,
   ⟨"Gamma", .completed, .hold, 50, "r", [], [], 0, 0, by decide +kernel⟩,
   ⟨"Delta", .completed, .buy, 90, "r", [], [], 0, 0, by decide +kernel⟩]

/-- a trade to confirm -/
def sampleBaseline : ScoredDecision :=
  (DecisionEngine.consolidated {} (agreement .buy [])).toScoredDecision

/-- the largest cap an experiment may have: three weights round down and the fourth exceeds it -/
example : ((samplePanel (34 / 100) (by decide +kernel)).evaluate sampleBaseline
    sampleOpinions).toOption.isNone = true := by decide +kernel

end CapitalCipher
