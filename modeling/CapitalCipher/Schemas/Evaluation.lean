/-
The evaluation contracts of `schemas/specialist_evaluation.py`: a forecast, its settled outcome and
the scorecard of an agent version.

A forecast id and an outcome id are taken to be what they digest. Forecasts and outcomes carry their
accepted constraints.

  • `AgentScorecard.check_ok`: what the field constraints and `validate_status` accept.
-/
import CapitalCipher.Schemas.Agents

namespace CapitalCipher

/-- what the identity of a forecast digests -/
structure ForecastId where
  correlationId : String
  agentName : String
  agentVersion : String
  definitionHash : AgentDefinition
  symbol : String
  timeframe : String
  signal : Signal
  confidence : ℕ
  probabilityUp : ℚ
  referencePrice : ℚ
  forecastAt : Time
  targetAt : Time
  /-- the offset both times are written with, in microseconds east of UTC -/
  utcOffset : ℤ := 0
  deriving DecidableEq

/-- the field constraints of an `AgentForecast` and its rule about the horizon -/
def agentForecastFields (f : ForecastId) (horizonSeconds : ℕ) : List (String × Bool) :=
  [("correlation_id", decide (1 ≤ f.correlationId.length ∧ f.correlationId.length ≤ 36)),
   ("agent_name", decide (3 ≤ f.agentName.length ∧ f.agentName.length ≤ 128)),
   ("agent_version", validAgentVersion f.agentVersion),
   ("symbol", validSymbol f.symbol),
   ("timeframe", validTimeframe f.timeframe),
   ("confidence", decide (f.confidence ≤ 100)),
   ("probability_up", decide (0 ≤ f.probabilityUp ∧ f.probabilityUp ≤ 1)),
   ("reference_price", decide (0 < f.referencePrice)),
   ("horizon_seconds", decide (0 < horizonSeconds)),
   ("target_at must equal forecast_at plus horizon",
     decide (f.targetAt = f.forecastAt + horizonSeconds * 1000000))]

/-- immutable one-horizon forecast derived from an agent output -/
structure AgentForecast where
  forecastId : ForecastId
  horizonSeconds : ℕ
  decisionRole : AgentDecisionRole
  createdAt : Time
  accepted : ∀ f ∈ agentForecastFields forecastId horizonSeconds, f.2 = true
  deriving DecidableEq

def AgentForecast.build (forecastId : ForecastId) (horizonSeconds : ℕ)
    (decisionRole : AgentDecisionRole) (createdAt : Time) : Except Error AgentForecast :=
  if h : ∀ f ∈ agentForecastFields forecastId horizonSeconds, f.2 = true then
    .ok ⟨forecastId, horizonSeconds, decisionRole, createdAt, h⟩
  else
    .error ⟨.schema, ", ".intercalate
      (((agentForecastFields forecastId horizonSeconds).filter fun f => !f.2).map Prod.fst)⟩

/-- `(forecast.agent_name, forecast.agent_version)` -/
def AgentForecast.agent (f : AgentForecast) : String × String :=
  (f.forecastId.agentName, f.forecastId.agentVersion)

/-- what the identity of an outcome digests -/
structure OutcomeId where
  forecastId : ForecastId
  realizedAt : Time
  /-- the offset that time is written with -/
  utcOffset : ℤ := 0
  realizedPrice : ℚ
  deriving DecidableEq

/-- the measurements of an outcome -/
structure OutcomeEvidence where
  realizedReturn : ℚ
  realizedUp : ℚ
  correct : Option Bool
  brierLoss : ℚ
  ensembleProbabilityUp : ℚ
  ensembleBrierLoss : ℚ
  leaveOneOutProbabilityUp : ℚ
  leaveOneOutBrierLoss : ℚ
  marginalContribution : ℚ
  cohortSize : ℕ
  deriving DecidableEq

/-- the field constraints of an `AgentForecastOutcome` -/
def agentForecastOutcomeFields (outcomeId : OutcomeId) (e : OutcomeEvidence) :
    List (String × Bool) :=
  [("realized_price", decide (0 < outcomeId.realizedPrice)),
   ("realized_up", decide (0 ≤ e.realizedUp ∧ e.realizedUp ≤ 1)),
   ("brier_loss", decide (0 ≤ e.brierLoss ∧ e.brierLoss ≤ 1)),
   ("ensemble_probability_up",
     decide (0 ≤ e.ensembleProbabilityUp ∧ e.ensembleProbabilityUp ≤ 1)),
   ("ensemble_brier_loss", decide (0 ≤ e.ensembleBrierLoss ∧ e.ensembleBrierLoss ≤ 1)),
   ("leave_one_out_probability_up",
     decide (0 ≤ e.leaveOneOutProbabilityUp ∧ e.leaveOneOutProbabilityUp ≤ 1)),
   ("leave_one_out_brier_loss",
     decide (0 ≤ e.leaveOneOutBrierLoss ∧ e.leaveOneOutBrierLoss ≤ 1)),
   ("marginal_contribution",
     decide (-1 ≤ e.marginalContribution ∧ e.marginalContribution ≤ 1)),
   ("cohort_size", decide (1 ≤ e.cohortSize))]

/-- append-only realization and leave-one-out contribution evidence -/
structure AgentForecastOutcome where
  outcomeId : OutcomeId
  evidence : OutcomeEvidence
  createdAt : Time
  accepted : ∀ f ∈ agentForecastOutcomeFields outcomeId evidence, f.2 = true
  deriving DecidableEq

def AgentForecastOutcome.build (outcomeId : OutcomeId) (e : OutcomeEvidence) (createdAt : Time) :
    Except Error AgentForecastOutcome :=
  if h : ∀ f ∈ agentForecastOutcomeFields outcomeId e, f.2 = true then
    .ok ⟨outcomeId, e, createdAt, h⟩
  else
    .error ⟨.schema, ", ".intercalate
      (((agentForecastOutcomeFields outcomeId e).filter fun f => !f.2).map Prod.fst)⟩

namespace AgentForecastOutcome

variable (o : AgentForecastOutcome)

def realizedAt : Time := o.outcomeId.realizedAt
def correct : Option Bool := o.evidence.correct
def brierLoss : ℚ := o.evidence.brierLoss
def marginalContribution : ℚ := o.evidence.marginalContribution

theorem brierLoss_mem : 0 ≤ o.brierLoss ∧ o.brierLoss ≤ 1 := by
  have h := o.accepted
  simp only [agentForecastOutcomeFields, List.forall_mem_cons, decide_eq_true_eq] at h
  exact h.2.2.1

theorem marginalContribution_mem : -1 ≤ o.marginalContribution ∧ o.marginalContribution ≤ 1 := by
  have h := o.accepted
  simp only [agentForecastOutcomeFields, List.forall_mem_cons, decide_eq_true_eq] at h
  exact h.2.2.2.2.2.2.2.1

end AgentForecastOutcome

inductive EvaluationStatus where
  | insufficientSample | evaluated
  deriving DecidableEq, Repr

/-- read model of an agent version, less the time it was evaluated at -/
structure AgentScorecard where
  agentName : String
  agentVersion : String
  sampleCount : ℕ
  directionalSampleCount : ℕ
  accuracy : Option ℚ
  meanBrierLoss : Option ℚ
  meanMarginalContribution : Option ℚ
  status : EvaluationStatus
  minimumSamples : ℕ
  deriving DecidableEq

/-- the field constraints and `validate_status` -/
def AgentScorecard.check (c : AgentScorecard) : Except Error AgentScorecard :=
  validateModel
    [("agent_name", decide (3 ≤ c.agentName.length ∧ c.agentName.length ≤ 128)),
     ("agent_version", validAgentVersion c.agentVersion),
     ("accuracy", c.accuracy.all fun x => decide (0 ≤ x ∧ x ≤ 1)),
     ("mean_brier_loss", c.meanBrierLoss.all fun x => decide (0 ≤ x ∧ x ≤ 1)),
     ("mean_marginal_contribution",
       c.meanMarginalContribution.all fun x => decide (-1 ≤ x ∧ x ≤ 1)),
     ("minimum_samples", decide (1 ≤ c.minimumSamples))]
    [("scorecard status does not match sample count",
       c.status == if c.minimumSamples ≤ c.sampleCount then .evaluated else .insufficientSample)] c

theorem AgentScorecard.check_ok {c c' : AgentScorecard} : c.check = .ok c' ↔
    ((3 ≤ c.agentName.length ∧ c.agentName.length ≤ 128) ∧
      validAgentVersion c.agentVersion = true ∧ (∀ x ∈ c.accuracy, 0 ≤ x ∧ x ≤ 1) ∧
      (∀ x ∈ c.meanBrierLoss, 0 ≤ x ∧ x ≤ 1) ∧
      (∀ x ∈ c.meanMarginalContribution, -1 ≤ x ∧ x ≤ 1) ∧ 1 ≤ c.minimumSamples) ∧
    (c.status = if c.minimumSamples ≤ c.sampleCount then .evaluated else .insufficientSample) ∧
    c' = c := by
  have hall : ∀ (x : Option ℚ) (lo : ℚ), (x.all fun x => decide (lo ≤ x ∧ x ≤ 1)) = true ↔
      ∀ y ∈ x, lo ≤ y ∧ y ≤ 1 := by
    intro x lo
    cases x <;> simp
  rw [check, validateModel_ok]
  simp only [List.forall_mem_cons, List.not_mem_nil, false_implies, implies_true, and_true,
    decide_eq_true_eq, beq_iff_eq, hall]

end CapitalCipher
