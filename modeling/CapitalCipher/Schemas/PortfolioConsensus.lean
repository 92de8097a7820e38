/-
The experiment and drift contracts of `schemas/portfolio_consensus.py`.

A digest is a parameter: `Digests` names the function behind `experiment_id`, which reads everything
of an experiment but its creation time, and the one behind `event_id`. An experiment and a lifecycle
event carry their accepted constraints; the pattern of an id is that of a digest and is left out.

A drift observation's id is taken to be what it digests.

  • `ConsensusExperiment.created`: the CREATED event a registration emits meets its own constraints.
-/
import CapitalCipher.Schemas.Agents

namespace CapitalCipher

inductive ExperimentMode where
  | shadow | confirmation
  deriving DecidableEq, Repr

inductive ExperimentEventType where
  | created | activated | retired
  deriving DecidableEq, Repr

/-- what the identity of an experiment digests -/
structure ConsensusPolicy where
  name : String
  version : String
  mode : ExperimentMode := .shadow
  minimumSamples : ℕ := 100
  minimumDirectionalSamples : ℕ := 50
  minimumAccuracy : ℚ := 52 / 100
  maximumBrierLoss : ℚ := 24 / 100
  minimumMarginalContribution : ℚ := 0
  minimumEligibleAgents : ℕ := 5
  maximumAgentWeight : ℚ := 25 / 100
  buyProbabilityThreshold : ℚ := 55 / 100
  sellProbabilityThreshold : ℚ := 45 / 100
  driftReferenceSamples : ℕ := 50
  driftCurrentSamples : ℕ := 20
  criticalAccuracyDrop : ℚ := 15 / 100
  criticalBrierIncrease : ℚ := 8 / 100
  criticalMarginalDrop : ℚ := 3 / 100
  createdBy : String
  deriving DecidableEq

/-- `^[a-z][a-z0-9_-]{2,63}$` -/
def validExperimentName (s : String) : Bool :=
  match s.toList with
  | first :: rest =>
    first.isLower && decide (2 ≤ rest.length ∧ rest.length ≤ 63) &&
      rest.all fun c => c.isLower || c.isDigit || c ∈ ['_', '-']
  | [] => false

/-- the field constraints of a `ConsensusExperiment` and the three rules of its validator -/
def consensusExperimentFields (p : ConsensusPolicy) : List (String × Bool) :=
  [("name", validExperimentName p.name),
   ("version", validAgentVersion p.version),
   ("minimum_samples", decide (100 ≤ p.minimumSamples ∧ p.minimumSamples ≤ 100000)),
   ("minimum_directional_samples",
     decide (20 ≤ p.minimumDirectionalSamples ∧ p.minimumDirectionalSamples ≤ 100000)),
   ("minimum_accuracy", decide (1 / 2 ≤ p.minimumAccuracy ∧ p.minimumAccuracy ≤ 1)),
   ("maximum_brier_loss", decide (0 ≤ p.maximumBrierLoss ∧ p.maximumBrierLoss ≤ 25 / 100)),
   ("minimum_marginal_contribution",
     decide (0 ≤ p.minimumMarginalContribution ∧ p.minimumMarginalContribution ≤ 1)),
   ("minimum_eligible_agents",
     decide (3 ≤ p.minimumEligibleAgents ∧ p.minimumEligibleAgents ≤ 200)),
   ("maximum_agent_weight",
     decide (0 < p.maximumAgentWeight ∧ p.maximumAgentWeight ≤ 34 / 100)),
   ("buy_probability_threshold",
     decide (1 / 2 < p.buyProbabilityThreshold ∧ p.buyProbabilityThreshold < 1)),
   ("sell_probability_threshold",
     decide (0 < p.sellProbabilityThreshold ∧ p.sellProbabilityThreshold < 1 / 2)),
   ("drift_reference_samples",
     decide (30 ≤ p.driftReferenceSamples ∧ p.driftReferenceSamples ≤ 10000)),
   ("drift_current_samples",
     decide (10 ≤ p.driftCurrentSamples ∧ p.driftCurrentSamples ≤ 5000)),
   ("critical_accuracy_drop", decide (0 < p.criticalAccuracyDrop ∧ p.criticalAccuracyDrop ≤ 1)),
   ("critical_brier_increase",
     decide (0 < p.criticalBrierIncrease ∧ p.criticalBrierIncrease ≤ 1)),
   ("critical_marginal_drop", decide (0 < p.criticalMarginalDrop ∧ p.criticalMarginalDrop ≤ 1)),
   ("created_by", decide (2 ≤ p.createdBy.length ∧ p.createdBy.length ≤ 128)),
   ("minimum_directional_samples cannot exceed minimum_samples",
     decide (p.minimumDirectionalSamples ≤ p.minimumSamples)),
   ("sell threshold must be below buy threshold",
     decide (p.sellProbabilityThreshold < p.buyProbabilityThreshold)),
   ("eligible-agent count and weight cap cannot sum to one",
     decide (1 - 1 / 10 ^ 9 ≤ p.minimumEligibleAgents * p.maximumAgentWeight))]

/-- immutable versioned policy for performance-weighted consensus -/
structure ConsensusExperiment where
  policy : ConsensusPolicy
  createdAt : Time
  accepted : ∀ f ∈ consensusExperimentFields policy, f.2 = true
  deriving DecidableEq

def consensusExperimentEventFields (actor reason : String) : List (String × Bool) :=
  [("actor", decide (2 ≤ actor.length ∧ actor.length ≤ 128)),
   ("reason", decide (3 ≤ reason.length ∧ reason.length ≤ 1000))]

/-- append-only lifecycle event; experiment definitions never mutate -/
structure ConsensusExperimentEvent where
  experimentId : String
  eventType : ExperimentEventType
  actor : String
  reason : String
  createdAt : Time
  accepted : ∀ f ∈ consensusExperimentEventFields actor reason, f.2 = true
  deriving DecidableEq

/-- the digests behind the two ids -/
structure Digests where
  experimentId : ConsensusPolicy → String
  eventId : ConsensusExperimentEvent → String

theorem ConsensusExperiment.createdBy_length (e : ConsensusExperiment) :
    2 ≤ e.policy.createdBy.length ∧ e.policy.createdBy.length ≤ 128 := by
  have h := e.accepted ("created_by",
    decide (2 ≤ e.policy.createdBy.length ∧ e.policy.createdBy.length ≤ 128))
    (by simp [consensusExperimentFields])
  simpa using h

/-- the CREATED event of a definition -/
def ConsensusExperiment.created (h : Digests) (e : ConsensusExperiment) :
    ConsensusExperimentEvent where
  experimentId := h.experimentId e.policy
  eventType := .created
  actor := e.policy.createdBy
  reason := "Versioned experiment definition registered"
  createdAt := e.createdAt
  accepted := by
    have hby := e.createdBy_length
    intro f hf
    simp only [consensusExperimentEventFields, List.mem_cons, List.not_mem_nil, or_false] at hf
    rcases hf with rfl | rfl
    · simpa using hby
    · decide

/-- `{"name": "month9_weighted_consensus", …}`, the policy every service knows -/
def defaultPolicy : ConsensusPolicy where
  name := "month9_weighted_consensus"
  version := "1.0.0"
  createdBy := "platform"

/-- the default experiment of a service built at a time -/
def defaultExperiment (now : Time) : ConsensusExperiment := ⟨defaultPolicy, now, by decide +kernel⟩

def defaultCreated (h : Digests) (now : Time) : ConsensusExperimentEvent where
  experimentId := h.experimentId defaultPolicy
  eventType := .created
  actor := "platform"
  reason := "Safe Month 9 default; observational until explicitly activated"
  createdAt := now
  accepted := by decide

inductive DriftSeverity where
  | none | warning | critical
  deriving DecidableEq, Repr

/-- what the identity of a drift observation digests -/
structure DriftEvidence where
  experimentId : ConsensusPolicy
  agentName : String
  agentVersion : String
  referenceSamples : ℕ
  currentSamples : ℕ
  referenceAccuracy : Option ℚ
  currentAccuracy : Option ℚ
  accuracyDelta : Option ℚ
  referenceBrierLoss : ℚ
  currentBrierLoss : ℚ
  brierDelta : ℚ
  referenceMarginalContribution : ℚ
  currentMarginalContribution : ℚ
  marginalDelta : ℚ
  severity : DriftSeverity
  reasons : List String
  observedAt : Time
  deriving DecidableEq

/-- a number between two bounds -/
def within (lo hi x : ℚ) : Bool := decide (lo ≤ x ∧ x ≤ hi)

/-- the field constraints of a `DriftObservation` and the four rules of its validator -/
def driftObservationFields (e : DriftEvidence) : List (String × Bool) :=
  [("agent_name", decide (3 ≤ e.agentName.length ∧ e.agentName.length ≤ 128)),
   ("agent_version", validAgentVersion e.agentVersion),
   ("reference_samples", decide (30 ≤ e.referenceSamples)),
   ("current_samples", decide (10 ≤ e.currentSamples)),
   ("reference_accuracy", e.referenceAccuracy.all (within 0 1)),
   ("current_accuracy", e.currentAccuracy.all (within 0 1)),
   ("accuracy_delta", e.accuracyDelta.all (within (-1) 1)),
   ("reference_brier_loss", within 0 1 e.referenceBrierLoss),
   ("current_brier_loss", within 0 1 e.currentBrierLoss),
   ("brier_delta", within (-1) 1 e.brierDelta),
   ("reference_marginal_contribution", within (-1) 1 e.referenceMarginalContribution),
   ("current_marginal_contribution", within (-1) 1 e.currentMarginalContribution),
   ("marginal_delta", within (-2) 2 e.marginalDelta),
   ("accuracy windows must both be available or absent",
     e.referenceAccuracy.isNone == e.currentAccuracy.isNone),
   ("accuracy_delta availability is inconsistent",
     e.referenceAccuracy.isNone == e.accuracyDelta.isNone),
   ("NONE drift cannot contain alert reasons", e.severity != .none || e.reasons.isEmpty),
   ("drift warning requires at least one reason", e.severity == .none || !e.reasons.isEmpty)]

/-- rolling degradation evidence of one agent version; its id digests all but `created_at` -/
structure DriftObservation where
  evidence : DriftEvidence
  createdAt : Time
  accepted : ∀ f ∈ driftObservationFields evidence, f.2 = true
  deriving DecidableEq

def DriftObservation.build (e : DriftEvidence) (createdAt : Time) : Except Error DriftObservation :=
  if h : ∀ f ∈ driftObservationFields e, f.2 = true then .ok ⟨e, createdAt, h⟩
  else
    .error ⟨.schema, ", ".intercalate
      (((driftObservationFields e).filter fun f => !f.2).map Prod.fst)⟩

end CapitalCipher
