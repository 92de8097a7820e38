/-
`DecisionEngine.consolidate` of `orchestrator/decision_engine.py`: the outputs of the agents become one
candidate decision.

Weights and scores are exact rationals. The fresh id of a decision is an argument and its creation
time is left out.

  • `directional_supported`: what a BUY or SELL says about the critical agents; from a minimum
    confidence of 58 on it says that both of them want it.
  • `degradation_never_promotes`: worse data, worse context, more warnings or a stricter minimum never
    make a trade out of a decision that was none, turn it round or raise its confidence.
  • `shadow_agents_are_silent`: outputs of other agents change nothing but the summary.
  • `consolidate_mirrored`: exchanging BUY and SELL in the outputs exchanges them in the decision.
-/
import CapitalCipher.Lib.SortedLog
import CapitalCipher.Orchestrator.Construction
import CapitalCipher.Schemas.Agents

namespace CapitalCipher

open Lib

def AgentStatus.value : AgentStatus → String
  | .completed => "COMPLETED"
  | .failed => "FAILED"
  | .timeout => "TIMEOUT"
  | .skipped => "SKIPPED"
  | .blocked => "BLOCKED"

def Signal.value : Signal → String
  | .buy => "BUY"
  | .sell => "SELL"
  | .hold => "HOLD"
  | .wait => "WAIT"
  | .block => "BLOCK"
  | .neutral => "NEUTRAL"

/-- one entry of `agent_summary` -/
structure AgentSummary where
  name : String
  status : AgentStatus
  signal : Signal
  confidence : ℕ
  reason : String
  deriving DecidableEq, Repr

def AgentOutput.summary (o : AgentOutput) : AgentSummary :=
  ⟨o.agentName, o.status, o.signal, o.confidence, o.reason⟩

/-- a decision with what the engine says about it -/
structure CandidateDecision extends ScoredDecision where
  reason : String
  agentSummary : List AgentSummary
  warnings : List String
  riskStatus : RiskStatus := .pending

/-- the arguments of `consolidate` -/
structure Consolidation where
  decisionId : String
  correlationId : String
  symbol : String
  timeframe : String
  agentOutputs : List AgentOutput
  dataQualityScore : ℤ := 100
  operationalContextScore : ℤ := 100
  strategy : Option String := none
  minimumConfidence : Option ℤ := none

/-- `CRITICAL_AGENTS`, sorted -/
def criticalAgents : List String := ["MarketDataAgent", "QuantAgent", "TrendAgent"]

def AgentOutput.critical (o : AgentOutput) : Bool := decide (o.agentName ∈ criticalAgents)

/-- `outputs_by_name.get(name)`: the last one of that name -/
def outputOf (outputs : List AgentOutput) (name : String) : Option AgentOutput :=
  outputs.reverse.find? fun o => o.agentName == name

def missingCritical (outputs : List AgentOutput) : List String :=
  criticalAgents.filter fun name => !(outputOf outputs name).any fun o => o.status == .completed

/-- the warnings of the critical agents -/
def agentWarnings (outputs : List AgentOutput) : List String :=
  (outputs.filter AgentOutput.critical).flatMap fun o =>
    (if o.status = .timeout then ["AGENT_TIMEOUT"] else []) ++ o.warnings

/-- why the outputs cannot be weighed at all -/
def refusal (outputs : List AgentOutput) : Option String :=
  if missingCritical outputs ≠ [] then
    some ("Critical agents unavailable: " ++ ", ".intercalate (missingCritical outputs))
  else
    (outputs.find? fun o => o.status == .completed && o.critical && o.signal == .block).map
      fun o => o.agentName ++ " blocked: " ++ o.reason

/-- `DIRECTIONAL` -/
def Signal.direction : Signal → Option ℚ
  | .buy => some 1
  | .sell => some (-1)
  | _ => none

/-- opposite directions, each with a confidence of at least 70 -/
def strongConflict (quant trend : Option AgentOutput) : Bool :=
  match quant, trend with
  | some q, some t =>
    decide (q.signal.direction ≠ none ∧ t.signal.direction ≠ none ∧
      q.signal.direction ≠ t.signal.direction ∧ 70 ≤ q.confidence ∧ 70 ≤ t.confidence)
  | _, _ => false

def contribution (output : Option AgentOutput) (weight : ℚ) : ℚ :=
  match output with
  | some o => (o.signal.direction.map fun d => d * (o.confidence / 100) * weight).getD 0
  | none => 0

def weightedDirection (quant trend : Option AgentOutput) : ℚ :=
  contribution quant (2 / 5) + contribution trend (3 / 10)

def directionalStrength (direction : ℚ) : ℚ := |direction| / (2 / 5 + 3 / 10)

/-- the confidence in a direction, less 5 for each distinct warning -/
def decisionConfidence (direction : ℚ) (quality context : ℤ) (warnings : List String) : ℤ :=
  max 0 (min 100 (Decimal.nearest (directionalStrength direction * 100 *
    (7 / 10 + quality / 100 * (1 / 5) + context / 100 * (1 / 10))) - 5 * warnings.dedup.length))

theorem decisionConfidence_bounds (direction : ℚ) (quality context : ℤ) (warnings : List String) :
    0 ≤ decisionConfidence direction quality context warnings ∧
      decisionConfidence direction quality context warnings ≤ 100 := by
  unfold decisionConfidence
  omega

def actionOf (direction : ℚ) : CandidateAction :=
  if 3 / 20 < direction then .buy else if direction < -(3 / 20) then .sell else .hold

namespace Consolidation

def quant (c : Consolidation) : Option AgentOutput := outputOf c.agentOutputs "QuantAgent"

def trend (c : Consolidation) : Option AgentOutput := outputOf c.agentOutputs "TrendAgent"

/-- the warnings at the data quality gate -/
def graded (c : Consolidation) : List String :=
  if c.dataQualityScore < 80 then agentWarnings c.agentOutputs ++ ["DATA_QUALITY_ISSUE"]
  else agentWarnings c.agentOutputs

def confidence (c : Consolidation) : ℤ :=
  decisionConfidence (weightedDirection c.quant c.trend) c.dataQualityScore
    c.operationalContextScore c.graded

end Consolidation

structure DecisionEngine where
  minimumConfidence : ℤ := 70
  strategy : String := "SCALP_15M"

namespace DecisionEngine

/-- `strategy or self.strategy` -/
def strategyName (e : DecisionEngine) (c : Consolidation) : String :=
  match c.strategy with
  | some name => if name = "" then e.strategy else name
  | none => e.strategy

def minimum (e : DecisionEngine) (c : Consolidation) : ℤ :=
  c.minimumConfidence.getD e.minimumConfidence

def answer (e : DecisionEngine) (c : Consolidation) (action : CandidateAction) (confidence : ℤ)
    (reason : String) (warnings : List String) : CandidateDecision where
  decisionId := c.decisionId
  correlationId := c.correlationId
  symbol := c.symbol
  timeframe := c.timeframe
  candidateAction := action
  strategy := e.strategyName c
  confidence := (min 100 confidence).toNat
  confidence_le := by omega
  reason := reason
  agentSummary := c.agentOutputs.map AgentOutput.summary
  warnings := warnings

def opinion (o : AgentOutput) : String := o.signal.value ++ " (" ++ toString o.confidence ++ ")"

def conflictReason (quant trend : Option AgentOutput) : String :=
  match quant, trend with
  | some q, some t => "Strong conflict: QuantAgent " ++ opinion q ++ " vs TrendAgent " ++ opinion t
  | _, _ => ""

def joinedReasons (quant trend : Option AgentOutput) : String :=
  let reasons := (quant.map fun q => "Quant: " ++ q.reason).toList ++
    (trend.map fun t => "Trend: " ++ t.reason).toList
  if " | ".intercalate reasons = "" then "Consolidated decision" else " | ".intercalate reasons

/-- steps 5 to 8: the direction, its confidence and the minimum it has to reach -/
def weigh (e : DecisionEngine) (c : Consolidation) : CandidateDecision :=
  if strongConflict c.quant c.trend = true then
    e.answer c .wait 0 (conflictReason c.quant c.trend) (c.graded ++ ["CONFLICTING_SIGNALS"])
  else if actionOf (weightedDirection c.quant c.trend) = .hold then
    e.answer c .hold (min c.confidence 50) (joinedReasons c.quant c.trend)
      (sortedBy String.toList c.graded.dedup)
  else if c.confidence < e.minimum c then
    e.answer c .wait c.confidence
      ("Confidence " ++ toString c.confidence ++ " below minimum " ++ toString (e.minimum c) ++
        " for " ++ (actionOf (weightedDirection c.quant c.trend)).value)
      (c.graded ++ ["LOW_CONFIDENCE"])
  else
    e.answer c (actionOf (weightedDirection c.quant c.trend)) c.confidence
      (joinedReasons c.quant c.trend) (sortedBy String.toList c.graded.dedup)

/-- the decision before its contract is checked -/
def consolidated (e : DecisionEngine) (c : Consolidation) : CandidateDecision :=
  match refusal c.agentOutputs with
  | some reason => e.answer c .block 0 reason (agentWarnings c.agentOutputs)
  | none =>
    if c.dataQualityScore < 60 then
      e.answer c .block 0
        ("Data quality score " ++ toString c.dataQualityScore ++ " below minimum")
        (agentWarnings c.agentOutputs ++ ["DATA_QUALITY_ISSUE"])
    else e.weigh c

/-- `consolidate` -/
def consolidate (e : DecisionEngine) (c : Consolidation) : Except Error CandidateDecision :=
  validateModel [("symbol", decide (1 ≤ c.symbol.length))] [] (e.consolidated c)

end DecisionEngine

/-! ## When a decision is a trade -/

/-- what a consolidation has to pass to become a trade -/
structure Tradable (e : DecisionEngine) (c : Consolidation) (action : CandidateAction) : Prop where
  accepted : refusal c.agentOutputs = none
  quality : 60 ≤ c.dataQualityScore
  agreed : strongConflict c.quant c.trend = false
  direction : actionOf (weightedDirection c.quant c.trend) = action
  confident : e.minimum c ≤ c.confidence

namespace DecisionEngine

variable {e : DecisionEngine} {c : Consolidation} {action : CandidateAction}

theorem answer_confidence {confidence : ℤ} {reason : String} {warnings : List String}
    (h : 0 ≤ confidence ∧ confidence ≤ 100) :
    ((e.answer c action confidence reason warnings).confidence : ℤ) = confidence := by
  simp only [answer]
  omega

/-- a trade passed every gate, with the confidence it was given -/
theorem tradable_of_directional (h : (e.consolidated c).candidateAction.directional = true) :
    Tradable e c (e.consolidated c).candidateAction ∧
      ((e.consolidated c).confidence : ℤ) = c.confidence := by
  unfold consolidated weigh at h ⊢
  cases hrefusal : refusal c.agentOutputs with
  | some reason =>
    rw [hrefusal] at h
    cases h
  | none =>
    rw [hrefusal] at h
    dsimp only at h ⊢
    by_cases hquality : c.dataQualityScore < 60
    · rw [if_pos hquality] at h
      cases h
    · rw [if_neg hquality] at h ⊢
      by_cases hconflict : strongConflict c.quant c.trend = true
      · rw [if_pos hconflict] at h
        cases h
      · rw [if_neg hconflict] at h ⊢
        by_cases hhold : actionOf (weightedDirection c.quant c.trend) = .hold
        · rw [if_pos hhold] at h
          cases h
        · rw [if_neg hhold] at h ⊢
          by_cases hmin : c.confidence < e.minimum c
          · rw [if_pos hmin] at h
            cases h
          · rw [if_neg hmin]
            exact ⟨⟨hrefusal, not_lt.1 hquality, by simpa using hconflict, rfl, not_lt.1 hmin⟩,
              answer_confidence (decisionConfidence_bounds _ _ _ _)⟩

/-- and what passes every gate is a trade -/
theorem consolidated_of_tradable (hdir : action.directional = true) (h : Tradable e c action) :
    (e.consolidated c).candidateAction = action := by
  have hhold : actionOf (weightedDirection c.quant c.trend) ≠ .hold := by
    rw [h.direction]
    rintro rfl
    cases hdir
  have hconflict : ¬ strongConflict c.quant c.trend = true := by simp [h.agreed]
  unfold consolidated weigh
  rw [h.accepted]
  dsimp only
  rw [if_neg (not_lt.2 h.quality), if_neg hconflict, if_neg hhold, if_neg (not_lt.2 h.confident)]
  exact h.direction

end DecisionEngine

/-! ## What the critical agents say about a trade -/

/-- the sign of a trade -/
def CandidateAction.direction : CandidateAction → Option ℚ
  | .buy => some 1
  | .sell => some (-1)
  | _ => none

/-- the signed confidence of an output -/
def AgentOutput.pull (o : AgentOutput) : ℚ := o.signal.direction.getD 0 * o.confidence

namespace AgentOutput

variable {o : AgentOutput} {d : ℚ}

theorem confidence_le (o : AgentOutput) : o.confidence ≤ 100 := by
  have := o.accepted ("confidence", decide (o.confidence ≤ 100)) (by simp [agentOutputFields])
  simpa using this

theorem direction_cases (s : Signal) :
    s.direction = none ∨ s.direction = some 1 ∨ s.direction = some (-1) := by
  cases s <;> simp [Signal.direction]

theorem pull_of_direction (h : o.signal.direction = some d) : o.pull = d * o.confidence := by
  rw [pull, h, Option.getD_some]

theorem pull_opposed (hd : d = 1 ∨ d = -1) (h : o.signal.direction = some (-d)) :
    d * o.pull = -o.confidence := by
  rw [pull_of_direction h]
  rcases hd with rfl | rfl <;> ring

theorem pull_le (o : AgentOutput) (hd : d = 1 ∨ d = -1) : d * o.pull ≤ o.confidence := by
  have h0 : (0 : ℚ) ≤ o.confidence := by positivity
  rcases direction_cases o.signal with h | h | h
  · rw [pull, h, Option.getD_none]
    linarith
  · rw [pull_of_direction h]
    rcases hd with rfl | rfl <;> linarith
  · rw [pull_of_direction h]
    rcases hd with rfl | rfl <;> linarith

/-- whoever pulls towards a trade wants it -/
theorem wants_of_pull (hd : d = 1 ∨ d = -1) (hpull : 0 < d * o.pull) :
    o.signal.direction = some d := by
  have h0 : (0 : ℚ) ≤ o.confidence := by positivity
  rcases direction_cases o.signal with h | h | h
  · rw [pull, h, Option.getD_none] at hpull
    linarith
  · rw [pull_of_direction h] at hpull
    rcases hd with rfl | rfl
    · exact h
    · linarith
  · rw [pull_of_direction h] at hpull
    rcases hd with rfl | rfl
    · linarith
    · exact h

end AgentOutput

theorem contribution_some (o : AgentOutput) (weight : ℚ) :
    contribution (some o) weight = o.pull / 100 * weight := by
  cases h : o.signal.direction with
  | none => simp [contribution, AgentOutput.pull, h]
  | some d =>
    simp only [contribution, AgentOutput.pull, h, Option.map_some, Option.getD_some]
    ring

theorem weightedDirection_some (q t : AgentOutput) :
    weightedDirection (some q) (some t) = (4 * q.pull + 3 * t.pull) / 1000 := by
  rw [weightedDirection, contribution_some, contribution_some]
  ring

/-- a trade has a direction of more than 0.15 its way -/
theorem direction_of_actionOf {wd d : ℚ} {action : CandidateAction} (h : actionOf wd = action)
    (hd : action.direction = some d) : (d = 1 ∨ d = -1) ∧ 3 / 20 < d * wd := by
  unfold actionOf at h
  split_ifs at h with h1 h2
  · rw [← h] at hd
    cases hd
    exact ⟨.inl rfl, by linarith⟩
  · rw [← h] at hd
    cases hd
    exact ⟨.inr rfl, by linarith⟩
  · rw [← h] at hd
    cases hd

theorem strongConflict_some {q t : AgentOutput} {d : ℚ} (hd : d ≠ 0)
    (hq : q.signal.direction = some d) (ht : t.signal.direction = some (-d))
    (hagreed : strongConflict (some q) (some t) = false) : q.confidence < 70 ∨ t.confidence < 70 := by
  have hne : d ≠ -d := fun h => hd (by linarith)
  by_contra hboth
  push Not at hboth
  simp [strongConflict, hq, ht, hne, hboth.1, hboth.2] at hagreed

theorem mem_of_outputOf {outputs : List AgentOutput} {name : String} {o : AgentOutput}
    (h : outputOf outputs name = some o) : o ∈ outputs ∧ o.agentName = name :=
  ⟨List.mem_reverse.1 (List.mem_of_find?_eq_some h), by simpa using List.find?_some h⟩

/-- what outputs that can be weighed are like -/
theorem refusal_eq_none {outputs : List AgentOutput} (h : refusal outputs = none) :
    (∀ name ∈ criticalAgents, ∃ o, outputOf outputs name = some o ∧ o.status = .completed) ∧
      ∀ o ∈ outputs, o.status = .completed → o.critical = true → o.signal ≠ .block := by
  unfold refusal at h
  split_ifs at h with hmissing
  push Not at hmissing
  rw [Option.map_eq_none_iff, List.find?_eq_none] at h
  constructor
  · intro name hname
    have := (List.filter_eq_nil_iff.1 hmissing) name hname
    simpa [Option.any_eq_true] using this
  · intro o ho hstatus hcritical hblock
    exact h o ho (by simp [hstatus, hcritical, hblock])

/-- the confidence in a trade bounds its direction from below -/
theorem confidence_bound {wd : ℚ} {quality context : ℤ} {warnings : List String}
    (hquality : quality ≤ 100) (hcontext : context ≤ 100)
    (h : 58 ≤ decisionConfidence wd quality context warnings) : 4025 / 10000 ≤ |wd| := by
  have hbase : (58 : ℤ) ≤ Decimal.nearest (directionalStrength wd * 100 *
      (7 / 10 + quality / 100 * (1 / 5) + context / 100 * (1 / 10))) := by
    unfold decisionConfidence at h
    omega
  have hround := (abs_le.1 (Decimal.abs_nearest_sub_le (directionalStrength wd * 100 *
    (7 / 10 + quality / 100 * (1 / 5) + context / 100 * (1 / 10))))).2
  have hbase' : (58 : ℚ) ≤ Decimal.nearest (directionalStrength wd * 100 *
      (7 / 10 + quality / 100 * (1 / 5) + context / 100 * (1 / 10))) := by exact_mod_cast hbase
  have hscale : (7 / 10 + (quality : ℚ) / 100 * (1 / 5) + context / 100 * (1 / 10)) ≤ 1 := by
    have h1 : (quality : ℚ) ≤ 100 := by exact_mod_cast hquality
    have h2 : (context : ℚ) ≤ 100 := by exact_mod_cast hcontext
    linarith
  have hstrength : 0 ≤ directionalStrength wd * 100 := by
    unfold directionalStrength
    positivity
  have hle := mul_le_mul_of_nonneg_left hscale hstrength
  have hdef : directionalStrength wd * 100 = |wd| * (1000 / 7) := by
    unfold directionalStrength
    ring
  rw [hdef] at hle hround hbase'
  linarith

/-- **A trade has its support.** A decision to trade means that all critical agents completed and none
of them blocks, that the data scored at least 60 and that the minimum confidence is reached; that
Quant or Trend wants it, that Quant opposes it with at most 37 and Trend with at most 69; and that
both want it once the minimum confidence is at least 58. -/
theorem directional_supported {e : DecisionEngine} {c : Consolidation} {decision : CandidateDecision}
    {d : ℚ} (h : e.consolidate c = .ok decision)
    (hd : decision.candidateAction.direction = some d) :
    ∃ q t, c.quant = some q ∧ c.trend = some t ∧
      (∀ name ∈ criticalAgents, ∃ o, outputOf c.agentOutputs name = some o ∧
        o.status = .completed) ∧
      (∀ o ∈ c.agentOutputs, o.status = .completed → o.critical = true → o.signal ≠ .block) ∧
      60 ≤ c.dataQualityScore ∧ e.minimum c ≤ decision.confidence ∧
      (q.signal.direction = some d ∨ t.signal.direction = some d) ∧
      (q.signal.direction = some (-d) → q.confidence ≤ 37) ∧
      (t.signal.direction = some (-d) → t.confidence ≤ 69) ∧
      (58 ≤ e.minimum c → c.dataQualityScore ≤ 100 → c.operationalContextScore ≤ 100 →
        q.signal.direction = some d ∧ t.signal.direction = some d) := by
  have hdecision : e.consolidated c = decision := ((validateModel_ok.1 h).2.2).symm
  have hdir : (e.consolidated c).candidateAction.directional = true := by
    rw [hdecision]
    cases hact : decision.candidateAction <;> rw [hact] at hd <;> first | rfl | cases hd
  obtain ⟨htradable, hconfidence⟩ := DecisionEngine.tradable_of_directional hdir
  rw [hdecision] at htradable hconfidence
  obtain ⟨hall, hblock⟩ := refusal_eq_none htradable.accepted
  obtain ⟨q, hq, -⟩ := hall "QuantAgent" (by simp [criticalAgents])
  obtain ⟨t, ht, -⟩ := hall "TrendAgent" (by simp [criticalAgents])
  have hwd : weightedDirection c.quant c.trend = (4 * q.pull + 3 * t.pull) / 1000 := by
    rw [show c.quant = some q from hq, show c.trend = some t from ht, weightedDirection_some]
  obtain ⟨hsign, hpull⟩ := direction_of_actionOf htradable.direction hd
  have hagreed : strongConflict (some q) (some t) = false := by
    rw [← hq, ← ht]
    exact htradable.agreed
  have hd0 : d ≠ 0 := by rcases hsign with rfl | rfl <;> norm_num
  -- the pulls of both agents on the trade, in hundredths
  have hsum : 150 < 4 * (d * q.pull) + 3 * (d * t.pull) := by
    rw [hwd] at hpull
    linarith
  have hqc : (q.confidence : ℚ) ≤ 100 := by exact_mod_cast q.confidence_le
  have htc : (t.confidence : ℚ) ≤ 100 := by exact_mod_cast t.confidence_le
  have hqle := q.pull_le hsign
  have htle := t.pull_le hsign
  refine ⟨q, t, hq, ht, hall, hblock, htradable.quality, ?_, ?_, ?_, ?_, ?_⟩
  · rw [hconfidence]
    exact htradable.confident
  · by_cases hqp : 0 < d * q.pull
    · exact .inl (AgentOutput.wants_of_pull hsign hqp)
    · exact .inr (AgentOutput.wants_of_pull hsign (by linarith))
  · intro hopp
    have hqp := AgentOutput.pull_opposed hsign hopp
    have hlt : (q.confidence : ℚ) < 38 := by linarith
    have : q.confidence < 38 := by exact_mod_cast hlt
    omega
  · intro hopp
    have htp := AgentOutput.pull_opposed hsign hopp
    have ht0 : (0 : ℚ) ≤ t.confidence := by positivity
    have hqd := AgentOutput.wants_of_pull (o := q) hsign (by linarith)
    -- from 70 on both would be confident enough for a conflict
    rcases strongConflict_some hd0 hqd hopp hagreed with h | h
    · have hlt : (q.confidence : ℚ) < 70 := by exact_mod_cast h
      have hlt' : (t.confidence : ℚ) < 70 := by linarith
      have : t.confidence < 70 := by exact_mod_cast hlt'
      omega
    · omega
  · intro hmin hquality hcontext
    have hbound := confidence_bound hquality hcontext (hmin.trans htradable.confident)
    have habs : |weightedDirection c.quant c.trend| = d * weightedDirection c.quant c.trend := by
      rcases hsign with rfl | rfl
      · rw [one_mul, abs_of_pos (by linarith)]
      · rw [neg_one_mul, abs_of_neg (by linarith)]
    rw [habs, hwd] at hbound
    -- no single agent pulls that much
    have hstrong : 402 < 4 * (d * q.pull) + 3 * (d * t.pull) := by linarith
    exact ⟨AgentOutput.wants_of_pull hsign (by linarith),
      AgentOutput.wants_of_pull hsign (by linarith)⟩

/-- Quant and Trend of one mind -/
def agreement (signal : Signal) (warnings : List String) : Consolidation where
  decisionId := "d"
  correlationId := "c"
  symbol := "BTCUSDT"
  timeframe := "15m"
  agentOutputs :=
    [⟨"MarketDataAgent", .completed, .neutral, 90, "r", [], [], 0, 0, by decide +kernel⟩,
     ⟨"QuantAgent", .completed, signal, 90, "r", [], warnings, 0, 0, by decide +kernel⟩,
     ⟨"TrendAgent", .completed, signal, 90, "r", [], [], 0, 0, by decide +kernel⟩]

theorem agreement_supported : ∃ q t, (agreement .buy []).quant = some q ∧
    (agreement .buy []).trend = some t ∧ q.signal.direction = some 1 ∧
    t.signal.direction = some 1 := by
  have haction : (DecisionEngine.consolidated {} (agreement .buy [])).candidateAction = .buy := by
    decide +kernel
  have hsymbol : 1 ≤ (agreement .buy []).symbol.length := by decide +kernel
  obtain ⟨q, t, hq, ht, -, -, -, -, -, -, -, hboth⟩ := directional_supported
    (e := {}) (c := agreement .buy []) (d := 1)
    (validateModel_ok.2 ⟨by simp [hsymbol], by simp, rfl⟩) (by rw [haction]; rfl)
  exact ⟨q, t, hq, ht, hboth (by decide) (by decide) (by decide)⟩

/-! ## Degradation -/

/-- outputs of the same agent with the same outcome -/
structure AgentOutput.Alike (o o' : AgentOutput) : Prop where
  agentName : o'.agentName = o.agentName
  status : o'.status = o.status

/-- the same output with at least its warnings -/
structure AgentOutput.Warned (o o' : AgentOutput) : Prop extends o.Alike o' where
  signal : o'.signal = o.signal
  confidence : o'.confidence = o.confidence
  warnings : ∀ w ∈ o.warnings, w ∈ o'.warnings

/-- a consolidation under no better circumstances -/
structure Degraded (e : DecisionEngine) (c c' : Consolidation) : Prop where
  outputs : List.Forall₂ AgentOutput.Warned c.agentOutputs c'.agentOutputs
  quality : c'.dataQualityScore ≤ c.dataQualityScore
  context : c'.operationalContextScore ≤ c.operationalContextScore
  minimum : e.minimum c ≤ e.minimum c'

section

variable {outputs outputs' : List AgentOutput} {R : AgentOutput → AgentOutput → Prop}

theorem find?_rel {p : AgentOutput → Bool} (hp : ∀ o o', R o o' → p o' = p o)
    (h : List.Forall₂ R outputs outputs') : Option.Rel R (outputs.find? p) (outputs'.find? p) := by
  induction h with
  | nil => exact .none
  | cons hhead _ ih =>
    rw [List.find?_cons, List.find?_cons, hp _ _ hhead]
    split
    · exact .some hhead
    · exact ih

theorem outputOf_rel (hR : ∀ o o', R o o' → o.Alike o') (h : List.Forall₂ R outputs outputs')
    (name : String) : Option.Rel R (outputOf outputs name) (outputOf outputs' name) :=
  find?_rel (fun o o' ho => by rw [(hR o o' ho).agentName]) (List.forall₂_reverse_iff.2 h)

theorem missingCritical_rel (hR : ∀ o o', R o o' → o.Alike o')
    (h : List.Forall₂ R outputs outputs') : missingCritical outputs' = missingCritical outputs := by
  unfold missingCritical
  refine List.filter_congr fun name _ => ?_
  have hrel := outputOf_rel hR h name
  generalize outputOf outputs name = o, outputOf outputs' name = o' at hrel
  cases hrel with
  | none => rfl
  | some ho => simp [(hR _ _ ho).status]

/-- what decides about a refusal is the same agents, their outcomes and their blocks -/
theorem refusal_rel (hR : ∀ o o', R o o' → o.Alike o')
    (hblock : ∀ o o', R o o' → (o'.signal = .block ↔ o.signal = .block))
    (h : List.Forall₂ R outputs outputs') : (refusal outputs').isSome = (refusal outputs).isSome := by
  unfold refusal
  rw [missingCritical_rel hR h]
  by_cases hmissing : missingCritical outputs ≠ []
  · rw [if_pos hmissing, if_pos hmissing]
  · rw [if_neg hmissing, if_neg hmissing, Option.isSome_map, Option.isSome_map]
    have hblocks : ∀ o o', R o o' →
        (o'.status == .completed && o'.critical && o'.signal == .block) =
          (o.status == .completed && o.critical && o.signal == .block) := by
      intro o o' ho
      rw [Bool.eq_iff_iff]
      simp [AgentOutput.critical, (hR o o' ho).agentName, (hR o o' ho).status, hblock o o' ho]
    have hrel := find?_rel hblocks h
    generalize outputs.find? _ = o, outputs'.find? _ = o' at hrel ⊢
    cases hrel <;> rfl

theorem agentWarnings_warned (h : List.Forall₂ AgentOutput.Warned outputs outputs') :
    ∀ w ∈ agentWarnings outputs, w ∈ agentWarnings outputs' := by
  unfold agentWarnings
  induction h with
  | nil => exact fun w hw => hw
  | @cons o o' l l' hhead _ ih =>
    intro w hw
    have hcritical : o'.critical = o.critical := by simp [AgentOutput.critical, hhead.agentName]
    by_cases ho : o.critical = true
    · rw [List.filter_cons_of_pos ho, List.flatMap_cons, List.mem_append] at hw
      rw [List.filter_cons_of_pos (hcritical.trans ho), List.flatMap_cons, List.mem_append]
      refine hw.imp (fun hw => ?_) (ih w)
      rw [hhead.status]
      exact List.mem_append.2 ((List.mem_append.1 hw).imp_right (hhead.warnings w))
    · rw [List.filter_cons_of_neg ho] at hw
      by_cases ho' : o'.critical = true
      · exact absurd (hcritical.symm.trans ho') ho
      · rw [List.filter_cons_of_neg ho']
        exact ih w hw

end

theorem strongConflict_warned {q q' t t' : Option AgentOutput}
    (hq : Option.Rel AgentOutput.Warned q q') (ht : Option.Rel AgentOutput.Warned t t') :
    strongConflict q' t' = strongConflict q t := by
  cases hq with
  | none => rfl
  | some hq =>
    cases ht with
    | none => rfl
    | some ht => simp [strongConflict, hq.signal, hq.confidence, ht.signal, ht.confidence]

theorem contribution_warned {o o' : Option AgentOutput} (h : Option.Rel AgentOutput.Warned o o')
    (weight : ℚ) : contribution o' weight = contribution o weight := by
  cases h with
  | none => rfl
  | some h => simp [contribution, h.signal, h.confidence]

theorem decisionConfidence_mono {wd : ℚ} {quality quality' context context' : ℤ}
    {warnings warnings' : List String} (hquality : quality' ≤ quality)
    (hcontext : context' ≤ context) (hwarnings : ∀ w ∈ warnings, w ∈ warnings') :
    decisionConfidence wd quality' context' warnings' ≤
      decisionConfidence wd quality context warnings := by
  have hcount : warnings.dedup.length ≤ warnings'.dedup.length := by
    rw [← List.card_toFinset, ← List.card_toFinset]
    exact Finset.card_le_card fun w hw =>
      List.mem_toFinset.2 (hwarnings w (List.mem_toFinset.1 hw))
  have hstrength : 0 ≤ directionalStrength wd * 100 := by
    unfold directionalStrength
    positivity
  have hbase := Decimal.nearest_mono (mul_le_mul_of_nonneg_left
    (show (7 / 10 + (quality' : ℚ) / 100 * (1 / 5) + context' / 100 * (1 / 10)) ≤
      7 / 10 + (quality : ℚ) / 100 * (1 / 5) + context / 100 * (1 / 10) by
      have h1 : (quality' : ℚ) ≤ quality := by exact_mod_cast hquality
      have h2 : (context' : ℚ) ≤ context := by exact_mod_cast hcontext
      linarith) hstrength)
  unfold decisionConfidence
  omega

/-- **Degradation never promotes.** If a consolidation ends in a trade, so does every consolidation of
the same signals under no worse circumstances, in the same direction and with no less confidence. -/
theorem degradation_never_promotes {e : DecisionEngine} {c c' : Consolidation}
    (h : Degraded e c c') (hdir : (e.consolidated c').candidateAction.directional = true) :
    (e.consolidated c).candidateAction = (e.consolidated c').candidateAction ∧
      (e.consolidated c').confidence ≤ (e.consolidated c).confidence := by
  obtain ⟨htradable, hconfidence'⟩ := DecisionEngine.tradable_of_directional hdir
  have halike : ∀ o o' : AgentOutput, o.Warned o' → o.Alike o' := fun _ _ h => h.toAlike
  have hrefusal := refusal_rel halike (fun o o' ho => by rw [ho.signal]) h.outputs
  have hquant := outputOf_rel halike h.outputs "QuantAgent"
  have htrend := outputOf_rel halike h.outputs "TrendAgent"
  have hwd : weightedDirection c'.quant c'.trend = weightedDirection c.quant c.trend := by
    rw [weightedDirection, weightedDirection, Consolidation.quant, Consolidation.trend,
      contribution_warned hquant, contribution_warned htrend]
    rfl
  have hgraded : ∀ w ∈ c.graded, w ∈ c'.graded := by
    intro w hw
    have hmem := agentWarnings_warned h.outputs
    have hquality := h.quality
    unfold Consolidation.graded at hw ⊢
    by_cases hlow : c.dataQualityScore < 80
    · rw [if_pos hlow] at hw
      rw [if_pos (by omega)]
      exact List.mem_append.2 ((List.mem_append.1 hw).imp_left (hmem w))
    · rw [if_neg hlow] at hw
      split_ifs
      · exact List.mem_append_left _ (hmem w hw)
      · exact hmem w hw
  have hle : c'.confidence ≤ c.confidence := by
    unfold Consolidation.confidence
    rw [hwd]
    exact decisionConfidence_mono h.quality h.context hgraded
  have hbetter : Tradable e c (e.consolidated c').candidateAction :=
    { accepted := by simpa [htradable.accepted] using hrefusal.symm
      quality := htradable.quality.trans h.quality
      agreed := (strongConflict_warned hquant htrend).symm.trans htradable.agreed
      direction := by
        rw [← hwd]
        exact htradable.direction
      confident := h.minimum.trans (htradable.confident.trans hle) }
  have haction := DecisionEngine.consolidated_of_tradable hdir hbetter
  refine ⟨haction, ?_⟩
  obtain ⟨-, hconfidence⟩ := DecisionEngine.tradable_of_directional (e := e) (c := c)
    (by rw [haction]; exact hdir)
  have : ((e.consolidated c').confidence : ℤ) ≤ (e.consolidated c).confidence := by
    rw [hconfidence, hconfidence']
    exact hle
  exact_mod_cast this

theorem warning_never_promotes :
    (DecisionEngine.consolidated {} (agreement .buy ["late"])).confidence ≤
      (DecisionEngine.consolidated {} (agreement .buy [])).confidence := by
  have houtputs : List.Forall₂ AgentOutput.Warned (agreement .buy []).agentOutputs
      (agreement .buy ["late"]).agentOutputs :=
    .cons ⟨⟨rfl, rfl⟩, rfl, rfl, fun _ h => h⟩ (.cons ⟨⟨rfl, rfl⟩, rfl, rfl, fun _ h => by cases h⟩
      (.cons ⟨⟨rfl, rfl⟩, rfl, rfl, fun _ h => h⟩ .nil))
  exact (degradation_never_promotes ⟨houtputs, by decide, by decide, by decide⟩
    (by decide +kernel)).2

/-! ## The other side -/

/-- BUY and SELL exchanged -/
def Signal.mirrored : Signal → Signal
  | .buy => .sell
  | .sell => .buy
  | s => s

def CandidateAction.mirrored : CandidateAction → CandidateAction
  | .buy => .sell
  | .sell => .buy
  | a => a

/-- the same output for the other side, whatever its reason -/
structure AgentOutput.Mirrored (o o' : AgentOutput) : Prop extends o.Alike o' where
  signal : o'.signal = o.signal.mirrored
  confidence : o'.confidence = o.confidence
  warnings : o'.warnings = o.warnings

/-- the same circumstances for the other side -/
structure Mirrored (c c' : Consolidation) : Prop where
  outputs : List.Forall₂ AgentOutput.Mirrored c.agentOutputs c'.agentOutputs
  quality : c'.dataQualityScore = c.dataQualityScore
  context : c'.operationalContextScore = c.operationalContextScore
  minimum : c'.minimumConfidence = c.minimumConfidence

theorem direction_mirrored (s : Signal) : s.mirrored.direction = s.direction.map Neg.neg := by
  cases s <;> simp [Signal.mirrored, Signal.direction]

theorem actionOf_neg (wd : ℚ) : actionOf (-wd) = (actionOf wd).mirrored := by
  unfold actionOf
  by_cases hbuy : 3 / 20 < wd
  · rw [if_pos hbuy, if_neg (by linarith), if_pos (by linarith)]
    rfl
  · by_cases hsell : wd < -(3 / 20)
    · rw [if_neg hbuy, if_pos hsell, if_pos (by linarith)]
      rfl
    · rw [if_neg hbuy, if_neg hsell, if_neg (by linarith), if_neg (by linarith)]
      rfl

theorem contribution_mirrored {o o' : Option AgentOutput}
    (h : Option.Rel AgentOutput.Mirrored o o') (weight : ℚ) :
    contribution o' weight = -contribution o weight := by
  cases h with
  | none => simp [contribution]
  | @some o o' h =>
    simp only [contribution, h.signal, h.confidence, direction_mirrored]
    cases o.signal.direction with
    | none => simp
    | some d =>
      simp only [Option.map_some, Option.getD_some]
      ring

theorem strongConflict_mirrored {q q' t t' : Option AgentOutput}
    (hq : Option.Rel AgentOutput.Mirrored q q') (ht : Option.Rel AgentOutput.Mirrored t t') :
    strongConflict q' t' = strongConflict q t := by
  cases hq with
  | none => rfl
  | @some q q' hq =>
    cases ht with
    | none => rfl
    | @some t t' ht =>
      have hsame : ∀ a b : Option ℚ, a.map Neg.neg = b.map Neg.neg ↔ a = b := fun a b =>
        (Option.map_injective neg_injective).eq_iff
      simp [strongConflict, hq.signal, hq.confidence, ht.signal, ht.confidence, direction_mirrored,
        hsame]

theorem agentWarnings_mirrored {outputs outputs' : List AgentOutput}
    (h : List.Forall₂ AgentOutput.Mirrored outputs outputs') :
    agentWarnings outputs' = agentWarnings outputs := by
  unfold agentWarnings
  induction h with
  | nil => rfl
  | @cons o o' l l' hhead _ ih =>
    have hcritical : o'.critical = o.critical := by simp [AgentOutput.critical, hhead.agentName]
    by_cases ho : o.critical = true
    · rw [List.filter_cons_of_pos ho, List.filter_cons_of_pos (hcritical.trans ho),
        List.flatMap_cons, List.flatMap_cons, ih, hhead.status, hhead.warnings]
    · rw [List.filter_cons_of_neg ho, List.filter_cons_of_neg (by rwa [hcritical]), ih]

/-- **Both sides alike.** Exchanging BUY and SELL in the outputs exchanges them in the decision and
leaves its confidence and its warnings as they are. -/
theorem consolidate_mirrored {e : DecisionEngine} {c c' : Consolidation} (h : Mirrored c c') :
    (e.consolidated c').candidateAction = (e.consolidated c).candidateAction.mirrored ∧
      (e.consolidated c').confidence = (e.consolidated c).confidence ∧
      (e.consolidated c').warnings = (e.consolidated c).warnings := by
  have halike : ∀ o o' : AgentOutput, o.Mirrored o' → o.Alike o' := fun _ _ h => h.toAlike
  have hblock : ∀ s : Signal, s.mirrored = .block ↔ s = .block := by
    intro s
    cases s <;> simp [Signal.mirrored]
  have hrefusal := refusal_rel halike (fun o o' ho => by rw [ho.signal, hblock]) h.outputs
  have hwarnings := agentWarnings_mirrored h.outputs
  have hquant := outputOf_rel halike h.outputs "QuantAgent"
  have htrend := outputOf_rel halike h.outputs "TrendAgent"
  have hwd : weightedDirection c'.quant c'.trend = -weightedDirection c.quant c.trend := by
    rw [weightedDirection, weightedDirection, Consolidation.quant, Consolidation.trend,
      contribution_mirrored hquant, contribution_mirrored htrend, Consolidation.quant,
      Consolidation.trend]
    ring
  have hconflict : strongConflict c'.quant c'.trend = strongConflict c.quant c.trend :=
    strongConflict_mirrored hquant htrend
  have hgraded : c'.graded = c.graded := by
    rw [Consolidation.graded, Consolidation.graded, h.quality, hwarnings]
  have hconfidence : c'.confidence = c.confidence := by
    simp only [Consolidation.confidence, decisionConfidence, directionalStrength, hwd, abs_neg,
      h.quality, h.context, hgraded]
  have hmin : e.minimum c' = e.minimum c := by
    rw [DecisionEngine.minimum, DecisionEngine.minimum, h.minimum]
  have hhold : ∀ a : CandidateAction, a.mirrored = .hold ↔ a = .hold := by
    intro a
    cases a <;> simp [CandidateAction.mirrored]
  have hweigh : (e.weigh c').candidateAction = (e.weigh c).candidateAction.mirrored ∧
      (e.weigh c').confidence = (e.weigh c).confidence ∧
      (e.weigh c').warnings = (e.weigh c).warnings := by
    simp only [DecisionEngine.weigh, hconflict, hwd, actionOf_neg, hhold, hconfidence, hmin, hgraded]
    split_ifs <;> exact ⟨rfl, rfl, rfl⟩
  unfold DecisionEngine.consolidated
  rw [hwarnings, h.quality]
  cases hc : refusal c.agentOutputs with
  | some reason =>
    obtain ⟨reason', hc'⟩ := Option.isSome_iff_exists.1 (hrefusal.trans (by rw [hc]; rfl))
    rw [hc']
    exact ⟨rfl, rfl, rfl⟩
  | none =>
    have hc' : refusal c'.agentOutputs = none := by simpa [hc] using hrefusal
    rw [hc']
    by_cases hquality : c.dataQualityScore < 60
    · simp only [if_pos hquality]
      exact ⟨rfl, rfl, rfl⟩
    · simp only [if_neg hquality]
      exact hweigh

theorem agreement_mirrored :
    (DecisionEngine.consolidated {} (agreement .sell [])).candidateAction =
      (DecisionEngine.consolidated {} (agreement .buy [])).candidateAction.mirrored := by
  have houtputs : List.Forall₂ AgentOutput.Mirrored (agreement .buy []).agentOutputs
      (agreement .sell []).agentOutputs :=
    .cons ⟨⟨rfl, rfl⟩, rfl, rfl, rfl⟩ (.cons ⟨⟨rfl, rfl⟩, rfl, rfl, rfl⟩
      (.cons ⟨⟨rfl, rfl⟩, rfl, rfl, rfl⟩ .nil))
  exact (consolidate_mirrored ⟨houtputs, rfl, rfl, rfl⟩).1

/-! ## Agents without authority -/

theorem outputOf_critical (outputs : List AgentOutput) {name : String} (hname : name ∈ criticalAgents) :
    outputOf (outputs.filter AgentOutput.critical) name = outputOf outputs name := by
  unfold outputOf
  rw [← List.filter_reverse, List.find?_filter]
  congr 1
  funext o
  by_cases ho : o.agentName = name
  · simp [AgentOutput.critical, ho, hname]
  · simp [ho]

theorem refusal_critical (outputs : List AgentOutput) :
    refusal (outputs.filter AgentOutput.critical) = refusal outputs := by
  have hmissing : missingCritical (outputs.filter AgentOutput.critical) =
      missingCritical outputs := by
    unfold missingCritical
    refine List.filter_congr fun name hname => ?_
    rw [outputOf_critical outputs hname]
  unfold refusal
  rw [hmissing, List.find?_filter]
  have hblocks : (fun o : AgentOutput => decide (o.critical = true ∧
      (o.status == .completed && o.critical && o.signal == .block) = true)) =
        fun o => o.status == .completed && o.critical && o.signal == .block := by
    funext o
    rw [Bool.eq_iff_iff]
    simp only [decide_eq_true_eq, Bool.and_eq_true]
    tauto
  rw [hblocks]

theorem agentWarnings_critical (outputs : List AgentOutput) :
    agentWarnings (outputs.filter AgentOutput.critical) = agentWarnings outputs := by
  unfold agentWarnings
  rw [List.filter_filter]
  simp

/-- **Agents without authority.** Two consolidations that differ in the outputs of other agents only
give the same decision but for the summary, which lists them all. -/
theorem shadow_agents_are_silent (e : DecisionEngine) (c : Consolidation)
    (outputs : List AgentOutput)
    (h : outputs.filter AgentOutput.critical = c.agentOutputs.filter AgentOutput.critical) :
    e.consolidated { c with agentOutputs := outputs } =
      { e.consolidated c with agentSummary := outputs.map AgentOutput.summary } := by
  have hrefusal : refusal outputs = refusal c.agentOutputs := by
    rw [← refusal_critical outputs, h, refusal_critical]
  have hwarnings : agentWarnings outputs = agentWarnings c.agentOutputs := by
    rw [← agentWarnings_critical outputs, h, agentWarnings_critical]
  have houtput : ∀ name ∈ criticalAgents, outputOf outputs name = outputOf c.agentOutputs name := by
    intro name hname
    rw [← outputOf_critical outputs hname, h, outputOf_critical c.agentOutputs hname]
  have hquant := houtput "QuantAgent" (by simp [criticalAgents])
  have htrend := houtput "TrendAgent" (by simp [criticalAgents])
  have hweigh : e.weigh { c with agentOutputs := outputs } =
      { e.weigh c with agentSummary := outputs.map AgentOutput.summary } := by
    have hmin : e.minimum { c with agentOutputs := outputs } = e.minimum c := rfl
    simp only [DecisionEngine.weigh, Consolidation.confidence, Consolidation.quant,
      Consolidation.trend, Consolidation.graded, hwarnings, hquant, htrend, hmin]
    split_ifs <;> rfl
  have hanswer : ∀ reason warnings,
      e.answer { c with agentOutputs := outputs } .block 0 reason warnings =
        { e.answer c .block 0 reason warnings with
          agentSummary := outputs.map AgentOutput.summary } := fun _ _ => rfl
  unfold DecisionEngine.consolidated
  rw [hrefusal, hweigh]
  cases refusal c.agentOutputs with
  | some reason => simp [hanswer, hwarnings]
  | none =>
    by_cases hquality : c.dataQualityScore < 60
    · simp [hquality, hanswer, hwarnings]
    · simp [hquality]

theorem outlook_is_silent : (DecisionEngine.consolidated {}
      { agreement .buy [] with
        agentOutputs := (agreement .buy []).agentOutputs ++
          [⟨"OutlookAgent", .completed, .block, 99, "r", [], [], 0, 0, by decide +kernel⟩] }).confidence =
    (DecisionEngine.consolidated {} (agreement .buy [])).confidence := by
  rw [shadow_agents_are_silent {} (agreement .buy []) _ (by decide +kernel)]

end CapitalCipher
