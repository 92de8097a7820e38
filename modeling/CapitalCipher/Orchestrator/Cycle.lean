/-
The decision cycle of `orchestrator/service.py`: `on_candle_closed` and `_evaluate`.

A cycle is a task. What it asks of another component, a clock reading included, is a `CycleCall`, and
whatever that component does is behind its reply. What the orchestrator itself remembers is its `Desk`,
which all cycles of a process share. Logging, latencies and the payloads of published events are left out.

  • `onCandleClosed`: intake, evaluation and what becomes of an exception.
  • `intake`, `evaluate`: their stages, one definition each.
-/
import CapitalCipher.Lib.BoundedQueue
import CapitalCipher.Lib.Coroutine
import CapitalCipher.MarketData.Clock
import CapitalCipher.MarketData.Quality
import CapitalCipher.Oms.Service
import CapitalCipher.Orchestrator.Consensus
import CapitalCipher.Orchestrator.Strategy
import CapitalCipher.Paper.Engine

namespace CapitalCipher

open Lib Lib.Coro

/-- what a cycle puts on the audit trail -/
inductive CycleEvidence where
  | consensus (c : WeightedConsensus)
  | proposal (p : PortfolioProposal)
  | candidate (d : CandidateDecision)

/-- `audit_type` -/
def CycleEvidence.auditType : CycleEvidence → String
  | consensus _ => "WEIGHTED_CONSENSUS"
  | proposal _ => "PORTFOLIO_PROPOSAL"
  | candidate _ => "DECISION_CANDIDATE"

/-- a call of a cycle -/
inductive CycleCall where
  | clockVerdict (exchange : Exchange)
  | saveSystemEvent (eventType correlationId : String) (verdict : ClockTrustVerdict)
  | recentCandles (exchange symbol timeframe : String) (limit : ℕ)
  | now
  | saveCandle (candle : Candle) (quality : DataQualityReport)
  | scanGaps (series : Series) (startAt endAt : Time) (limit : ℕ)
  | storeCandle (candle : Candle)
  | resetDaily
  | monitorPositions (candle : Candle)
  | publish (topic eventType source correlationId : String)
  | canOperate
  | decisionsAllowed
  | registrations
  | shadowAdmissionAllowed
  | executeMany (requests : List AgentExecutionRequest)
  | observeAgentBatch (outputs : List AgentOutput) (correlationId : String)
  | observeForecasts (candle : Candle) (correlationId : String) (outputs : List AgentOutput)
      (registrations : Registrations)
  | newDecisionId
  | evaluateConsensus (baseline : ScoredDecision) (outputs : List AgentOutput)
      (registrations : Registrations)
  | propose (decision : ScoredDecision) (consensus : WeightedConsensus) (balance : ℚ)
  | paperBalance
  | paperLeverage
  | audit (correlationId : String) (evidence : CycleEvidence)
  | saveDecision (decision : CandidateDecision)
  | checkRisk (args : CheckArgs)
  | updateRiskStatus (decisionId : String) (status : RiskStatus)
  | submitApproved (args : OmsService.SubmitArgs)
  | createOrder (args : PaperTradingEngine.CreateArgs)
  | observeDependency (dependency reason correlationId : String)
  | observeCycle (success : Bool)

namespace CycleCall

@[reducible] def Reply : CycleCall → Type
  | clockVerdict _ => ClockTrustVerdict
  | saveSystemEvent _ _ _ => Unit
  | recentCandles _ _ _ _ => List Candle
  | now => Time
  | saveCandle _ _ => Bool
  | scanGaps _ _ _ _ => Unit
  | storeCandle _ => Bool
  | resetDaily => Unit
  | monitorPositions _ => List PaperOrder
  | publish _ _ _ _ => Unit
  | canOperate => Bool
  | decisionsAllowed => Bool
  | registrations => List RegisteredAgent
  | shadowAdmissionAllowed => Bool
  | executeMany _ => List AgentOutput
  | observeAgentBatch _ _ => Unit
  | observeForecasts _ _ _ _ => Unit
  | newDecisionId => String
  | evaluateConsensus _ _ _ => WeightedConsensus
  | propose _ _ _ => PortfolioProposal
  | paperBalance => ℚ
  | paperLeverage => ℚ
  | audit _ _ => Unit
  | saveDecision _ => Unit
  | checkRisk _ => RiskCheck
  | updateRiskStatus _ _ => Unit
  | submitApproved _ => OmsOrder
  | createOrder _ => PaperOrder
  | observeDependency _ _ _ => Unit
  | observeCycle _ => Unit

end CycleCall

/-- which components an orchestrator was given -/
structure CycleConfig where
  engine : DecisionEngine := {}
  maxDataDelayMs : ℤ := 5000
  requireTrustedClock : Bool := false
  clockRegistry : Bool := false
  repository : Bool := false
  gapService : Bool := false
  agentEvaluation : Bool := false
  weightedConsensus : Bool := false
  portfolioConstruction : Bool := false
  operations : Bool := false
  oms : Bool := false

/-- what the cycles of a process share -/
structure Desk where
  strategies : Strategies := StrategyEngine.initial
  currentDay : Option ℤ := none
  lastDecision : Option CandidateDecision := none
  recentDecisions : List CandidateDecision := []
  /-- correlation ids with error codes -/
  failures : List (String × String) := []

/-- what a cycle is run for -/
structure CycleEvent where
  candle : Candle
  correlationId : String

abbrev CycleProgram (α : Type) := Coro Desk Error CycleCall.Reply α

/-- call a component -/
abbrev consult (q : CycleCall) : CycleProgram q.Reply := Coro.call q

/-- `except Exception`, logged and forgotten -/
def forgiven (p : CycleProgram Unit) : CycleProgram Unit := p.handle fun _ => .ret ()

/-- run `f` on every item, in order -/
def forEvery {β : Type} (f : β → CycleProgram Unit) : List β → CycleProgram Unit
  | [] => .ret ()
  | b :: rest => (f b).bind fun _ => forEvery f rest

namespace Orchestrator

variable (cfg : CycleConfig) (ev : CycleEvent)

def failed (code : String) (desk : Desk) : Desk :=
  { desk with failures := BoundedQueue.append 50 desk.failures (ev.correlationId, code) }

/-! ## Intake -/

/-- the trusted clock gate: the verdict, if one was needed, or none when the candle is blocked -/
def clockGate : CycleProgram (Option (Option ClockTrustVerdict)) :=
  if cfg.requireTrustedClock then
    if cfg.clockRegistry then
      (consult (.clockVerdict ev.candle.exchange)).bind fun verdict =>
        if verdict.trusted then .ret (some (some verdict))
        else
          (modify (failed ev "CLOCK_UNTRUSTED")).bind fun _ =>
            (if cfg.repository then
              consult (.saveSystemEvent "CLOCK_GATE_BLOCKED" ev.correlationId verdict)
            else .ret ()).bind fun _ => .ret none
    else .raise ⟨.dataQuality, "Trusted market-data ingestion requires a clock registry"⟩
  else .ret (some none)

/-- a verdict of WARNING lowers the quality -/
def clockDowngrade (verdict : Option ClockTrustVerdict) (quality : DataQualityReport) :
    DataQualityReport :=
  if verdict.any fun v => v.status == .warning then
    { quality with
      dataQualityScore := max 0 (quality.dataQualityScore - 5)
      status := if quality.status = .suspect ∨ quality.status = .invalid then quality.status
        else .warning
      warnings := sortedBy String.toList (quality.warnings ++ ["CLOCK_WARNING"]).dedup }
  else quality

/-- the window before the candle, and the quality of both together -/
def assess (verdict : Option ClockTrustVerdict) : CycleProgram (List Candle × DataQualityReport) :=
  (consult (.recentCandles ev.candle.exchange.value ev.candle.symbol ev.candle.timeframe 200)).bind
    fun existing => (consult .now).bind fun now =>
      .ret (existing, clockDowngrade verdict
        (evaluateCandles (existing ++ [ev.candle]) ev.candle.timeframe cfg.maxDataDelayMs now))

/-- the candle leaves a hole behind the window -/
def opensGap (existing : List Candle) : Option Time :=
  (existing.getLast?.filter fun last => decide (last.closedAt < ev.candle.closedAt)).map
    Candle.closedAt

/-- a hole that a new candle leaves is scanned for gaps -/
def scanHole (existing : List Candle) : CycleProgram Unit :=
  match cfg.gapService, opensGap ev existing with
  | true, some startAt => consult (.scanGaps ev.candle.series startAt ev.candle.closedAt 10000)
  | _, _ => .ret ()

/-- the candle is persisted first: whether it is new to the database -/
def persist (existing : List Candle) (quality : DataQualityReport) : CycleProgram Bool :=
  if cfg.repository then
    (consult (.saveCandle ev.candle quality)).bind fun inserted =>
      if inserted then (scanHole cfg ev existing).bind fun _ => .ret true
      else .ret false
  else .ret true

/-- the candle joins the window, unless its quality or the store refuses it -/
def admission (quality : DataQualityReport) : CycleProgram Bool :=
  if quality.errors ≠ [] then
    (modify (failed ev "DATA_QUALITY_ERROR")).bind fun _ => .ret false
  else consult (.storeCandle ev.candle)

def dated (desk : Desk) : Desk := { desk with currentDay := some ev.candle.date }

/-- the daily risk reset -/
def rollDay : CycleProgram Unit :=
  Coro.read.bind fun desk =>
    match desk.currentDay with
    | none => modify (dated ev)
    | some day =>
      if ev.candle.date = day then .ret ()
      else (modify (dated ev)).bind fun _ => consult .resetDaily

/-- paper positions are monitored, and their closes published -/
def monitor : CycleProgram Unit :=
  (consult (.monitorPositions ev.candle)).bind <|
    forEvery fun order =>
      consult (.publish "paper.orders.v1" "PAPER_ORDER_CLOSED" "PaperTradingEngine"
        order.correlationId)

/-- whether the system may evaluate now -/
def operable : CycleProgram Bool :=
  (consult .canOperate).bind fun operates =>
    if operates then
      if cfg.operations then consult .decisionsAllowed else .ret true
    else .ret false

/-- everything before the evaluation: the quality to evaluate with, or none -/
def intake : CycleProgram (Option DataQualityReport) :=
  (clockGate cfg ev).bind fun
    | none => .ret none
    | some verdict =>
      (assess cfg ev verdict).bind fun window =>
        (persist cfg ev window.1 window.2).bind fun inserted =>
          if inserted then
            (admission ev window.2).bind fun stored =>
              if stored then
                (rollDay ev).bind fun _ => (monitor ev).bind fun _ =>
                  (operable cfg).bind fun operates =>
                    if operates then
                      (consult (.publish "market.events.v1" "CANDLE_CLOSED" "MarketDataAdapter"
                        ev.correlationId)).bind fun _ => .ret (some window.2)
                    else .ret none
              else .ret none
          else .ret none

/-! ## Evaluation -/

/-- `AgentInput(...)` and `AgentExecutionRequest(...)` for a registered agent -/
def agentRequest (r : RegisteredAgent) : Except Error AgentExecutionRequest :=
  let key := ev.correlationId ++ ":" ++ r.1.agentName
  if hinput : ∀ f ∈ agentInputFields key ev.correlationId r.1.agentName ev.candle.symbol
      ev.candle.timeframe, f.2 = true then
    if hrequest : ∀ f ∈ agentExecutionRequestFields r.1.version (some key), f.2 = true then
      .ok
        { agentVersion := r.1.version
          idempotencyKey := some key
          input :=
            { requestId := key
              correlationId := ev.correlationId
              agentName := r.1.agentName
              timestamp := ev.candle.closedAt
              symbol := ev.candle.symbol
              timeframe := ev.candle.timeframe
              marketContext := [("exchange", .str ev.candle.exchange.value)]
              config := []
              accepted := hinput }
          accepted := hrequest }
    else .error ⟨.schema, "AgentExecutionRequest"⟩
  else .error ⟨.schema, "AgentInput"⟩

/-- `admitted_registrations` -/
def admitted (registered : List RegisteredAgent) : CycleProgram (List RegisteredAgent) :=
  if cfg.operations then
    (consult .shadowAdmissionAllowed).bind fun allowed =>
      .ret (if allowed then registered else registered.filter fun r => r.1.decisionRole == .primary)
  else .ret registered

/-- `{item.agent_name: item for item in registry.registrations()}` -/
def registrationsByName : CycleProgram Registrations :=
  (consult .registrations).bind fun registered => .ret (OrderedDict.ofList _ registered)

/-- the agents are run, and what they said is observed -/
def runAgents : CycleProgram (List AgentOutput) :=
  (consult .registrations).bind fun registered =>
    (admitted cfg registered).bind fun admitted =>
      (leave (admitted.mapM (agentRequest ev))).bind fun requests =>
        (consult (.executeMany requests)).bind fun outputs =>
          (if cfg.operations then forgiven (consult (.observeAgentBatch outputs ev.correlationId))
          else .ret ()).bind fun _ =>
            (if cfg.agentEvaluation then
              forgiven (registrationsByName.bind fun registrations =>
                consult (.observeForecasts ev.candle ev.correlationId outputs registrations))
            else .ret ()).bind fun _ => .ret outputs

/-- the market regime the TrendAgent reports, UNDEFINED without one -/
def regimeOf (outputs : List AgentOutput) : MarketRegime :=
  match (outputOf outputs "TrendAgent").bind fun o => o.evidence.lookup "market_regime" with
  | some (.str value) => MarketRegime.ofValue value
  | _ => .undefined

/-- a directional decision the strategy rules do not allow is blocked -/
def ruled (evaluation : StrategyEvaluation) (regime : MarketRegime) (d : CandidateDecision) :
    CandidateDecision :=
  if evaluation.allowed = false ∧ d.candidateAction.directional = true then
    { d with
      candidateAction := .block
      confidence := 0
      confidence_le := by decide
      reason := "Strategy rule: " ++ evaluation.reason
      warnings := if regime = .undefined
        then sortedBy String.toList (d.warnings ++ ["REGIME_UNCLEAR"]).dedup else d.warnings }
  else d

/-- the decision with the risk profile of the strategy it follows -/
structure Candidacy where
  decision : CandidateDecision
  profile : Option RiskProfile

/-- what the strategy rules and the decision engine make of the outputs -/
def consolidation (quality : DataQualityReport) (outputs : List AgentOutput)
    (evaluation : StrategyEvaluation) (decisionId : String) : Consolidation where
  decisionId := decisionId
  correlationId := ev.correlationId
  symbol := ev.candle.symbol
  timeframe := ev.candle.timeframe
  agentOutputs := outputs
  dataQualityScore := quality.dataQualityScore
  strategy := some evaluation.versionedId
  minimumConfidence := some evaluation.minimumConfidence

/-- strategy selection, regime rules and consolidation -/
def consolidateOutputs (quality : DataQualityReport) (outputs : List AgentOutput) : CycleProgram Candidacy :=
  Coro.read.bind fun desk =>
    let regime := regimeOf outputs
    let evaluation := StrategyEngine.evaluate desk.strategies ev.candle.symbol ev.candle.timeframe
      regime
    let profile := if evaluation.allowed then
      (StrategyEngine.select desk.strategies ev.candle.symbol ev.candle.timeframe).map
        fun s => riskProfiles s.riskProfile
      else none
    (consult .newDecisionId).bind fun decisionId =>
      (leave (cfg.engine.consolidate (consolidation ev quality outputs evaluation decisionId))).bind
        fun decision => .ret ⟨ruled evaluation regime decision, profile⟩

theorem finalConfidence_le (c : WeightedConsensus) : c.finalConfidence ≤ 100 :=
  (consensusFields_iff.1 c.fields).2.2.2.2.2.2.2.2.1

/-- the decision a consensus leaves -/
def overlaid (d : CandidateDecision) (c : WeightedConsensus) : CandidateDecision :=
  if c.finalAction ≠ d.candidateAction ∨ c.finalConfidence ≠ d.confidence then
    { d with
      candidateAction := c.finalAction
      confidence := c.finalConfidence
      confidence_le := finalConfidence_le c
      reason := d.reason ++ " | Consensus: " ++ c.reason
      warnings := sortedBy String.toList (d.warnings ++ ["PERFORMANCE_CONSENSUS_VETO"]).dedup }
  else d

/-- evidence is audited, then announced -/
def announce (evidence : CycleEvidence) (eventType source : String) : CycleProgram Unit :=
  (consult (.audit ev.correlationId evidence)).bind fun _ =>
    consult (.publish "decision.events.v1" eventType source ev.correlationId)

/-- the weighted consensus. A decision it changed stays changed when the audit of it fails -/
def weigh (outputs : List AgentOutput) (d : CandidateDecision) :
    CycleProgram (CandidateDecision × Option WeightedConsensus) :=
  if cfg.weightedConsensus then
    (registrationsByName.bind fun registrations =>
      consult (.evaluateConsensus d.toScoredDecision outputs registrations)).attempt.bind fun
      | .error _ => .ret (d, none)
      | .ok c =>
        (announce ev (.consensus c) "WEIGHTED_CONSENSUS_CREATED"
          "WeightedConsensusService").attempt.bind fun
          | .error _ => .ret (overlaid d c, none)
          | .ok _ => .ret (overlaid d c, some c)
  else .ret (d, none)

/-- the advisory portfolio proposal, if there is a consensus -/
def construct (d : CandidateDecision) (consensus : Option WeightedConsensus) :
    CycleProgram (Option PortfolioProposal) :=
  match consensus, cfg.portfolioConstruction with
  | some c, true =>
    ((consult .paperBalance).bind fun balance =>
      (consult (.propose d.toScoredDecision c balance)).bind fun proposal =>
        (announce ev (.proposal proposal) "PORTFOLIO_PROPOSAL_CREATED"
          "PortfolioConstructionService").bind fun _ => .ret proposal).attempt.bind fun
      | .error _ => .ret none
      | .ok proposal => .ret (some proposal)
  | _, _ => .ret none

def remembered (d : CandidateDecision) (desk : Desk) : Desk :=
  { desk with
    lastDecision := some d
    recentDecisions := BoundedQueue.append 200 desk.recentDecisions d }

/-- `recent_decisions[-1] = decision`: the last one, whichever cycle it is of -/
def restated (d : CandidateDecision) (desk : Desk) : Desk :=
  { desk with
    lastDecision := some d
    recentDecisions := desk.recentDecisions.dropLast ++ [d] }

/-- the candidate is audited before risk -/
def record (d : CandidateDecision) : CycleProgram Unit :=
  (modify (remembered d)).bind fun _ =>
    (consult (.audit ev.correlationId (.candidate d))).bind fun _ =>
      (if cfg.repository then consult (.saveDecision d) else .ret ()).bind fun _ =>
        consult (.publish "decision.events.v1" "DECISION_CANDIDATE_CREATED" "Orchestrator"
          ev.correlationId)

/-- the `atr` the QuantAgent reports -/
def atrOf (outputs : List AgentOutput) : Option ℚ :=
  match (outputOf outputs "QuantAgent").bind fun o => o.evidence.lookup "atr" with
  | some (.num atr) => some atr
  | _ => none

/-- the arguments of the risk check -/
def riskArgs (quality : DataQualityReport) (outputs : List AgentOutput) (c : Candidacy)
    (proposal : Option PortfolioProposal) (balance leverage : ℚ) : CheckArgs where
  decision := c.decision.toDecision
  entryPrice := ev.candle.close
  atr := atrOf outputs
  dataQualityScore := quality.dataQualityScore
  balance := some balance
  leverage := some leverage
  riskPerTradePercentOverride := c.profile.map RiskProfile.riskPerTradePercent
  minRiskRewardOverride := c.profile.map RiskProfile.riskRewardMin
  maxOpenPositionsOverride := c.profile.map RiskProfile.maxOpenPositions
  maxStrategyExposurePercentOverride := c.profile.map RiskProfile.maxStrategyExposurePercent
  maxPortfolioVarPercentOverride := c.profile.map RiskProfile.maxPortfolioVarPercent
  maxNotionalOverride := proposal.map PortfolioProposal.maxNotional

/-- the decision after its risk check is remembered, stored and announced -/
def afterRisk (d : CandidateDecision) (check : RiskCheck) :
    CycleProgram (CandidateDecision × RiskCheck) :=
  let after := { d with riskStatus := check.riskStatus }
  (modify (restated after)).bind fun _ =>
    (if cfg.repository then consult (.updateRiskStatus d.decisionId check.riskStatus)
    else .ret ()).bind fun _ =>
      (consult (.publish "risk.events.v1" "RISK_CHECK_COMPLETED" "RiskManager"
        ev.correlationId)).bind fun _ => .ret (after, check)

/-- the mandatory risk check -/
def askRisk (quality : DataQualityReport) (outputs : List AgentOutput) (c : Candidacy)
    (proposal : Option PortfolioProposal) : CycleProgram (CandidateDecision × RiskCheck) :=
  (consult .paperBalance).bind fun balance => (consult .paperLeverage).bind fun leverage =>
    (consult (.checkRisk (riskArgs ev quality outputs c proposal balance leverage))).bind fun check =>
      afterRisk cfg ev c.decision check

/-- the order of an approved decision, through the OMS or straight to the paper engine -/
def place (d : CandidateDecision) (check : RiskCheck) : CycleProgram Unit :=
  if cfg.oms then
    (consult (.submitApproved
      { decision := d.toDecision, riskCheck := check, currentPrice := ev.candle.close
        marketCandle := some ev.candle, occurredAt := some ev.candle.closedAt })).bind fun _ =>
      consult (.publish "oms.orders.v1" "OMS_ORDER_ACCEPTED" "OMSService" ev.correlationId)
  else
    (consult (.createOrder
      { decision := d.toDecision, riskCheck := check, currentPrice := ev.candle.close
        marketCandle := some ev.candle, occurredAt := some ev.candle.closedAt })).bind fun _ =>
      consult (.publish "paper.orders.v1" "PAPER_ORDER_CREATED" "PaperTradingEngine"
        ev.correlationId)

/-- a directional decision goes through risk, and what risk leaves of it is placed -/
def act (quality : DataQualityReport) (outputs : List AgentOutput) (c : Candidacy)
    (proposal : Option PortfolioProposal) : CycleProgram CandidateDecision :=
  if c.decision.candidateAction.directional then
    (askRisk cfg ev quality outputs c proposal).bind fun checked =>
      if checked.2.riskStatus = .blocked ∨ checked.2.riskStatus = .killSwitch then .ret checked.1
      else (place cfg ev checked.1 checked.2).bind fun _ => .ret checked.1
  else .ret c.decision

/-- `_evaluate` -/
def evaluate (quality : DataQualityReport) : CycleProgram CandidateDecision :=
  (runAgents cfg ev).bind fun outputs =>
    (consolidateOutputs cfg ev quality outputs).bind fun candidacy =>
      (weigh cfg ev outputs candidacy.decision).bind fun weighed =>
        (construct cfg ev weighed.1 weighed.2).bind fun proposal =>
          (record cfg ev weighed.1).bind fun _ =>
            act cfg ev quality outputs { candidacy with decision := weighed.1 } proposal

/-! ## The cycle -/

/-- `error_code` -/
def errorCode : ErrorKind → String
  | .validation => "VALIDATION_ERROR"
  | .dataQuality => "DATA_QUALITY_ERROR"
  | .risk => "RISK_BLOCKED"
  | .audit => "AUDIT_FAILED"
  | .database => "DATABASE_ERROR"
  | .security => "SECURITY_ERROR"
  | .systemState => "SYSTEM_NOT_READY"
  | .externalService => "EXTERNAL_SERVICE_ERROR"
  | .ambiguousExecution => "EXECUTION_STATUS_UNKNOWN"
  | .executionRejected => "EXECUTION_REJECTED"
  | .schema => ""
  | .integrity => ""
  | .transport => ""

/-- `isinstance(exc, CapitalCipherError)` -/
def isDomainError (kind : ErrorKind) : Bool :=
  kind != .schema && kind != .integrity && kind != .transport

/-- `_mark_operational_dependency_unhealthy` -/
def markUnhealthy (dependency reason : String) : CycleProgram Unit :=
  if cfg.operations then forgiven (consult (.observeDependency dependency reason ev.correlationId))
  else .ret ()

/-- the dependency an exception points to -/
def blamed : ErrorKind → Option (String × String)
  | .audit => some ("AUDIT", "audit operation failed during decision cycle")
  | .database => some ("DATABASE", "database operation failed during decision cycle")
  | .risk => some ("RISK", "central risk invariant failed during decision cycle")
  | _ => none

/-- the two `except` clauses: a domain error ends the cycle without a decision -/
def recover (e : Error) : CycleProgram (Option CandidateDecision) :=
  if isDomainError e.kind then
    (match blamed e.kind with
    | some b => markUnhealthy cfg ev b.1 b.2
    | none => .ret ()).bind fun _ =>
      (modify (failed ev (errorCode e.kind))).bind fun _ => .ret none
  else .raise e

/-- how an evaluation ends the cycle -/
def concluded : Except Error CandidateDecision → CycleProgram (Option CandidateDecision)
  | .ok decision => .ret (some decision)
  | .error e => recover cfg ev e

/-- `on_candle_closed`. The `finally` clause reports a cycle exactly when it was evaluated -/
def onCandleClosed : CycleProgram (Option CandidateDecision) :=
  (intake cfg ev).attempt.bind fun
    | .error e => recover cfg ev e
    | .ok none => .ret none
    | .ok (some quality) =>
      (evaluate cfg ev quality).attempt.bind fun r =>
        ensure (concluded cfg ev r)
          (if cfg.operations then consult (.observeCycle r.isOk) else .ret ())

end Orchestrator

end CapitalCipher
