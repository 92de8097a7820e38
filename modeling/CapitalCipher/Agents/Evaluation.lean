/-
The observational evaluator of `agents/evaluation.py`: forecasts, their settlement on a later candle
and the read models over settled evidence.

`statistics.fmean` is the exact mean. A call names what becomes of each write it makes; the times
`evaluated_at` of scorecards are left out.
-/
import CapitalCipher.Lib.OrderedDict
import CapitalCipher.Lib.Run
import CapitalCipher.Database.Evaluation

namespace CapitalCipher

open Lib

/-- `timeframe_seconds` -/
def evaluationHorizon (timeframe : String) : Except Error ℕ :=
  let amount := timeframe.toList.dropLast.foldl (fun n c => 10 * n + (c.toNat - '0'.toNat)) 0
  match timeframe.toList.getLast? with
  | some 'm' => .ok (amount * 60)
  | some 'h' => .ok (amount * 3600)
  | some 'd' => .ok (amount * 86400)
  | some 'w' => .ok (amount * 604800)
  | _ => .error ⟨.transport, timeframe⟩   -- `KeyError`

structure AgentEvaluationService where
  minimumSamples : ℕ := 30
  forecasts : OrderedDict AgentForecast.forecastId := ∅
  outcomes : OrderedDict AgentForecastOutcome.forecastId := ∅
  settledByAgent : String × String → List ForecastId := fun _ => []

/-- `AgentEvaluationService.probability` -/
def forecastProbability (output : AgentOutput) : ℚ :=
  let conviction : ℚ := output.confidence / 200
  match output.signal with
  | .buy => 1 / 2 + conviction
  | .sell => 1 / 2 - conviction
  | _ => 1 / 2

/-- `realized_up` -/
def realizedUp (realizedReturn : ℚ) : ℚ :=
  if 0 < realizedReturn then 1 else if realizedReturn < 0 then 0 else 1 / 2

/-- the mean probability of the others of a group -/
def leaveOneOut (group : List AgentForecast) (f : AgentForecast) : ℚ :=
  let other := (group.filter fun item => item.forecastId ≠ f.forecastId).map
    fun item => item.forecastId.probabilityUp
  if other = [] then 1 / 2 else fmean other

def ensemble (group : List AgentForecast) : ℚ :=
  fmean (group.map fun item => item.forecastId.probabilityUp)

/-- the measurements of one forecast of a group against a realized return -/
def outcomeEvidence (group : List AgentForecast) (realizedReturn : ℚ) (f : AgentForecast) :
    OutcomeEvidence :=
  let up := realizedUp realizedReturn
  let p := f.forecastId.probabilityUp
  { realizedReturn := realizedReturn
    realizedUp := up
    correct :=
      if p ≠ 1 / 2 ∧ up ≠ 1 / 2 then
        some (if up = 1 then decide (1 / 2 < p) else decide (p < 1 / 2))
      else none
    brierLoss := (p - up) ^ 2
    ensembleProbabilityUp := ensemble group
    ensembleBrierLoss := (ensemble group - up) ^ 2
    leaveOneOutProbabilityUp := leaveOneOut group f
    leaveOneOutBrierLoss := (leaveOneOut group f - up) ^ 2
    marginalContribution := (leaveOneOut group f - up) ^ 2 - (ensemble group - up) ^ 2
    cohortSize := group.length }

/-- the outcomes of the forecasts a candle matures; they share the reference price of the first -/
def settleGroup (candle : Candle) : List AgentForecast → Except Error (List AgentForecastOutcome)
  | [] => .ok []
  | first :: rest =>
    (first :: rest).mapM fun f =>
      AgentForecastOutcome.build
        { forecastId := f.forecastId, realizedAt := candle.closedAt, utcOffset := candle.utcOffset,
          realizedPrice := candle.close }
        (outcomeEvidence (first :: rest) (candle.close / first.forecastId.referencePrice - 1) f)
        candle.receivedAt

/-- the forecast of one output -/
def forecastOf (candle : Candle) (correlationId : String)
    (registrations : String → Option AgentRegistration) (horizon : ℕ) (output : AgentOutput) :
    Except Error AgentForecast :=
  match registrations output.agentName with
  | none => .error ⟨.transport, output.agentName⟩   -- `KeyError`
  | some registration =>
    AgentForecast.build
      { correlationId := correlationId
        agentName := output.agentName
        agentVersion := registration.version
        definitionHash := registration.definitionHash
        symbol := candle.symbol
        timeframe := candle.timeframe
        signal := output.signal
        confidence := output.confidence
        probabilityUp := forecastProbability output
        referencePrice := candle.close
        forecastAt := candle.closedAt
        targetAt := candle.closedAt + horizon * 1000000
        utcOffset := candle.utcOffset }
      horizon registration.decisionRole candle.receivedAt

namespace AgentEvaluationService

variable (s : AgentEvaluationService)

/-- the unsettled forecasts a candle matures -/
def cohort (candle : Candle) : List AgentForecast :=
  s.forecasts.rows.filter fun f =>
    s.outcomes.get? f.forecastId = none ∧ f.forecastId.symbol = candle.symbol ∧
      f.forecastId.timeframe = candle.timeframe ∧ f.forecastId.targetAt = candle.closedAt

/-- an outcome's forecast id joins the bucket of the forecast's agent once -/
def indexed (agent : String × String) (bucket : List ForecastId) (o : AgentForecastOutcome) :
    List ForecastId :=
  match s.forecasts.get? o.forecastId with
  | none => bucket
  | some f => if f.agent = agent ∧ o.forecastId ∉ bucket then bucket ++ [o.forecastId] else bucket

/-- the memory after outcomes were saved -/
def settled (outcomes : List AgentForecastOutcome) : AgentEvaluationService :=
  { s with
    outcomes := s.outcomes.update outcomes
    settledByAgent := fun agent => outcomes.foldl (s.indexed agent) (s.settledByAgent agent) }

/-- `_rebuild_settled_index`, one agent's bucket -/
def rebuildSettledIndex (h : EvaluationDigests) (forecasts : OrderedDict AgentForecast.forecastId)
    (outcomes : OrderedDict AgentForecastOutcome.forecastId) (agent : String × String) :
    List ForecastId :=
  (sortedBy (fun o => (toLex (o.realizedAt, (h.outcome o.outcomeId).toList) : ℕ ×ₗ List Char))
    outcomes.rows).filterMap fun o =>
      match forecasts.get? o.forecastId with
      | none => none
      | some f => if f.agent = agent then some o.forecastId else none

/-- `initialize` of a new service -/
def initialized (h : EvaluationDigests) (number : ℚ → ℚ) (minimumSamples : ℕ)
    (rows : EvaluationRows) : Except Error AgentEvaluationService := do
  let forecasts ← rows.listAgentForecasts number h 100000
  let outcomes ← rows.listAgentForecastOutcomes number h 100000
  let forecasts := OrderedDict.ofList AgentForecast.forecastId forecasts
  let outcomes := OrderedDict.ofList AgentForecastOutcome.forecastId outcomes
  pure { minimumSamples := minimumSamples
         forecasts := forecasts
         outcomes := outcomes
         settledByAgent := rebuildSettledIndex h forecasts outcomes }

/-- the outcomes of an agent version, in the order they are held -/
def outcomesOf (agent : String × String) : List AgentForecastOutcome :=
  s.outcomes.rows.filter fun o => (s.forecasts.get? o.forecastId).map AgentForecast.agent = some agent

/-- one agent version's card -/
def scorecard (agent : String × String) : AgentScorecard :=
  let outcomes := s.outcomesOf agent
  let directional := outcomes.filterMap AgentForecastOutcome.correct
  { agentName := agent.1
    agentVersion := agent.2
    sampleCount := outcomes.length
    directionalSampleCount := directional.length
    accuracy :=
      if directional = [] then none else some (directional.count true / directional.length)
    meanBrierLoss := some (fmean (outcomes.map AgentForecastOutcome.brierLoss))
    meanMarginalContribution := some (fmean (outcomes.map AgentForecastOutcome.marginalContribution))
    status := if s.minimumSamples ≤ outcomes.length then .evaluated else .insufficientSample
    minimumSamples := s.minimumSamples }

/-- the agent versions with settled evidence, in the order of their first outcome -/
def settledAgents : List (String × String) :=
  (s.outcomes.rows.filterMap fun o =>
    (s.forecasts.get? o.forecastId).map AgentForecast.agent).reverse.dedup.reverse

def scorecards : List AgentScorecard :=
  sortedBy (fun card => card.agentName.toList) (s.settledAgents.map s.scorecard)

/-- the forecasts that wait for their candle -/
def unsettled : List AgentForecast :=
  s.forecasts.rows.filter fun f => s.outcomes.get? f.forecastId = none

/-- `(self._forecasts[forecast_id], self._outcomes[forecast_id])` -/
def settledPair (id : ForecastId) : Except Error (AgentForecast × AgentForecastOutcome) :=
  match s.forecasts.get? id, s.outcomes.get? id with
  | some f, some o => .ok (f, o)
  | _, _ => .error ⟨.transport, "KeyError"⟩

def settledHistory (agent : String × String) (limit : ℕ) :
    Except Error (List (AgentForecast × AgentForecastOutcome)) :=
  if ¬ (1 ≤ limit ∧ limit ≤ 100000) then
    .error ⟨.transport, "Settled-history limit must be 1..100000"⟩
  else
    let ids := s.settledByAgent agent
    (ids.drop (ids.length - limit)).mapM s.settledPair

end AgentEvaluationService

/-- a service with its store -/
structure Evaluator where
  service : AgentEvaluationService
  repository : Option EvaluationRows

namespace Evaluator

variable (number : ℚ → ℚ)

/-- a cohort goes through the store, if there is one and the cohort is not empty -/
def persist {α : Type} (fate : WriteFate) (failure : Error)
    (tx : List α → EvaluationRows → Except Error (List α × EvaluationRows)) (items : List α)
    (repository : Option EvaluationRows) : Except Error (List α) × Option EvaluationRows :=
  match items, repository with
  | [], repository => (.ok [], repository)
  | items, none => (.ok items, none)
  | items, some rows =>
    let result := fate.commit failure (tx items) rows
    (result.1, some result.2)

def settle (fate : WriteFate) (candle : Candle) (e : Evaluator) :
    Except Error (List AgentForecastOutcome) × Evaluator :=
  let group := e.service.cohort candle
  if group = [] then (.ok [], e)
  else match settleGroup candle group with
    | .error err => (.error err, e)
    | .ok outcomes =>
      match persist fate ⟨.database, "Failed to persist agent forecast outcomes"⟩
          (EvaluationRows.saveAgentForecastOutcomes number) outcomes e.repository with
      | (.error err, repository) => (.error err, { e with repository := repository })
      | (.ok stored, repository) => (.ok stored, ⟨e.service.settled stored, repository⟩)

/-- one `observe` call -/
structure Observation where
  candle : Candle
  correlationId : String
  outputs : List AgentOutput
  registrations : String → Option AgentRegistration
  /-- the write of the outcomes, and the write of the forecasts -/
  outcomesFate : WriteFate
  forecastsFate : WriteFate

/-- the forecasts a call makes -/
def Observation.forecasts (o : Observation) : Except Error (List AgentForecast) := do
  let horizon ← evaluationHorizon o.candle.timeframe
  o.outputs.mapM (forecastOf o.candle o.correlationId o.registrations horizon)

/-- the second half of `observe` -/
def record (o : Observation) (e : Evaluator) : Except Error (List AgentForecast) × Evaluator :=
  match o.forecasts with
  | .error err => (.error err, e)
  | .ok forecasts =>
    match persist o.forecastsFate ⟨.database, "Failed to persist agent forecasts"⟩
        (EvaluationRows.saveAgentForecasts number) forecasts e.repository with
    | (.error err, repository) => (.error err, { e with repository := repository })
    | (.ok stored, repository) =>
      (.ok stored, ⟨{ e.service with forecasts := e.service.forecasts.update stored }, repository⟩)

/-- `observe`: settle first, then record; what was settled stays when recording raises -/
def observe (o : Observation) (e : Evaluator) :
    Except Error (List AgentForecastOutcome × List AgentForecast) × Evaluator :=
  match settle number o.outcomesFate o.candle e with
  | (.error err, e') => (.error err, e')
  | (.ok outcomes, e') =>
    let result := record number o e'
    (result.1.map fun forecasts => (outcomes, forecasts), result.2)

end Evaluator

inductive EvaluationCall where
  | observe (o : Evaluator.Observation)
  | settle (candle : Candle) (fate : WriteFate)

end CapitalCipher
