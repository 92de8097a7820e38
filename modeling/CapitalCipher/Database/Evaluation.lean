/-
The evaluation rows and the repository methods that write and list them.

A row is kept as what was saved. Reading it back passes every number through a numeric column, writes
its times in UTC and checks its identity again; what such a column gives back is a parameter. The
order of the hexadecimal ids is one too.

  • `readForecast_ok`: a forecast reads back as it was saved or not at all.
  • `saveAgentForecasts_ok`, `saveAgentForecastOutcomes_ok`: exactly what an accepted cohort did.
-/
import Mathlib.Data.Prod.Lex
import Mathlib.Data.List.Lex
import Mathlib.Data.String.Basic
import CapitalCipher.Lib.AppendOnly
import CapitalCipher.Lib.SortedLog
import CapitalCipher.Schemas.Evaluation

namespace CapitalCipher

open Lib

/-- the forecast an outcome settles -/
def AgentForecastOutcome.forecastId (o : AgentForecastOutcome) : ForecastId := o.outcomeId.forecastId

/-- the texts the two ids are compared as -/
structure EvaluationDigests where
  forecast : ForecastId → String
  outcome : OutcomeId → String

structure EvaluationRows where
  forecasts : Dict ForecastId AgentForecast
  /-- `forecast_id` is unique, and an outcome id digests it -/
  outcomes : Dict ForecastId AgentForecastOutcome

instance : EmptyCollection EvaluationRows := ⟨⟨∅, ∅⟩⟩

namespace EvaluationRows

section Reading

variable (number : ℚ → ℚ)

/-- `_agent_forecast_from_row` -/
def readForecast (f : AgentForecast) : Except Error AgentForecast := do
  let current ← AgentForecast.build
    { f.forecastId with
      probabilityUp := number f.forecastId.probabilityUp
      referencePrice := number f.forecastId.referencePrice
      utcOffset := 0 } f.horizonSeconds f.decisionRole f.createdAt
  if current.forecastId = f.forecastId then pure current
  else .error ⟨.schema, "forecast_id does not match immutable forecast"⟩

/-- `_agent_forecast_outcome_from_row` -/
def readOutcome (o : AgentForecastOutcome) : Except Error AgentForecastOutcome := do
  let current ← AgentForecastOutcome.build
    { o.outcomeId with realizedPrice := number o.outcomeId.realizedPrice, utcOffset := 0 }
    { o.evidence with
      realizedReturn := number o.evidence.realizedReturn
      realizedUp := number o.evidence.realizedUp
      brierLoss := number o.evidence.brierLoss
      ensembleProbabilityUp := number o.evidence.ensembleProbabilityUp
      ensembleBrierLoss := number o.evidence.ensembleBrierLoss
      leaveOneOutProbabilityUp := number o.evidence.leaveOneOutProbabilityUp
      leaveOneOutBrierLoss := number o.evidence.leaveOneOutBrierLoss
      marginalContribution := number o.evidence.marginalContribution } o.createdAt
  if current.outcomeId = o.outcomeId then pure current
  else .error ⟨.schema, "outcome_id does not match immutable outcome"⟩

/-- the transaction of `save_agent_forecasts` -/
def saveAgentForecasts (forecasts : List AgentForecast) (rows : EvaluationRows) :
    Except Error (List AgentForecast × EvaluationRows) :=
  (AppendOnly.append AgentForecast.forecastId (readForecast number)
    ⟨.validation, "Immutable agent forecast identity conflict"⟩ (fun _ => .ok ())
    forecasts rows.forecasts).map fun r => (r.1, { rows with forecasts := r.2 })

/-- the transaction of `save_agent_forecast_outcomes`; a new row needs its forecast's row -/
def saveAgentForecastOutcomes (outcomes : List AgentForecastOutcome) (rows : EvaluationRows) :
    Except Error (List AgentForecastOutcome × EvaluationRows) :=
  (AppendOnly.append AgentForecastOutcome.forecastId (readOutcome number)
    ⟨.validation, "Forecast already has a different outcome"⟩
    (fun o =>
      if rows.forecasts.lookup o.forecastId = none then
        .error ⟨.database, "Failed to persist agent forecast outcomes"⟩
      else .ok ())
    outcomes rows.outcomes).map fun r => (r.1, { rows with outcomes := r.2 })

variable (h : EvaluationDigests) (rows : EvaluationRows) (limit : ℕ)

/-- the newest forecasts, read back -/
def listAgentForecasts : Except Error (List AgentForecast) :=
  ((sortedBy (fun f => toLex (OrderDual.toDual f.forecastId.forecastAt,
    (h.forecast f.forecastId).toList)) rows.forecasts.values).take limit).mapM (readForecast number)

/-- the outcomes realized last, read back -/
def listAgentForecastOutcomes : Except Error (List AgentForecastOutcome) :=
  ((sortedBy (fun o => toLex (OrderDual.toDual o.realizedAt, (h.outcome o.outcomeId).toList))
    rows.outcomes.values).take limit).mapM (readOutcome number)

end Reading

variable {number : ℚ → ℚ} {rows rows' : EvaluationRows}

theorem readOutcome_outcomeId {o o' : AgentForecastOutcome} (h : readOutcome number o = .ok o') :
    o'.outcomeId = o.outcomeId := by
  obtain ⟨current, -, hcheck⟩ := Result.bind_ok.1 h
  split_ifs at hcheck with hid
  rw [← Result.pure_ok.1 hcheck]
  exact hid

theorem readForecast_ok {f f' : AgentForecast} (h : readForecast number f = .ok f') : f' = f := by
  obtain ⟨current, hbuild, hcheck⟩ := Result.bind_ok.1 h
  split_ifs at hcheck with hid
  rw [← Result.pure_ok.1 hcheck]
  unfold AgentForecast.build at hbuild
  split_ifs at hbuild
  have hcurrent := Except.ok.inj hbuild
  obtain ⟨id, horizon, role, createdAt, accepted⟩ := f
  subst hcurrent
  simpa using hid

theorem saveAgentForecasts_ok {fs stored : List AgentForecast}
    (h : saveAgentForecasts number fs rows = .ok (stored, rows')) :
    stored = fs ∧ rows'.outcomes = rows.outcomes ∧
      (∀ k, rows'.forecasts.lookup k =
        (rows.forecasts.lookup k).or (fs.find? fun f => f.forecastId = k)) ∧
      ∀ f ∈ fs, rows'.forecasts.lookup f.forecastId = some f := by
  unfold saveAgentForecasts at h
  cases happ : AppendOnly.append AgentForecast.forecastId (readForecast number)
      ⟨.validation, "Immutable agent forecast identity conflict"⟩ (fun _ => .ok ()) fs
      rows.forecasts with
  | error e =>
    rw [happ] at h
    exact absurd h (by simp [Except.map])
  | ok r =>
    rw [happ] at h
    obtain ⟨rfl, rfl⟩ := Prod.mk.inj (Except.ok.inj h)
    obtain ⟨hstored, hlookup, -⟩ := AppendOnly.append_ok happ
    refine ⟨hstored, rfl, hlookup, fun f hf => ?_⟩
    obtain ⟨row, hrow, hsame⟩ := AppendOnly.append_holds happ f hf
    rcases hsame with heq | hread
    · rw [heq] at hrow
      exact hrow
    · rw [← readForecast_ok hread] at hrow
      exact hrow

theorem saveAgentForecastOutcomes_ok {os stored : List AgentForecastOutcome}
    (h : saveAgentForecastOutcomes number os rows = .ok (stored, rows')) :
    stored = os ∧ rows'.forecasts = rows.forecasts ∧
      (∀ k, rows'.outcomes.lookup k =
        (rows.outcomes.lookup k).or (os.find? fun o => o.forecastId = k)) ∧
      ∀ o ∈ os, rows.outcomes.lookup o.forecastId = none ∨
        ∃ row, rows.outcomes.lookup o.forecastId = some row ∧ readOutcome number row = .ok o := by
  unfold saveAgentForecastOutcomes at h
  cases happ : AppendOnly.append AgentForecastOutcome.forecastId (readOutcome number)
      ⟨.validation, "Forecast already has a different outcome"⟩
      (fun o => if rows.forecasts.lookup o.forecastId = none then
        .error ⟨.database, "Failed to persist agent forecast outcomes"⟩ else .ok ()) os
      rows.outcomes with
  | error e =>
    rw [happ] at h
    exact absurd h (by simp [Except.map])
  | ok r =>
    rw [happ] at h
    obtain ⟨rfl, rfl⟩ := Prod.mk.inj (Except.ok.inj h)
    obtain ⟨hstored, hlookup, hagree⟩ := AppendOnly.append_ok happ
    exact ⟨hstored, rfl, hlookup, hagree⟩

end EvaluationRows

end CapitalCipher
