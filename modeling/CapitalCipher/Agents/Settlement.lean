/-
Settlement: which forecasts a candle settles, and against what.

`Evaluation` keeps beside the service the exchange every forecast was made on and the candle every
outcome was computed from. What a settlement should be is stated over the set of forecasts made on
its series for its target (`ForecastSettlement.Right`); the code pools forecasts under a key without the
exchange and prices the whole pool with the reference of its first member.

  • `settleGroup_ok`: the outcomes of a group, one for each member.
  • `marginal_eq`: over a group without repetition the computed contribution is the leave-one-out one.
  • `settlement_right`: in every run whose settlements pool all forecasts of one series and target,
    with one reference price, every outcome is right, and outcomes are never replaced.
  • `mixed_exchanges`: one candle settles the forecasts of two exchanges.
-/
import CapitalCipher.Agents.Evaluation

namespace CapitalCipher

open Lib

/-! ## the contribution of one forecast to a set -/

/-- the mean probability over a set of forecasts -/
def meanOver (S : Finset ForecastId) : ℚ := (∑ id ∈ S, id.probabilityUp) / S.card

/-- what leaving one forecast out of a set adds to the loss -/
def marginalOver (S : Finset ForecastId) (id : ForecastId) (up : ℚ) : ℚ :=
  ((if S.erase id = ∅ then 1 / 2 else meanOver (S.erase id)) - up) ^ 2 - (meanOver S - up) ^ 2

section Pools

variable {group : List AgentForecast}

/-- the ids of a pool -/
def poolIds (group : List AgentForecast) : Finset ForecastId :=
  (group.map AgentForecast.forecastId).toFinset

theorem fmean_eq (hnd : (group.map AgentForecast.forecastId).Nodup) :
    fmean (group.map fun f => f.forecastId.probabilityUp) = meanOver (poolIds group) := by
  have hmap : group.map (fun f => f.forecastId.probabilityUp) =
      (group.map AgentForecast.forecastId).map ForecastId.probabilityUp := by
    rw [List.map_map]
    rfl
  rw [fmean, meanOver, poolIds, hmap, List.sum_toFinset _ hnd, List.toFinset_card_of_nodup hnd,
    List.length_map]

theorem leaveOneOut_eq (hnd : (group.map AgentForecast.forecastId).Nodup) (f : AgentForecast) :
    leaveOneOut group f = if (poolIds group).erase f.forecastId = ∅ then 1 / 2
      else meanOver ((poolIds group).erase f.forecastId) := by
  have hids : poolIds (group.filter fun g => g.forecastId ≠ f.forecastId) =
      (poolIds group).erase f.forecastId := by
    ext id
    simp only [poolIds, List.mem_toFinset, List.mem_map, List.mem_filter, Finset.mem_erase,
      decide_eq_true_eq]
    constructor
    · rintro ⟨g, ⟨hg, hne⟩, rfl⟩
      exact ⟨hne, g, hg, rfl⟩
    · rintro ⟨hne, g, hg, rfl⟩
      exact ⟨g, ⟨hg, hne⟩, rfl⟩
  have hsub : ((group.filter fun g => g.forecastId ≠ f.forecastId).map
      AgentForecast.forecastId).Nodup := hnd.sublist ((List.filter_sublist).map _)
  unfold leaveOneOut
  dsimp only
  rw [fmean_eq hsub, hids]
  have hnil : ((group.filter fun g => g.forecastId ≠ f.forecastId).map
      fun g => g.forecastId.probabilityUp) = [] ↔ (poolIds group).erase f.forecastId = ∅ := by
    rw [← hids, poolIds, List.toFinset_eq_empty_iff, List.map_eq_nil_iff, List.map_eq_nil_iff]
  simp only [hnil]

/-- **Leave-one-out.** Over a pool without repetition the computed contribution is that of the set. -/
theorem marginal_eq (hnd : (group.map AgentForecast.forecastId).Nodup) (r : ℚ)
    (f : AgentForecast) :
    (outcomeEvidence group r f).marginalContribution =
      marginalOver (poolIds group) f.forecastId (realizedUp r) := by
  simp only [outcomeEvidence, marginalOver, leaveOneOut_eq hnd, ensemble, fmean_eq hnd]

end Pools

/-! ## what a settlement computes -/

theorem AgentForecastOutcome.build_ok {id : OutcomeId} {e : OutcomeEvidence} {t : Time}
    {o : AgentForecastOutcome} (h : AgentForecastOutcome.build id e t = .ok o) :
    o.outcomeId = id ∧ o.evidence = e := by
  unfold AgentForecastOutcome.build at h
  split_ifs at h
  rw [← Except.ok.inj h]
  exact ⟨rfl, rfl⟩

theorem AgentForecast.build_ok {id : ForecastId} {n : ℕ} {r : AgentDecisionRole} {t : Time}
    {f : AgentForecast} (h : AgentForecast.build id n r t = .ok f) : f.forecastId = id := by
  unfold AgentForecast.build at h
  split_ifs at h
  rw [← Except.ok.inj h]

/-- an outcome that a candle gives a member of a pool, against a reference price -/
structure Settles (candle : Candle) (group : List AgentForecast) (reference : ℚ)
    (f : AgentForecast) (o : AgentForecastOutcome) : Prop where
  outcomeId : o.outcomeId = ⟨f.forecastId, candle.closedAt, candle.utcOffset, candle.close⟩
  evidence : o.evidence = outcomeEvidence group (candle.close / reference - 1) f

theorem settleGroup_ok {candle : Candle} {group : List AgentForecast}
    {outcomes : List AgentForecastOutcome} (h : settleGroup candle group = .ok outcomes) :
    List.Forall₂ (fun f o => ∃ first, group.head? = some first ∧
      Settles candle group first.forecastId.referencePrice f o) group outcomes := by
  cases group with
  | nil =>
    rw [← Except.ok.inj h]
    exact .nil
  | cons first rest =>
    refine (Result.mapM_forall₂ h).imp fun f o ho => ⟨first, rfl, ?_⟩
    obtain ⟨hid, hevidence⟩ := AgentForecastOutcome.build_ok ho
    exact ⟨hid, hevidence⟩

theorem settleGroup_ids {candle : Candle} {group : List AgentForecast}
    {outcomes : List AgentForecastOutcome} (h : settleGroup candle group = .ok outcomes) :
    outcomes.map AgentForecastOutcome.forecastId = group.map AgentForecast.forecastId := by
  have hall := settleGroup_ok h
  clear h
  have hids : List.Forall₂ (fun (f : AgentForecast) (o : AgentForecastOutcome) =>
      o.forecastId = f.forecastId) group outcomes :=
    hall.imp fun f o ⟨_, _, hs⟩ => by rw [AgentForecastOutcome.forecastId, hs.outcomeId]
  clear hall
  induction hids with
  | nil => rfl
  | cons hfo _ ih => rw [List.map_cons, List.map_cons, hfo, ih]

/-! ## runs -/

/-- an outcome with the candle it was computed from and the forecasts made by then -/
structure ForecastSettlement where
  candle : Candle
  outcome : AgentForecastOutcome
  made : List (Exchange × AgentForecast)

/-- a service with its store, the forecasts it took with the exchange they were made on, and the
settlements whose write was not refused -/
structure Evaluation where
  evaluator : Evaluator
  made : List (Exchange × AgentForecast)
  settlements : List ForecastSettlement

namespace ForecastSettlement

/-- the forecasts made on the series of a candle for its close -/
def seriesForecasts (candle : Candle) (made : List (Exchange × AgentForecast)) :
    Finset ForecastId :=
  ((made.filter fun p => p.1 = candle.exchange ∧ p.2.forecastId.symbol = candle.symbol ∧
    p.2.forecastId.timeframe = candle.timeframe ∧
    p.2.forecastId.targetAt = candle.closedAt).map fun p => p.2.forecastId).toFinset

/-- an outcome on its own series: settled by the candle of its target, priced from the reference it
recorded itself, and compared with the forecasts of its series and target -/
structure Right (x : ForecastSettlement) : Prop where
  target : x.outcome.realizedAt = x.candle.closedAt ∧
    x.outcome.forecastId.targetAt = x.candle.closedAt
  recorded : ∃ p ∈ x.made, p.2.forecastId = x.outcome.forecastId
  series : ∀ p ∈ x.made, p.2.forecastId = x.outcome.forecastId → p.1 = x.candle.exchange ∧
    p.2.forecastId.symbol = x.candle.symbol ∧ p.2.forecastId.timeframe = x.candle.timeframe
  realizedReturn : x.outcome.outcomeId.realizedPrice = x.candle.close ∧
    x.outcome.evidence.realizedReturn =
      x.candle.close / x.outcome.forecastId.referencePrice - 1
  brierLoss : 0 ≤ x.outcome.brierLoss ∧ x.outcome.brierLoss ≤ 1
  marginalContribution : -1 ≤ x.outcome.marginalContribution ∧ x.outcome.marginalContribution ≤ 1
  leaveOneOut : x.outcome.marginalContribution =
    marginalOver (seriesForecasts x.candle x.made) x.outcome.forecastId
      (realizedUp (x.candle.close / x.outcome.forecastId.referencePrice - 1))

end ForecastSettlement

namespace Evaluation

/-- a service at its start, with or without a store -/
def start (durable : Bool) : Evaluation := ⟨⟨{}, if durable then some ∅ else none⟩, [], []⟩

/-- the write of the outcomes is not refused -/
def Writes (e : Evaluator) (fate : WriteFate) : Prop := e.repository = none ∨ fate ≠ .refused

instance (e : Evaluator) (fate : WriteFate) : Decidable (Writes e fate) :=
  inferInstanceAs (Decidable (_ ∨ _))

/-- the settlements a candle brings -/
def settlementsOf (w : Evaluation) (candle : Candle) : List ForecastSettlement :=
  match settleGroup candle (w.evaluator.service.cohort candle) with
  | .ok outcomes => outcomes.map fun o => ⟨candle, o, w.made⟩
  | .error _ => []

variable (number : ℚ → ℚ)

def settle (fate : WriteFate) (candle : Candle) (w : Evaluation) :
    Except Error (List AgentForecastOutcome) × Evaluation :=
  let result := Evaluator.settle number fate candle w.evaluator
  (result.1,
    { w with
      evaluator := result.2
      settlements :=
        if Writes w.evaluator fate then w.settlements ++ w.settlementsOf candle
        else w.settlements })

def record (o : Evaluator.Observation) (w : Evaluation) : Evaluation :=
  match Evaluator.record number o w.evaluator with
  | (.ok stored, e) =>
    { w with evaluator := e, made := w.made ++ stored.map fun f => (o.candle.exchange, f) }
  | (.error _, e) => { w with evaluator := e }

def step (w : Evaluation) : EvaluationCall → Evaluation
  | .settle candle fate => (settle number fate candle w).2
  | .observe o =>
    match settle number o.outcomesFate o.candle w with
    | (.ok _, w') => record number o w'
    | (.error _, w') => w'

/-- the steps are those of the service -/
theorem step_observe (w : Evaluation) (o : Evaluator.Observation) :
    (step number w (.observe o)).evaluator = (Evaluator.observe number o w.evaluator).2 := by
  simp only [step, settle, Evaluator.observe]
  cases hs : Evaluator.settle number o.outcomesFate o.candle w.evaluator with
  | mk result e =>
    cases result with
    | error err => rfl
    | ok outcomes =>
      simp only [record]
      cases hr : Evaluator.record number o e with
      | mk result' e' => cases result' <;> rfl

/-- an outcome the memory or the store holds -/
def Held (w : Evaluation) (o : AgentForecastOutcome) : Prop :=
  o ∈ w.evaluator.service.outcomes.rows ∨
    ∃ rows, w.evaluator.repository = some rows ∧ rows.outcomes.lookup o.forecastId = some o

/-- what every settlement should be -/
structure Sound (w : Evaluation) : Prop where
  right : ∀ o, w.Held o → ∃ x ∈ w.settlements, x.outcome = o ∧ x.Right
  once : ∀ o o', w.Held o → w.Held o' → o.forecastId = o'.forecastId → o.outcomeId = o'.outcomeId

/-- a candle pools all forecasts of its series and close, with one reference price -/
structure Pooled (w : Evaluation) (candle : Candle) : Prop where
  oneExchange : ∀ f ∈ w.evaluator.service.cohort candle, ∀ p ∈ w.made,
    p.2.forecastId = f.forecastId → p.1 = candle.exchange
  oneReference : ∀ f ∈ w.evaluator.service.cohort candle,
    ∀ g ∈ w.evaluator.service.cohort candle,
      f.forecastId.referencePrice = g.forecastId.referencePrice
  complete : ∀ p ∈ w.made, p.1 = candle.exchange → p.2.forecastId.symbol = candle.symbol →
    p.2.forecastId.timeframe = candle.timeframe → p.2.forecastId.targetAt = candle.closedAt →
      ∃ f ∈ w.evaluator.service.cohort candle, f.forecastId = p.2.forecastId

instance (w : Evaluation) (candle : Candle) : Decidable (w.Pooled candle) :=
  decidable_of_iff
    ((∀ f ∈ w.evaluator.service.cohort candle, ∀ p ∈ w.made,
        p.2.forecastId = f.forecastId → p.1 = candle.exchange) ∧
      (∀ f ∈ w.evaluator.service.cohort candle, ∀ g ∈ w.evaluator.service.cohort candle,
        f.forecastId.referencePrice = g.forecastId.referencePrice) ∧
      ∀ p ∈ w.made, p.1 = candle.exchange → p.2.forecastId.symbol = candle.symbol →
        p.2.forecastId.timeframe = candle.timeframe → p.2.forecastId.targetAt = candle.closedAt →
          ∃ f ∈ w.evaluator.service.cohort candle, f.forecastId = p.2.forecastId)
    ⟨fun ⟨h, h', h''⟩ => ⟨h, h', h''⟩, fun h => ⟨h.oneExchange, h.oneReference, h.complete⟩⟩

/-- a candle that settles anything, and whose outcomes are written, pools one series -/
def Meets (w : Evaluation) : EvaluationCall → Prop
  | .settle candle fate => Writes w.evaluator fate →
      w.evaluator.service.cohort candle ≠ [] → w.Pooled candle
  | .observe o => Writes w.evaluator o.outcomesFate →
      w.evaluator.service.cohort o.candle ≠ [] → w.Pooled o.candle

instance Meets.decidable (w : Evaluation) : (call : EvaluationCall) → Decidable (Meets w call)
  | .settle _ _ => inferInstanceAs (Decidable (_ → _ → _))
  | .observe _ => inferInstanceAs (Decidable (_ → _ → _))

end Evaluation

namespace Evaluator

variable {number : ℚ → ℚ} {fate : WriteFate} {candle : Candle} {e : Evaluator}

/-- what a settlement leaves -/
inductive Settled (number : ℚ → ℚ) (fate : WriteFate) (candle : Candle) (e : Evaluator) :
    Evaluator → Prop
  | unchanged : Settled number fate candle e e
  | memory (outcomes : List AgentForecastOutcome) (hrepo : e.repository = none)
      (hgroup : settleGroup candle (e.service.cohort candle) = .ok outcomes) :
      Settled number fate candle e ⟨e.service.settled outcomes, none⟩
  | lost (outcomes : List AgentForecastOutcome) (rows rows' : EvaluationRows)
      (hrepo : e.repository = some rows) (hfate : fate = .lost)
      (hgroup : settleGroup candle (e.service.cohort candle) = .ok outcomes) (hne : outcomes ≠ [])
      (hsave : rows.saveAgentForecastOutcomes number outcomes = .ok (outcomes, rows')) :
      Settled number fate candle e ⟨e.service, some rows'⟩
  | saved (outcomes : List AgentForecastOutcome) (rows rows' : EvaluationRows)
      (hrepo : e.repository = some rows) (hfate : fate = .saved)
      (hgroup : settleGroup candle (e.service.cohort candle) = .ok outcomes) (hne : outcomes ≠ [])
      (hsave : rows.saveAgentForecastOutcomes number outcomes = .ok (outcomes, rows')) :
      Settled number fate candle e ⟨e.service.settled outcomes, some rows'⟩

theorem settle_settled : Settled number fate candle e (settle number fate candle e).2 := by
  unfold settle
  dsimp only
  split_ifs with hempty
  · exact .unchanged
  cases hgroup : settleGroup candle (e.service.cohort candle) with
  | error err => exact .unchanged
  | ok outcomes =>
    have hne : outcomes ≠ [] := by
      intro hnil
      have hids := settleGroup_ids hgroup
      rw [hnil, List.map_nil] at hids
      exact hempty (List.map_eq_nil_iff.1 hids.symm)
    obtain ⟨first, rest, rfl⟩ := List.exists_cons_of_ne_nil hne
    cases hrepo : e.repository with
    | none => exact .memory _ hrepo hgroup
    | some rows =>
      dsimp only [persist]
      cases hcommit : fate.commit (⟨.database, "Failed to persist agent forecast outcomes"⟩ : Error)
          (EvaluationRows.saveAgentForecastOutcomes number (first :: rest)) rows with
      | mk result rows' =>
        cases result with
        | ok stored =>
          obtain ⟨hfate, hsave⟩ := WriteFate.commit_ok hcommit
          obtain ⟨hstored, -⟩ := EvaluationRows.saveAgentForecastOutcomes_ok hsave
          rw [hstored] at hsave ⊢
          exact .saved _ rows rows' hrepo hfate hgroup hne hsave
        | error err =>
          rcases WriteFate.commit_error hcommit with hrows | ⟨hfate, stored, hsave⟩
          · rw [hrows, ← hrepo]
            exact .unchanged
          · obtain ⟨hstored, -⟩ := EvaluationRows.saveAgentForecastOutcomes_ok hsave
            rw [hstored] at hsave
            exact .lost _ rows rows' hrepo hfate hgroup hne hsave

/-- the outcomes a store holds -/
def storedOutcomes (repository : Option EvaluationRows) :
    Option (Dict ForecastId AgentForecastOutcome) := repository.map EvaluationRows.outcomes

/-- the service with more forecasts -/
def recorded (s : AgentEvaluationService) (forecasts : List AgentForecast) :
    AgentEvaluationService :=
  { s with forecasts := s.forecasts.update forecasts }

/-- what recording forecasts returns and leaves -/
inductive Recorded (number : ℚ → ℚ) (o : Observation) (e : Evaluator) :
    Except Error (List AgentForecast) → Evaluator → Prop
  | raised (err : Error) : Recorded number o e (.error err) e
  | nothing (hforecasts : o.forecasts = .ok []) : Recorded number o e (.ok []) e
  | memory (forecasts : List AgentForecast) (hrepo : e.repository = none)
      (hforecasts : o.forecasts = .ok forecasts) :
      Recorded number o e (.ok forecasts) ⟨recorded e.service forecasts, none⟩
  | lost (err : Error) (forecasts : List AgentForecast) (rows rows' : EvaluationRows)
      (hrepo : e.repository = some rows) (hfate : o.forecastsFate = .lost)
      (hforecasts : o.forecasts = .ok forecasts) (hne : forecasts ≠ [])
      (hsave : rows.saveAgentForecasts number forecasts = .ok (forecasts, rows')) :
      Recorded number o e (.error err) ⟨e.service, some rows'⟩
  | saved (forecasts : List AgentForecast) (rows rows' : EvaluationRows)
      (hrepo : e.repository = some rows) (hfate : o.forecastsFate = .saved)
      (hforecasts : o.forecasts = .ok forecasts) (hne : forecasts ≠ [])
      (hsave : rows.saveAgentForecasts number forecasts = .ok (forecasts, rows')) :
      Recorded number o e (.ok forecasts) ⟨recorded e.service forecasts, some rows'⟩

theorem record_recorded (number : ℚ → ℚ) (o : Observation) :
    Recorded number o e (record number o e).1 (record number o e).2 := by
  unfold record
  cases hforecasts : o.forecasts with
  | error err => exact .raised err
  | ok forecasts =>
    cases forecasts with
    | nil => exact .nothing hforecasts
    | cons first rest =>
      cases hrepo : e.repository with
      | none => exact .memory _ hrepo hforecasts
      | some rows =>
        dsimp only [persist]
        cases hcommit : o.forecastsFate.commit
            (⟨.database, "Failed to persist agent forecasts"⟩ : Error)
            (EvaluationRows.saveAgentForecasts number (first :: rest)) rows with
        | mk result rows' =>
          cases result with
          | ok stored =>
            obtain ⟨hfate, hsave⟩ := WriteFate.commit_ok hcommit
            obtain ⟨hstored, -⟩ := EvaluationRows.saveAgentForecasts_ok hsave
            rw [hstored] at hsave ⊢
            exact .saved _ rows rows' hrepo hfate hforecasts (by simp) hsave
          | error err =>
            rcases WriteFate.commit_error hcommit with hrows | ⟨hfate, stored, hsave⟩
            · rw [hrows, ← hrepo]
              exact .raised err
            · obtain ⟨hstored, -⟩ := EvaluationRows.saveAgentForecasts_ok hsave
              rw [hstored] at hsave
              exact .lost err _ rows rows' hrepo hfate hforecasts (by simp) hsave

/-- recording forecasts leaves outcomes, buckets and their rows as they were -/
theorem record_cases {o : Observation} {result : Except Error (List AgentForecast)} {e' : Evaluator}
    (h : record number o e = (result, e')) :
    storedOutcomes e'.repository = storedOutcomes e.repository ∧
      e'.service = match result with
        | .ok stored => recorded e.service stored
        | .error _ => e.service := by
  have hr := record_recorded (e := e) number o
  rw [h] at hr
  cases hr with
  | raised err => exact ⟨rfl, rfl⟩
  | nothing hforecasts => exact ⟨rfl, rfl⟩
  | memory forecasts hrepo hforecasts => exact ⟨by rw [hrepo], rfl⟩
  | lost err forecasts rows rows' hrepo hfate hforecasts hne hsave =>
    refine ⟨?_, rfl⟩
    rw [hrepo, storedOutcomes, storedOutcomes, Option.map_some, Option.map_some,
      (EvaluationRows.saveAgentForecasts_ok hsave).2.1]
  | saved forecasts rows rows' hrepo hfate hforecasts hne hsave =>
    refine ⟨?_, rfl⟩
    rw [hrepo, storedOutcomes, storedOutcomes, Option.map_some, Option.map_some,
      (EvaluationRows.saveAgentForecasts_ok hsave).2.1]

/-- the ids a cohort settles are new to the memory -/
theorem cohort_fresh {outcomes : List AgentForecastOutcome}
    (hgroup : settleGroup candle (e.service.cohort candle) = .ok outcomes) :
    (outcomes.map AgentForecastOutcome.forecastId).Nodup ∧
      ∀ o ∈ outcomes, e.service.outcomes.get? o.forecastId = none := by
  have hids := settleGroup_ids hgroup
  constructor
  · rw [hids]
    exact e.service.forecasts.nodup.sublist ((List.filter_sublist).map _)
  · intro o ho
    have hmem : o.forecastId ∈ (e.service.cohort candle).map AgentForecast.forecastId := by
      rw [← hids]
      exact List.mem_map_of_mem ho
    obtain ⟨f, hf, hid⟩ := List.mem_map.1 hmem
    have hcohort := (List.mem_filter.1 hf).2
    rw [decide_eq_true_eq] at hcohort
    rw [← hid]
    exact hcohort.1

/-- a settlement appends its outcomes to the memory -/
theorem settled_rows {outcomes : List AgentForecastOutcome}
    (hgroup : settleGroup candle (e.service.cohort candle) = .ok outcomes) :
    (e.service.settled outcomes).outcomes.rows = e.service.outcomes.rows ++ outcomes :=
  OrderedDict.rows_update_new (cohort_fresh hgroup).1 (cohort_fresh hgroup).2

end Evaluator

namespace Evaluation

variable {number : ℚ → ℚ} {w : Evaluation}

/-- what every step keeps -/
structure Keeps (w : Evaluation) : Prop where
  known : ∀ f ∈ w.evaluator.service.forecasts.rows, ∃ p ∈ w.made, p.2.forecastId = f.forecastId
  right : ∀ x ∈ w.settlements, x.Right
  held : ∀ o, w.Held o → ∃ x ∈ w.settlements, x.outcome = o
  agrees : ∀ rows, w.evaluator.repository = some rows → ∀ o ∈ w.evaluator.service.outcomes.rows,
    ∃ row, rows.outcomes.lookup o.forecastId = some row ∧ row.outcomeId = o.outcomeId

theorem Keeps.sound (hk : Keeps w) : Sound w := by
  refine ⟨fun o ho => ?_, fun o o' ho ho' hid => ?_⟩
  · obtain ⟨x, hx, hxo⟩ := hk.held o ho
    exact ⟨x, hx, hxo, hk.right x hx⟩
  have hmixed : ∀ o o', o ∈ w.evaluator.service.outcomes.rows → (∃ rows,
      w.evaluator.repository = some rows ∧ rows.outcomes.lookup o'.forecastId = some o') →
      o.forecastId = o'.forecastId → o.outcomeId = o'.outcomeId := by
    rintro o o' ho ⟨rows, hrows, ho'⟩ hid
    obtain ⟨row, hrow, hrid⟩ := hk.agrees rows hrows o ho
    rw [hid, ho'] at hrow
    rw [Option.some.inj hrow, hrid]
  rcases ho with ho | ho
  · rcases ho' with ho' | ho'
    · rw [List.inj_on_of_nodup_map w.evaluator.service.outcomes.nodup ho ho' hid]
    · exact hmixed o o' ho ho' hid
  · rcases ho' with ho' | ho'
    · exact (hmixed o' o ho' ho hid.symm).symm
    · obtain ⟨rows, hrows, ho⟩ := ho
      obtain ⟨rows', hrows', ho'⟩ := ho'
      rw [hrows, Option.some.injEq] at hrows'
      rw [← hrows', ← hid, ho] at ho'
      rw [Option.some.inj ho']

/-- **A pooled candle.** If the pool is all of one series and target, with one reference price, every
outcome the candle gives is right. -/
theorem settlementsOf_right (hk : Keeps w) {candle : Candle}
    (hpool : w.evaluator.service.cohort candle ≠ [] → w.Pooled candle) :
    ∀ x ∈ w.settlementsOf candle, x.Right := by
  intro x hx
  unfold settlementsOf at hx
  cases hgroup : settleGroup candle (w.evaluator.service.cohort candle) with
  | error err =>
    rw [hgroup] at hx
    exact absurd hx List.not_mem_nil
  | ok outcomes =>
    rw [hgroup] at hx
    obtain ⟨o, ho, rfl⟩ := List.mem_map.1 hx
    obtain ⟨f, hf, first, hfirst, hsettles⟩ := Result.forall₂_mem (settleGroup_ok hgroup) ho
    have hp := hpool (List.ne_nil_of_mem hf)
    have hnd : ((w.evaluator.service.cohort candle).map AgentForecast.forecastId).Nodup :=
      w.evaluator.service.forecasts.nodup.sublist ((List.filter_sublist).map _)
    have hseries : ∀ g ∈ w.evaluator.service.cohort candle, g ∈ w.evaluator.service.forecasts.rows ∧
        g.forecastId.symbol = candle.symbol ∧ g.forecastId.timeframe = candle.timeframe ∧
          g.forecastId.targetAt = candle.closedAt := by
      intro g hg
      have hg' := List.mem_filter.1 hg
      simp only [decide_eq_true_eq] at hg'
      exact ⟨hg'.1, hg'.2.2⟩
    have hid : o.forecastId = f.forecastId := by
      rw [AgentForecastOutcome.forecastId, hsettles.outcomeId]
    have hreference : first.forecastId.referencePrice = f.forecastId.referencePrice :=
      hp.oneReference first (List.mem_of_head? hfirst) f hf
    -- the pool holds what was made on the series for the target, and nothing else
    have hids : poolIds (w.evaluator.service.cohort candle) =
        ForecastSettlement.seriesForecasts candle w.made := by
      ext id
      simp only [poolIds, ForecastSettlement.seriesForecasts, List.mem_toFinset, List.mem_map,
        List.mem_filter, decide_eq_true_eq]
      constructor
      · rintro ⟨g, hg, rfl⟩
        obtain ⟨hgm, hgs⟩ := hseries g hg
        obtain ⟨p, hpm, hpid⟩ := hk.known g hgm
        have hpe := hp.oneExchange g hg p hpm hpid
        refine ⟨p, ⟨hpm, hpe, ?_⟩, hpid⟩
        rw [hpid]
        exact hgs
      · rintro ⟨p, ⟨hpm, hpe, hps, hpt, hpa⟩, rfl⟩
        obtain ⟨g, hg, hgid⟩ := hp.complete p hpm hpe hps hpt hpa
        exact ⟨g, hg, hgid⟩
    obtain ⟨hfm, hfs, hft, hfa⟩ := hseries f hf
    refine ⟨⟨?_, ?_⟩, ?_, ?_, ⟨?_, ?_⟩, o.brierLoss_mem, o.marginalContribution_mem, ?_⟩
    · rw [AgentForecastOutcome.realizedAt, hsettles.outcomeId]
    · rw [hid]
      exact hfa
    · obtain ⟨p, hpm, hpid⟩ := hk.known f hfm
      exact ⟨p, hpm, by rw [hpid, hid]⟩
    · intro p hpm hpid
      dsimp only at hpid
      rw [hid] at hpid
      rw [hpid]
      exact ⟨hp.oneExchange f hf p hpm hpid, hfs, hft⟩
    · rw [hsettles.outcomeId]
    · rw [hsettles.evidence, hid, hreference]
      rfl
    · rw [AgentForecastOutcome.marginalContribution, hsettles.evidence, marginal_eq hnd, hids, hid,
        hreference]

/-- where an outcome in rows after a save comes from -/
theorem stored_or_new {rows rows' : EvaluationRows} {outcomes : List AgentForecastOutcome}
    (hsave : rows.saveAgentForecastOutcomes number outcomes = .ok (outcomes, rows'))
    {o : AgentForecastOutcome} (ho : rows'.outcomes.lookup o.forecastId = some o) :
    rows.outcomes.lookup o.forecastId = some o ∨ o ∈ outcomes := by
  obtain ⟨-, -, hlookup, -⟩ := EvaluationRows.saveAgentForecastOutcomes_ok hsave
  rw [hlookup] at ho
  cases hold : rows.outcomes.lookup o.forecastId with
  | some row =>
    rw [hold] at ho
    exact Or.inl ho
  | none =>
    rw [hold] at ho
    exact Or.inr (List.mem_of_find?_eq_some ho)

/-- a row stays -/
theorem stored_stays {rows rows' : EvaluationRows} {outcomes : List AgentForecastOutcome}
    (hsave : rows.saveAgentForecastOutcomes number outcomes = .ok (outcomes, rows'))
    {k : ForecastId} {row : AgentForecastOutcome} (hrow : rows.outcomes.lookup k = some row) :
    rows'.outcomes.lookup k = some row := by
  obtain ⟨-, -, hlookup, -⟩ := EvaluationRows.saveAgentForecastOutcomes_ok hsave
  rw [hlookup, hrow]
  rfl

theorem settle_keeps {fate : WriteFate} {candle : Candle} (hk : Keeps w)
    (hpool : Writes w.evaluator fate → w.evaluator.service.cohort candle ≠ [] → w.Pooled candle) :
    Keeps (settle number fate candle w).2 := by
  have hsettled : Evaluator.Settled number fate candle w.evaluator
    (settle number fate candle w).2.evaluator := Evaluator.settle_settled
  have hmade : (settle number fate candle w).2.made = w.made := rfl
  have hold : ∀ x ∈ w.settlements, x ∈ (settle number fate candle w).2.settlements := by
    intro x hx
    unfold settle
    dsimp only
    split_ifs
    · exact List.mem_append_left _ hx
    · exact hx
  have hnew : Writes w.evaluator fate → ∀ {outcomes},
      settleGroup candle (w.evaluator.service.cohort candle) = .ok outcomes → ∀ o ∈ outcomes,
        ∃ x ∈ (settle number fate candle w).2.settlements, x.outcome = o := by
    intro hwrites outcomes hgroup o ho
    refine ⟨⟨candle, o, w.made⟩, ?_, rfl⟩
    unfold settle
    dsimp only
    rw [if_pos hwrites, settlementsOf, hgroup]
    exact List.mem_append_right _ (List.mem_map_of_mem ho)
  have hright : ∀ x ∈ (settle number fate candle w).2.settlements, x.Right := by
    intro x hx
    unfold settle at hx
    dsimp only at hx
    split_ifs at hx with hwrites
    · rcases List.mem_append.1 hx with hx | hx
      · exact hk.right x hx
      · exact settlementsOf_right hk (hpool hwrites) x hx
    · exact hk.right x hx
  have hheldOld : ∀ o, w.Held o → ∃ x ∈ (settle number fate candle w).2.settlements,
      x.outcome = o := by
    intro o ho
    obtain ⟨x, hx, hxo⟩ := hk.held o ho
    exact ⟨x, hold x hx, hxo⟩
  generalize (settle number fate candle w).2 = w' at *
  obtain ⟨e', made', settlements'⟩ := w'
  dsimp only at hsettled hmade hnew hright hheldOld
  subst hmade
  cases hsettled with
  | unchanged => exact ⟨hk.known, hright, hheldOld, hk.agrees⟩
  | memory outcomes hrepo hgroup =>
    refine ⟨hk.known, hright, fun o ho => ?_, fun rows hrows => absurd hrows (by simp)⟩
    rcases ho with ho | ⟨rows, hrows, -⟩
    · dsimp only at ho
      rw [Evaluator.settled_rows hgroup] at ho
      rcases List.mem_append.1 ho with ho | ho
      · exact hheldOld o (Or.inl ho)
      · exact hnew (Or.inl hrepo) hgroup o ho
    · exact absurd hrows (by simp)
  | lost outcomes rows rows' hrepo hfate hgroup hne hsave =>
    have hwrites : Writes w.evaluator fate := Or.inr (by rw [hfate]; decide)
    refine ⟨hk.known, hright, fun o ho => ?_, fun r hr o ho => ?_⟩
    · rcases ho with ho | ⟨r, hr, ho⟩
      · exact hheldOld o (Or.inl ho)
      · rw [← Option.some.inj hr] at ho
        rcases stored_or_new hsave ho with ho | ho
        · exact hheldOld o (Or.inr ⟨rows, hrepo, ho⟩)
        · exact hnew hwrites hgroup o ho
    · obtain ⟨row, hrow, hid⟩ := hk.agrees rows hrepo o ho
      rw [← Option.some.inj hr]
      exact ⟨row, stored_stays hsave hrow, hid⟩
  | saved outcomes rows rows' hrepo hfate hgroup hne hsave =>
    have hwrites : Writes w.evaluator fate := Or.inr (by rw [hfate]; decide)
    refine ⟨hk.known, hright, fun o ho => ?_, fun r hr o ho => ?_⟩
    · rcases ho with ho | ⟨r, hr, ho⟩
      · dsimp only at ho
        rw [Evaluator.settled_rows hgroup] at ho
        rcases List.mem_append.1 ho with ho | ho
        · exact hheldOld o (Or.inl ho)
        · exact hnew hwrites hgroup o ho
      · rw [← Option.some.inj hr] at ho
        rcases stored_or_new hsave ho with ho | ho
        · exact hheldOld o (Or.inr ⟨rows, hrepo, ho⟩)
        · exact hnew hwrites hgroup o ho
    · rw [← Option.some.inj hr]
      dsimp only at ho
      rw [Evaluator.settled_rows hgroup] at ho
      rcases List.mem_append.1 ho with ho | ho
      · obtain ⟨row, hrow, hid⟩ := hk.agrees rows hrepo o ho
        exact ⟨row, stored_stays hsave hrow, hid⟩
      · obtain ⟨-, -, hlookup, hfound⟩ := EvaluationRows.saveAgentForecastOutcomes_ok hsave
        rcases hfound o ho with hnone | ⟨row, hrow, hread⟩
        · cases hf : outcomes.find? fun x => x.forecastId = o.forecastId with
          | none =>
            have hno := List.find?_eq_none.1 hf o ho
            simp at hno
          | some x =>
            have hx : x ∈ outcomes := List.mem_of_find?_eq_some hf
            have hxid : x.forecastId = o.forecastId := by simpa using List.find?_some hf
            have hxo := List.inj_on_of_nodup_map (Evaluator.cohort_fresh hgroup).1 hx ho hxid
            refine ⟨x, ?_, by rw [hxo]⟩
            rw [hlookup, hnone, hf]
            rfl
        · exact ⟨row, stored_stays hsave hrow, (EvaluationRows.readOutcome_outcomeId hread).symm⟩

theorem held_iff {o : AgentForecastOutcome} : w.Held o ↔
    o ∈ w.evaluator.service.outcomes.rows ∨
      ∃ d, Evaluator.storedOutcomes w.evaluator.repository = some d ∧
        d.lookup o.forecastId = some o := by
  simp only [Held, Evaluator.storedOutcomes, Option.map_eq_some_iff]
  constructor
  · rintro (ho | ⟨rows, hrows, ho⟩)
    · exact Or.inl ho
    · exact Or.inr ⟨_, ⟨rows, hrows, rfl⟩, ho⟩
  · rintro (ho | ⟨d, ⟨rows, hrows, rfl⟩, ho⟩)
    · exact Or.inl ho
    · exact Or.inr ⟨rows, hrows, ho⟩

/-- recording leaves every outcome and settlement as it was, and knows the forecasts it adds -/
theorem record_leaves (number : ℚ → ℚ) (o : Evaluator.Observation) (w : Evaluation) :
    Evaluator.storedOutcomes (record number o w).evaluator.repository =
        Evaluator.storedOutcomes w.evaluator.repository ∧
      (record number o w).evaluator.service.outcomes = w.evaluator.service.outcomes ∧
      (record number o w).settlements = w.settlements ∧
      ∃ stored, (record number o w).evaluator.service.forecasts =
          w.evaluator.service.forecasts.update stored ∧
        (record number o w).made = w.made ++ stored.map fun f => (o.candle.exchange, f) := by
  unfold record
  cases hr : Evaluator.record number o w.evaluator with
  | mk result e' =>
    obtain ⟨hrows, hservice⟩ := Evaluator.record_cases hr
    cases result with
    | error err =>
      refine ⟨hrows, by rw [hservice], rfl, [], ?_, (List.append_nil _).symm⟩
      rw [hservice]
      rfl
    | ok stored =>
      refine ⟨hrows, by rw [hservice]; rfl, rfl, stored, ?_, rfl⟩
      rw [hservice]
      rfl

theorem record_keeps (o : Evaluator.Observation) (hk : Keeps w) : Keeps (record number o w) := by
  obtain ⟨hrows, hout, hsettlements, stored, hforecasts, hmade⟩ :=
    record_leaves number o w
  have hheld : ∀ x, (record number o w).Held x → w.Held x := by
    intro x hx
    rw [held_iff, hrows, hout] at hx
    exact held_iff.2 hx
  refine ⟨fun f hf => ?_, ?_, fun x hx => ?_, fun rows hr x hx => ?_⟩
  · rw [hmade]
    rw [hforecasts] at hf
    rcases OrderedDict.mem_rows_update hf with hg | hg
    · exact ⟨(o.candle.exchange, f), List.mem_append_right _ (List.mem_map_of_mem hg), rfl⟩
    · obtain ⟨p, hp, hid⟩ := hk.known f hg
      exact ⟨p, List.mem_append_left _ hp, hid⟩
  · rw [hsettlements]
    exact hk.right
  · rw [hsettlements]
    exact hk.held x (hheld x hx)
  · rw [hout] at hx
    have hd : Evaluator.storedOutcomes w.evaluator.repository = some rows.outcomes := by
      rw [← hrows, hr]
      rfl
    obtain ⟨rows', hrows', hd'⟩ := Option.map_eq_some_iff.1 hd
    rw [← hd']
    exact hk.agrees rows' hrows' x hx

/-- an observation settles, and then records unless the settlement raised -/
theorem step_observe_cases (number : ℚ → ℚ) (w : Evaluation) (o : Evaluator.Observation) :
    step number w (.observe o) = (settle number o.outcomesFate o.candle w).2 ∨
      step number w (.observe o) = record number o (settle number o.outcomesFate o.candle w).2 := by
  simp only [step]
  cases settle number o.outcomesFate o.candle w with
  | mk result w' =>
    cases result with
    | error err => exact Or.inl rfl
    | ok outcomes => exact Or.inr rfl

theorem step_keeps (call : EvaluationCall) (hm : Meets w call) (hk : Keeps w) :
    Keeps (step number w call) := by
  cases call with
  | settle candle fate => exact settle_keeps hk hm
  | observe o =>
    have hs : Keeps (settle number o.outcomesFate o.candle w).2 := settle_keeps hk hm
    rcases step_observe_cases number w o with hstep | hstep
    · rw [hstep]
      exact hs
    · rw [hstep]
      exact record_keeps o hs

/-- an outcome, once held, stays -/
theorem settle_holds {fate : WriteFate} {candle : Candle} {o : AgentForecastOutcome}
    (ho : w.Held o) : (settle number fate candle w).2.Held o := by
  have hsettled : Evaluator.Settled number fate candle w.evaluator
    (settle number fate candle w).2.evaluator := Evaluator.settle_settled
  generalize (settle number fate candle w).2 = w' at *
  obtain ⟨e', made', settlements'⟩ := w'
  dsimp only at hsettled
  cases hsettled with
  | unchanged => exact ho
  | memory outcomes hrepo hgroup =>
    rcases ho with ho | ⟨rows, hrows, -⟩
    · refine Or.inl ?_
      dsimp only
      rw [Evaluator.settled_rows hgroup]
      exact List.mem_append_left _ ho
    · rw [hrepo] at hrows
      exact absurd hrows (by simp)
  | lost outcomes rows rows' hrepo hfate hgroup hne hsave =>
    rcases ho with ho | ⟨r, hr, ho⟩
    · exact Or.inl ho
    · rw [hrepo, Option.some.injEq] at hr
      rw [← hr] at ho
      exact Or.inr ⟨rows', rfl, stored_stays hsave ho⟩
  | saved outcomes rows rows' hrepo hfate hgroup hne hsave =>
    rcases ho with ho | ⟨r, hr, ho⟩
    · refine Or.inl ?_
      dsimp only
      rw [Evaluator.settled_rows hgroup]
      exact List.mem_append_left _ ho
    · rw [hrepo, Option.some.injEq] at hr
      rw [← hr] at ho
      exact Or.inr ⟨rows', rfl, stored_stays hsave ho⟩

theorem step_holds {o : AgentForecastOutcome} (call : EvaluationCall) (ho : w.Held o) :
    (step number w call).Held o := by
  cases call with
  | settle candle fate => exact settle_holds ho
  | observe x =>
    have hs : (settle number x.outcomesFate x.candle w).2.Held o := settle_holds ho
    rcases step_observe_cases number w x with hstep | hstep
    · rw [hstep]
      exact hs
    · obtain ⟨hrows, hout, -⟩ :=
        record_leaves number x (settle number x.outcomesFate x.candle w).2
      rw [hstep, held_iff, hrows, hout]
      exact held_iff.1 hs

theorem start_keeps (durable : Bool) : Keeps (start durable) := by
  refine ⟨fun f hf => absurd hf List.not_mem_nil, fun x hx => absurd hx List.not_mem_nil,
    fun o ho => ?_, fun rows _ o ho => absurd ho List.not_mem_nil⟩
  rcases ho with ho | ⟨rows, hrows, ho⟩
  · exact absurd ho List.not_mem_nil
  · cases durable with
    | false => exact absurd hrows (by simp [start])
    | true =>
      have hr : (∅ : EvaluationRows) = rows := Option.some.inj hrows
      have hempty : (∅ : EvaluationRows).outcomes = ∅ := rfl
      rw [← hr, hempty] at ho
      exact absurd ho (by simp)

/-- **Settlement.** In a run in which every candle that settles anything pools exactly the forecasts
made on its exchange, symbol and timeframe for its close, all with one reference price, every outcome
held is right and the only one of its forecast; and no outcome is ever taken back, in any run. -/
theorem settlement_right (number : ℚ → ℚ) (durable : Bool) (calls : List EvaluationCall)
    (hm : Along (step number) Meets (start durable) calls) :
    Sound (run (step number) (start durable) calls) ∧
      ∀ more o, (run (step number) (start durable) calls).Held o →
        (run (step number) (start durable) (calls ++ more)).Held o := by
  refine ⟨?_, fun more o ho => ?_⟩
  · exact (along_inv (fun _ call hmeets hk => step_keeps call hmeets hk) (start_keeps durable)
      hm).sound
  · rw [run_append]
    exact run_inv (P := fun w : Evaluation => w.Held o) (fun _ call hw => step_holds call hw) ho more

/-! ## two exchanges, one symbol -/

/-- a flat one-minute candle of BTCUSDT -/
def sampleCandle (exchange : Exchange) (price : ℚ) (minute : ℕ) : Candle :=
  { exchange := exchange, symbol := "BTCUSDT", timeframe := "1m", openPrice := price,
    high := price, low := price, close := price, volume := 1, closedAt := minute * 60000000,
    receivedAt := minute * 60000000 }

def sampleDefinition : AgentDefinition :=
  { agentName := "MomentumAgent", version := "1.0.0", description := "momentum of closes",
    requiredInputs := ["close"], capabilities := ["analysis"], decisionRole := .shadow,
    critical := false, timeoutMs := 1000, maxAttempts := 1 }

def sampleRegistrations (name : String) : Option AgentRegistration :=
  if name = "MomentumAgent" then
    some { agentName := "MomentumAgent", version := "1.0.0", description := "momentum of closes",
           requiredInputs := ["close"], capabilities := ["analysis"], decisionRole := .shadow,
           critical := false, timeoutMs := 1000, maxAttempts := 1, enabled := true,
           definitionHash := sampleDefinition }
  else none

def sampleOutput : AgentOutput :=
  ⟨"MomentumAgent", .completed, .buy, 80, "rising closes", [], [], 5, 0, by decide⟩

/-- the agent's forecast on a candle, saved without faults -/
def sampleObservation (candle : Candle) (correlationId : String) : Evaluator.Observation :=
  ⟨candle, correlationId, [sampleOutput], sampleRegistrations, .saved, .saved⟩

/-- forecasts on both exchanges, then the next close of one of them -/
def twoExchanges : List EvaluationCall :=
  [.observe (sampleObservation (sampleCandle .binance 100 1) "cycle-1"),
    .observe (sampleObservation (sampleCandle .bybit 102 1) "cycle-2"),
    .settle (sampleCandle .binance 101 2) .saved]

/-- the forecast made on one exchange at 102 is settled by the other's candle, against its 100 -/
theorem mixed_exchanges :
    ¬ Sound (run (step id) (start true) twoExchanges) ∧
      ∃ o ∈ (run (step id) (start true) twoExchanges).evaluator.service.outcomes.rows,
        o.forecastId.referencePrice = 102 ∧ o.evidence.realizedReturn = 101 / 100 - 1 := by
  have hrun : ∃ o ∈ (run (step id) (start true) twoExchanges).evaluator.service.outcomes.rows,
      o.forecastId.referencePrice = 102 ∧ o.evidence.realizedReturn = 101 / 100 - 1 ∧
        ∀ x ∈ (run (step id) (start true) twoExchanges).settlements, x.outcome = o →
          ∃ p ∈ x.made, p.2.forecastId = o.forecastId ∧ p.1 ≠ x.candle.exchange := by
    decide +kernel
  obtain ⟨o, ho, hprice, hreturn, hexchange⟩ := hrun
  refine ⟨fun hsound => ?_, o, ho, hprice, hreturn⟩
  obtain ⟨x, hx, hxo, hright⟩ := hsound.right o (Or.inl ho)
  obtain ⟨p, hp, hid, hne⟩ := hexchange x hx hxo
  rw [← hxo] at hid
  exact hne (hright.series p hp hid).1

/-- a forecast and the next close of its own series, lost once -/
theorem settlement_right_sample :
    let calls : List EvaluationCall :=
      [.observe (sampleObservation (sampleCandle .binance 100 1) "cycle-1"),
        .settle (sampleCandle .binance 101 2) .lost,
        .settle (sampleCandle .binance 101 2) .saved]
    Sound (run (step id) (start true) calls) ∧
      ∀ more o, (run (step id) (start true) calls).Held o →
        (run (step id) (start true) (calls ++ more)).Held o :=
  settlement_right id true _ (by decide +kernel)

end Evaluation

end CapitalCipher
