/-
Restart of the evaluator: what `initialize` rebuilds from the rows against the service that wrote them.

  • `Mirrors.rebuild`: from rows that mirror a service, and read back as they were saved, the rebuilt
    service has the same histories when every agent's outcomes are held in the order of their keys.
  • `evaluation_survives_restart`: so it is in every run whose writes are acknowledged, read back as
    saved, stay within the bounded queries and settle each agent's forecasts in that order.
  • `interleaved_series`: two series settled out of order come back in another order.
-/
import CapitalCipher.Agents.Settlement

namespace CapitalCipher

open Lib

/-- the agent version behind a forecast id -/
def ForecastId.agent (id : ForecastId) : String × String := (id.agentName, id.agentVersion)

/-- `(realized_at, outcome_id)` -/
def settledKey (h : EvaluationDigests) (o : AgentForecastOutcome) : ℕ ×ₗ List Char :=
  toLex (o.realizedAt, (h.outcome o.outcomeId).toList)

namespace AgentEvaluationService

variable {s s' : AgentEvaluationService}

/-- every outcome's forecast is known -/
def Known (s : AgentEvaluationService) : Prop :=
  ∀ o ∈ s.outcomes.rows, s.forecasts.get? o.forecastId ≠ none

theorem agent_of_get? {id : ForecastId} {f : AgentForecast} (hf : s.forecasts.get? id = some f) :
    f.agent = id.agent := by
  rw [← (OrderedDict.get?_eq_some.1 hf).2]
  rfl

theorem map_agent {id : ForecastId} (h : s.forecasts.get? id ≠ none) :
    (s.forecasts.get? id).map AgentForecast.agent = some id.agent := by
  obtain ⟨f, hf⟩ := Option.ne_none_iff_exists'.1 h
  rw [hf, Option.map_some, agent_of_get? hf]

/-- an agent's outcomes are those whose id names it -/
theorem outcomesOf_eq (hk : s.Known) (agent : String × String) :
    s.outcomesOf agent = s.outcomes.rows.filter fun o => o.forecastId.agent = agent := by
  refine List.filter_congr fun o ho => ?_
  rw [map_agent (hk o ho)]
  simp

theorem indexed_eq {o : AgentForecastOutcome} (h : s.forecasts.get? o.forecastId ≠ none)
    (agent : String × String) (bucket : List ForecastId) :
    s.indexed agent bucket o =
      if o.forecastId.agent = agent ∧ o.forecastId ∉ bucket then bucket ++ [o.forecastId]
      else bucket := by
  obtain ⟨f, hf⟩ := Option.ne_none_iff_exists'.1 h
  rw [indexed, hf]
  dsimp only
  rw [agent_of_get? hf]

/-- new outcomes join their agent's bucket at its end -/
theorem foldl_indexed {outcomes : List AgentForecastOutcome} {agent : String × String}
    {bucket : List ForecastId} (hk : ∀ o ∈ outcomes, s.forecasts.get? o.forecastId ≠ none)
    (hnd : (outcomes.map AgentForecastOutcome.forecastId).Nodup)
    (hnew : ∀ o ∈ outcomes, o.forecastId ∉ bucket) :
    outcomes.foldl (s.indexed agent) bucket =
      bucket ++ (outcomes.filter fun o => o.forecastId.agent = agent).map
        AgentForecastOutcome.forecastId := by
  induction outcomes generalizing bucket with
  | nil => simp
  | cons o rest ih =>
    rw [List.map_cons, List.nodup_cons] at hnd
    have hrest := fun x hx => hk x (List.mem_cons_of_mem o hx)
    rw [List.foldl_cons, indexed_eq (hk o List.mem_cons_self)]
    by_cases hagent : o.forecastId.agent = agent
    · rw [if_pos ⟨hagent, hnew o List.mem_cons_self⟩, ih hrest hnd.2]
      · simp [hagent]
      · intro x hx hmem
        rcases List.mem_append.1 hmem with hmem | hmem
        · exact hnew x (List.mem_cons_of_mem o hx) hmem
        · apply hnd.1
          rw [← List.mem_singleton.1 hmem]
          exact List.mem_map_of_mem hx
    · rw [if_neg fun hand => hagent hand.1, ih hrest hnd.2
        fun x hx => hnew x (List.mem_cons_of_mem o hx)]
      simp [hagent]

/-! ## rebuilding the index -/

theorem rebuild_eq (h : EvaluationDigests) (hk : s.Known) (agent : String × String) :
    rebuildSettledIndex h s.forecasts s.outcomes agent =
      ((sortedBy (settledKey h) s.outcomes.rows).filter fun o => o.forecastId.agent = agent).map
        AgentForecastOutcome.forecastId := by
  have hmem : ∀ o ∈ sortedBy (settledKey h) s.outcomes.rows,
      s.forecasts.get? o.forecastId ≠ none := fun o ho => hk o ((mem_sortedBy _).1 ho)
  unfold rebuildSettledIndex
  change (sortedBy (settledKey h) s.outcomes.rows).filterMap _ = _
  generalize sortedBy (settledKey h) s.outcomes.rows = l at hmem
  induction l with
  | nil => rfl
  | cons o rest ih =>
    obtain ⟨f, hf⟩ := Option.ne_none_iff_exists'.1 (hmem o List.mem_cons_self)
    have hrest := ih fun x hx => hmem x (List.mem_cons_of_mem o hx)
    rw [List.filterMap_cons, hrest, hf]
    dsimp only
    rw [agent_of_get? hf]
    by_cases hagent : o.forecastId.agent = agent
    · simp [hagent]
    · simp [hagent]

/-- **Order.** Outcomes of an agent that are held in the order of their keys are the ones the sorted
log lists for it. -/
theorem sorted_outcomesOf {h : EvaluationDigests} {rows : List AgentForecastOutcome}
    {agent : String × String}
    (hsorted : (rows.filter fun o => o.forecastId.agent = agent).Pairwise fun x y =>
      settledKey h x < settledKey h y) {rows' : List AgentForecastOutcome} (hperm : rows'.Perm rows) :
    (sortedBy (settledKey h) rows').filter (fun o => o.forecastId.agent = agent) =
      rows.filter fun o => o.forecastId.agent = agent := by
  have hp := ((sortedBy_perm (settledKey h) rows').trans hperm).filter
    fun o => decide (o.forecastId.agent = agent)
  refine @List.Perm.eq_of_pairwise _ (fun x y => settledKey h x ≤ settledKey h y) _ _ ?_
    ((pairwise_sortedBy (settledKey h) rows').filter _) (hsorted.imp fun hlt => hlt.le) hp
  intro x y hx hy hxy hyx
  have hnd : ((rows.filter fun o => o.forecastId.agent = agent).map (settledKey h)).Nodup :=
    List.pairwise_map.2 (hsorted.imp fun hlt => hlt.ne)
  exact List.inj_on_of_nodup_map hnd (hp.mem_iff.1 hx) hy (le_antisymm hxy hyx)

/-! ## services that hold the same -/

/-- the same forecasts and outcomes, in any order -/
structure SameEvidence (s s' : AgentEvaluationService) : Prop where
  minimumSamples : s'.minimumSamples = s.minimumSamples
  forecasts : ∀ k, s'.forecasts.get? k = s.forecasts.get? k
  outcomes : ∀ k, s'.outcomes.get? k = s.outcomes.get? k

namespace SameEvidence

theorem mem_unsettled (hs : SameEvidence s s') (f : AgentForecast) :
    f ∈ s'.unsettled ↔ f ∈ s.unsettled := by
  simp only [unsettled, List.mem_filter, hs.outcomes]
  rw [(OrderedDict.rows_perm hs.forecasts).mem_iff]

theorem settledHistory (hs : SameEvidence s s') (hindex : s'.settledByAgent = s.settledByAgent)
    (agent : String × String) (limit : ℕ) :
    s'.settledHistory agent limit = s.settledHistory agent limit := by
  have hpair : s'.settledPair = s.settledPair := by
    funext id
    rw [settledPair, settledPair, hs.forecasts, hs.outcomes]
  simp only [AgentEvaluationService.settledHistory, hindex, hpair]

theorem outcomesOf_perm (hs : SameEvidence s s') (agent : String × String) :
    (s'.outcomesOf agent).Perm (s.outcomesOf agent) := by
  have hfilter : s'.outcomesOf agent = s'.outcomes.rows.filter fun o =>
      (s.forecasts.get? o.forecastId).map AgentForecast.agent = some agent := by
    simp only [outcomesOf, hs.forecasts]
  rw [hfilter]
  exact (OrderedDict.rows_perm hs.outcomes).filter _

theorem fmean_perm {values values' : List ℚ} (h : values.Perm values') :
    fmean values = fmean values' := by
  rw [fmean, fmean, h.sum_eq, h.length_eq]

/-- a card does not depend on the order of the outcomes behind it -/
theorem scorecard (hs : SameEvidence s s') (agent : String × String) :
    s'.scorecard agent = s.scorecard agent := by
  have hperm := hs.outcomesOf_perm agent
  have hdirectional := hperm.filterMap AgentForecastOutcome.correct
  have hnil : ((s'.outcomesOf agent).filterMap AgentForecastOutcome.correct = []) ↔
      ((s.outcomesOf agent).filterMap AgentForecastOutcome.correct = []) := by
    rw [← List.length_eq_zero_iff, ← List.length_eq_zero_iff, hdirectional.length_eq]
  simp only [AgentEvaluationService.scorecard, hs.minimumSamples, hperm.length_eq,
    hdirectional.length_eq, hdirectional.count_eq, hnil,
    fmean_perm (hperm.map AgentForecastOutcome.brierLoss),
    fmean_perm (hperm.map AgentForecastOutcome.marginalContribution)]

theorem scorecards_perm (hs : SameEvidence s s') : s'.scorecards.Perm s.scorecards := by
  have hagents : s'.settledAgents.Perm s.settledAgents := by
    have hrows := (OrderedDict.rows_perm hs.outcomes).filterMap fun o =>
      (s.forecasts.get? o.forecastId).map AgentForecast.agent
    refine (List.perm_ext_iff_of_nodup (List.nodup_reverse.2 (List.nodup_dedup _))
      (List.nodup_reverse.2 (List.nodup_dedup _))).2 fun agent => ?_
    simp only [List.mem_reverse, List.mem_dedup, hs.forecasts]
    exact hrows.mem_iff
  have hcards : s'.scorecard = s.scorecard := funext hs.scorecard
  refine ((sortedBy_perm _ _).trans ?_).trans (sortedBy_perm _ _).symm
  rw [hcards]
  exact hagents.map s.scorecard

end SameEvidence

/-! ## rows that mirror a service -/

/-- the queries list all of it, every row reads back as it was saved, and every agent's outcomes are
held in the order of their keys -/
structure Mirrors (h : EvaluationDigests) (number : ℚ → ℚ) (rows : EvaluationRows)
    (s : AgentEvaluationService) : Prop where
  forecasts : ∀ k, rows.forecasts.lookup k = s.forecasts.get? k
  outcomes : ∀ k, rows.outcomes.lookup k = s.outcomes.get? k
  readForecasts : ∀ f ∈ s.forecasts.rows, EvaluationRows.readForecast number f = .ok f
  readOutcomes : ∀ o ∈ s.outcomes.rows, EvaluationRows.readOutcome number o = .ok o
  inOrder : ∀ agent, (s.outcomes.rows.filter fun o => o.forecastId.agent = agent).Pairwise
    fun x y => settledKey h x < settledKey h y
  forecastsFit : s.forecasts.rows.length ≤ 100000
  outcomesFit : s.outcomes.rows.length ≤ 100000

/-- the buckets list each agent's outcomes in the order they are held -/
def Indexed (s : AgentEvaluationService) : Prop :=
  ∀ agent, s.settledByAgent agent = (s.outcomesOf agent).map AgentForecastOutcome.forecastId

section Rebuild

variable {h : EvaluationDigests} {number : ℚ → ℚ} {rows : EvaluationRows}

theorem listed {V : Type} {key : V → ForecastId} {d : OrderedDict key} {values : List V}
    (hperm : values.Perm d.rows) {read : V → Except Error V} (hread : ∀ v ∈ d.rows, read v = .ok v)
    (hfit : d.rows.length ≤ 100000) {K : Type} [LinearOrder K] (sort : V → K) :
    ∃ l, ((sortedBy sort values).take 100000).mapM read = .ok l ∧
      ∀ k, (OrderedDict.ofList key l).get? k = d.get? k := by
  have hsorted := (sortedBy_perm sort values).trans hperm
  refine ⟨sortedBy sort values, ?_, fun k => ?_⟩
  · rw [List.take_of_length_le (hsorted.length_eq.trans_le hfit),
      Result.mapM_ok (g := id) fun v hv => hread v (hsorted.mem_iff.1 hv), List.map_id]
  · have hnd : ((sortedBy sort values).map key).Nodup := ((hsorted.map key).nodup_iff).2 d.nodup
    ext v
    rw [OrderedDict.get?_ofList hnd, OrderedDict.get?_eq_some, hsorted.mem_iff]

/-- **A rebuilt evaluator.** From rows that mirror a service, `initialize` rebuilds its evidence and
its buckets. -/
theorem Mirrors.rebuild (hm : Mirrors h number rows s) (hk : s.Known) (hi : s.Indexed) :
    ∃ s', initialized h number s.minimumSamples rows = .ok s' ∧ SameEvidence s s' ∧
      s'.settledByAgent = s.settledByAgent := by
  obtain ⟨fs, hfs, hforecasts⟩ := listed (OrderedDict.values_perm hm.forecasts) hm.readForecasts
    hm.forecastsFit fun f : AgentForecast => (toLex (OrderDual.toDual f.forecastId.forecastAt,
      (h.forecast f.forecastId).toList) : ℕᵒᵈ ×ₗ List Char)
  obtain ⟨os, hos, houtcomes⟩ := listed (OrderedDict.values_perm hm.outcomes) hm.readOutcomes
    hm.outcomesFit fun o : AgentForecastOutcome => (toLex (OrderDual.toDual o.realizedAt,
      (h.outcome o.outcomeId).toList) : ℕᵒᵈ ×ₗ List Char)
  let s' : AgentEvaluationService :=
    { minimumSamples := s.minimumSamples
      forecasts := OrderedDict.ofList AgentForecast.forecastId fs
      outcomes := OrderedDict.ofList AgentForecastOutcome.forecastId os
      settledByAgent := rebuildSettledIndex h (OrderedDict.ofList AgentForecast.forecastId fs)
        (OrderedDict.ofList AgentForecastOutcome.forecastId os) }
  have hsame : SameEvidence s s' := ⟨rfl, hforecasts, houtcomes⟩
  have hperm : s'.outcomes.rows.Perm s.outcomes.rows := OrderedDict.rows_perm houtcomes
  have hknown : s'.Known := by
    intro o ho
    rw [hsame.forecasts]
    exact hk o (hperm.mem_iff.1 ho)
  refine ⟨s', ?_, hsame, funext fun agent => ?_⟩
  · unfold initialized EvaluationRows.listAgentForecasts EvaluationRows.listAgentForecastOutcomes
    rw [hfs, hos]
    rfl
  · change rebuildSettledIndex h s'.forecasts s'.outcomes agent = s.settledByAgent agent
    rw [rebuild_eq h hknown, sorted_outcomesOf (hm.inOrder agent) hperm, hi, outcomesOf_eq hk]

end Rebuild

end AgentEvaluationService

/-! ## runs -/

namespace Evaluator

variable (h : EvaluationDigests) (number : ℚ → ℚ)

def step (e : Evaluator) : EvaluationCall → Evaluator
  | .settle candle fate => (settle number fate candle e).2
  | .observe o => (observe number o e).2

/-- what a restart gives back: histories, unsettled forecasts and scorecards -/
def Restored (e : Evaluator) : Prop :=
  ∀ rows, e.repository = some rows →
    ∃ s, AgentEvaluationService.initialized h number e.service.minimumSamples rows = .ok s ∧
      (∀ agent limit, s.settledHistory agent limit = e.service.settledHistory agent limit) ∧
      (∀ f, f ∈ s.unsettled ↔ f ∈ e.service.unsettled) ∧
      s.scorecards.Perm e.service.scorecards

/-- the outcomes a candle gives the forecasts it matures -/
def matured (e : Evaluator) (candle : Candle) : List AgentForecastOutcome :=
  match settleGroup candle (e.service.cohort candle) with
  | .ok outcomes => outcomes
  | .error _ => []

/-- the forecasts an observation makes -/
def made (o : Observation) : List AgentForecast :=
  match o.forecasts with
  | .ok forecasts => forecasts
  | .error _ => []

/-- rows of a cohort reach the store -/
def Stores {α β : Type} (repository : Option EvaluationRows) (fate : WriteFate)
    (tx : List α → EvaluationRows → Except Error β) (items : List α) : Prop :=
  match repository with
  | none => False
  | some rows => items ≠ [] ∧ fate ≠ .refused ∧ (tx items rows).isOk

instance {α β : Type} [DecidableEq α] (repository : Option EvaluationRows) (fate : WriteFate)
    (tx : List α → EvaluationRows → Except Error β) (items : List α) :
    Decidable (Stores repository fate tx items) :=
  match repository with
  | none => inferInstanceAs (Decidable False)
  | some _ => inferInstanceAs (Decidable (_ ∧ _ ∧ _))

/-- outcomes that reach the store are acknowledged, read back as saved, fit the bounded query, and
each settles its agent's forecast after those settled before, in the order of the keys -/
structure Restorable (e : Evaluator) (candle : Candle) (fate : WriteFate) : Prop where
  acknowledged : fate ≠ .lost
  readable : ∀ o ∈ e.matured candle, EvaluationRows.readOutcome number o = .ok o
  later : ∀ o ∈ e.matured candle, ∀ x ∈ e.service.outcomes.rows,
    x.forecastId.agent = o.forecastId.agent → settledKey h x < settledKey h o
  apart : (e.matured candle).Pairwise fun x y =>
    x.forecastId.agent = y.forecastId.agent → settledKey h x < settledKey h y
  fits : e.service.outcomes.rows.length + (e.matured candle).length ≤ 100000

/-- the same for forecasts, which have no order to keep -/
structure Recordable (e : Evaluator) (o : Observation) : Prop where
  acknowledged : o.forecastsFate ≠ .lost
  readable : ∀ f ∈ made o, EvaluationRows.readForecast number f = .ok f
  fits : (e.service.forecasts.update (made o)).rows.length ≤ 100000

instance (e : Evaluator) (candle : Candle) (fate : WriteFate) :
    Decidable (Restorable h number e candle fate) :=
  decidable_of_iff
    (fate ≠ .lost ∧ (∀ o ∈ e.matured candle, EvaluationRows.readOutcome number o = .ok o) ∧
      (∀ o ∈ e.matured candle, ∀ x ∈ e.service.outcomes.rows,
        x.forecastId.agent = o.forecastId.agent → settledKey h x < settledKey h o) ∧
      ((e.matured candle).Pairwise fun x y =>
        x.forecastId.agent = y.forecastId.agent → settledKey h x < settledKey h y) ∧
      e.service.outcomes.rows.length + (e.matured candle).length ≤ 100000)
    ⟨fun ⟨h₁, h₂, h₃, h₄, h₅⟩ => ⟨h₁, h₂, h₃, h₄, h₅⟩,
      fun hr => ⟨hr.acknowledged, hr.readable, hr.later, hr.apart, hr.fits⟩⟩

instance (e : Evaluator) (o : Observation) : Decidable (Recordable number e o) :=
  decidable_of_iff
    (o.forecastsFate ≠ .lost ∧ (∀ f ∈ made o, EvaluationRows.readForecast number f = .ok f) ∧
      (e.service.forecasts.update (made o)).rows.length ≤ 100000)
    ⟨fun ⟨h₁, h₂, h₃⟩ => ⟨h₁, h₂, h₃⟩, fun hr => ⟨hr.acknowledged, hr.readable, hr.fits⟩⟩

def MeetsSettle (e : Evaluator) (candle : Candle) (fate : WriteFate) : Prop :=
  Stores e.repository fate (EvaluationRows.saveAgentForecastOutcomes number) (e.matured candle) →
    Restorable h number e candle fate

def MeetsRecord (e : Evaluator) (o : Observation) : Prop :=
  Stores e.repository o.forecastsFate (EvaluationRows.saveAgentForecasts number) (made o) →
    Recordable number e o

def Meets (e : Evaluator) : EvaluationCall → Prop
  | .settle candle fate => MeetsSettle h number e candle fate
  | .observe o => MeetsSettle h number e o.candle o.outcomesFate ∧
      MeetsRecord number (settle number o.outcomesFate o.candle e).2 o

instance Meets.decidable (e : Evaluator) :
    (call : EvaluationCall) → Decidable (Meets h number e call)
  | .settle _ _ => inferInstanceAs (Decidable (_ → _))
  | .observe _ => inferInstanceAs (Decidable ((_ → _) ∧ (_ → _)))

/-- what every step keeps -/
structure Lasting (e : Evaluator) : Prop where
  known : e.service.Known
  indexed : e.service.Indexed
  stored : ∀ rows, e.repository = some rows →
    AgentEvaluationService.Mirrors h number rows e.service

variable {h number} {e : Evaluator}

theorem Lasting.restored (hl : Lasting h number e) : Restored h number e := by
  intro rows hrows
  obtain ⟨s, hs, hsame, hindex⟩ := (hl.stored rows hrows).rebuild hl.known hl.indexed
  exact ⟨s, hs, hsame.settledHistory hindex, hsame.mem_unsettled, hsame.scorecards_perm⟩

section Settle

variable {candle : Candle} {fate : WriteFate} {outcomes : List AgentForecastOutcome}

theorem matured_eq (hgroup : settleGroup candle (e.service.cohort candle) = .ok outcomes) :
    e.matured candle = outcomes := by
  rw [matured, hgroup]

theorem settled_forecast (hgroup : settleGroup candle (e.service.cohort candle) = .ok outcomes) :
    ∀ o ∈ outcomes, e.service.forecasts.get? o.forecastId ≠ none := by
  intro o ho
  have hmem : o.forecastId ∈ (e.service.cohort candle).map AgentForecast.forecastId := by
    rw [← settleGroup_ids hgroup]
    exact List.mem_map_of_mem ho
  obtain ⟨f, hf, hid⟩ := List.mem_map.1 hmem
  rw [← hid, OrderedDict.get?_key (List.mem_filter.1 hf).1]
  simp

theorem settled_known (hk : e.service.Known)
    (hgroup : settleGroup candle (e.service.cohort candle) = .ok outcomes) :
    (e.service.settled outcomes).Known := by
  intro o ho
  rw [settled_rows hgroup] at ho
  rcases List.mem_append.1 ho with ho | ho
  · exact hk o ho
  · exact settled_forecast hgroup o ho

theorem settled_indexed (hk : e.service.Known) (hi : e.service.Indexed)
    (hgroup : settleGroup candle (e.service.cohort candle) = .ok outcomes) :
    (e.service.settled outcomes).Indexed := by
  intro agent
  rw [AgentEvaluationService.outcomesOf_eq (settled_known hk hgroup), settled_rows hgroup,
    List.filter_append, List.map_append, ← AgentEvaluationService.outcomesOf_eq hk, ← hi]
  refine AgentEvaluationService.foldl_indexed (settled_forecast hgroup) (cohort_fresh hgroup).1
    fun o ho hmem => ?_
  rw [hi] at hmem
  obtain ⟨x, hx, hid⟩ := List.mem_map.1 hmem
  have hnone := (cohort_fresh hgroup).2 o ho
  exact OrderedDict.get?_eq_none.1 hnone x (List.mem_filter.1 hx).1 hid

theorem settled_mirrors {rows rows' : EvaluationRows}
    (hm : AgentEvaluationService.Mirrors h number rows e.service)
    (hgroup : settleGroup candle (e.service.cohort candle) = .ok outcomes)
    (hsave : rows.saveAgentForecastOutcomes number outcomes = .ok (outcomes, rows'))
    (hr : Restorable h number e candle fate) :
    AgentEvaluationService.Mirrors h number rows' (e.service.settled outcomes) := by
  obtain ⟨-, hforecasts, hlookup, -⟩ := EvaluationRows.saveAgentForecastOutcomes_ok hsave
  obtain ⟨hnd, hfresh⟩ := cohort_fresh hgroup
  have hmatured := matured_eq hgroup
  have hrows := settled_rows hgroup
  refine ⟨fun k => ?_, fun k => ?_, hm.readForecasts, fun o ho => ?_, fun agent => ?_,
    hm.forecastsFit, ?_⟩
  · rw [hforecasts]
    exact hm.forecasts k
  · rw [hlookup, hm.outcomes]
    change _ = (e.service.outcomes.update outcomes).get? k
    by_cases hnew : ∃ o ∈ outcomes, o.forecastId = k
    · obtain ⟨o, ho, rfl⟩ := hnew
      rw [OrderedDict.get?_update_of_mem hnd ho, hfresh o ho, Option.none_or]
      cases hf : outcomes.find? fun x => x.forecastId = o.forecastId with
      | none =>
        have hno := List.find?_eq_none.1 hf o ho
        simp at hno
      | some x =>
        have hxid : x.forecastId = o.forecastId := by simpa using List.find?_some hf
        rw [List.inj_on_of_nodup_map hnd (List.mem_of_find?_eq_some hf) ho hxid]
    · have hnone : outcomes.find? (fun x => x.forecastId = k) = none :=
        List.find?_eq_none.2 fun x hx => by simpa using fun hxk => hnew ⟨x, hx, hxk⟩
      rw [OrderedDict.get?_update_of_not_mem fun o ho hok => hnew ⟨o, ho, hok⟩, hnone,
        Option.or_none]
  · rw [hrows] at ho
    rcases List.mem_append.1 ho with ho | ho
    · exact hm.readOutcomes o ho
    · exact hr.readable o (by rw [hmatured]; exact ho)
  · rw [hrows, List.filter_append, List.pairwise_append]
    refine ⟨hm.inOrder agent, ?_, fun x hx o ho => ?_⟩
    · have hapart := hr.apart
      rw [hmatured] at hapart
      refine (hapart.filter _).imp_of_mem fun hx ho himp => ?_
      have hxa := (List.mem_filter.1 hx).2
      have hoa := (List.mem_filter.1 ho).2
      rw [decide_eq_true_eq] at hxa hoa
      exact himp (hxa.trans hoa.symm)
    · have hx' := List.mem_filter.1 hx
      have ho' := List.mem_filter.1 ho
      simp only [decide_eq_true_eq] at hx' ho'
      exact hr.later o (by rw [hmatured]; exact ho'.1) x hx'.1 (hx'.2.trans ho'.2.symm)
  · have hfits := hr.fits
    rw [hmatured] at hfits
    rw [hrows, List.length_append]
    exact hfits

theorem settle_lasting (hl : Lasting h number e) (hm : MeetsSettle h number e candle fate) :
    Lasting h number (settle number fate candle e).2 := by
  have hsettled : Settled number fate candle e (settle number fate candle e).2 := settle_settled
  have hmeets : ∀ {rows rows' : EvaluationRows} {outcomes : List AgentForecastOutcome},
      e.repository = some rows → fate ≠ .refused → outcomes ≠ [] →
      settleGroup candle (e.service.cohort candle) = .ok outcomes →
      rows.saveAgentForecastOutcomes number outcomes = .ok (outcomes, rows') →
        Restorable h number e candle fate := by
    intro rows rows' outcomes hrepo hfate hne hgroup hsave
    apply hm
    simp only [Stores, hrepo, matured_eq hgroup, hsave]
    exact ⟨hne, hfate, rfl⟩
  generalize (settle number fate candle e).2 = e' at *
  cases hsettled with
  | unchanged => exact hl
  | memory outcomes hrepo hgroup =>
    exact ⟨settled_known hl.known hgroup, settled_indexed hl.known hl.indexed hgroup,
      fun rows hrows => absurd hrows (by simp)⟩
  | lost outcomes rows rows' hrepo hfate hgroup hne hsave =>
    exact absurd hfate (hmeets hrepo (by rw [hfate]; decide) hne hgroup hsave).acknowledged
  | saved outcomes rows rows' hrepo hfate hgroup hne hsave =>
    have hr := hmeets hrepo (by rw [hfate]; decide) hne hgroup hsave
    refine ⟨settled_known hl.known hgroup, settled_indexed hl.known hl.indexed hgroup,
      fun r hrows => ?_⟩
    rw [← Option.some.inj hrows]
    exact settled_mirrors (hl.stored rows hrepo) hgroup hsave hr

end Settle

section Record

variable {o : Observation} {forecasts : List AgentForecast}

theorem recorded_known (hk : e.service.Known) : (recorded e.service forecasts).Known := by
  intro x hx
  have hold := hk x hx
  change (e.service.forecasts.update forecasts).get? x.forecastId ≠ none
  rw [OrderedDict.get?_update]
  cases forecasts.reverse.find? fun f => f.forecastId = x.forecastId with
  | some f => simp
  | none => exact hold

theorem recorded_indexed (hk : e.service.Known) (hi : e.service.Indexed) :
    (recorded e.service forecasts).Indexed := by
  intro agent
  rw [AgentEvaluationService.outcomesOf_eq (recorded_known hk)]
  change e.service.settledByAgent agent = _
  rw [hi, AgentEvaluationService.outcomesOf_eq hk]
  rfl

theorem recorded_mirrors {rows rows' : EvaluationRows}
    (hm : AgentEvaluationService.Mirrors h number rows e.service)
    (hforecasts : o.forecasts = .ok forecasts)
    (hsave : rows.saveAgentForecasts number forecasts = .ok (forecasts, rows'))
    (hr : Recordable number e o) :
    AgentEvaluationService.Mirrors h number rows' (recorded e.service forecasts) := by
  obtain ⟨-, houtcomes, hlookup, hheld⟩ := EvaluationRows.saveAgentForecasts_ok hsave
  have hmade : made o = forecasts := by rw [made, hforecasts]
  refine ⟨fun k => ?_, fun k => ?_, fun f hf => ?_, hm.readOutcomes, hm.inOrder, ?_,
    hm.outcomesFit⟩
  · change _ = (e.service.forecasts.update forecasts).get? k
    rw [OrderedDict.get?_update]
    cases hf : forecasts.reverse.find? fun f => f.forecastId = k with
    | some f =>
      have hfid : f.forecastId = k := by simpa using List.find?_some hf
      rw [← hfid]
      exact hheld f (List.mem_reverse.1 (List.mem_of_find?_eq_some hf))
    | none =>
      have hnone : forecasts.find? (fun f => f.forecastId = k) = none := by
        refine List.find?_eq_none.2 fun x hx => ?_
        exact List.find?_eq_none.1 hf x (List.mem_reverse.2 hx)
      rw [hlookup, hnone, Option.or_none, Option.none_or]
      exact hm.forecasts k
  · rw [houtcomes]
    exact hm.outcomes k
  · rcases OrderedDict.mem_rows_update hf with hf | hf
    · exact hr.readable f (by rw [hmade]; exact hf)
    · exact hm.readForecasts f hf
  · have hfits := hr.fits
    rw [hmade] at hfits
    exact hfits

theorem record_lasting (hl : Lasting h number e) (hm : MeetsRecord number e o) :
    Lasting h number (record number o e).2 := by
  have hrecorded := record_recorded (e := e) number o
  have hmeets : ∀ {rows rows' : EvaluationRows} {forecasts : List AgentForecast},
      e.repository = some rows → o.forecastsFate ≠ .refused → forecasts ≠ [] →
      o.forecasts = .ok forecasts →
      rows.saveAgentForecasts number forecasts = .ok (forecasts, rows') →
        Recordable number e o := by
    intro rows rows' forecasts hrepo hfate hne hforecasts hsave
    apply hm
    simp only [Stores, hrepo, made, hforecasts, hsave]
    exact ⟨hne, hfate, rfl⟩
  generalize (record number o e).2 = e' at *
  generalize (record number o e).1 = result at *
  cases hrecorded with
  | raised err => exact hl
  | nothing hforecasts => exact hl
  | memory forecasts hrepo hforecasts =>
    exact ⟨recorded_known hl.known, recorded_indexed hl.known hl.indexed,
      fun rows hrows => absurd hrows (by simp)⟩
  | lost err forecasts rows rows' hrepo hfate hforecasts hne hsave =>
    exact absurd hfate
      (hmeets hrepo (by rw [hfate]; decide) hne hforecasts hsave).acknowledged
  | saved forecasts rows rows' hrepo hfate hforecasts hne hsave =>
    have hr := hmeets hrepo (by rw [hfate]; decide) hne hforecasts hsave
    refine ⟨recorded_known hl.known, recorded_indexed hl.known hl.indexed, fun r hrows => ?_⟩
    rw [← Option.some.inj hrows]
    exact recorded_mirrors (hl.stored rows hrepo) hforecasts hsave hr

end Record

/-- an observation settles, and then records unless the settlement raised -/
theorem observe_cases (number : ℚ → ℚ) (o : Observation) (e : Evaluator) :
    (observe number o e).2 = (settle number o.outcomesFate o.candle e).2 ∨
      (observe number o e).2 = (record number o (settle number o.outcomesFate o.candle e).2).2 := by
  unfold observe
  cases settle number o.outcomesFate o.candle e with
  | mk result e' =>
    cases result with
    | error err => exact Or.inl rfl
    | ok outcomes => exact Or.inr rfl

theorem step_lasting (call : EvaluationCall) (hm : Meets h number e call)
    (hl : Lasting h number e) : Lasting h number (e.step number call) := by
  cases call with
  | settle candle fate => exact settle_lasting hl hm
  | observe o =>
    have hs := settle_lasting hl hm.1
    rcases observe_cases number o e with hstep | hstep
    · simp only [step, hstep]
      exact hs
    · simp only [step, hstep]
      exact record_lasting hs hm.2

/-- a service at its start, with or without a store -/
def start (durable : Bool) : Evaluator := ⟨{}, if durable then some ∅ else none⟩

theorem start_lasting (durable : Bool) : Lasting h number (start durable) := by
  refine ⟨fun o ho => absurd ho List.not_mem_nil, fun agent => rfl, fun rows hrows => ?_⟩
  cases durable with
  | false => exact absurd hrows (by simp [start])
  | true =>
    have hr : (∅ : EvaluationRows) = rows := Option.some.inj hrows
    rw [← hr]
    exact ⟨fun _ => rfl, fun _ => rfl, fun f hf => absurd hf List.not_mem_nil,
      fun o ho => absurd ho List.not_mem_nil, fun _ => List.Pairwise.nil, by decide, by decide⟩

/-- **Restart.** In a run whose stored cohorts are acknowledged, read back as they were saved and fit
the two bounded queries, and in which every agent's forecasts are settled in the order of realized
time and outcome id, a service rebuilt from the rows has in every state the histories, the unsettled
forecasts and the scorecards of the one that wrote them. -/
theorem evaluation_survives_restart (h : EvaluationDigests) (number : ℚ → ℚ) (durable : Bool)
    (calls : List EvaluationCall)
    (hm : Along (step number) (Meets h number) (start durable) calls) :
    Restored h number (run (step number) (start durable) calls) :=
  (along_inv (fun _ call hmeets hl => step_lasting call hmeets hl) (start_lasting durable)
    hm).restored

/-! ## two series -/

open Evaluation (sampleCandle sampleObservation)

/-- SHA-256 at the forecasts and outcomes of the two series -/
def seriesDigests : EvaluationDigests where
  forecast id :=
    if id.symbol = "BTCUSDT" then "66e3d220e62707ea7e61deadf9c4285969e394ee2e1d9729a1be011288538b4f"
    else "9696f2ba00eff40e9a0b4fda74d4b645b335f5195e7e746acccd0f7e257f1217"
  outcome id :=
    if id.forecastId.symbol = "BTCUSDT" then
      "1a435c384cccdfbf6fe7ee57f72a104d6c48688b8a1ce71509bd240cefaf7dff"
    else "ea46f7c7a6f154f06e5c26dd9f2e1f524d278cee78b64a4dfdb991e1da6d281b"

/-- a flat one-minute candle of ETHUSDT -/
def etherCandle (price : ℚ) (minute : ℕ) : Candle :=
  { sampleCandle .binance price minute with symbol := "ETHUSDT" }

/-- one agent's forecasts on two series; the later one is settled first -/
def interleaved : List EvaluationCall :=
  [.observe (sampleObservation (sampleCandle .binance 100 2) "cycle-1"),
    .observe (sampleObservation (etherCandle 100 1) "cycle-2"),
    .settle (sampleCandle .binance 101 3) .saved,
    .settle (etherCandle 101 2) .saved]

/-- the live service lists the settlements as they came, the rebuilt one by realized time -/
theorem interleaved_series :
    ¬ Restored seriesDigests id (run (step id) (start true) interleaved) := by
  intro hrestored
  have hdurable : (run (step id) (start true) interleaved).repository.isSome = true := by
    decide +kernel
  have hdiffers : ∀ rows ∈ (run (step id) (start true) interleaved).repository,
      ∀ s ∈ (AgentEvaluationService.initialized seriesDigests id 30 rows).toOption,
        s.settledHistory ("MomentumAgent", "1.0.0") 10000 ≠
          (run (step id) (start true) interleaved).service.settledHistory
            ("MomentumAgent", "1.0.0") 10000 := by
    decide +kernel
  obtain ⟨rows, hrows⟩ := Option.isSome_iff_exists.1 hdurable
  obtain ⟨s, hs, hhistory, -⟩ := hrestored rows hrows
  refine hdiffers rows hrows s ?_ (hhistory _ _)
  have hsamples : (run (step id) (start true) interleaved).service.minimumSamples = 30 := by
    decide +kernel
  rw [hsamples] at hs
  rw [hs]
  rfl

/-- settled in the order of realized time, with a refused write in between -/
theorem evaluation_survives_restart_sample :
    Restored seriesDigests id (run (step id) (start true)
      [.observe (sampleObservation (sampleCandle .binance 100 2) "cycle-1"),
        .observe (sampleObservation (etherCandle 100 1) "cycle-2"),
        .settle (etherCandle 101 2) .saved,
        .settle (sampleCandle .binance 101 3) .refused,
        .settle (sampleCandle .binance 101 3) .saved]) :=
  evaluation_survives_restart seriesDigests id true _ (by decide +kernel)

end Evaluator

end CapitalCipher
