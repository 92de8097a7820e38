/-
The drift monitor of `orchestrator/portfolio_consensus.py` and its rows.

A call reads the settled history of every registered agent version and the clock once for every
observation. A registration carries its accepted constraints. The world keeps beside the monitor which
windows a call has observed.

  • `driftEvidence_accepted`: what the monitor computes meets the constraints of an observation.
  • `observe_idempotent_iff`: in every state of a run, exactly when an observation is idempotent.
  • `observed_again`: the second observation of an unchanged history.
-/
import CapitalCipher.Agents.Evaluation
import CapitalCipher.Schemas.PortfolioConsensus

namespace CapitalCipher

open Lib

/-- a registration the model accepts -/
abbrev RegisteredAgent := {r : AgentRegistration // r.check = .ok r}

/-- `(registration.agent_name, registration.version)` -/
def RegisteredAgent.agent (r : RegisteredAgent) : String × String := (r.1.agentName, r.1.version)

/-- `{item.agent_name: item for item in registrations}` -/
abbrev Registrations := OrderedDict fun r : RegisteredAgent => r.1.agentName

/-! ## what a window shows -/

/-- the share of correct directions, when both windows have some -/
def windowAccuracy (window other : List AgentForecastOutcome) : Option ℚ :=
  let directional := window.filterMap AgentForecastOutcome.correct
  if directional ≠ [] ∧ other.filterMap AgentForecastOutcome.correct ≠ [] then
    some (directional.count true / directional.length)
  else none

def windowBrier (window : List AgentForecastOutcome) : ℚ :=
  fmean (window.map AgentForecastOutcome.brierLoss)

def windowMarginal (window : List AgentForecastOutcome) : ℚ :=
  fmean (window.map AgentForecastOutcome.marginalContribution)

/-- a degradation against its critical threshold, and half of it -/
def driftLevel (degradation critical : ℚ) : DriftSeverity :=
  if critical ≤ degradation then .critical
  else if critical / 2 ≤ degradation then .warning
  else .none

/-- the reasons at a level -/
def driftReasons (level : DriftSeverity) (checks : List (String × DriftSeverity)) : List String :=
  (checks.filter fun c => c.2 = level).map Prod.fst

def driftSeverity (critical warning : List String) : DriftSeverity :=
  if critical ≠ [] then .critical else if warning ≠ [] then .warning else .none

/-- the evidence two windows give -/
def windowEvidence (p : ConsensusPolicy) (agent : String × String)
    (reference current : List AgentForecastOutcome) : DriftEvidence :=
  let referenceAccuracy := windowAccuracy reference current
  let currentAccuracy := windowAccuracy current reference
  let accuracyDelta := (currentAccuracy.bind fun c => referenceAccuracy.map fun r => c - r)
  let brierDelta := windowBrier current - windowBrier reference
  let marginalDelta := windowMarginal current - windowMarginal reference
  let checks :=
    [("ACCURACY_DROP",
        (accuracyDelta.map fun d => driftLevel (-d) p.criticalAccuracyDrop).getD .none),
     ("BRIER_LOSS_INCREASE", driftLevel brierDelta p.criticalBrierIncrease),
     ("MARGINAL_CONTRIBUTION_DROP", driftLevel (-marginalDelta) p.criticalMarginalDrop)]
  let critical := driftReasons .critical checks
  let warning := driftReasons .warning checks
  { experimentId := p
    agentName := agent.1
    agentVersion := agent.2
    referenceSamples := reference.length
    currentSamples := current.length
    referenceAccuracy := referenceAccuracy
    currentAccuracy := currentAccuracy
    accuracyDelta := accuracyDelta
    referenceBrierLoss := windowBrier reference
    currentBrierLoss := windowBrier current
    brierDelta := brierDelta
    referenceMarginalContribution := windowMarginal reference
    currentMarginalContribution := windowMarginal current
    marginalDelta := marginalDelta
    severity := driftSeverity critical warning
    reasons := sortedBy String.toList (critical ++ warning).dedup
    observedAt := (current.getLast?.map AgentForecastOutcome.realizedAt).getD 0 }

/-- the evidence of one agent version, when its history fills both windows -/
def driftEvidence (experiment : ConsensusExperiment) (agent : String × String)
    (history : List AgentForecastOutcome) : Option DriftEvidence :=
  let p := experiment.policy
  let required := p.driftReferenceSamples + p.driftCurrentSamples
  if history.length < required then none
  else
    some (windowEvidence p agent
      ((history.drop (history.length - required)).take p.driftReferenceSamples)
      (history.drop (history.length - p.driftCurrentSamples)))

/-! ## the monitor -/

abbrev DriftRows := Dict DriftEvidence DriftObservation

/-- one `observe` call with what it reads -/
structure DriftCall where
  experiment : ConsensusExperiment
  registrations : Registrations
  /-- `settled_history`, the outcomes of its pairs -/
  history : String × String → List AgentForecastOutcome
  clock : String × String → Time
  fate : WriteFate

namespace DriftCall

variable (c : DriftCall)

/-- the agents whose history fills both windows, with their evidence -/
def due : List ((String × String) × DriftEvidence) :=
  c.registrations.rows.filterMap fun r =>
    (driftEvidence c.experiment r.agent (c.history r.agent)).map fun e => (r.agent, e)

/-- `pending` -/
def pending : Except Error (List DriftObservation) :=
  c.due.mapM fun d => DriftObservation.build d.2 (c.clock d.1)

/-- what a call observes of an agent -/
def window (agent : String × String) :
    ConsensusPolicy × (String × String) × List AgentForecastOutcome :=
  (c.experiment.policy, agent, c.history agent)

end DriftCall

/-- the monitor's map, its store, and the windows that calls observed -/
structure DriftMonitor where
  observations : DriftRows
  repository : Option DriftRows
  seen : List (ConsensusPolicy × (String × String) × List AgentForecastOutcome)

namespace DriftMonitor

/-- the transaction of `save_drift_observations` -/
def saveDriftObservations : List DriftObservation → DriftRows →
    Except Error (List DriftObservation × DriftRows) :=
  AppendOnly.append DriftObservation.evidence Except.ok
    ⟨.validation, "Immutable drift observation identity conflict"⟩ fun _ => .ok ()

/-- `self._observations[observation.observation_id] = observation`, for each -/
def remember (observations : DriftRows) (stored : List DriftObservation) : DriftRows :=
  stored.foldl (fun d o => d.insert o.evidence o) observations

/-- the stored cohort and the rows after it -/
def persist (c : DriftCall) (pending : List DriftObservation) (repository : Option DriftRows) :
    Except Error (List DriftObservation) × Option DriftRows :=
  match pending, repository with
  | [], repository => (.ok [], repository)
  | pending, none => (.ok pending, none)
  | pending, some rows =>
    let result := c.fate.commit (⟨.database, "Failed to persist drift observation cohort"⟩ : Error)
      (saveDriftObservations pending) rows
    (result.1, some result.2)

def observe (c : DriftCall) (w : DriftMonitor) :
    Except Error (List DriftObservation) × DriftMonitor :=
  let seen := w.seen ++ c.due.map fun d => c.window d.1
  match c.pending with
  | .error err => (.error err, { w with seen := seen })
  | .ok pending =>
    match persist c pending w.repository with
    | (.error err, repository) => (.error err, { w with repository := repository, seen := seen })
    | (.ok stored, repository) =>
      (.ok stored, ⟨remember w.observations stored, repository, seen⟩)

/-- `initialize` of a new monitor: the newest 100,000 rows -/
def restart (digest : DriftEvidence → String) (w : DriftMonitor) : DriftMonitor :=
  { w with
    observations := match w.repository with
      | none => ∅
      | some rows =>
        Dict.fromList DriftObservation.evidence
          ((sortedBy (fun o => (toLex (OrderDual.toDual o.evidence.observedAt,
            (digest o.evidence).toList) : ℕᵒᵈ ×ₗ List Char)) rows.values).take 100000) }

end DriftMonitor

/-! ## what is computed is accepted -/

theorem fmean_mem {values : List ℚ} {lo hi : ℚ} (hne : values ≠ [])
    (h : ∀ x ∈ values, lo ≤ x ∧ x ≤ hi) : lo ≤ fmean values ∧ fmean values ≤ hi := by
  have hlen : (0 : ℚ) < values.length := by
    exact_mod_cast List.length_pos_iff.2 hne
  have hlo : lo * values.length ≤ values.sum := by
    have := List.card_nsmul_le_sum values lo fun x hx => (h x hx).1
    rwa [nsmul_eq_mul, mul_comm] at this
  have hhi : values.sum ≤ hi * values.length := by
    have := List.sum_le_card_nsmul values hi fun x hx => (h x hx).2
    rwa [nsmul_eq_mul, mul_comm] at this
  exact ⟨(le_div_iff₀ hlen).2 hlo, (div_le_iff₀ hlen).2 hhi⟩

theorem windowBrier_mem {window : List AgentForecastOutcome} (hne : window ≠ []) :
    0 ≤ windowBrier window ∧ windowBrier window ≤ 1 := by
  refine fmean_mem (by simpa using hne) fun x hx => ?_
  obtain ⟨o, -, rfl⟩ := List.mem_map.1 hx
  exact o.brierLoss_mem

theorem windowMarginal_mem {window : List AgentForecastOutcome} (hne : window ≠ []) :
    -1 ≤ windowMarginal window ∧ windowMarginal window ≤ 1 := by
  refine fmean_mem (by simpa using hne) fun x hx => ?_
  obtain ⟨o, -, rfl⟩ := List.mem_map.1 hx
  exact o.marginalContribution_mem

theorem windowAccuracy_mem {window other : List AgentForecastOutcome} {x : ℚ}
    (h : windowAccuracy window other = some x) : 0 ≤ x ∧ x ≤ 1 := by
  unfold windowAccuracy at h
  dsimp only at h
  split_ifs at h with hne
  rw [← Option.some.inj h]
  have hlen : (0 : ℚ) < (window.filterMap AgentForecastOutcome.correct).length := by
    exact_mod_cast List.length_pos_iff.2 hne.1
  have hcount : ((window.filterMap AgentForecastOutcome.correct).count true : ℚ) ≤
      (window.filterMap AgentForecastOutcome.correct).length := by
    exact_mod_cast List.count_le_length
  exact ⟨by positivity, (div_le_one hlen).2 hcount⟩

/-- both accuracies are there or neither is -/
theorem windowAccuracy_isNone (window other : List AgentForecastOutcome) :
    (windowAccuracy window other).isNone = (windowAccuracy other window).isNone := by
  unfold windowAccuracy
  dsimp only
  by_cases hw : window.filterMap AgentForecastOutcome.correct ≠ []
  · by_cases ho : other.filterMap AgentForecastOutcome.correct ≠ []
    · rw [if_pos ⟨hw, ho⟩, if_pos ⟨ho, hw⟩]
      rfl
    · rw [if_neg fun h => ho h.2, if_neg fun h => ho h.1]
  · rw [if_neg fun h => hw h.1, if_neg fun h => hw h.2]

/-- a level above NONE comes with a reason, and NONE with none -/
theorem driftSeverity_eq_none (critical warning : List String) :
    driftSeverity critical warning = .none ↔
      sortedBy String.toList (critical ++ warning).dedup = [] := by
  have hnil : sortedBy String.toList (critical ++ warning).dedup = [] ↔
      critical = [] ∧ warning = [] := by
    rw [← List.length_eq_zero_iff, (sortedBy_perm String.toList _).length_eq,
      List.length_eq_zero_iff, List.dedup_eq_nil, List.append_eq_nil_iff]
  rw [hnil, driftSeverity]
  by_cases hc : critical = []
  · by_cases hw : warning = []
    · simp [hc, hw]
    · simp [hc, hw]
  · simp [hc]

theorem registration_names (r : RegisteredAgent) :
    (3 ≤ r.agent.1.length ∧ r.agent.1.length ≤ 128) ∧ validAgentVersion r.agent.2 = true := by
  obtain ⟨hfields, -, -⟩ := validateModel_ok.1 r.2
  simp only [List.forall_mem_cons] at hfields
  obtain ⟨hname, hversion, -⟩ := hfields
  refine ⟨?_, hversion⟩
  unfold validAgentName at hname
  simp only [Bool.and_eq_true, decide_eq_true_eq] at hname
  exact hname.1

theorem experiment_windows (x : ConsensusExperiment) :
    30 ≤ x.policy.driftReferenceSamples ∧ 10 ≤ x.policy.driftCurrentSamples := by
  have href := x.accepted ("drift_reference_samples",
    decide (30 ≤ x.policy.driftReferenceSamples ∧ x.policy.driftReferenceSamples ≤ 10000))
    (by simp [consensusExperimentFields])
  have hcur := x.accepted ("drift_current_samples",
    decide (10 ≤ x.policy.driftCurrentSamples ∧ x.policy.driftCurrentSamples ≤ 5000))
    (by simp [consensusExperimentFields])
  simp only [decide_eq_true_eq] at href hcur
  exact ⟨href.1, hcur.1⟩

theorem windowEvidence_accepted {p : ConsensusPolicy} {agent : String × String}
    {reference current : List AgentForecastOutcome}
    (hname : 3 ≤ agent.1.length ∧ agent.1.length ≤ 128)
    (hversion : validAgentVersion agent.2 = true) (href : 30 ≤ reference.length)
    (hcur : 10 ≤ current.length) :
    ∀ f ∈ driftObservationFields (windowEvidence p agent reference current), f.2 = true := by
  have hrefne : reference ≠ [] := List.ne_nil_of_length_pos (by omega)
  have hcurne : current ≠ [] := List.ne_nil_of_length_pos (by omega)
  have hrb := windowBrier_mem hrefne
  have hcb := windowBrier_mem hcurne
  have hrm := windowMarginal_mem hrefne
  have hcm := windowMarginal_mem hcurne
  have hall : ∀ {a : Option ℚ} {lo hi : ℚ}, (∀ y, a = some y → lo ≤ y ∧ y ≤ hi) →
      a.all (within lo hi) = true := by
    intro a lo hi ha
    cases a with
    | none => rfl
    | some y => simpa [within] using ha y rfl
  have hnone := windowAccuracy_isNone reference current
  simp only [driftObservationFields, windowEvidence, List.forall_mem_cons]
  refine ⟨decide_eq_true hname, hversion, decide_eq_true href, decide_eq_true hcur,
    hall fun y hy => windowAccuracy_mem hy, hall fun y hy => windowAccuracy_mem hy,
    hall fun y hy => ?_, ?_, ?_, ?_, ?_, ?_, ?_, ?_, ?_, ?_, ?_, fun f hf => absurd hf List.not_mem_nil⟩
  · obtain ⟨c, hc, hy'⟩ := Option.bind_eq_some_iff.1 hy
    obtain ⟨a, ha, rfl⟩ := Option.map_eq_some_iff.1 hy'
    have hc' := windowAccuracy_mem hc
    have ha' := windowAccuracy_mem ha
    constructor <;> linarith
  · simpa [within] using hrb
  · simpa [within] using hcb
  · simp only [within, decide_eq_true_eq]
    constructor <;> linarith
  · simpa [within] using hrm
  · simpa [within] using hcm
  · simp only [within, decide_eq_true_eq]
    constructor <;> linarith
  · simpa using hnone
  · cases hra : windowAccuracy reference current with
    | none => simp
    | some a =>
      rw [hra] at hnone
      cases hca : windowAccuracy current reference with
      | none => simp [hca] at hnone
      | some c => simp
  · rw [Bool.or_eq_true, bne_iff_ne, List.isEmpty_iff, ← driftSeverity_eq_none]
    exact (em _).symm
  · rw [Bool.or_eq_true, beq_iff_eq, Bool.not_eq_true', List.isEmpty_eq_false_iff,
      driftSeverity_eq_none]
    exact em _

/-- **No observation is refused.** What the monitor computes from the history of a registered agent
meets every constraint of a `DriftObservation`. -/
theorem driftEvidence_accepted {x : ConsensusExperiment} {r : RegisteredAgent}
    {history : List AgentForecastOutcome} {e : DriftEvidence}
    (h : driftEvidence x r.agent history = some e) : ∀ f ∈ driftObservationFields e, f.2 = true := by
  obtain ⟨href, hcur⟩ := experiment_windows x
  obtain ⟨hname, hversion⟩ := registration_names r
  unfold driftEvidence at h
  dsimp only at h
  split_ifs at h with hlen
  rw [← Option.some.inj h]
  refine windowEvidence_accepted hname hversion ?_ ?_
  · rw [List.length_take, List.length_drop]
    omega
  · rw [List.length_drop]
    omega

/-! ## one observation -/

namespace DriftCall

variable {c : DriftCall}

theorem mem_due {d : (String × String) × DriftEvidence} :
    d ∈ c.due ↔ ∃ r ∈ c.registrations.rows,
      driftEvidence c.experiment r.agent (c.history r.agent) = some d.2 ∧ r.agent = d.1 := by
  unfold due
  simp only [List.mem_filterMap, Option.map_eq_some_iff]
  constructor
  · rintro ⟨r, hr, e, he, rfl⟩
    exact ⟨r, hr, he, rfl⟩
  · rintro ⟨r, hr, he, hagent⟩
    exact ⟨r, hr, d.2, he, by rw [hagent]⟩

theorem driftEvidence_agentName {x : ConsensusExperiment} {agent : String × String}
    {history : List AgentForecastOutcome} {e : DriftEvidence}
    (h : driftEvidence x agent history = some e) : e.agentName = agent.1 := by
  unfold driftEvidence at h
  dsimp only at h
  split_ifs at h
  rw [← Option.some.inj h]
  rfl

/-- a call computes no evidence twice -/
theorem due_nodup (c : DriftCall) : (c.due.map Prod.snd).Nodup := by
  have hname : ∀ rows : List RegisteredAgent,
      ((rows.filterMap fun r => (driftEvidence c.experiment r.agent (c.history r.agent)).map
        fun e => (r.agent, e)).map fun d => d.2.agentName).Sublist
      (rows.map fun r => r.1.agentName) := by
    intro rows
    induction rows with
    | nil => exact List.Sublist.slnil
    | cons r rows ih =>
      cases he : driftEvidence c.experiment r.agent (c.history r.agent) with
      | none =>
        rw [List.filterMap_cons, he]
        exact ih.cons _
      | some e =>
        rw [List.filterMap_cons, he]
        have hr : e.agentName = r.1.agentName := driftEvidence_agentName he
        simp only [Option.map_some, List.map_cons, hr]
        exact ih.cons_cons _
  have hnd : ((c.due.map Prod.snd).map DriftEvidence.agentName).Nodup := by
    rw [List.map_map]
    exact (hname c.registrations.rows).nodup c.registrations.nodup
  exact hnd.of_map

/-- the observations a call is about to record -/
theorem pending_ok (c : DriftCall) : ∃ obs, c.pending = .ok obs ∧
    List.Forall₂ (fun d o => o.evidence = d.2 ∧ o.createdAt = c.clock d.1) c.due obs := by
  refine Result.mapM_exists fun d hd => ?_
  obtain ⟨r, -, he, -⟩ := mem_due.1 hd
  have hok := driftEvidence_accepted he
  exact ⟨⟨d.2, c.clock d.1, hok⟩, dif_pos hok, rfl, rfl⟩

end DriftCall

namespace DriftMonitor

/-- the durable rows, or the map of a monitor without a store -/
def records (w : DriftMonitor) : DriftRows := w.repository.getD w.observations

/-- what is recorded under an evidence -/
def recorded (w : DriftMonitor) (e : DriftEvidence) : Option DriftObservation :=
  w.records.lookup e

/-- a call's write goes through -/
def Takes (w : DriftMonitor) (c : DriftCall) : Prop := w.repository = none ∨ c.fate = .saved

/-- the records are filed under their evidence, and the map agrees with them -/
structure Consistent (w : DriftMonitor) : Prop where
  keyed : Dict.Keyed DriftObservation.evidence w.records
  mirrored : ∀ e o, w.observations.lookup e = some o → w.recorded e = some o

theorem Consistent.keyed_of {w : DriftMonitor} (h : w.Consistent) {d : DriftRows}
    (hd : w.records = d) : Dict.Keyed DriftObservation.evidence d :=
  hd ▸ h.keyed

/-- rows to which a cohort was appended -/
structure Appended (obs : List DriftObservation) (rows rows' : DriftRows) : Prop where
  lookup_eq : ∀ e, rows'.lookup e = (rows.lookup e).or (obs.find? fun o => o.evidence = e)
  agrees : ∀ o ∈ obs, rows.lookup o.evidence = none ∨ rows.lookup o.evidence = some o

theorem Appended.keeps {obs : List DriftObservation} {rows rows' : DriftRows}
    (h : Appended obs rows rows') {e : DriftEvidence} {o : DriftObservation}
    (ho : rows.lookup e = some o) : rows'.lookup e = some o := by
  rw [h.lookup_eq, ho]
  rfl

theorem Appended.keyed {obs : List DriftObservation} {rows rows' : DriftRows}
    (h : Appended obs rows rows') (hk : Dict.Keyed DriftObservation.evidence rows) :
    Dict.Keyed DriftObservation.evidence rows' := by
  intro e o ho
  rw [h.lookup_eq] at ho
  cases hrow : rows.lookup e with
  | some o' =>
    rw [hrow] at ho
    rw [← Option.some.inj ho]
    exact hk hrow
  | none =>
    rw [hrow, Option.none_or] at ho
    simpa using List.find?_some ho

theorem Appended.mem {obs : List DriftObservation} {rows rows' : DriftRows}
    (h : Appended obs rows rows') (hnd : (obs.map DriftObservation.evidence).Nodup)
    {o : DriftObservation} (ho : o ∈ obs) : rows'.lookup o.evidence = some o := by
  rcases h.agrees o ho with hnone | hsome
  · rw [h.lookup_eq, hnone, Option.none_or]
    exact Dict.find?_key hnd ho
  · exact h.keeps hsome

theorem saveDriftObservations_ok {obs stored : List DriftObservation} {rows rows' : DriftRows}
    (h : saveDriftObservations obs rows = .ok (stored, rows')) :
    stored = obs ∧ Appended obs rows rows' := by
  obtain ⟨hstored, hlookup, hagree⟩ := AppendOnly.append_ok h
  refine ⟨hstored, hlookup, fun o ho => ?_⟩
  rcases hagree o ho with hnone | ⟨row, hrow, hread⟩
  · exact Or.inl hnone
  · rw [Except.ok.inj hread] at hrow
    exact Or.inr hrow

/-- what a cohort that came back did to the store -/
theorem persist_ok {c : DriftCall} {obs stored : List DriftObservation}
    {repository repository' : Option DriftRows}
    (h : persist c obs repository = (.ok stored, repository')) :
    stored = obs ∧ Option.Rel (Appended obs) repository repository' := by
  cases obs with
  | nil =>
    obtain ⟨hstored, rfl⟩ := Prod.mk.inj h
    refine ⟨(Except.ok.inj hstored).symm, ?_⟩
    cases repository with
    | none => exact .none
    | some rows => exact .some ⟨fun e => by simp, by simp⟩
  | cons o obs =>
    cases repository with
    | none =>
      obtain ⟨hstored, rfl⟩ := Prod.mk.inj h
      exact ⟨(Except.ok.inj hstored).symm, .none⟩
    | some rows =>
      obtain ⟨hresult, rfl⟩ := Prod.mk.inj h
      obtain ⟨-, htx⟩ := WriteFate.commit_ok (Prod.ext hresult rfl)
      obtain ⟨hstored, happended⟩ := saveDriftObservations_ok htx
      exact ⟨hstored, .some happended⟩

/-- one that raised left the rows alone, or appended it all the same -/
theorem persist_error {c : DriftCall} {obs : List DriftObservation} {err : Error}
    {repository repository' : Option DriftRows}
    (h : persist c obs repository = (.error err, repository')) :
    ∃ rows rows', repository = some rows ∧ repository' = some rows' ∧
      (rows' = rows ∨ Appended obs rows rows') := by
  cases obs with
  | nil => exact absurd (Prod.mk.inj h).1 (by simp)
  | cons o obs =>
    cases repository with
    | none => exact absurd (Prod.mk.inj h).1 (by simp)
    | some rows =>
      obtain ⟨hresult, rfl⟩ := Prod.mk.inj h
      refine ⟨rows, _, rfl, rfl, ?_⟩
      rcases WriteFate.commit_error (Prod.ext hresult rfl) with hrows | ⟨-, stored, htx⟩
      · exact Or.inl hrows
      · exact Or.inr (saveDriftObservations_ok htx).2

/-- a cohort that agrees with what is stored comes back -/
theorem persist_isOk {c : DriftCall} {obs : List DriftObservation}
    {repository : Option DriftRows} (htakes : repository = none ∨ c.fate = .saved)
    (hnd : (obs.map DriftObservation.evidence).Nodup)
    (hagree : ∀ rows, repository = some rows → ∀ o ∈ obs,
      rows.lookup o.evidence = none ∨ rows.lookup o.evidence = some o) :
    ∃ repository', persist c obs repository = (.ok obs, repository') := by
  cases obs with
  | nil => exact ⟨repository, rfl⟩
  | cons o obs =>
    cases repository with
    | none => exact ⟨none, rfl⟩
    | some rows =>
      have hfate : c.fate = .saved := by simpa using htakes
      obtain ⟨rows', hrows'⟩ : ∃ rows', saveDriftObservations (o :: obs) rows =
          .ok (o :: obs, rows') := by
        refine AppendOnly.append_isOk hnd fun x hx => ?_
        rcases hagree rows rfl x hx with hnone | hsome
        · exact Or.inl ⟨hnone, rfl⟩
        · exact Or.inr ⟨x, hsome, rfl⟩
      refine ⟨some rows', ?_⟩
      simp only [persist, hfate, WriteFate.commit, hrows']

theorem lookup_remember (observations : DriftRows) (obs : List DriftObservation)
    (e : DriftEvidence) : (remember observations obs).lookup e =
      (obs.reverse.find? fun o => o.evidence = e).or (observations.lookup e) :=
  Dict.lookup_foldl_insert DriftObservation.evidence obs observations e

theorem remember_mem {observations : DriftRows} {obs : List DriftObservation}
    (hnd : (obs.map DriftObservation.evidence).Nodup) {o : DriftObservation} (ho : o ∈ obs) :
    (remember observations obs).lookup o.evidence = some o := by
  rw [lookup_remember, Dict.find?_reverse_key hnd ho]
  rfl

/-- what the map holds was remembered or was there before -/
theorem of_remember {observations : DriftRows} {obs : List DriftObservation} {e : DriftEvidence}
    {o : DriftObservation} (h : (remember observations obs).lookup e = some o) :
    (o ∈ obs ∧ o.evidence = e) ∨ observations.lookup e = some o := by
  rw [lookup_remember] at h
  cases hf : obs.reverse.find? fun x => x.evidence = e with
  | none =>
    rw [hf, Option.none_or] at h
    exact Or.inr h
  | some x =>
    rw [hf] at h
    rw [← Option.some.inj h]
    exact Or.inl ⟨List.mem_reverse.1 (List.mem_of_find?_eq_some hf),
      by simpa using List.find?_some hf⟩

/-- a cohort that agrees with the map changes none of its entries -/
theorem remember_keeps {observations : DriftRows} {obs : List DriftObservation}
    (hagree : ∀ o ∈ obs, ∀ r, observations.lookup o.evidence = some r → r = o) {e : DriftEvidence}
    {o : DriftObservation} (ho : observations.lookup e = some o) :
    (remember observations obs).lookup e = some o := by
  cases hf : obs.reverse.find? fun x => x.evidence = e with
  | none => rw [lookup_remember, hf, Option.none_or, ho]
  | some x =>
    have hx : x ∈ obs := List.mem_reverse.1 (List.mem_of_find?_eq_some hf)
    have hxe : x.evidence = e := by simpa using List.find?_some hf
    rw [lookup_remember, hf, hagree x hx o (hxe ▸ ho)]
    rfl

/-! ## observing again -/

variable {c : DriftCall} {w : DriftMonitor} {obs : List DriftObservation}

/-- what a call leaves: its cohort came back and is remembered, or it raised -/
theorem observe_cases (hp : c.pending = .ok obs) :
    (∃ repository seen, observe c w = (.ok obs, ⟨remember w.observations obs, repository, seen⟩) ∧
        Option.Rel (Appended obs) w.repository repository) ∨
      ∃ err rows rows' seen, observe c w = (.error err, ⟨w.observations, some rows', seen⟩) ∧
        w.repository = some rows ∧ (rows' = rows ∨ Appended obs rows rows') := by
  rcases hpersist : persist c obs w.repository with ⟨result, repository⟩
  cases result with
  | ok stored =>
    obtain ⟨hstored, hrel⟩ := persist_ok hpersist
    subst hstored
    refine Or.inl ⟨repository, w.seen ++ c.due.map fun d => c.window d.1, ?_, hrel⟩
    simp only [observe, hp, hpersist]
  | error err =>
    obtain ⟨rows, rows', hrows, rfl, hchange⟩ := persist_error hpersist
    refine Or.inr ⟨err, rows, rows', w.seen ++ c.due.map fun d => c.window d.1, ?_, hrows,
      hchange⟩
    simp only [observe, hp, hpersist]

theorem pending_evidence (hp : c.pending = .ok obs) :
    obs.map DriftObservation.evidence = c.due.map Prod.snd := by
  obtain ⟨obs', hp', hall⟩ := c.pending_ok
  rw [hp] at hp'
  rw [Except.ok.inj hp']
  clear hp'
  generalize c.due = due at hall
  induction hall with
  | nil => rfl
  | cons ho _ ih => rw [List.map_cons, List.map_cons, ho.1, ih]

theorem pending_nodup (hp : c.pending = .ok obs) : (obs.map DriftObservation.evidence).Nodup := by
  rw [pending_evidence hp]
  exact c.due_nodup

theorem observe_consistent (h : w.Consistent) (c : DriftCall) : (observe c w).2.Consistent := by
  obtain ⟨obs, hp, -⟩ := c.pending_ok
  have hnd := pending_nodup hp
  rcases observe_cases (w := w) hp with ⟨repository, seen, he, hrel⟩ |
    ⟨err, rows, rows', seen, he, hrows, hchange⟩
  · rw [he]
    cases hr : w.repository with
    | none =>
      rw [hr] at hrel
      cases hrel
      have hkeyed : Dict.Keyed DriftObservation.evidence w.observations :=
        h.keyed_of (by rw [records, hr]; rfl)
      constructor
      · intro e o ho
        rcases of_remember ho with ⟨-, hoe⟩ | hold
        · exact hoe
        · exact hkeyed hold
      · exact fun e o ho => ho
    | some rows =>
      rw [hr] at hrel
      cases hrel with
      | @some _ rows' happ =>
        have hkeyed : Dict.Keyed DriftObservation.evidence rows :=
          h.keyed_of (by rw [records, hr]; rfl)
        refine ⟨happ.keyed hkeyed, fun e o ho => ?_⟩
        rcases of_remember ho with ⟨hmem, rfl⟩ | hold
        · exact happ.mem hnd hmem
        · have hrow := h.mirrored e o hold
          rw [recorded, records, hr] at hrow
          exact happ.keeps hrow
  · rw [he]
    have hkeyed : Dict.Keyed DriftObservation.evidence rows :=
      h.keyed_of (by rw [records, hrows]; rfl)
    have hmirrored := h.mirrored
    simp only [recorded, records, hrows, Option.getD_some] at hmirrored
    rcases hchange with rfl | happ
    · exact ⟨hkeyed, hmirrored⟩
    · exact ⟨happ.keyed hkeyed, fun e o ho => happ.keeps (hmirrored e o ho)⟩

theorem restart_consistent (digest : DriftEvidence → String) (h : w.Consistent) :
    (restart digest w).Consistent := by
  cases hr : w.repository with
  | none =>
    have he : restart digest w = { w with observations := ∅ } := by
      rw [restart, hr]
    rw [he]
    constructor
    · intro e o ho
      rw [records, hr] at ho
      exact absurd ho (by simp)
    · intro e o ho
      exact absurd ho (by simp)
  | some rows =>
    have hkeyed : Dict.Keyed DriftObservation.evidence rows :=
      h.keyed_of (by rw [records, hr]; rfl)
    refine ⟨h.keyed_of (by simp only [records, restart, hr, Option.getD_some]), fun e o ho => ?_⟩
    simp only [restart, hr, Dict.lookup_fromList] at ho
    have hmem := List.mem_reverse.1 (List.mem_of_find?_eq_some ho)
    have hoe : o.evidence = e := by simpa using List.find?_some ho
    obtain ⟨k, hk⟩ := (Dict.mem_values _).1 ((mem_sortedBy _).1 (List.mem_of_mem_take hmem))
    have hrow : rows.lookup e = some o := by
      rw [← hoe, hkeyed hk]
      exact hk
    simpa only [recorded, records, restart, hr, Option.getD_some] using hrow

/-- an observation alters no record, and when its write goes through it returns the recorded
observation of every agent, a new one for a window not observed before -/
structure Idempotent (c : DriftCall) (w : DriftMonitor) : Prop where
  keeps : ∀ e o, w.recorded e = some o → (observe c w).2.recorded e = some o
  remembers : ∀ e o, w.observations.lookup e = some o →
    (observe c w).2.observations.lookup e = some o
  returns : w.Takes c → ∃ stored, (observe c w).1 = .ok stored ∧
    stored.map DriftObservation.evidence = c.due.map Prod.snd ∧
    ∀ o ∈ stored, (observe c w).2.recorded o.evidence = some o
  fresh : w.Takes c → ∀ d ∈ c.due, c.window d.1 ∉ w.seen → w.recorded d.2 = none

/-- a recorded evidence comes of a window observed before, and the clock reads as it did then -/
def Repeats (c : DriftCall) (w : DriftMonitor) : Prop :=
  w.Takes c → ∀ d ∈ c.due, ∀ r, w.recorded d.2 = some r →
    r.createdAt = c.clock d.1 ∧ c.window d.1 ∈ w.seen

/-- a call that repeats finds its cohort in agreement with the records -/
theorem Repeats.agrees (h : Repeats c w) (hcons : w.Consistent) (htakes : w.Takes c)
    (hp : c.pending = .ok obs) :
    ∀ o ∈ obs, w.recorded o.evidence = none ∨ w.recorded o.evidence = some o := by
  obtain ⟨obs', hp', hall⟩ := c.pending_ok
  rw [hp] at hp'
  intro o ho
  rw [Except.ok.inj hp'] at ho
  obtain ⟨d, hd, he, hclock⟩ := Result.forall₂_mem hall ho
  cases hr : w.recorded o.evidence with
  | none => exact Or.inl rfl
  | some r =>
    have hevidence : r.evidence = o.evidence := hcons.keyed hr
    have hcreated : r.createdAt = o.createdAt := by
      rw [(h htakes d hd r (he ▸ hr)).1, hclock]
    cases r
    cases o
    cases hevidence
    cases hcreated
    exact Or.inr rfl

theorem Repeats.observe_ok (h : Repeats c w) (hcons : w.Consistent) (htakes : w.Takes c)
    (hp : c.pending = .ok obs) : (observe c w).1 = .ok obs := by
  have hagree := h.agrees hcons htakes hp
  obtain ⟨repository, hpersist⟩ := persist_isOk htakes (pending_nodup hp) fun rows hrows o ho => by
    have := hagree o ho
    rwa [recorded, records, hrows] at this
  simp only [observe, hp, hpersist]

/-- the map agrees with a cohort that came back -/
theorem map_agrees (hcons : w.Consistent) {repository : Option DriftRows}
    (hrel : Option.Rel (Appended obs) w.repository repository)
    (hagree : w.repository = none →
      ∀ o ∈ obs, w.recorded o.evidence = none ∨ w.recorded o.evidence = some o) :
    ∀ o ∈ obs, ∀ r, w.observations.lookup o.evidence = some r → r = o := by
  intro o ho r hr
  have hrow := hcons.mirrored _ _ hr
  have hcase : w.recorded o.evidence = none ∨ w.recorded o.evidence = some o := by
    cases hw : w.repository with
    | none => exact hagree hw o ho
    | some rows =>
      rw [hw] at hrel
      cases hrel with
      | some happ =>
        rw [recorded, records, hw]
        exact happ.agrees o ho
  rcases hcase with hnone | hsome
  · rw [hnone] at hrow
    exact absurd hrow (by simp)
  · rw [hsome] at hrow
    exact (Option.some.inj hrow).symm

/-- what the records hold after a cohort came back -/
theorem recorded_of_ok (hcons : w.Consistent) (hp : c.pending = .ok obs)
    (hok : (observe c w).1 = .ok obs) :
    (∀ o ∈ obs, (observe c w).2.recorded o.evidence = some o) ∧
      ((w.repository = none →
          ∀ o ∈ obs, w.recorded o.evidence = none ∨ w.recorded o.evidence = some o) →
        (∀ e o, w.recorded e = some o → (observe c w).2.recorded e = some o) ∧
        ∀ e o, w.observations.lookup e = some o →
          (observe c w).2.observations.lookup e = some o) := by
  have hnd := pending_nodup hp
  rcases observe_cases (w := w) hp with ⟨repository, seen, he, hrel⟩ |
    ⟨err, rows, rows', seen, he, -, -⟩
  · rw [he]
    have hmap := fun hagree => map_agrees hcons hrel hagree
    cases hw : w.repository with
    | none =>
      rw [hw] at hrel
      cases hrel
      refine ⟨fun o ho => remember_mem hnd ho, fun hagree => ?_⟩
      have hkeep : ∀ e o, w.observations.lookup e = some o →
          (remember w.observations obs).lookup e = some o :=
        fun e o ho => remember_keeps (hmap fun _ => hagree rfl) ho
      refine ⟨fun e o ho => hkeep e o ?_, hkeep⟩
      rwa [recorded, records, hw] at ho
    | some rows =>
      rw [hw] at hrel
      cases hrel with
      | some happ =>
        refine ⟨fun o ho => happ.mem hnd ho, fun _ => ⟨fun e o ho => ?_, fun e o ho => ?_⟩⟩
        · rw [recorded, records, hw] at ho
          exact happ.keeps ho
        · refine remember_keeps (hmap fun hnone => ?_) ho
          rw [hw] at hnone
          exact absurd hnone (by simp)
  · rw [he] at hok
    exact absurd hok (by simp)

/-- a call that raises changes no entry -/
theorem kept_of_error (hp : c.pending = .ok obs) {err : Error}
    (herr : (observe c w).1 = .error err) :
    (∀ e o, w.recorded e = some o → (observe c w).2.recorded e = some o) ∧
      ∀ e o, w.observations.lookup e = some o →
        (observe c w).2.observations.lookup e = some o := by
  rcases observe_cases (w := w) hp with ⟨repository, seen, he, -⟩ |
    ⟨err', rows, rows', seen, he, hrows, hchange⟩
  · rw [he] at herr
    exact absurd herr (by simp)
  · rw [he]
    refine ⟨fun e o ho => ?_, fun e o ho => ho⟩
    rw [recorded, records, hrows] at ho
    rcases hchange with rfl | happ
    · exact ho
    · exact happ.keeps ho

/-- in a consistent state the observation is idempotent exactly when it repeats what is recorded -/
theorem idempotent_iff (hcons : w.Consistent) : Idempotent c w ↔ Repeats c w := by
  obtain ⟨obs, hp, hall⟩ := c.pending_ok
  constructor
  · intro h htakes d hd r hr
    obtain ⟨stored, hok, -, hrecorded⟩ := h.returns htakes
    have hobs : stored = obs := by
      rcases observe_cases (w := w) hp with ⟨repository, seen, he, -⟩ |
        ⟨err, rows, rows', seen, he, -, -⟩
      · rw [he] at hok
        exact (Except.ok.inj hok).symm
      · rw [he] at hok
        exact absurd hok (by simp)
    obtain ⟨o, ho, he, hclock⟩ := Result.forall₂_mem hall.flip hd
    have hro : r = o := by
      have hnew := hrecorded o (hobs ▸ ho)
      rw [he, h.keeps _ _ hr] at hnew
      exact Option.some.inj hnew
    refine ⟨by rw [hro, hclock], ?_⟩
    by_contra hnew
    rw [h.fresh htakes d hd hnew] at hr
    exact absurd hr (by simp)
  · intro h
    cases hres : (observe c w).1 with
    | error err =>
      obtain ⟨hkeeps, hremembers⟩ := kept_of_error hp hres
      have hnot : ¬ w.Takes c := fun htakes => by
        rw [h.observe_ok hcons htakes hp] at hres
        exact absurd hres (by simp)
      exact ⟨hkeeps, hremembers, fun htakes => absurd htakes hnot,
        fun htakes => absurd htakes hnot⟩
    | ok stored =>
      have hok : (observe c w).1 = .ok obs := by
        rcases observe_cases (w := w) hp with ⟨repository, seen, he, -⟩ |
          ⟨err, rows, rows', seen, he, -, -⟩
        · rw [he]
        · rw [he] at hres
          exact absurd hres (by simp)
      obtain ⟨hrecorded, hkept⟩ := recorded_of_ok hcons hp hok
      obtain ⟨hkeeps, hremembers⟩ := hkept fun hnone => h.agrees hcons (Or.inl hnone) hp
      refine ⟨hkeeps, hremembers, fun _ => ⟨obs, hok, ?_, hrecorded⟩, fun htakes d hd hnew => ?_⟩
      · exact pending_evidence hp
      · cases hr : w.recorded d.2 with
        | none => rfl
        | some r => exact absurd (h htakes d hd r hr).2 hnew

/-- after an idempotent observation the same evidence is observed at the same clock reading -/
theorem later_clock {c' : DriftCall} (hcons : w.Consistent) (h : Idempotent c w)
    (h' : Idempotent c' (observe c w).2) (htakes : w.Takes c)
    (htakes' : (observe c w).2.Takes c') {d : (String × String) × DriftEvidence} (hd : d ∈ c.due)
    (hd' : d ∈ c'.due) : c.clock d.1 = c'.clock d.1 := by
  obtain ⟨obs, hp, hall⟩ := c.pending_ok
  have hok := ((idempotent_iff hcons).1 h).observe_ok hcons htakes hp
  obtain ⟨o, ho, he, hcreated⟩ := Result.forall₂_mem hall.flip hd
  have hrecorded := (recorded_of_ok hcons hp hok).1 o ho
  rw [he] at hrecorded
  have hrepeats := (idempotent_iff (observe_consistent hcons c)).1 h'
  rw [← hcreated]
  exact (hrepeats htakes' d hd' o hrecorded).1

/-! ## runs -/

end DriftMonitor

/-- an observation, or a new monitor on the same store -/
inductive DriftOp where
  | observe (c : DriftCall)
  | restart

namespace DriftMonitor

/-- a new monitor, with or without a store -/
def start (durable : Bool) : DriftMonitor where
  observations := ∅
  repository := if durable then some ∅ else none
  seen := []

def step (digest : DriftEvidence → String) (w : DriftMonitor) : DriftOp → DriftMonitor
  | .observe c => (observe c w).2
  | .restart => restart digest w

/-- observations are idempotent, and a restart leaves the stored records -/
def Lasts (digest : DriftEvidence → String) (w : DriftMonitor) : DriftOp → Prop
  | .observe c => Idempotent c w
  | .restart => w.repository ≠ none → (restart digest w).recorded = w.recorded

/-- observations repeat what is recorded -/
def Repeated (w : DriftMonitor) : DriftOp → Prop
  | .observe c => Repeats c w
  | .restart => True

theorem start_consistent (durable : Bool) : (start durable).Consistent := by
  have hrecords : (start durable).records = ∅ := by cases durable <;> rfl
  constructor
  · intro e o ho
    rw [hrecords] at ho
    exact absurd ho (by simp)
  · intro e o ho
    exact absurd ho (by simp [start])

theorem step_consistent (digest : DriftEvidence → String) (w : DriftMonitor) (op : DriftOp)
    (h : w.Consistent) : (step digest w op).Consistent := by
  cases op with
  | observe c => exact observe_consistent h c
  | restart => exact restart_consistent digest h

theorem lasts_iff (digest : DriftEvidence → String) (w : DriftMonitor) (op : DriftOp)
    (h : w.Consistent) : Lasts digest w op ↔ Repeated w op := by
  cases op with
  | observe c => exact idempotent_iff h
  | restart =>
    refine iff_of_true (fun hne => ?_) trivial
    obtain ⟨rows, hrows⟩ := Option.ne_none_iff_exists'.1 hne
    funext e
    simp only [recorded, records, restart, hrows, Option.getD_some]

/-- **Idempotent observation.** From a new monitor, durable or not, every observation of a run alters
no record, returns the recorded observation of every agent and makes a new one for a window not
observed before, exactly when every evidence a call finds recorded comes of a window observed before
and the clock reads as it did when it was recorded. -/
theorem observe_idempotent_iff (digest : DriftEvidence → String) (durable : Bool)
    (ops : List DriftOp) :
    Along (step digest) (Lasts digest) (start durable) ops ↔
      Along (step digest) Repeated (start durable) ops :=
  along_congr (step_consistent digest) (lasts_iff digest) (start_consistent durable) ops

/-! ## the same history at a later clock -/

/-- seventy settled forecasts that were right, a minute apart -/
def settledSample : List AgentForecastOutcome :=
  (List.range 70).map fun i =>
    { outcomeId :=
        { forecastId :=
            { correlationId := "cycle-1", agentName := "MomentumAgent", agentVersion := "1.0.0",
              definitionHash :=
                { agentName := "MomentumAgent", version := "1.0.0",
                  description := "momentum of closes", requiredInputs := ["close"],
                  capabilities := ["analysis"], decisionRole := .shadow, critical := false,
                  timeoutMs := 1000, maxAttempts := 1 },
              symbol := "BTCUSDT", timeframe := "1m", signal := .buy, confidence := 80,
              probabilityUp := 9 / 10, referencePrice := 100, forecastAt := i * 60000000,
              targetAt := (i + 1) * 60000000 },
          realizedAt := (i + 1) * 60000000, realizedPrice := 101 }
      evidence :=
        { realizedReturn := 1 / 100, realizedUp := 1, correct := some true, brierLoss := 1 / 100,
          ensembleProbabilityUp := 9 / 10, ensembleBrierLoss := 1 / 100,
          leaveOneOutProbabilityUp := 1 / 2, leaveOneOutBrierLoss := 1 / 4,
          marginalContribution := 24 / 100, cohortSize := 1 }
      createdAt := (i + 1) * 60000000
      accepted := by
        simp only [agentForecastOutcomeFields, List.forall_mem_cons, decide_eq_true_eq]
        norm_num }

def registeredSample : RegisteredAgent :=
  ⟨{ agentName := "MomentumAgent", version := "1.0.0", description := "momentum of closes",
     requiredInputs := ["close"], capabilities := ["analysis"], decisionRole := .shadow,
     critical := false, timeoutMs := 1000, maxAttempts := 1, enabled := true,
     definitionHash :=
      { agentName := "MomentumAgent", version := "1.0.0", description := "momentum of closes",
        requiredInputs := ["close"], capabilities := ["analysis"], decisionRole := .shadow,
        critical := false, timeoutMs := 1000, maxAttempts := 1 } },
    validateModel_ok.2 ⟨by decide +kernel, by decide +kernel, rfl⟩⟩

/-- the default experiment over that history, at a clock reading -/
def observedAt (now : Time) : DriftCall where
  experiment := defaultExperiment 0
  registrations := ⟨[registeredSample], List.nodup_singleton _⟩
  history _ := settledSample
  clock _ := now
  fate := .saved

/-- SHA-256 at the evidence of that history -/
def sampleDigest (_ : DriftEvidence) : String :=
  "679713e0187131b8e3822f754e841d1d32d2a18397562afb59ed219e081489d5"

theorem settledSample_due (now : Time) : ∃ d ∈ (observedAt now).due, ∀ later : Time,
    d ∈ (observedAt later).due := by
  have hlen : settledSample.length = 70 := by rw [settledSample, List.length_map, List.length_range]
  have hfull : ¬ settledSample.length < 50 + 20 := by omega
  refine ⟨(registeredSample.agent, windowEvidence defaultPolicy registeredSample.agent
    ((settledSample.drop (settledSample.length - (50 + 20))).take 50)
    (settledSample.drop (settledSample.length - 20))), ?_, fun later => ?_⟩
  · exact DriftCall.mem_due.2 ⟨registeredSample, List.mem_singleton_self _, if_neg (t := none) hfull, rfl⟩
  · exact DriftCall.mem_due.2 ⟨registeredSample, List.mem_singleton_self _, if_neg (t := none) hfull, rfl⟩

/-- an unchanged history observed a microsecond later: the store refuses it, and a monitor without a
store writes the new time over the old one -/
theorem observed_again :
    ¬ Along (step sampleDigest) (Lasts sampleDigest) (start true)
        [.observe (observedAt 0), .observe (observedAt 1)] ∧
      ¬ Along (step sampleDigest) (Lasts sampleDigest) (start false)
        [.observe (observedAt 0), .observe (observedAt 1)] := by
  have hagain : ∀ durable, ¬ Along (step sampleDigest) (Lasts sampleDigest) (start durable)
      [.observe (observedAt 0), .observe (observedAt 1)] := by
    rintro durable ⟨hfirst, hsecond, -⟩
    obtain ⟨d, hd, hlater⟩ := settledSample_due 0
    have hclock : (0 : Time) = 1 := later_clock (start_consistent durable) hfirst hsecond
      (Or.inr rfl) (Or.inr rfl) hd (hlater 1)
    exact absurd hclock (by decide)
  exact ⟨hagain true, hagain false⟩

end DriftMonitor

end CapitalCipher
