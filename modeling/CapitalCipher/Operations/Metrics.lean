/-
The metric registry of `operations/metrics.py`, and what `operations/service.py` reports to it and
reads from it.

Every call of the clock takes the next reading of a sequence that never decreases. A counter keeps
its events in a bounded queue; total and failures of a success rate are two counters. Gauges and
snapshots are left out.

  • `observeAgentBatch_spec`, `observeOrchestratorCycle_spec`: what a call appends to each queue.
  • `countRate_snd`: a count reads the clock and changes nothing else.
  • `evaluatedRate_check`: an evaluation meets its own contract.
-/
import CapitalCipher.Lib.BoundedQueue
import CapitalCipher.Lib.Dict
import CapitalCipher.Schemas.Agents
import CapitalCipher.Schemas.Operations

namespace CapitalCipher

open Lib

/-! ## the registry -/

/-- what a clock reads, call after call -/
abbrev MonotonicClock := {readings : ℕ → ℚ // Monotone readings}

/-- the capacities the constructor accepts -/
abbrev MetricCapacity := {n : ℕ // 100 ≤ n ∧ n ≤ 1000000}

/-- `BoundedMetricRegistry` -/
structure MetricRegistry where
  capacity : MetricCapacity
  counters : Dict String ℚ
  counterEvents : Dict String (List (ℚ × ℚ))
  histograms : Dict String (List (ℚ × ℚ))
  /-- how often the clock was read -/
  reads : ℕ

namespace MetricRegistry

def new (capacity : MetricCapacity) : MetricRegistry := ⟨capacity, ∅, ∅, ∅, 0⟩

/-- `self._counter_events.get(name, ())` -/
def eventsOf (r : MetricRegistry) (name : String) : List (ℚ × ℚ) :=
  (r.counterEvents.lookup name).getD []

def increment (clock : MonotonicClock) (name : String) (amount : ℚ) (r : MetricRegistry) :
    Except Error MetricRegistry :=
  if amount < 0 then
    .error ⟨.transport, "Counter increments must be finite and nonnegative"⟩
  else
    .ok { r with
      counters := r.counters.insert name ((r.counters.lookup name).getD 0 + amount)
      counterEvents := r.counterEvents.insert name
        (BoundedQueue.append r.capacity.1 (r.eventsOf name) (clock.1 r.reads, amount))
      reads := r.reads + 1 }

def observe (clock : MonotonicClock) (name : String) (value : ℚ) (r : MetricRegistry) :
    MetricRegistry :=
  { r with
    histograms := r.histograms.insert name (BoundedQueue.append r.capacity.1
      ((r.histograms.lookup name).getD []) (clock.1 r.reads, value))
    reads := r.reads + 1 }

def counter (clock : MonotonicClock) (name : String) (windowSeconds : Option ℕ)
    (r : MetricRegistry) : ℚ × MetricRegistry :=
  match windowSeconds with
  | some seconds =>
    let cutoff := clock.1 r.reads - seconds
    ((((r.eventsOf name).filter fun e => decide (cutoff ≤ e.1)).map Prod.snd).sum,
      { r with reads := r.reads + 1 })
  | none => ((r.counters.lookup name).getD 0, r)

variable {clock : MonotonicClock} {name : String} {amount : ℚ} {r r' : MetricRegistry}

theorem increment_ok (h : r.increment clock name amount = .ok r') :
    r'.capacity = r.capacity ∧ r'.reads = r.reads + 1 ∧
      ∀ name', r'.eventsOf name' = if name' = name then
        BoundedQueue.append r.capacity.1 (r.eventsOf name) (clock.1 r.reads, amount)
      else r.eventsOf name' := by
  unfold increment at h
  split_ifs at h
  cases h
  refine ⟨rfl, rfl, fun name' => ?_⟩
  simp only [eventsOf, Dict.lookup_insert_eq]
  split_ifs <;> rfl

theorem increment_natCast (clock : MonotonicClock) (name : String) (n : ℕ) (r : MetricRegistry) :
    ∃ r', r.increment clock name n = .ok r' := by
  rw [increment, if_neg (not_lt.2 (Nat.cast_nonneg n))]
  exact ⟨_, rfl⟩

@[simp] theorem eventsOf_observe (value : ℚ) (name' : String) :
    (r.observe clock name value).eventsOf name' = r.eventsOf name' := rfl

@[simp] theorem capacity_observe (value : ℚ) :
    (r.observe clock name value).capacity = r.capacity := rfl

@[simp] theorem reads_observe (value : ℚ) :
    (r.observe clock name value).reads = r.reads + 1 := rfl

end MetricRegistry

/-! ## the success rates -/

/-- what the constructor of the service accepts -/
structure SLOSettings where
  windowSeconds : ℕ
  agentSuccessTarget : ℚ
  orchestratorSuccessTarget : ℚ
  window_accepted : 10 ≤ windowSeconds ∧ windowSeconds ≤ 86400
  agent_accepted : 1 / 2 ≤ agentSuccessTarget ∧ agentSuccessTarget ≤ 1
  orchestrator_accepted : 1 / 2 ≤ orchestratorSuccessTarget ∧ orchestratorSuccessTarget ≤ 1

/-- the rates of `evaluate_slos` -/
inductive SuccessRate where
  | agents | orchestrator
  deriving DecidableEq, Repr

namespace SuccessRate

def sloName : SuccessRate → String
  | agents => "agents.execution_success_rate"
  | orchestrator => "orchestrator.cycle_success_rate"

def totalMetric : SuccessRate → String
  | agents => "agents.executions"
  | orchestrator => "orchestrator.cycles"

def failureMetric : SuccessRate → String
  | agents => "agents.failures"
  | orchestrator => "orchestrator.failures"

def target (cfg : SLOSettings) : SuccessRate → ℚ
  | agents => cfg.agentSuccessTarget
  | orchestrator => cfg.orchestratorSuccessTarget

end SuccessRate

def AgentOutput.failed (o : AgentOutput) : Bool := o.status == .failed || o.status == .timeout

/-- `observe_agent_batch` up to its cost -/
def observeAgentBatch (clock : MonotonicClock) (outputs : List AgentOutput) (durationMs : ℚ)
    (r : MetricRegistry) : Except Error MetricRegistry := do
  let r ← r.increment clock "agents.executions" outputs.length
  let r ← r.increment clock "agents.failures" (outputs.countP AgentOutput.failed)
  let r ← r.increment clock "agents.timeouts" (outputs.countP fun o => o.status == .timeout)
  let r := r.observe clock "agent_batch.duration_ms" durationMs
  .ok (outputs.foldl (fun r o => r.observe clock "agents.execution_latency_ms" o.latencyMs) r)

/-- `observe_orchestrator_cycle` -/
def observeOrchestratorCycle (clock : MonotonicClock) (success : Bool) (durationMs : ℚ)
    (r : MetricRegistry) : Except Error MetricRegistry := do
  let r ← r.increment clock "orchestrator.cycles" 1
  let r ← if success then .ok r else r.increment clock "orchestrator.failures" 1
  .ok (r.observe clock "orchestrator.cycle_latency_ms" durationMs)

/-- an `SLOEvaluation` of a rate -/
structure RateEvaluation extends SLOEvaluation where
  sampleCount : ℤ
  compliant : Option Bool
  errorBudgetRemainingPercent : ℚ
  windowSeconds : ℕ
  deriving DecidableEq

/-- `^[a-z][a-z0-9_.-]+$`, of 3 to 128 characters -/
def validSloName (s : String) : Bool :=
  decide (3 ≤ s.length ∧ s.length ≤ 128) &&
  match s.toList with
  | first :: rest =>
    first.isLower && rest.all fun c => c.isLower || c.isDigit || c ∈ ['_', '.', '-']
  | [] => false

def RateEvaluation.check (e : RateEvaluation) : Except Error RateEvaluation :=
  validateModel
    [("slo_name", validSloName e.sloName),
     ("target", decide (0 ≤ e.target)),
     ("measured", e.measured.all fun m => decide (0 ≤ m)),
     ("sample_count", decide (0 ≤ e.sampleCount)),
     ("error_budget_remaining_percent",
       decide (0 ≤ e.errorBudgetRemainingPercent ∧ e.errorBudgetRemainingPercent ≤ 100)),
     ("window_seconds", decide (1 ≤ e.windowSeconds ∧ e.windowSeconds ≤ 86400))]
    [("NO_DATA must match empty measurement fields",
       (e.status == .noData) ==
         (e.sampleCount == 0 && e.measured.isNone && e.compliant.isNone)),
     ("Measured SLOs require samples and compliance",
       e.status == .noData ||
         !(e.sampleCount == 0 || e.measured.isNone || e.compliant.isNone)),
     ("BREACHED SLOs must be non-compliant",
       e.status != .breached || e.compliant == some false),
     ("Healthy/warning SLOs must be compliant",
       !(e.status == .healthy || e.status == .warning) || e.compliant == some true)]
    e

/-- `max(0.0, min(1.0, 1 - failures / total))` -/
def measuredRate (total failures : ℚ) : ℚ := max 0 (min 1 (1 - failures / total))

/-- the total of a rate and what is measured of it, when anything was counted -/
def countRate (cfg : SLOSettings) (clock : MonotonicClock) (rate : SuccessRate)
    (r : MetricRegistry) : (ℤ × Option ℚ) × MetricRegistry :=
  let (events, r) := r.counter clock rate.totalMetric (some cfg.windowSeconds)
  -- `int(...)` of what is not negative
  let total := ⌊events⌋
  if total = 0 then ((total, none), r)
  else
    let (failures, r) := r.counter clock rate.failureMetric (some cfg.windowSeconds)
    ((total, some (measuredRate total failures)), r)

/-- what an evaluation makes of a count -/
def evaluatedRate (cfg : SLOSettings) (rate : SuccessRate) (evaluationId : String) (total : ℤ) :
    Option ℚ → RateEvaluation
  | none =>
    { evaluationId := evaluationId
      sloName := rate.sloName
      measured := none
      target := rate.target cfg
      status := .noData
      sampleCount := 0
      compliant := none
      errorBudgetRemainingPercent := 100
      windowSeconds := cfg.windowSeconds }
  | some measured =>
    let allowedError := max (1 / 10 ^ 12) (1 - rate.target cfg)
    let consumed := (1 - measured) / allowedError * 100
    let remaining := max 0 (100 - consumed)
    let compliant := decide (rate.target cfg ≤ measured)
    { evaluationId := evaluationId
      sloName := rate.sloName
      measured := some (Decimal.round measured 8)
      target := rate.target cfg
      status := if !compliant then .breached
        else if remaining ≤ 20 then .warning
        else .healthy
      sampleCount := total
      compliant := some compliant
      errorBudgetRemainingPercent := Decimal.round remaining 6
      windowSeconds := cfg.windowSeconds }

/-- `_rate_evaluation` -/
def rateEvaluation (cfg : SLOSettings) (clock : MonotonicClock) (rate : SuccessRate)
    (evaluationId : String) (r : MetricRegistry) : Except Error RateEvaluation × MetricRegistry :=
  let (count, r) := countRate cfg clock rate r
  ((evaluatedRate cfg rate evaluationId count.1 count.2).check, r)

/-! ## what a call does to the registry -/

section Calls

variable {clock : MonotonicClock}

theorem foldl_observe (clock : MonotonicClock) (name : String) (values : List ℚ) (r : MetricRegistry) :
    (values.foldl (fun r v => r.observe clock name v) r).capacity = r.capacity ∧
      r.reads ≤ (values.foldl (fun r v => r.observe clock name v) r).reads ∧
      ∀ name', (values.foldl (fun r v => r.observe clock name v) r).eventsOf name' =
        r.eventsOf name' := by
  induction values generalizing r with
  | nil => exact ⟨rfl, le_rfl, fun _ => rfl⟩
  | cons v values ih =>
    obtain ⟨hcapacity, hreads, hevents⟩ := ih (r.observe clock name v)
    rw [MetricRegistry.reads_observe] at hreads
    exact ⟨hcapacity, by rw [List.foldl_cons]; omega, hevents⟩

/-- a batch reports its executions and then its failures -/
theorem observeAgentBatch_spec (clock : MonotonicClock) (outputs : List AgentOutput)
    (durationMs : ℚ) (r : MetricRegistry) :
    ∃ r', observeAgentBatch clock outputs durationMs r = .ok r' ∧ r'.capacity = r.capacity ∧
      r.reads + 2 ≤ r'.reads ∧
      ∀ name, r'.eventsOf name =
        if name = "agents.executions" then
          BoundedQueue.append r.capacity.1 (r.eventsOf name)
            (clock.1 r.reads, (outputs.length : ℚ))
        else if name = "agents.failures" then
          BoundedQueue.append r.capacity.1 (r.eventsOf name)
            (clock.1 (r.reads + 1), (outputs.countP AgentOutput.failed : ℚ))
        else if name = "agents.timeouts" then
          BoundedQueue.append r.capacity.1 (r.eventsOf name)
            (clock.1 (r.reads + 2), (outputs.countP fun o => o.status == .timeout : ℚ))
        else r.eventsOf name := by
  obtain ⟨r1, h1⟩ := r.increment_natCast clock "agents.executions" outputs.length
  obtain ⟨r2, h2⟩ := r1.increment_natCast clock "agents.failures" (outputs.countP AgentOutput.failed)
  obtain ⟨r3, h3⟩ := r2.increment_natCast clock "agents.timeouts"
    (outputs.countP fun o => o.status == .timeout)
  obtain ⟨hcapacity1, hreads1, hevents1⟩ := MetricRegistry.increment_ok h1
  obtain ⟨hcapacity2, hreads2, hevents2⟩ := MetricRegistry.increment_ok h2
  obtain ⟨hcapacity3, hreads3, hevents3⟩ := MetricRegistry.increment_ok h3
  obtain ⟨hcapacity4, hreads4, hevents4⟩ := foldl_observe clock
    "agents.execution_latency_ms" (outputs.map fun o => (o.latencyMs : ℚ))
    (r3.observe clock "agent_batch.duration_ms" durationMs)
  rw [List.foldl_map] at hcapacity4 hreads4 hevents4
  refine ⟨outputs.foldl (fun r o => r.observe clock "agents.execution_latency_ms" o.latencyMs)
    (r3.observe clock "agent_batch.duration_ms" durationMs), ?_, ?_, ?_, fun name => ?_⟩
  · rw [observeAgentBatch, h1]
    simp only [bind, Except.bind, h2, h3]
  · rw [hcapacity4, MetricRegistry.capacity_observe, hcapacity3, hcapacity2, hcapacity1]
  · rw [MetricRegistry.reads_observe] at hreads4
    omega
  · simp only [hevents4, MetricRegistry.eventsOf_observe, hevents3, hevents2, hevents1, hcapacity2,
      hcapacity1, hreads2, hreads1]
    by_cases ha : name = "agents.executions"
    · subst ha
      simp
    · by_cases hb : name = "agents.failures"
      · subst hb
        simp
      · by_cases hc : name = "agents.timeouts"
        · subst hc
          simp
        · simp [ha, hb, hc]

/-- a cycle reports itself, and a failure when it failed -/
theorem observeOrchestratorCycle_spec (clock : MonotonicClock) (success : Bool) (durationMs : ℚ)
    (r : MetricRegistry) :
    ∃ r', observeOrchestratorCycle clock success durationMs r = .ok r' ∧
      r'.capacity = r.capacity ∧ r.reads + 2 ≤ r'.reads ∧
      ∀ name, r'.eventsOf name =
        if name = "orchestrator.cycles" then
          BoundedQueue.append r.capacity.1 (r.eventsOf name) (clock.1 r.reads, 1)
        else if name = "orchestrator.failures" ∧ success = false then
          BoundedQueue.append r.capacity.1 (r.eventsOf name) (clock.1 (r.reads + 1), 1)
        else r.eventsOf name := by
  obtain ⟨r1, h1⟩ := r.increment_natCast clock "orchestrator.cycles" 1
  rw [Nat.cast_one] at h1
  obtain ⟨hcapacity1, hreads1, hevents1⟩ := MetricRegistry.increment_ok h1
  cases success with
  | true =>
    refine ⟨r1.observe clock "orchestrator.cycle_latency_ms" durationMs, ?_, hcapacity1, ?_,
      fun name => ?_⟩
    · rw [observeOrchestratorCycle, h1]
      rfl
    · rw [MetricRegistry.reads_observe, hreads1]
    · rw [MetricRegistry.eventsOf_observe, hevents1]
      by_cases ha : name = "orchestrator.cycles"
      · subst ha
        simp
      · simp [ha]
  | false =>
    obtain ⟨r2, h2⟩ := r1.increment_natCast clock "orchestrator.failures" 1
    rw [Nat.cast_one] at h2
    obtain ⟨hcapacity2, hreads2, hevents2⟩ := MetricRegistry.increment_ok h2
    refine ⟨r2.observe clock "orchestrator.cycle_latency_ms" durationMs, ?_, ?_, ?_, fun name => ?_⟩
    · rw [observeOrchestratorCycle, h1]
      simp only [bind, Except.bind, Bool.false_eq_true, if_false, h2]
    · rw [MetricRegistry.capacity_observe, hcapacity2, hcapacity1]
    · rw [MetricRegistry.reads_observe, hreads2, hreads1]
      omega
    · rw [MetricRegistry.eventsOf_observe, hevents2, hevents1, hevents1, hcapacity1, hreads1]
      by_cases ha : name = "orchestrator.cycles"
      · subst ha
        simp
      · by_cases hb : name = "orchestrator.failures"
        · subst hb
          simp
        · simp [ha, hb]

/-- what a counter reads inside the window -/
theorem MetricRegistry.counter_window (name : String) (seconds : ℕ) (r : MetricRegistry) :
    r.counter clock name (some seconds) =
      ((((r.eventsOf name).filter fun e => decide (clock.1 r.reads - seconds ≤ e.1)).map
        Prod.snd).sum, { r with reads := r.reads + 1 }) := rfl

theorem countRate_snd (clock : MonotonicClock) (cfg : SLOSettings) (rate : SuccessRate) (r : MetricRegistry) :
    ∃ n, (countRate cfg clock rate r).2 = { r with reads := r.reads + n } := by
  by_cases hzero : ⌊(r.counter clock rate.totalMetric (some cfg.windowSeconds)).1⌋ = 0
  · refine ⟨1, ?_⟩
    unfold countRate
    rw [MetricRegistry.counter_window] at hzero ⊢
    simp only [hzero, if_true]
  · refine ⟨2, ?_⟩
    unfold countRate
    rw [MetricRegistry.counter_window] at hzero ⊢
    simp only [hzero, if_false, MetricRegistry.counter_window]

end Calls

/-! ## what an evaluation says -/

variable {cfg : SLOSettings} {rate : SuccessRate}

theorem evaluatedRate_breached {id : String} {total : ℤ} {measured : Option ℚ}
    (h : (evaluatedRate cfg rate id total measured).status = .breached) :
    ∃ m ∈ measured, m < rate.target cfg := by
  cases measured with
  | none => cases h
  | some m =>
    refine ⟨m, rfl, ?_⟩
    by_contra hle
    simp only [evaluatedRate, not_lt.1 hle, decide_true, Bool.not_true, Bool.false_eq_true,
      if_false] at h
    split_ifs at h

theorem rateEvaluation_fst (cfg : SLOSettings) (clock : MonotonicClock) (rate : SuccessRate)
    (id : String) (r : MetricRegistry) :
    (rateEvaluation cfg clock rate id r).1 =
      (evaluatedRate cfg rate id (countRate cfg clock rate r).1.1
        (countRate cfg clock rate r).1.2).check := rfl

/-- an evaluation meets its own contract -/
theorem evaluatedRate_check (cfg : SLOSettings) (rate : SuccessRate) (id : String) {total : ℤ}
    {measured : Option ℚ} (h : ∀ m ∈ measured, 0 < total ∧ 0 ≤ m ∧ m ≤ 1) :
    (evaluatedRate cfg rate id total measured).check =
      .ok (evaluatedRate cfg rate id total measured) := by
  have hname : validSloName rate.sloName = true := by cases rate <;> decide +kernel
  have htarget : 0 ≤ rate.target cfg := by
    have hagent := cfg.agent_accepted.1
    have horchestrator := cfg.orchestrator_accepted.1
    cases rate <;> simp only [SuccessRate.target] <;> linarith
  have hwindow : 1 ≤ cfg.windowSeconds ∧ cfg.windowSeconds ≤ 86400 :=
    ⟨by have := cfg.window_accepted.1; omega, cfg.window_accepted.2⟩
  cases measured with
  | none =>
    refine validateModel_ok.2 ⟨?_, ?_, rfl⟩
    · simp [evaluatedRate, hname, htarget, hwindow]
    · simp [evaluatedRate]
  | some m =>
    obtain ⟨htotal, hm0, hm1⟩ := h m rfl
    have hremaining : ∀ allowed : ℚ, 0 < allowed → 0 ≤ Decimal.round
        (max 0 (100 - (1 - m) / allowed * 100)) 6 ∧
        Decimal.round (max 0 (100 - (1 - m) / allowed * 100)) 6 ≤ 100 := by
      intro allowed hpos
      have hconsumed : 0 ≤ (1 - m) / allowed * 100 := by
        have : 0 ≤ 1 - m := by linarith
        positivity
      refine ⟨Decimal.round_nonneg (le_max_left _ _) 6, ?_⟩
      calc Decimal.round (max 0 (100 - (1 - m) / allowed * 100)) 6
          ≤ Decimal.round 100 6 := Decimal.round_mono (max_le (by norm_num) (by linarith)) 6
        _ = 100 := by decide +kernel
    have hallowed : (0 : ℚ) < max (1 / 10 ^ 12) (1 - rate.target cfg) :=
      lt_max_of_lt_left (by positivity)
    have hbudget := hremaining _ hallowed
    refine validateModel_ok.2 ⟨?_, ?_, rfl⟩
    · simp only [evaluatedRate, List.forall_mem_cons, Option.all_some]
      refine ⟨hname, decide_eq_true htarget, decide_eq_true (Decimal.round_nonneg hm0 8),
        decide_eq_true htotal.le, decide_eq_true hbudget, decide_eq_true hwindow, ?_⟩
      simp
    · by_cases hle : rate.target cfg ≤ m
      · simp only [evaluatedRate, hle, decide_true, Bool.not_true, Bool.false_eq_true, if_false]
        split_ifs <;> simp [htotal.ne']
      · simp [evaluatedRate, hle, htotal.ne']

end CapitalCipher
