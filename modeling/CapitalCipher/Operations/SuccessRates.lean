/-
The success rates of `operations/service.py` over runs of cycles and batches.

The world keeps beside the registry what was reported for each rate, so the fraction of successes is
defined without the queue of the failures.

  • `step_recorded`, `run_recorded`: the queues hold the newest reports, in the order of time.
  • `success_rate_iff`: in every state of a run, exactly when a measured rate is the fraction of
    successes among the events it counts.
  • `forgotten_successes`: a breach is reported although every counted cycle succeeded.
  • `rateEvaluation_isOk`: an evaluation always returns.
-/
import CapitalCipher.Lib.Run
import CapitalCipher.Operations.Metrics

namespace CapitalCipher

open Lib

/-! ## runs -/

/-- what one call reported for a rate -/
structure RateReport where
  countedAt : ℚ
  events : ℕ
  failures : ℕ
  failedAt : ℚ
  /-- the failures were entered at all -/
  listed : Bool
  deriving DecidableEq, Repr

/-- the registry, and what was reported for each rate -/
structure RateMonitor where
  metrics : MetricRegistry
  reports : SuccessRate → List RateReport

inductive MetricOp where
  | batch (outputs : List AgentOutput) (durationMs : ℚ)
  | cycle (success : Bool) (durationMs : ℚ)
  | evaluate (rate : SuccessRate)
  | read          -- any other metric reads the clock
  deriving DecidableEq

namespace RateMonitor

def start (capacity : MetricCapacity) : RateMonitor := ⟨.new capacity, fun _ => []⟩

/-- one more report, when its call succeeded -/
def reported (w : RateMonitor) (rate : SuccessRate) (report : RateReport) :
    Except Error MetricRegistry → RateMonitor
  | .ok metrics =>
    ⟨metrics, Function.update w.reports rate (w.reports rate ++ [report])⟩
  | .error _ => w

/-- the report of a batch -/
def batchReport (clock : MonotonicClock) (w : RateMonitor) (outputs : List AgentOutput) :
    RateReport where
  countedAt := clock.1 w.metrics.reads
  events := outputs.length
  failures := outputs.countP AgentOutput.failed
  failedAt := clock.1 (w.metrics.reads + 1)
  listed := true

/-- the report of a cycle -/
def cycleReport (clock : MonotonicClock) (w : RateMonitor) (success : Bool) : RateReport where
  countedAt := clock.1 w.metrics.reads
  events := 1
  failures := if success then 0 else 1
  failedAt := clock.1 (w.metrics.reads + 1)
  listed := !success

def step (cfg : SLOSettings) (clock : MonotonicClock) (w : RateMonitor) : MetricOp → RateMonitor
  | .batch outputs durationMs =>
    w.reported .agents (w.batchReport clock outputs)
      (observeAgentBatch clock outputs durationMs w.metrics)
  | .cycle success durationMs =>
    w.reported .orchestrator (w.cycleReport clock success)
      (observeOrchestratorCycle clock success durationMs w.metrics)
  | .evaluate rate => { w with metrics := (countRate cfg clock rate w.metrics).2 }
  | .read => { w with metrics := { w.metrics with reads := w.metrics.reads + 1 } }

/-! ## what the queues hold -/

/-- the queues of a rate hold the newest of its reports, which are in the order of time -/
structure Recorded (clock : MonotonicClock) (w : RateMonitor) (rate : SuccessRate) : Prop where
  total : w.metrics.eventsOf rate.totalMetric = BoundedQueue.newest w.metrics.capacity.1
    ((w.reports rate).map fun e => (e.countedAt, (e.events : ℚ)))
  failed : w.metrics.eventsOf rate.failureMetric = BoundedQueue.newest w.metrics.capacity.1
    (((w.reports rate).filter RateReport.listed).map fun e => (e.failedAt, (e.failures : ℚ)))
  bounded : ∀ e ∈ w.reports rate, e.failures ≤ e.events
  unlisted : ∀ e ∈ w.reports rate, e.listed = false → e.failures = 0
  sorted : (w.reports rate).Pairwise fun a b => a.countedAt ≤ b.countedAt ∧ a.failedAt ≤ b.failedAt
  past : ∀ e ∈ w.reports rate, e.countedAt ≤ clock.1 w.metrics.reads ∧
    e.failedAt ≤ clock.1 w.metrics.reads

namespace Recorded

variable {clock : MonotonicClock} {w : RateMonitor} {rate : SuccessRate}

/-- the counters of a rate are left alone while the clock goes on -/
theorem keep {w' : RateMonitor} (h : Recorded clock w rate) (hreports : w'.reports rate = w.reports rate)
    (hcapacity : w'.metrics.capacity = w.metrics.capacity)
    (hreads : w.metrics.reads ≤ w'.metrics.reads)
    (htotal : w'.metrics.eventsOf rate.totalMetric = w.metrics.eventsOf rate.totalMetric)
    (hfailed : w'.metrics.eventsOf rate.failureMetric = w.metrics.eventsOf rate.failureMetric) :
    Recorded clock w' rate := by
  refine ⟨?_, ?_, ?_, ?_, ?_, ?_⟩
  · rw [htotal, hreports, hcapacity, h.total]
  · rw [hfailed, hreports, hcapacity, h.failed]
  · rw [hreports]
    exact h.bounded
  · rw [hreports]
    exact h.unlisted
  · rw [hreports]
    exact h.sorted
  · intro e he
    rw [hreports] at he
    exact ⟨(h.past e he).1.trans (clock.2 hreads), (h.past e he).2.trans (clock.2 hreads)⟩

/-- one more report, entered in the total and, when it is listed, among the failures -/
theorem snoc {w' : RateMonitor} (h : Recorded clock w rate) (report : RateReport)
    (hreports : w'.reports rate = w.reports rate ++ [report])
    (hcapacity : w'.metrics.capacity = w.metrics.capacity)
    (htotal : w'.metrics.eventsOf rate.totalMetric =
      BoundedQueue.append w.metrics.capacity.1 (w.metrics.eventsOf rate.totalMetric)
        (report.countedAt, (report.events : ℚ)))
    (hfailed : w'.metrics.eventsOf rate.failureMetric = if report.listed then
      BoundedQueue.append w.metrics.capacity.1 (w.metrics.eventsOf rate.failureMetric)
        (report.failedAt, (report.failures : ℚ)) else w.metrics.eventsOf rate.failureMetric)
    (hbounded : report.failures ≤ report.events)
    (hunlisted : report.listed = false → report.failures = 0)
    (hstart : clock.1 w.metrics.reads ≤ report.countedAt) (hnext : report.countedAt ≤ report.failedAt)
    (hend : report.failedAt ≤ clock.1 w'.metrics.reads) : Recorded clock w' rate := by
  have hpast : ∀ e ∈ w.reports rate, e.countedAt ≤ report.countedAt ∧ e.failedAt ≤ report.failedAt :=
    fun e he => ⟨(h.past e he).1.trans hstart, ((h.past e he).2.trans hstart).trans hnext⟩
  refine ⟨?_, ?_, ?_, ?_, ?_, ?_⟩
  · rw [htotal, h.total, hreports, hcapacity, BoundedQueue.append_newest, List.map_append]
    rfl
  · rw [hfailed, h.failed, hreports, hcapacity, List.filter_append]
    cases hlisted : report.listed with
    | false => simp [hlisted]
    | true => simp [hlisted, BoundedQueue.append_newest]
  · intro e he
    rw [hreports] at he
    rcases List.mem_append.1 he with he | he
    · exact h.bounded e he
    · rw [List.mem_singleton.1 he]
      exact hbounded
  · intro e he
    rw [hreports] at he
    rcases List.mem_append.1 he with he | he
    · exact h.unlisted e he
    · rw [List.mem_singleton.1 he]
      exact hunlisted
  · rw [hreports, List.pairwise_append]
    refine ⟨h.sorted, List.pairwise_singleton _ _, fun a ha b hb => ?_⟩
    rw [List.mem_singleton.1 hb]
    exact hpast a ha
  · intro e he
    rw [hreports] at he
    rcases List.mem_append.1 he with he | he
    · exact ⟨(hpast e he).1.trans (hnext.trans hend), (hpast e he).2.trans hend⟩
    · rw [List.mem_singleton.1 he]
      exact ⟨hnext.trans hend, hend⟩

end Recorded

/-! ## one call -/

section Step

variable {clock : MonotonicClock} {cfg : SLOSettings} {w : RateMonitor} {rate : SuccessRate}

/-- every call leaves the queues of a rate with the newest of its reports -/
theorem step_recorded (h : Recorded clock w rate) (op : MetricOp) :
    Recorded clock (w.step cfg clock op) rate := by
  cases op with
  | batch outputs durationMs =>
    obtain ⟨r', hok, hcapacity, hreads, hevents⟩ :=
      observeAgentBatch_spec clock outputs durationMs w.metrics
    have hlater : w.metrics.reads ≤ r'.reads := by omega
    have hfailed : w.metrics.reads + 1 ≤ r'.reads := by omega
    simp only [step, hok, reported]
    cases rate with
    | agents =>
      refine h.snoc (w.batchReport clock outputs) (by simp) hcapacity ?_ ?_ ?_ ?_ le_rfl
        ?_ ?_
      · exact (hevents _).trans (if_pos rfl)
      · exact (hevents _).trans ((if_neg (by decide)).trans (if_pos rfl))
      · exact List.countP_le_length
      · intro hlisted
        cases hlisted
      · exact clock.2 (Nat.le_succ _)
      · exact clock.2 hfailed
    | orchestrator =>
      refine h.keep (by simp) hcapacity hlater ?_ ?_ <;>
        exact (hevents _).trans (by simp [SuccessRate.totalMetric, SuccessRate.failureMetric])
  | cycle success durationMs =>
    obtain ⟨r', hok, hcapacity, hreads, hevents⟩ :=
      observeOrchestratorCycle_spec clock success durationMs w.metrics
    have hlater : w.metrics.reads ≤ r'.reads := by omega
    have hfailed : w.metrics.reads + 1 ≤ r'.reads := by omega
    simp only [step, hok, reported]
    cases rate with
    | agents =>
      refine h.keep (by simp) hcapacity hlater ?_ ?_ <;>
        exact (hevents _).trans (by simp [SuccessRate.totalMetric, SuccessRate.failureMetric])
    | orchestrator =>
      refine h.snoc (w.cycleReport clock success) (by simp) hcapacity ?_ ?_ ?_ ?_ le_rfl
        ?_ ?_
      · exact (hevents _).trans (by simp [SuccessRate.totalMetric, cycleReport])
      · refine (hevents _).trans ?_
        cases success <;> simp [SuccessRate.failureMetric, cycleReport]
      · cases success <;> simp [cycleReport]
      · cases success <;> simp [cycleReport]
      · exact clock.2 (Nat.le_succ _)
      · exact clock.2 hfailed
  | evaluate rate' =>
    obtain ⟨n, hn⟩ := countRate_snd clock cfg rate' w.metrics
    refine h.keep rfl ?_ ?_ ?_ ?_ <;> simp only [step, hn]
    · exact Nat.le_add_right _ _
    · rfl
    · rfl
  | read => exact h.keep rfl rfl (Nat.le_succ _) rfl rfl

theorem recorded_start (capacity : MetricCapacity) (rate : SuccessRate) :
    Recorded clock (start capacity) rate := by
  refine ⟨?_, ?_, ?_, ?_, List.Pairwise.nil, ?_⟩
  · simp [start, MetricRegistry.eventsOf, MetricRegistry.new]
  · simp [start, MetricRegistry.eventsOf, MetricRegistry.new]
  all_goals
    intro e he
    cases he

theorem run_recorded (cfg : SLOSettings) (clock : MonotonicClock) (capacity : MetricCapacity)
    (rate : SuccessRate) (ops : List MetricOp) :
    Recorded clock (run (step cfg clock) (start capacity) ops) rate :=
  run_inv (P := fun w => Recorded clock w rate) (fun _ op h => step_recorded h op)
    (recorded_start capacity rate) ops

end Step

/-! ## the measured rate -/

section Rate

variable (cfg : SLOSettings) (clock : MonotonicClock) (w : RateMonitor) (rate : SuccessRate)

/-- the total is read first, the failures with the next reading of the clock -/
def totalCutoff : ℚ := clock.1 w.metrics.reads - cfg.windowSeconds

def failureCutoff : ℚ := clock.1 (w.metrics.reads + 1) - cfg.windowSeconds

/-- the reports whose events are still counted in the total -/
def counted : List RateReport :=
  BoundedQueue.recent w.metrics.capacity.1 (totalCutoff cfg clock w) RateReport.countedAt
    (w.reports rate)

/-- the fraction of successes among the events counted in the total -/
def successFraction : ℚ :=
  let events := ((counted cfg clock w rate).map RateReport.events).sum
  let failures := ((counted cfg clock w rate).map RateReport.failures).sum
  ((events : ℚ) - failures) / events

/-- what is measured is that fraction, and a breach is one of it -/
def RealRate : Prop :=
  (∀ measured ∈ (countRate cfg clock rate w.metrics).1.2,
    measured = successFraction cfg clock w rate) ∧
  ∀ id e, (rateEvaluation cfg clock rate id w.metrics).1 = .ok e → e.status = .breached →
    successFraction cfg clock w rate < rate.target cfg

/-- a report with these reports behind it is still in the total -/
def InTotal (e : RateReport) (after : List RateReport) : Prop :=
  after.length < w.metrics.capacity.1 ∧ totalCutoff cfg clock w ≤ e.countedAt

/-- its failures are still among the failures -/
def InFailures (e : RateReport) (after : List RateReport) : Prop :=
  after.countP RateReport.listed < w.metrics.capacity.1 ∧ failureCutoff cfg clock w ≤ e.failedAt

/-- every report with a failure is in both counts or in neither, or what the failures have too much
meets a total of failures only -/
structure Accounted : Prop where
  kept : ∀ before e after, w.reports rate = before ++ e :: after → 0 < e.failures →
    InTotal cfg clock w e after → InFailures cfg clock w e after
  own : (∀ before e after, w.reports rate = before ++ e :: after → 0 < e.failures →
      InFailures cfg clock w e after → InTotal cfg clock w e after) ∨
    ∀ e ∈ counted cfg clock w rate, e.failures = e.events

end Rate

section Iff

variable {cfg : SLOSettings} {clock : MonotonicClock} {w : RateMonitor} {rate : SuccessRate}

theorem measuredRate_eq_iff {T F K : ℕ} (hT : 0 < T) (hK : K ≤ T) :
    measuredRate (T : ℤ) F = ((T : ℚ) - K) / T ↔ F = K ∨ (K = T ∧ T ≤ F) := by
  have hpos : (0 : ℚ) < T := by exact_mod_cast hT
  have hF : (0 : ℚ) ≤ F / T := by positivity
  have hmin : measuredRate (T : ℤ) F = max 0 (1 - (F : ℚ) / T) := by
    rw [measuredRate, Int.cast_natCast, min_eq_right (by linarith)]
  have hfrac : ((T : ℚ) - K) / T = 1 - K / T := by
    rw [sub_div, div_self hpos.ne']
  rw [hmin, hfrac]
  by_cases hle : F ≤ T
  · have hle1 : (F : ℚ) / T ≤ 1 := (div_le_one hpos).2 (by exact_mod_cast hle)
    rw [max_eq_right (by linarith), sub_right_inj, div_left_inj' hpos.ne', Nat.cast_inj]
    omega
  · have hgt : (1 : ℚ) < F / T := (one_lt_div hpos).2 (by exact_mod_cast not_le.1 hle)
    rw [max_eq_left (by linarith), eq_comm, sub_eq_zero, eq_comm, div_eq_one_iff_eq hpos.ne',
      Nat.cast_inj]
    omega

/-- failures that add up to the events are all of them -/
theorem sum_failures_eq_iff {reports : List RateReport} (h : ∀ e ∈ reports, e.failures ≤ e.events) :
    (reports.map RateReport.failures).sum ≤ (reports.map RateReport.events).sum ∧
      ((reports.map RateReport.failures).sum = (reports.map RateReport.events).sum ↔
        ∀ e ∈ reports, e.failures = e.events) := by
  induction reports with
  | nil => simp
  | cons e reports ih =>
    obtain ⟨hle, hiff⟩ := ih fun e he => h e (List.mem_cons_of_mem _ he)
    have he := h e List.mem_cons_self
    simp only [List.map_cons, List.sum_cons, List.forall_mem_cons]
    refine ⟨by omega, ?_⟩
    rw [← hiff]
    omega

theorem Recorded.counter_total (cfg : SLOSettings) (h : Recorded clock w rate) :
    (w.metrics.counter clock rate.totalMetric (some cfg.windowSeconds)).1 =
      (((counted cfg clock w rate).map RateReport.events).sum : ℕ) := by
  rw [MetricRegistry.counter_window, h.total, BoundedQueue.newest_map, List.filter_map, List.map_map,
    Nat.cast_list_sum, List.map_map]
  rfl

theorem Recorded.counter_failed (cfg : SLOSettings) (h : Recorded clock w rate) :
    (MetricRegistry.counter clock rate.failureMetric (some cfg.windowSeconds)
        { w.metrics with reads := w.metrics.reads + 1 }).1 =
      ((((BoundedQueue.recent w.metrics.capacity.1 (failureCutoff cfg clock w) RateReport.failedAt
        ((w.reports rate).filter RateReport.listed)).map RateReport.failures).sum : ℕ) : ℚ) := by
  have hevents : MetricRegistry.eventsOf { w.metrics with reads := w.metrics.reads + 1 }
      rate.failureMetric = w.metrics.eventsOf rate.failureMetric := rfl
  rw [MetricRegistry.counter_window, hevents, h.failed, BoundedQueue.newest_map, List.filter_map,
    List.map_map, Nat.cast_list_sum, List.map_map]
  rfl

theorem Recorded.countRate_eq (cfg : SLOSettings) (h : Recorded clock w rate) {T F : ℕ}
    (hT : T = ((counted cfg clock w rate).map RateReport.events).sum)
    (hF : F = ((BoundedQueue.recent w.metrics.capacity.1 (failureCutoff cfg clock w)
      RateReport.failedAt ((w.reports rate).filter RateReport.listed)).map
        RateReport.failures).sum) :
    (countRate cfg clock rate w.metrics).1 =
      ((T : ℤ), if T = 0 then none else some (measuredRate (T : ℤ) F)) := by
  have htotal := h.counter_total cfg
  have hfailed := h.counter_failed cfg
  rw [← hT, MetricRegistry.counter_window] at htotal
  rw [← hF] at hfailed
  dsimp only at htotal hfailed
  unfold countRate
  rw [MetricRegistry.counter_window]
  simp only [htotal, Int.floor_natCast, Nat.cast_eq_zero]
  split_ifs
  · rfl
  · rw [hfailed]

/-- what is not listed has no failures -/
theorem sum_failures_filter {reports : List RateReport}
    (h : ∀ e ∈ reports, e.listed = false → e.failures = 0) :
    ((reports.filter RateReport.listed).map RateReport.failures).sum =
      (reports.map RateReport.failures).sum := by
  induction reports with
  | nil => rfl
  | cons e reports ih =>
    have ih := ih fun e he => h e (List.mem_cons_of_mem _ he)
    cases hlisted : e.listed with
    | false =>
      rw [List.filter_cons_of_neg (by simp [hlisted]), ih, List.map_cons, List.sum_cons,
        h e List.mem_cons_self hlisted, Nat.zero_add]
    | true =>
      rw [List.filter_cons_of_pos hlisted, List.map_cons, List.sum_cons, ih, List.map_cons,
        List.sum_cons]

/-- the counts agree, or everything in the total failed, exactly when the reports are accounted -/
theorem Recorded.accounted_iff (h : Recorded clock w rate) {T F K : ℕ}
    (hT : T = ((counted cfg clock w rate).map RateReport.events).sum)
    (hF : F = ((BoundedQueue.recent w.metrics.capacity.1 (failureCutoff cfg clock w)
      RateReport.failedAt ((w.reports rate).filter RateReport.listed)).map
        RateReport.failures).sum)
    (hK : K = ((counted cfg clock w rate).map RateReport.failures).sum) :
    Accounted cfg clock w rate ↔ F = K ∨ (K = T ∧ T ≤ F) := by
  obtain ⟨a, ha, hin⟩ := BoundedQueue.recent_eq_drop w.metrics.capacity.1 (totalCutoff cfg clock w)
    RateReport.countedAt (h.sorted.imp And.left)
  obtain ⟨b, hb, hfailed⟩ := BoundedQueue.recent_filter w.metrics.capacity.1
    (failureCutoff cfg clock w) RateReport.failedAt RateReport.listed
    ((h.sorted.imp And.right).filter _)
  have hcounted : counted cfg clock w rate = (w.reports rate).drop a := ha
  have hKdrop : K = (((w.reports rate).drop a).map RateReport.failures).sum := by
    rw [hK, hcounted]
  have hFdrop : F = (((w.reports rate).drop b).map RateReport.failures).sum := by
    rw [hF, hb, sum_failures_filter]
    intro e he
    exact h.unlisted e (List.mem_of_mem_drop he)
  have htotal : ∀ before e after, w.reports rate = before ++ e :: after →
      (InTotal cfg clock w e after ↔ a ≤ before.length) :=
    fun before e after heq => (hin before e after heq).symm
  have hfailures : ∀ before e after, w.reports rate = before ++ e :: after → 0 < e.failures →
      (InFailures cfg clock w e after ↔ b ≤ before.length) := by
    intro before e after heq hpos
    have hlisted : e.listed = true := by
      by_contra hnot
      have hmem : e ∈ w.reports rate := by
        rw [heq]
        simp
      have := h.unlisted e hmem (by simpa using hnot)
      omega
    exact (hfailed before e after heq hlisted).symm
  have hbounded : ∀ e ∈ counted cfg clock w rate, e.failures ≤ e.events := by
    intro e he
    rw [hcounted] at he
    exact h.bounded e (List.mem_of_mem_drop he)
  have hsum := sum_failures_eq_iff hbounded
  rw [← hK, ← hT] at hsum
  rcases Nat.le_total a b with hab | hba
  · -- the total reaches further back
    have hle : F ≤ K := by
      rw [hKdrop, hFdrop]
      exact BoundedQueue.sum_drop_le _ _ hab
    have hiff : F = K ↔ ∀ before e after, w.reports rate = before ++ e :: after →
        a ≤ before.length → before.length < b → e.failures = 0 := by
      rw [hKdrop, hFdrop, eq_comm]
      exact BoundedQueue.sum_drop_eq_iff _ _ hab
    constructor
    · intro hacc
      refine .inl (hiff.2 fun before e after heq hge hlt => ?_)
      by_contra hne
      have hpos : 0 < e.failures := Nat.pos_of_ne_zero hne
      have := (hfailures before e after heq hpos).1
        (hacc.kept before e after heq hpos ((htotal before e after heq).2 hge))
      omega
    · intro hcounts
      have hFK : F = K := by omega
      refine ⟨fun before e after heq hpos hcount => ?_, .inl fun before e after heq hpos hcount => ?_⟩
      · rw [hfailures before e after heq hpos]
        rw [htotal before e after heq] at hcount
        by_contra hlt
        have := hiff.1 hFK before e after heq hcount (not_le.1 hlt)
        omega
      · rw [htotal before e after heq]
        exact hab.trans ((hfailures before e after heq hpos).1 hcount)
  · -- the failures reach further back
    have hle : K ≤ F := by
      rw [hKdrop, hFdrop]
      exact BoundedQueue.sum_drop_le _ _ hba
    have hiff : F = K ↔ ∀ before e after, w.reports rate = before ++ e :: after →
        b ≤ before.length → before.length < a → e.failures = 0 := by
      rw [hKdrop, hFdrop]
      exact BoundedQueue.sum_drop_eq_iff _ _ hba
    constructor
    · intro hacc
      rcases hacc.own with hown | hall
      · refine .inl (hiff.2 fun before e after heq hge hlt => ?_)
        by_contra hne
        have hpos : 0 < e.failures := Nat.pos_of_ne_zero hne
        have := (htotal before e after heq).1
          (hown before e after heq hpos ((hfailures before e after heq hpos).2 hge))
        omega
      · have hKT := hsum.2.2 hall
        exact .inr ⟨hKT, by omega⟩
    · intro hcounts
      refine ⟨fun before e after heq hpos hcount => ?_, ?_⟩
      · rw [hfailures before e after heq hpos]
        exact hba.trans ((htotal before e after heq).1 hcount)
      · rcases hcounts with hFK | ⟨hKT, -⟩
        · refine .inl fun before e after heq hpos hcount => ?_
          rw [htotal before e after heq]
          rw [hfailures before e after heq hpos] at hcount
          by_contra hlt
          have := hiff.1 hFK before e after heq hcount (not_le.1 hlt)
          omega
        · exact .inr (hsum.2.1 hKT)

theorem Recorded.realRate_iff (h : Recorded clock w rate) :
    RealRate cfg clock w rate ↔ Accounted cfg clock w rate := by
  rw [h.accounted_iff rfl rfl rfl]
  have hcount := h.countRate_eq cfg rfl rfl
  have hbounded : ∀ e ∈ counted cfg clock w rate, e.failures ≤ e.events := by
    intro e he
    rw [counted, BoundedQueue.recent, BoundedQueue.newest] at he
    exact h.bounded e (List.mem_of_mem_drop (List.mem_filter.1 he).1)
  have hle := (sum_failures_eq_iff hbounded).1
  rcases Nat.eq_zero_or_pos ((counted cfg clock w rate).map RateReport.events).sum with
    hzero | hpos
  · -- nothing is counted, nothing is measured
    rw [if_pos hzero] at hcount
    refine iff_of_true ⟨?_, ?_⟩ (by omega)
    · intro m hm
      rw [hcount] at hm
      cases hm
    · intro id e he hbreached
      rw [rateEvaluation_fst] at he
      rw [(validateModel_ok.1 he).2.2] at hbreached
      obtain ⟨m, hm, -⟩ := evaluatedRate_breached hbreached
      rw [hcount] at hm
      cases hm
  · rw [if_neg hpos.ne'] at hcount
    rw [← measuredRate_eq_iff hpos hle, ← successFraction]
    constructor
    · intro hreal
      exact hreal.1 _ (by rw [hcount]; rfl)
    · intro heq
      refine ⟨?_, ?_⟩
      · intro m hm
        rw [hcount] at hm
        rw [← heq]
        exact (Option.some.inj hm).symm
      · intro id e he hbreached
        rw [rateEvaluation_fst] at he
        rw [(validateModel_ok.1 he).2.2] at hbreached
        obtain ⟨m, hm, hlt⟩ := evaluatedRate_breached hbreached
        rw [hcount] at hm
        rw [← heq, Option.some.inj hm]
        exact hlt

end Iff

/-- in every state of a run an evaluation returns -/
theorem rateEvaluation_isOk (cfg : SLOSettings) (clock : MonotonicClock) (capacity : MetricCapacity)
    (ops : List MetricOp) (rate : SuccessRate) (id : String) :
    ∃ e, (rateEvaluation cfg clock rate id
      (run (step cfg clock) (start capacity) ops).metrics).1 = .ok e := by
  have hcount := (run_recorded cfg clock capacity rate ops).countRate_eq cfg rfl rfl
  refine ⟨_, (rateEvaluation_fst cfg clock rate id _).trans (evaluatedRate_check cfg rate id ?_)⟩
  intro m hm
  rw [hcount] at hm ⊢
  dsimp only at hm ⊢
  split_ifs at hm with hzero
  · cases hm
  · rw [← Option.some.inj hm]
    refine ⟨by exact_mod_cast Nat.pos_of_ne_zero hzero, le_max_left _ _, ?_⟩
    exact max_le zero_le_one (min_le_left _ _)

/-- **A measured success rate.** In every state that cycles, batches, evaluations and other readings
of the clock lead to, each rate is measured as the fraction of successes among the events it counts,
and is reported breached only below its target, exactly when every report with failures is in both
counts or in neither, or what the failures count beyond the total meets a total of failures only. -/
theorem success_rate_iff (cfg : SLOSettings) (clock : MonotonicClock) (capacity : MetricCapacity)
    (ops : List MetricOp) (rate : SuccessRate) :
    RealRate cfg clock (run (step cfg clock) (start capacity) ops) rate ↔
      Accounted cfg clock (run (step cfg clock) (start capacity) ops) rate :=
  (run_recorded cfg clock capacity rate ops).realRate_iff

/-! ## a breach without a failure -/

/-- the defaults of the service -/
def defaultSettings : SLOSettings where
  windowSeconds := 300
  agentSuccessTarget := 99 / 100
  orchestratorSuccessTarget := 99 / 100
  window_accepted := by decide
  agent_accepted := by decide +kernel
  orchestrator_accepted := by decide +kernel

/-- a clock that has not moved yet -/
def stillClock : MonotonicClock := ⟨fun _ => 0, monotone_const⟩

/-- two failed cycles, then as many successful ones as the queue has room for -/
def forgottenCycles : RateMonitor :=
  run (step defaultSettings stillClock) (start ⟨100, by decide⟩)
    (List.replicate 2 (.cycle false 0) ++ List.replicate 100 (.cycle true 0))

theorem forgotten_measured :
    (countRate defaultSettings stillClock .orchestrator forgottenCycles.metrics).1.2 =
      some (98 / 100) := by decide +kernel

theorem forgotten_fraction :
    successFraction defaultSettings stillClock forgottenCycles .orchestrator = 1 := by
  decide +kernel

/-- the queue of the cycles has pushed the failed ones out, the queue of the failures keeps them -/
theorem forgotten_successes :
    ¬ RealRate defaultSettings stillClock forgottenCycles .orchestrator := by
  intro h
  have hmeasured := h.1 (98 / 100) (Option.mem_def.2 forgotten_measured)
  rw [forgotten_fraction] at hmeasured
  norm_num at hmeasured

end RateMonitor

end CapitalCipher
