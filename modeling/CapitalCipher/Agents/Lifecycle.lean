/-
The agent-execution lifecycle, over any repository that is one, and over the two there are.

Workers are interleaved at the granularity of repository operations: each holds the lock of the
in-memory repository, or is one transaction. A claim stays usable for ever, so a worker may finish
long after its lease expired, or twice.

  • `AgentExecutionTrace.Lawful`: attempts, memory and job of a loaded trace fit together.
  • `executions_keep_lifecycle`: in every reachable state of both repositories every trace loads and is lawful, and
    a terminal status is for ever.
-/
import CapitalCipher.Agents.InMemory
import CapitalCipher.Agents.Stored

namespace CapitalCipher

open Lib

/-- what the evidence of one execution looks like -/
structure AgentExecutionTrace.Lawful (t : AgentExecutionTrace) : Prop where
  numbers : t.attempts.map AgentExecutionAttempt.attemptNumber = List.range' 1 t.attempts.length
  attempts_le : t.attempts.length ≤ t.job.attemptCount
  bounded : t.job.attemptCount ≤ t.job.maxAttempts
  sequences : (t.memory.map AgentMemoryEntry.sequence).Pairwise (· < ·)
  terminals : (t.memory.filter AgentMemoryEntry.terminal).length =
    if t.job.status.terminal then 1 else 0
  job_valid : t.job.check = .ok t.job
  trace_valid : t.check = .ok t

/-- every trace loads and is lawful, whatever the runtime did before, and a terminal status never
changes -/
structure AgentRuntimeRepository.Lifecycle {σ : Type} (R : AgentRuntimeRepository σ)
    (runtime : AgentRuntime) : Prop where
  loads : ∀ ops id, ∃ trace, R.loadTrace id (R.after runtime ops).repository = .ok trace ∧
    ∀ t ∈ trace, t.job.executionId = id ∧ t.Lawful
  final : ∀ pre post id t, R.loadTrace id (R.after runtime pre).repository = .ok (some t) →
    t.job.status.terminal = true →
    ∃ t', R.loadTrace id (R.after runtime (pre ++ post)).repository = .ok (some t') ∧
      t'.job.status = t.job.status

theorem AgentExecutionJob.view_injEq {j j' : AgentExecutionJob} (h : j.view = j'.view) :
    j.executionId = j'.executionId ∧ j.status = j'.status ∧ j.attemptCount = j'.attemptCount := by
  simp only [AgentExecutionJob.view, JobView.mk.injEq] at h
  exact ⟨h.1, h.2.1, h.2.2.1⟩

/-- the trace of a lawful execution is lawful -/
theorem Execution.Lawful.trace {e : Execution} (h : e.Lawful) {job : AgentExecutionJob}
    (hview : job.view = e.job.view) (hcheck : job.check = .ok job) :
    AgentExecutionTrace.Lawful ⟨job, e.attempts, e.memory⟩ := by
  obtain ⟨hid, hstatus, hcount⟩ := AgentExecutionJob.view_injEq hview
  refine ⟨h.numbers, ?_, ?_, h.sorted, ?_, hcheck, h.trace_check hid hcount⟩
  · rw [hcount]
    exact h.attempts_le
  · exact (AgentExecutionJob.check_ok.1 hcheck).2.1.2.1
  · rw [hstatus]
    exact h.terminals

namespace AgentRuntimeRepository.Refines

variable {σ : Type} {R : AgentRuntimeRepository σ} {limits : Limits}
  {view : σ → List Execution} {Kept : σ → Prop}

theorem loads (hR : R.Refines limits view Kept) {s : RuntimeState σ} (hs : Sound view Kept s)
    (id : ExecutionId) : ∃ trace, R.loadTrace id s.repository = .ok trace ∧
      ∀ t ∈ trace, t.job.executionId = id ∧ t.Lawful := by
  have hload := hR.loadTrace id hs.kept hs.lawful
  cases hg : Executions.get? (view s.repository) id with
  | none =>
    rw [hg] at hload
    exact ⟨none, hload, by simp⟩
  | some e =>
    rw [hg] at hload
    obtain ⟨job, hload, hview, hcheck⟩ := hload
    obtain ⟨he, hid⟩ := Executions.get?_eq_some hg
    refine ⟨_, hload, fun t ht => ?_⟩
    cases ht
    exact ⟨(AgentExecutionJob.view_injEq hview).1.trans hid,
      (hs.lawful.each e he).trace hview hcheck⟩

/-- **The lifecycle of any agent-execution repository.** -/
theorem lifecycle (hR : R.Refines limits view Kept) (runtime : AgentRuntime) :
    R.Lifecycle runtime where
  loads ops id := hR.loads (hR.sound runtime ops) id
  final := by
    intro pre post id t ht hterminal
    have hpre := hR.sound runtime pre
    have hpost := hR.sound runtime (pre ++ post)
    have hload := hR.loadTrace id hpre.kept hpre.lawful
    cases hg : Executions.get? (view (R.after runtime pre).repository) id with
    | none =>
      rw [hg, ht] at hload
      cases hload
    | some e =>
      rw [hg, ht] at hload
      obtain ⟨job, hload, hview, -⟩ := hload
      cases hload
      obtain ⟨he, hid⟩ := Executions.get?_eq_some hg
      have hstatus : job.status = e.job.status := (AgentExecutionJob.view_injEq hview).2.1
      -- the execution is still there, as it was
      obtain ⟨e', he', hid', hsame⟩ := hR.grows runtime pre post e he
      have heq : e' = e := hsame (hstatus ▸ hterminal)
      have hget : Executions.get? (view (R.after runtime (pre ++ post)).repository) id =
          some e := by
        rw [← hid, ← heq]
        exact hpost.lawful.get? he'
      have hload' := hR.loadTrace id hpost.kept hpost.lawful
      rw [hget] at hload'
      obtain ⟨job', hload', hview', -⟩ := hload'
      exact ⟨_, hload', (AgentExecutionJob.view_injEq hview').2.1.trans hstatus.symm⟩

end AgentRuntimeRepository.Refines

/-- **The agent-execution lifecycle.** Attempts are numbered without gaps and within the limit,
memory is ordered and ends with exactly one terminal entry when the execution does, traces validate,
and a terminal status is for ever: in memory and in the database, over any run. -/
theorem executions_keep_lifecycle (runtime : AgentRuntime) (columns : ColumnTypes) :
    InMemory.repository.Lifecycle runtime ∧ (AgentDb.repository columns).Lifecycle runtime :=
  ⟨InMemory.refines.lifecycle runtime, (AgentDb.refines columns).lifecycle runtime⟩

end CapitalCipher
