/-
`AgentRuntime` of `agents/runtime.py`: what it submits, how it evaluates a claimed job, and what it
hands over to its repository, whichever repository that is.

A repository is four operations over a state of its own. The runtime system is a repository state,
the claims it granted and the replies it gave; its operations are submissions, claims by id or by
queue order, and the execution of a granted claim, at any later time and any number of times.

  • `AgentRuntime.submit_ok`: a submitted job is well formed and pending.
  • `AgentRuntime.recordAndFinish_issued`: what reaches `finish_agent_execution`.
-/
import CapitalCipher.Agents.Base
import CapitalCipher.Agents.Execution
import CapitalCipher.Lib.Result

namespace CapitalCipher

open Lib

/-- a worker id: `f"{prefix}-{safe}"[:128]` is never empty and never longer -/
abbrev WorkerId := { w : String // validWorkerId w }

structure AgentRuntime where
  retryBaseSeconds : ℚ
  retryMaxSeconds : ℚ
  base_nonneg : 0 ≤ retryBaseSeconds
  base_le_max : retryBaseSeconds ≤ retryMaxSeconds

namespace AgentRuntime

/-- `_worker_id` -/
def workerId (pre safe : String) : WorkerId :=
  ⟨String.ofList ((pre ++ "-" ++ safe).toList.take 128), by
    simp only [validWorkerId, String.length_ofList, List.length_take, String.toList_append,
      List.length_append]
    simp
    omega⟩

/-- `ensure_payload_has_no_secrets(request.model_dump(...))`: the free-form fields of the dump -/
def requestGate (request : AgentExecutionRequest) : Except Error Unit :=
  ensurePayloadHasNoSecrets (.obj [("input", .obj
    [("market_context", .obj request.input.marketContext),
     ("config", .obj request.input.config)])])

/-- the free-form fields of `output.model_dump(...)` -/
def outputGate (output : AgentOutput) : Except Error Unit :=
  ensurePayloadHasNoSecrets (.obj
    [("evidence", .obj output.evidence), ("warnings", .arr (output.warnings.map .str))])

/-- `submit`, up to the call of the repository; the request's mode is always the registry's -/
def submit (registry : AgentRegistry) (request : AgentExecutionRequest) (now memoryAt : Time) :
    Except Error (AgentExecutionJob × AgentMemoryEntry) := do
  requestGate request
  let agent ← registry.get request.input.agentName request.agentVersion
  let registration ← agent.registration
  let fingerprint := agentExecutionFingerprint request
  let job ← AgentExecutionJob.check
    { executionId := fingerprint, requestFingerprint := fingerprint, idempotencyKey := request.key,
      correlationId := request.input.correlationId, agentName := registration.agentName,
      agentVersion := registration.version, agentDefinitionHash := registration.definitionHash,
      decisionRole := registration.decisionRole, critical := registration.critical,
      input := request.input, maxAttempts := registration.maxAttempts, availableAt := now,
      createdAt := now, updatedAt := now }
  pure (job, ⟨fingerprint, 1, .input, .request request, memoryAt⟩)

/-- an output of the runtime itself, for a job it does not hand to an agent -/
def refusal (job : AgentExecutionJob) (reason warning : String) (createdAt : Time) :
    Except Error AgentOutput :=
  AgentOutput.construct job.agentName .failed (BaseAgent.failureSignal job.critical) 0 reason
    [warning] 0 createdAt

/-- `execute_claimed`, up to `_record_and_finish`: the output and whether it may be retried. The
handler of an unavailable version also catches a finish that the repository refused: it then
finishes once more, which is one more execution of the claim, without the agent. -/
def executeClaimed (registry : AgentRegistry) (job : AgentExecutionJob) (analysis : Analysis)
    (latencyMs : ℕ) (createdAt : Time) : Except Error (AgentOutput × Bool) :=
  match registry.get job.agentName job.agentVersion with
  | .error _ => do
    let output ← refusal job "Queued agent version is unavailable" "AGENT_VERSION_UNAVAILABLE"
      createdAt
    pure (output, false)
  | .ok agent => do
    let registration ← agent.registration
    if registration.definitionHash ≠ job.agentDefinitionHash then
      let output ← refusal job "Queued agent definition no longer matches registry"
        "AGENT_DEFINITION_MISMATCH" createdAt
      pure (output, false)
    else
      let output ← agent.run analysis latencyMs createdAt
      match outputGate output with
      | .error _ => do
        let rejected ← refusal job "Agent output rejected by payload security policy"
          "AGENT_OUTPUT_REJECTED" createdAt
        pure (rejected, false)
      | .ok _ => pure (output, !output.successful)

/-- `min(retry_max, retry_base * 2 ** max(0, attempt_count - 1))` -/
def retryDelay (runtime : AgentRuntime) (attemptCount : ℕ) : ℚ :=
  min runtime.retryMaxSeconds (runtime.retryBaseSeconds * 2 ^ (attemptCount - 1))

/-- the readings of `utcnow()` while an execution is recorded, in order -/
structure FinishClock where
  completedAt : Time
  attemptMemoryAt : Time
  terminalMemoryAt : Time
  finishedAt : Time

/-- `_record_and_finish`, up to the call of the repository -/
def recordAndFinish (runtime : AgentRuntime) (job : AgentExecutionJob) (workerId : String)
    (output : AgentOutput) (retryable : Bool) (clock : FinishClock) :
    Except Error FinishRequest := do
  let attempt ← AgentExecutionAttempt.check
    { executionId := job.executionId, attemptNumber := job.attemptCount, workerId := workerId,
      status := output.status, output := output, retryable := retryable,
      startedAt := job.updatedAt, completedAt := clock.completedAt }
  let willRetry := retryable && decide (job.attemptCount < job.maxAttempts)
  pure
    { attempt := attempt
      attemptMemory := ⟨job.executionId, job.attemptCount * 2, .attempt, .attempt attempt,
        clock.attemptMemoryAt⟩
      workerId := workerId
      output := output
      retryable := retryable
      retryDelay := runtime.retryDelay job.attemptCount
      terminalMemory :=
        if willRetry then none
        else some ⟨job.executionId, job.attemptCount * 2 + 1,
          if output.successful then .output else .deadLetter, .output output,
          clock.terminalMemoryAt⟩ }

/-! ## What the runtime hands over -/

theorem submit_ok {registry : AgentRegistry} {request : AgentExecutionRequest} {now memoryAt : Time}
    {job : AgentExecutionJob} {input : AgentMemoryEntry}
    (h : submit registry request now memoryAt = .ok (job, input)) :
    (Execution.mk job [] [input]).Lawful ∧ job.check = .ok job := by
  obtain ⟨-, -, h⟩ := Result.bind_ok.1 h
  obtain ⟨agent, hagent, h⟩ := Result.bind_ok.1 h
  obtain ⟨registration, hreg, h⟩ := Result.bind_ok.1 h
  obtain ⟨job', hjob, h⟩ := Result.bind_ok.1 h
  cases Result.pure_ok.1 h
  obtain ⟨hname, hversion⟩ := AgentRegistry.get_ok hagent
  have hrn : registration = _ := AgentRegistration.check_eq hreg
  obtain ⟨⟨hk, hcorr, -, hmax, -⟩, ⟨-, -, hinput, -⟩, rfl⟩ := AgentExecutionJob.check_ok.1 hjob
  refine ⟨?_, hjob⟩
  refine Execution.Lawful.create ⟨hk, hcorr, hmax, rfl, hinput, ?_⟩ rfl rfl rfl rfl rfl rfl rfl rfl
    rfl
  simp only [agentExecutionFingerprint, AgentExecutionRequest.agentKey, hrn, hname, hversion]

/-- the job carries the version that was asked for -/
theorem submit_version {registry : AgentRegistry} {request : AgentExecutionRequest}
    {now memoryAt : Time} {job : AgentExecutionJob} {input : AgentMemoryEntry}
    (h : submit registry request now memoryAt = .ok (job, input)) :
    job.agentVersion = request.agentVersion := by
  obtain ⟨-, -, h⟩ := Result.bind_ok.1 h
  obtain ⟨agent, hagent, h⟩ := Result.bind_ok.1 h
  obtain ⟨registration, hreg, h⟩ := Result.bind_ok.1 h
  obtain ⟨job', hjob, h⟩ := Result.bind_ok.1 h
  cases Result.pure_ok.1 h
  obtain ⟨-, -, rfl⟩ := AgentExecutionJob.check_ok.1 hjob
  have hrn : registration = _ := AgentRegistration.check_eq hreg
  rw [hrn]
  exact (AgentRegistry.get_ok hagent).2

theorem refusal_ok {job : AgentExecutionJob} {reason warning : String} {createdAt : Time}
    {o : AgentOutput} (h : refusal job reason warning createdAt = .ok o) :
    o.agentName = job.agentName ∧ o.successful = false := by
  obtain ⟨hn, hs⟩ := AgentOutput.construct_ok h
  exact ⟨hn, by simp [AgentOutput.successful, hs]⟩

/-- the output carries the job's agent, and only a failure may be retried -/
theorem executeClaimed_ok {registry : AgentRegistry} {job : AgentExecutionJob}
    {analysis : Analysis} {latencyMs : ℕ} {createdAt : Time} {o : AgentOutput} {retryable : Bool}
    (h : executeClaimed registry job analysis latencyMs createdAt = .ok (o, retryable)) :
    o.agentName = job.agentName ∧ (retryable = true → o.successful = false) := by
  unfold executeClaimed at h
  cases hg : registry.get job.agentName job.agentVersion with
  | error e =>
    rw [hg] at h
    obtain ⟨output, hout, h⟩ := Result.bind_ok.1 h
    cases Result.pure_ok.1 h
    exact ⟨(refusal_ok hout).1, by simp⟩
  | ok agent =>
    rw [hg] at h
    obtain ⟨registration, -, h⟩ := Result.bind_ok.1 h
    split_ifs at h with hdef
    · obtain ⟨output, hout, h⟩ := Result.bind_ok.1 h
      cases Result.pure_ok.1 h
      exact ⟨(refusal_ok hout).1, by simp⟩
    · obtain ⟨output, hrun, h⟩ := Result.bind_ok.1 h
      have hname : output.agentName = job.agentName :=
        (BaseAgent.run_name hrun).trans (AgentRegistry.get_ok hg).1
      split at h
      · obtain ⟨rejected, hout, h⟩ := Result.bind_ok.1 h
        cases Result.pure_ok.1 h
        exact ⟨(refusal_ok hout).1, by simp⟩
      · cases Result.pure_ok.1 h
        exact ⟨hname, by simp⟩

theorem retryDelay_nonneg (runtime : AgentRuntime) (attemptCount : ℕ) :
    0 ≤ runtime.retryDelay attemptCount := by
  have hmax : 0 ≤ runtime.retryMaxSeconds := runtime.base_nonneg.trans runtime.base_le_max
  exact le_min hmax (mul_nonneg runtime.base_nonneg (by positivity))

theorem recordAndFinish_issued {runtime : AgentRuntime} {job : AgentExecutionJob}
    {workerId : String} {output : AgentOutput} {retryable : Bool} {clock : FinishClock}
    {f : FinishRequest}
    (h : runtime.recordAndFinish job workerId output retryable clock = .ok f)
    (hname : output.agentName = job.agentName)
    (hretry : retryable = true → output.successful = false) : f.Issued job workerId := by
  obtain ⟨attempt, hattempt, h⟩ := Result.bind_ok.1 h
  cases Result.pure_ok.1 h
  have hcheck := hattempt
  obtain ⟨-, -, -, -, rfl⟩ := AgentExecutionAttempt.check_ok.1 hattempt
  refine ⟨rfl, rfl, rfl, rfl, rfl, hcheck, rfl, rfl, rfl, hname, hretry,
    retryDelay_nonneg runtime _, ?_⟩
  dsimp only
  by_cases hw : retryable = true ∧ job.attemptCount < job.maxAttempts
  · simp [hw]
  · have hw' : ¬ (retryable && decide (job.attemptCount < job.maxAttempts)) = true := by
      simpa using hw
    rw [if_neg hw']
    exact ⟨hw, rfl, rfl, rfl⟩

end AgentRuntime

/-! ## The runtime over a repository -/

/-- what a query of the queue meets: the rows that other transactions hold locked, and which of
several rows tied for the first place the database returns -/
structure Contention where
  locked : ExecutionId → Bool := fun _ => false
  choice : ℕ := 0

/-- `AgentRuntimeRepository`: four operations over a state; the i-th reading of the clock is
`clock i` -/
structure AgentRuntimeRepository (σ : Type) where
  empty : σ
  create : AgentExecutionJob → AgentMemoryEntry → σ → Except Error AgentExecutionJob × σ
  claim : (ℕ → Time) → Contention → ExecutionId → String → ℕ → σ →
    Except Error (Option AgentExecutionJob) × σ
  claimNext : (ℕ → Time) → Contention → String → ℕ → σ →
    Except Error (Option AgentExecutionJob) × σ
  finish : Time → FinishRequest → σ → Except Error AgentExecutionJob × σ
  loadTrace : ExecutionId → σ → Except Error (Option AgentExecutionTrace)

/-- what a caller sees of a job -/
structure JobView where
  executionId : ExecutionId
  status : AgentExecutionStatus
  attemptCount : ℕ
  leasedBy : Option String
  leaseExpiresAt : Option Time
  output : Option AgentOutput
  lastErrorCode : Option String
  deriving DecidableEq

def AgentExecutionJob.view (j : AgentExecutionJob) : JobView :=
  ⟨j.executionId, j.status, j.attemptCount, j.leasedBy, j.leaseExpiresAt, j.output, j.lastErrorCode⟩

inductive Reply where
  | rejected
  | accepted (job : Option JobView)
  deriving DecidableEq

/-- an operation of the runtime system -/
inductive AgentOp where
  | submit (registry : AgentRegistry) (request : AgentExecutionRequest) (now memoryAt : Time)
  | claim (clock : ℕ → Time) (contention : Contention) (id : ExecutionId) (worker : WorkerId)
      (leaseSeconds : ℕ+)
  | claimNext (clock : ℕ → Time) (contention : Contention) (worker : WorkerId)
      (leaseSeconds : ℕ+)
  /-- `execute_claimed` of the `i`-th granted claim -/
  | execute (i : ℕ) (registry : AgentRegistry) (analysis : Analysis) (latencyMs : ℕ)
      (createdAt : Time) (clock : AgentRuntime.FinishClock)

structure RuntimeState (σ : Type) where
  repository : σ
  claims : Claims
  replies : List Reply

namespace RuntimeState

variable {σ : Type}

/-- the operation raised before or in the repository -/
def reject (s : RuntimeState σ) : RuntimeState σ := { s with replies := s.replies ++ [.rejected] }

/-- the repository answered with a job -/
def answer (s : RuntimeState σ) (r : Except Error AgentExecutionJob × σ) : RuntimeState σ :=
  match r with
  | (.error _, repository) => { s with repository := repository }.reject
  | (.ok job, repository) =>
    { s with repository := repository, replies := s.replies ++ [.accepted (some job.view)] }

/-- the repository answered a claim -/
def grant (s : RuntimeState σ) (worker : WorkerId)
    (r : Except Error (Option AgentExecutionJob) × σ) : RuntimeState σ :=
  match r with
  | (.error _, repository) => { s with repository := repository }.reject
  | (.ok none, repository) =>
    { s with repository := repository, replies := s.replies ++ [.accepted none] }
  | (.ok (some job), repository) =>
    { repository := repository, claims := s.claims ++ [(job, worker.1)],
      replies := s.replies ++ [.accepted (some job.view)] }

end RuntimeState

namespace AgentRuntimeRepository

variable {σ : Type}

/-- what the operation does to the runtime system over the repository -/
def step (R : AgentRuntimeRepository σ) (runtime : AgentRuntime) (s : RuntimeState σ) :
    AgentOp → RuntimeState σ
  | .submit registry request now memoryAt =>
    match AgentRuntime.submit registry request now memoryAt with
    | .error _ => s.reject
    | .ok (job, input) => s.answer (R.create job input s.repository)
  | .claim clock contention id worker leaseSeconds =>
    s.grant worker (R.claim clock contention id worker.1 leaseSeconds s.repository)
  | .claimNext clock contention worker leaseSeconds =>
    s.grant worker (R.claimNext clock contention worker.1 leaseSeconds s.repository)
  | .execute i registry analysis latencyMs createdAt clock =>
    match s.claims[i]? with
    | none => s
    | some (job, worker) =>
      match AgentRuntime.executeClaimed registry job analysis latencyMs createdAt with
      | .error _ => s.reject
      | .ok (output, retryable) =>
        match runtime.recordAndFinish job worker output retryable clock with
        | .error _ => s.reject
        | .ok f => s.answer (R.finish clock.finishedAt f s.repository)

/-- the system with an empty repository -/
def init (R : AgentRuntimeRepository σ) : RuntimeState σ := ⟨R.empty, [], []⟩

/-- the system after a list of operations -/
def after (R : AgentRuntimeRepository σ) (runtime : AgentRuntime) (ops : List AgentOp) :
    RuntimeState σ := run (R.step runtime) R.init ops

end AgentRuntimeRepository

end CapitalCipher
