/-
The agent contracts of `schemas/agents.py`.

Inputs, outputs and requests carry their accepted constraints, so a malformed one cannot be built.
The literal fields (contract versions, the PAPER mode) have one value each and are left out. A
definition hash and an execution id are taken to be what they digest, and a memory entry's payload
to be the model that was dumped.

  • `AgentExecutionAttempt.check_ok`: what `validate_attempt` and the field constraints accept.
  • `AgentExecutionJob.check_ok`: what `validate_job_state` and the field constraints accept.
-/
import CapitalCipher.Schemas.Json
import CapitalCipher.Schemas.Market

namespace CapitalCipher

inductive AgentStatus where
  | completed | failed | timeout | skipped | blocked
  deriving DecidableEq, Repr

inductive Signal where
  | buy | sell | hold | wait | block | neutral
  deriving DecidableEq, Repr

inductive AgentDecisionRole where
  | primary | shadow
  deriving DecidableEq, Repr

/-- `^[A-Za-z][A-Za-z0-9._-]+$`, of 3 to 128 characters -/
def validAgentName (s : String) : Bool :=
  decide (3 ≤ s.length ∧ s.length ≤ 128) &&
  match s.toList with
  | first :: rest =>
    first.isAlpha && rest.all fun c => c.isAlphanum || c ∈ ['.', '_', '-']
  | [] => false

/-- `^[0-9]+\.[0-9]+\.[0-9]+$` -/
def validAgentVersion (s : String) : Bool :=
  let parts := s.toList.splitOn '.'
  parts.length == 3 && parts.all fun p => !p.isEmpty && p.all Char.isDigit

/-- the field constraints of an `AgentInput` -/
def agentInputFields (requestId correlationId agentName symbol timeframe : String) :
    List (String × Bool) :=
  [("request_id", decide (1 ≤ requestId.length ∧ requestId.length ≤ 256)),
   ("correlation_id", decide (1 ≤ correlationId.length ∧ correlationId.length ≤ 36)),
   ("agent_name", validAgentName agentName),
   ("symbol", validSymbol symbol),
   ("timeframe", validTimeframe timeframe)]

structure AgentInput where
  requestId : String
  correlationId : String
  agentName : String
  timestamp : Time
  symbol : String
  timeframe : String
  marketContext : List (String × Json)
  config : List (String × Json)
  accepted : ∀ f ∈ agentInputFields requestId correlationId agentName symbol timeframe, f.2 = true
  deriving DecidableEq

/-- the field constraints of an `AgentOutput` -/
def agentOutputFields (agentName : String) (confidence : ℕ) (reason : String) :
    List (String × Bool) :=
  [("agent_name", decide (1 ≤ agentName.length)),
   ("confidence", decide (confidence ≤ 100)),
   ("reason", decide (1 ≤ reason.length ∧ reason.length ≤ 1000))]

structure AgentOutput where
  agentName : String
  status : AgentStatus
  signal : Signal
  confidence : ℕ
  reason : String
  evidence : List (String × Json)
  warnings : List String
  latencyMs : ℕ
  createdAt : Time
  accepted : ∀ f ∈ agentOutputFields agentName confidence reason, f.2 = true
  deriving DecidableEq

/-- `AgentOutput(...)` without evidence -/
def AgentOutput.construct (agentName : String) (status : AgentStatus) (signal : Signal)
    (confidence : ℕ) (reason : String) (warnings : List String) (latencyMs : ℕ)
    (createdAt : Time) : Except Error AgentOutput :=
  if h : ∀ f ∈ agentOutputFields agentName confidence reason, f.2 = true then
    .ok ⟨agentName, status, signal, confidence, reason, [], warnings, latencyMs, createdAt, h⟩
  else
    .error ⟨.schema, ", ".intercalate
      (((agentOutputFields agentName confidence reason).filter fun f => !f.2).map Prod.fst)⟩

theorem AgentOutput.construct_ok {agentName : String} {status : AgentStatus} {signal : Signal}
    {confidence : ℕ} {reason : String} {warnings : List String} {latencyMs : ℕ} {createdAt : Time}
    {output : AgentOutput}
    (h : construct agentName status signal confidence reason warnings latencyMs createdAt =
      .ok output) : output.agentName = agentName ∧ output.status = status := by
  unfold construct at h
  split_ifs at h
  cases h
  exact ⟨rfl, rfl⟩

/-- `output.status not in {FAILED, TIMEOUT}` -/
def AgentOutput.successful (o : AgentOutput) : Bool :=
  o.status != .failed && o.status != .timeout

/-- the 13 fields a definition hash digests, less the constant ones -/
structure AgentDefinition where
  agentName : String
  version : String
  description : String
  requiredInputs : List String
  capabilities : List String
  decisionRole : AgentDecisionRole
  critical : Bool
  timeoutMs : ℕ
  maxAttempts : ℕ
  deriving DecidableEq

structure AgentRegistration where
  agentName : String
  version : String
  description : String
  requiredInputs : List String
  capabilities : List String
  decisionRole : AgentDecisionRole
  critical : Bool
  timeoutMs : ℕ
  maxAttempts : ℕ
  enabled : Bool
  definitionHash : AgentDefinition

/-- the field constraints of an `AgentRegistration` -/
def AgentRegistration.check (r : AgentRegistration) : Except Error AgentRegistration :=
  validateModel
    [("agent_name", validAgentName r.agentName),
     ("version", validAgentVersion r.version),
     ("timeout_ms", decide (1 ≤ r.timeoutMs ∧ r.timeoutMs ≤ 300000)),
     ("max_attempts", decide (1 ≤ r.maxAttempts ∧ r.maxAttempts ≤ 10))] [] r

theorem AgentRegistration.check_eq {r r' : AgentRegistration} (h : r.check = .ok r') : r' = r :=
  (validateModel_ok.1 h).2.2

/-- the field constraints of an `AgentExecutionRequest` -/
def agentExecutionRequestFields (agentVersion : String) (idempotencyKey : Option String) :
    List (String × Bool) :=
  [("agent_version", validAgentVersion agentVersion),
   ("idempotency_key", idempotencyKey.all fun k => decide (1 ≤ k.length ∧ k.length ≤ 256))]

structure AgentExecutionRequest where
  agentVersion : String
  idempotencyKey : Option String
  input : AgentInput
  accepted : ∀ f ∈ agentExecutionRequestFields agentVersion idempotencyKey, f.2 = true
  deriving DecidableEq

namespace AgentExecutionRequest

/-- the key `validate_paper_request` leaves -/
def key (r : AgentExecutionRequest) : String := r.idempotencyKey.getD r.input.requestId

/-- `agent_key` -/
def agentKey (r : AgentExecutionRequest) : String := r.input.agentName ++ "@" ++ r.agentVersion

end AgentExecutionRequest

/-- what `agent_execution_fingerprint` digests, less the constant fields -/
structure ExecutionId where
  agentKey : String
  idempotencyKey : String
  input : AgentInput
  deriving DecidableEq

/-- `agent_execution_fingerprint` -/
def agentExecutionFingerprint (r : AgentExecutionRequest) : ExecutionId :=
  ⟨r.agentKey, r.key, r.input⟩

structure AgentExecutionAttempt where
  executionId : ExecutionId
  attemptNumber : ℕ
  workerId : String
  status : AgentStatus
  output : AgentOutput
  retryable : Bool
  startedAt : Time
  completedAt : Time
  deriving DecidableEq

/-- the field constraints and `validate_attempt` -/
def AgentExecutionAttempt.check (a : AgentExecutionAttempt) : Except Error AgentExecutionAttempt :=
  validateModel
    [("attempt_number", decide (1 ≤ a.attemptNumber ∧ a.attemptNumber ≤ 10)),
     ("worker_id", decide (1 ≤ a.workerId.length ∧ a.workerId.length ≤ 128))]
    [("completed_at must not be before started_at", decide (a.startedAt ≤ a.completedAt)),
     ("attempt status must match output status", a.output.status == a.status)] a

theorem AgentExecutionAttempt.check_ok {a a' : AgentExecutionAttempt} : a.check = .ok a' ↔
    (1 ≤ a.attemptNumber ∧ a.attemptNumber ≤ 10) ∧
      (1 ≤ a.workerId.length ∧ a.workerId.length ≤ 128) ∧ a.startedAt ≤ a.completedAt ∧
      a.output.status = a.status ∧ a' = a := by
  rw [check, validateModel_ok]
  simp [and_assoc]

inductive MemoryEntryType where
  | input | attempt | output | deadLetter
  deriving DecidableEq, Repr

/-- the model a memory entry dumps -/
inductive MemoryPayload where
  | request (request : AgentExecutionRequest)
  | attempt (attempt : AgentExecutionAttempt)
  | output (output : AgentOutput)
  deriving DecidableEq

structure AgentMemoryEntry where
  executionId : ExecutionId
  sequence : ℕ
  entryType : MemoryEntryType
  payload : MemoryPayload
  createdAt : Time
  deriving DecidableEq

/-- the field constraints of an `AgentMemoryEntry` -/
def AgentMemoryEntry.check (m : AgentMemoryEntry) : Except Error AgentMemoryEntry :=
  validateModel [("sequence", decide (1 ≤ m.sequence))] [] m

/-- an entry that ends the memory of an execution -/
def AgentMemoryEntry.terminal (m : AgentMemoryEntry) : Bool :=
  m.entryType == .output || m.entryType == .deadLetter

inductive AgentExecutionStatus where
  | pending | leased | retry | completed | deadLetter
  deriving DecidableEq, Repr

/-- `status in {"COMPLETED", "DEAD_LETTER"}` -/
def AgentExecutionStatus.terminal : AgentExecutionStatus → Bool
  | .completed | .deadLetter => true
  | .pending | .leased | .retry => false

structure AgentExecutionJob where
  executionId : ExecutionId
  requestFingerprint : ExecutionId
  idempotencyKey : String
  correlationId : String
  agentName : String
  agentVersion : String
  agentDefinitionHash : AgentDefinition
  decisionRole : AgentDecisionRole
  critical : Bool
  input : AgentInput
  status : AgentExecutionStatus := .pending
  attemptCount : ℕ := 0
  maxAttempts : ℕ
  availableAt : Time
  leasedBy : Option String := none
  leaseExpiresAt : Option Time := none
  lastErrorCode : Option String := none
  output : Option AgentOutput := none
  createdAt : Time
  updatedAt : Time
  completedAt : Option Time := none
  deriving DecidableEq

namespace AgentExecutionJob

/-- the field constraints and `validate_job_state`; error codes are two constants -/
def check (j : AgentExecutionJob) : Except Error AgentExecutionJob :=
  validateModel
    [("idempotency_key", decide (1 ≤ j.idempotencyKey.length ∧ j.idempotencyKey.length ≤ 256)),
     ("correlation_id", decide (1 ≤ j.correlationId.length ∧ j.correlationId.length ≤ 36)),
     ("attempt_count", decide (j.attemptCount ≤ 10)),
     ("max_attempts", decide (1 ≤ j.maxAttempts ∧ j.maxAttempts ≤ 10)),
     ("leased_by", j.leasedBy.all fun w => decide (w.length ≤ 128))]
    [("execution_id must equal request_fingerprint",
       decide (j.executionId = j.requestFingerprint)),
     ("attempt_count must not exceed max_attempts", decide (j.attemptCount ≤ j.maxAttempts)),
     ("job agent must match input agent", decide (j.input.agentName = j.agentName)),
     ("lease fields must match LEASED status",
       (j.status == .leased) == (j.leasedBy.isSome && j.leaseExpiresAt.isSome)),
     ("leased jobs require an active attempt",
       !(j.status == .leased && decide (j.attemptCount < 1))),
     ("terminal jobs require completed_at", j.status.terminal == j.completedAt.isSome),
     ("terminal jobs require output", !(j.status.terminal && j.output.isNone)),
     ("job output must match job agent",
       j.output.all fun o => decide (o.agentName = j.agentName))] j

theorem check_ok {j j' : AgentExecutionJob} : j.check = .ok j' ↔
    ((1 ≤ j.idempotencyKey.length ∧ j.idempotencyKey.length ≤ 256) ∧
      (1 ≤ j.correlationId.length ∧ j.correlationId.length ≤ 36) ∧ j.attemptCount ≤ 10 ∧
      (1 ≤ j.maxAttempts ∧ j.maxAttempts ≤ 10) ∧ ∀ w ∈ j.leasedBy, w.length ≤ 128) ∧
    (j.executionId = j.requestFingerprint ∧ j.attemptCount ≤ j.maxAttempts ∧
      j.input.agentName = j.agentName ∧
      (j.status == .leased) = (j.leasedBy.isSome && j.leaseExpiresAt.isSome) ∧
      (j.status = .leased → 1 ≤ j.attemptCount) ∧ j.status.terminal = j.completedAt.isSome ∧
      (j.status.terminal = true → j.output.isSome = true) ∧
      ∀ o ∈ j.output, o.agentName = j.agentName) ∧ j' = j := by
  have hleased : (!(j.status == .leased && decide (j.attemptCount < 1))) = true ↔
      (j.status = .leased → 1 ≤ j.attemptCount) := by
    simp only [Bool.not_eq_true', Bool.and_eq_false_iff, beq_eq_false_iff_ne,
      decide_eq_false_iff_not, ← imp_iff_not_or, not_lt]
  have hterminal : (!(j.status.terminal && j.output.isNone)) = true ↔
      (j.status.terminal = true → j.output.isSome = true) := by
    cases j.status.terminal <;> cases j.output <;> simp
  have hworker : (j.leasedBy.all fun w => decide (w.length ≤ 128)) = true ↔
      ∀ w ∈ j.leasedBy, w.length ≤ 128 := by
    cases j.leasedBy <;> simp
  have hname : (j.output.all fun o => decide (o.agentName = j.agentName)) = true ↔
      ∀ o ∈ j.output, o.agentName = j.agentName := by
    cases j.output <;> simp
  rw [check, validateModel_ok]
  simp only [List.forall_mem_cons, List.not_mem_nil, false_implies, implies_true, and_true,
    decide_eq_true_eq, beq_iff_eq, hleased, hterminal, hworker, hname]

/-- the triple of the idempotency constraint -/
def key (j : AgentExecutionJob) : String × String × String :=
  (j.agentName, j.agentVersion, j.idempotencyKey)

end AgentExecutionJob

structure AgentExecutionTrace where
  job : AgentExecutionJob
  attempts : List AgentExecutionAttempt
  memory : List AgentMemoryEntry
  deriving DecidableEq

/-- `validate_trace` -/
def AgentExecutionTrace.check (t : AgentExecutionTrace) : Except Error AgentExecutionTrace :=
  let numbers := t.attempts.map AgentExecutionAttempt.attemptNumber
  let sequences := t.memory.map AgentMemoryEntry.sequence
  validateModel []
    [("trace attempts must match the job execution",
       t.attempts.all fun a => decide (a.executionId = t.job.executionId)),
     ("trace attempts must be ordered and contiguous",
       decide (numbers = List.range' 1 t.attempts.length)),
     ("trace has more attempts than the job", decide (t.attempts.length ≤ t.job.attemptCount)),
     ("trace memory must match the job execution",
       t.memory.all fun m => decide (m.executionId = t.job.executionId)),
     ("trace memory sequences must be ordered and unique",
       decide (sequences = sequences.dedup.insertionSort (· ≤ ·)))] t

end CapitalCipher
