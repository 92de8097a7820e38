/-
The agent-execution tables of `database/models.py` and the transactions of
`database/repositories/repository.py` over them.

The database is PostgreSQL: a value its column cannot hold is refused. Text and JSON columns are
parameters; the two limits no schema implies are written out (`agent_version` has 32 characters,
`latency_ms` 32 bits). The surrogate row ids are left out, and so are the rows of `agent_outputs`,
which nothing here reads. A claim passes over the rows that other transactions hold locked.
-/
import CapitalCipher.Agents.Refinement
import CapitalCipher.Database.Models

namespace CapitalCipher

open Lib

/-- `agent_execution_jobs`; it has no trigger -/
def agentExecutionJobSchema : Schema ExecutionId AgentExecutionJob where
  key j := j.executionId
  check j := decide (j.attemptCount ≤ j.maxAttempts ∧ 0 < j.maxAttempts ∧ j.maxAttempts ≤ 10) &&
    ((j.status == .leased) == j.leasedBy.isSome) &&
    ((j.status == .leased) == j.leaseExpiresAt.isSome) &&
    (j.status.terminal == j.completedAt.isSome)
  clash a b := a.requestFingerprint == b.requestFingerprint || a.key == b.key
  guard old new := decide (old.executionId = new.executionId)
  guard_key h := by simpa using h

/-- `agent_execution_attempts`, append-only -/
def agentExecutionAttemptSchema : Schema (ExecutionId × ℕ) AgentExecutionAttempt where
  key a := (a.executionId, a.attemptNumber)
  check a := decide (0 < a.attemptNumber ∧ a.attemptNumber ≤ 10 ∧ a.startedAt ≤ a.completedAt)
  clash _ _ := false
  guard _ _ := false
  guard_key h := by cases h

/-- `agent_memory_entries`, append-only -/
def agentMemoryEntrySchema : Schema (ExecutionId × ℕ) AgentMemoryEntry where
  key m := (m.executionId, m.sequence)
  check m := decide (0 < m.sequence)
  clash _ _ := false
  guard _ _ := false
  guard_key h := by cases h

structure AgentDb where
  jobs : Table agentExecutionJobSchema
  attempts : Table agentExecutionAttemptSchema
  memory : Table agentMemoryEntrySchema

/-- what the text and JSON columns can hold -/
structure ColumnTypes where
  job : AgentExecutionJob → Bool
  output : AgentOutput → Bool

/-- what the columns of the agent tables can hold -/
def ColumnTypes.limits (columns : ColumnTypes) : Limits where
  job j := decide (j.agentVersion.length ≤ 32) && columns.job j
  finish f := columns.output f.output &&
    (f.terminalMemory.isNone || decide (f.output.latencyMs < 2 ^ 31))

abbrev AgentTx := Tx AgentDb Error

namespace AgentTx

def onJobs : (Table agentExecutionJobSchema →
    Except Violation (Table agentExecutionJobSchema)) → AgentTx Unit :=
  Tx.write AgentDb.jobs (fun db t => { db with jobs := t })
    (integrityError "agent_execution_jobs")

def onAttempts : (Table agentExecutionAttemptSchema →
    Except Violation (Table agentExecutionAttemptSchema)) → AgentTx Unit :=
  Tx.write AgentDb.attempts (fun db t => { db with attempts := t })
    (integrityError "agent_execution_attempts")

def onMemory : (Table agentMemoryEntrySchema →
    Except Violation (Table agentMemoryEntrySchema)) → AgentTx Unit :=
  Tx.write AgentDb.memory (fun db t => { db with memory := t })
    (integrityError "agent_memory_entries")

/-- raise what a model's construction raises -/
def construct {α : Type} : Except Error α → AgentTx α
  | .ok a => pure a
  | .error e => throw e

/-- `except Exception as exc: raise DatabaseError(prefix + exc)`, the kinds in `keep` re-raised -/
def failing {α : Type} (pre : String) (keep : List ErrorKind) (x : AgentTx α) : AgentTx α :=
  Tx.wrap (fun e => if e.kind ∈ keep then e else ⟨.database, pre ++ e.message⟩) x

/-- the values fit their columns -/
def columnsHold (c : Bool) : AgentTx Unit :=
  Tx.require (c = true) ⟨.integrity, "value out of range for its column type"⟩

end AgentTx

namespace AgentDb

open AgentTx

/-- `ValueError` and `RuntimeError` -/
def raised (message : String) : Error := ⟨.transport, message⟩

/-- the stored job a submission meets, when it is the same submission -/
def sameSubmission (job row : AgentExecutionJob) : AgentTx AgentExecutionJob := do
  Tx.require (row.requestFingerprint = job.requestFingerprint)
    ⟨.validation, "Agent execution idempotency key conflicts with different input"⟩
  construct row.check

def createAgentExecution (columns : ColumnTypes) (job : AgentExecutionJob)
    (inputMemory : AgentMemoryEntry) : AgentTx AgentExecutionJob := do
  Tx.require (inputMemory.executionId = job.executionId ∧ inputMemory.sequence = 1 ∧
    inputMemory.entryType = .input) (raised "Initial agent memory does not match the job")
  failing "Failed to create agent execution: " [.database, .validation] do
    let db ← get
    columnsHold (columns.limits.job job)
    -- ON CONFLICT DO NOTHING, whichever constraint it breaks
    if ∀ row ∈ db.jobs.rows, agentExecutionJobSchema.Apart row job then
      onJobs (·.insert job)
      onMemory (·.insert inputMemory)
      pure job
    else
      match db.jobs.rows.find? fun row => row.key = job.key with
      | some row => sameSubmission job row
      | none =>
        match db.jobs.get? job.executionId with
        | some row => sameSubmission job row
        | none => throw (raised "Agent execution conflict has no stored job")

/-- the row the statement of `_claim_agent_execution` returns -/
def claimedRow (now : Time) (contention : Contention) (executionId : Option ExecutionId)
    (rows : List AgentExecutionJob) : Option AgentExecutionJob :=
  let ready (j : AgentExecutionJob) := (j.status == .pending || j.status == .retry) &&
    decide (j.availableAt ≤ now) && decide (j.attemptCount < j.maxAttempts)
  let expired (j : AgentExecutionJob) := j.status == .leased &&
    j.leaseExpiresAt.any fun t => decide (t ≤ now)
  let found := tied
    (fun j => (ready j || expired j) && executionId.all (fun id => decide (j.executionId = id)) &&
      !contention.locked j.executionId)
    AgentExecutionJob.queueKey rows
  found[contention.choice % found.length]?

/-- `_claim_agent_execution` -/
def claimAgentExecution (now : Time) (contention : Contention) (executionId : Option ExecutionId)
    (workerId : String) (leaseSeconds : ℕ) : AgentTx (Option AgentExecutionJob) := do
  Tx.require (1 ≤ leaseSeconds) (raised "Agent lease_seconds must be positive")
  failing "Failed to claim agent execution: " [] do
    let db ← get
    match claimedRow now contention executionId db.jobs.rows with
    | none => pure none
    | some row =>
      let reclaimed := row.status == .leased
      let claimed := { row with
        status := .leased
        attemptCount := if !reclaimed then row.attemptCount + 1 else row.attemptCount
        leasedBy := some workerId
        leaseExpiresAt := some (now + leaseSeconds * 1000000)
        updatedAt := now
        completedAt := none }
      onJobs (·.update (fun r => r.executionId = row.executionId) fun _ => claimed)
      let job ← construct claimed.check
      pure (some job)

/-- what `finish_agent_execution` writes to the row; `available_at` moves only for a retry -/
def finishedRow (now : Time) (f : FinishRequest) (row : AgentExecutionJob) : AgentExecutionJob :=
  let successful := f.output.successful
  let shouldRetry := !successful && f.retryable && decide (row.attemptCount < row.maxAttempts)
  { row with
    status := if successful then .completed else if shouldRetry then .retry else .deadLetter
    availableAt :=
      if !successful && shouldRetry then afterSeconds now f.retryDelay else row.availableAt
    completedAt := if successful then some now else if shouldRetry then none else some now
    leasedBy := none
    leaseExpiresAt := none
    lastErrorCode :=
      if successful then none
      else if f.output.status = .timeout then some "AGENT_TIMEOUT" else some "AGENT_FAILED"
    output := some f.output
    updatedAt := now }

/-- the terminal entry of a finished row, and the row of `agent_outputs` -/
def appendTerminalMemory (f : FinishRequest) (updated : AgentExecutionJob) : AgentTx Unit :=
  if updated.status = .completed ∨ updated.status = .deadLetter then
    let expectedType : MemoryEntryType :=
      if updated.status = .completed then .output else .deadLetter
    match f.terminalMemory with
    | some m =>
      if m.executionId = updated.executionId ∧ m.entryType = expectedType ∧
          m.sequence = f.attempt.attemptNumber * 2 + 1 then
        onMemory (·.insert m)
      else throw (raised "Terminal agent memory is inconsistent")
    | none => throw (raised "Terminal agent memory is inconsistent")
  else
    match f.terminalMemory with
    | some _ => throw (raised "Retrying execution cannot append terminal memory")
    | none => pure ()

def finishAgentExecution (columns : ColumnTypes) (now : Time) (f : FinishRequest) :
    AgentTx AgentExecutionJob := do
  Tx.require (0 ≤ f.retryDelay) (raised "Agent retry delay must not be negative")
  Tx.require (f.attempt.executionId = f.attemptMemory.executionId ∧ f.attempt.output = f.output ∧
      f.attempt.workerId = f.workerId ∧ f.attemptMemory.sequence = f.attempt.attemptNumber * 2 ∧
      f.attemptMemory.entryType = .attempt)
    (raised "Agent attempt evidence is inconsistent")
  failing "Failed to finish agent execution: " [] do
    let db ← get
    match db.jobs.get? f.attempt.executionId with
    | none => throw (raised "Agent execution does not exist")
    | some row =>
      Tx.require (row.status = .leased ∧ row.leasedBy = some f.workerId)
        (raised "Agent execution lease ownership lost")
      Tx.require (row.attemptCount = f.attempt.attemptNumber)
        (raised "Agent attempt does not match leased attempt")
      let priorAttempts :=
        (db.attempts.rows.filter fun a => a.executionId = f.attempt.executionId).length
      Tx.require (priorAttempts + 1 = f.attempt.attemptNumber)
        (raised "Agent attempts are not append-only")
      onAttempts (·.insert { f.attempt with output := f.output })
      onMemory (·.insert f.attemptMemory)
      let updated := finishedRow now f row
      appendTerminalMemory f updated
      onJobs (·.update (fun r => r.executionId = row.executionId) fun _ => updated)
      columnsHold (columns.limits.finish f)
      construct updated.check

def loadAgentExecutionTrace (executionId : ExecutionId) : AgentTx (Option AgentExecutionTrace) :=
  failing "Failed to load agent execution trace: " [] do
    let db ← get
    match db.jobs.get? executionId with
    | none => pure none
    | some row =>
      let attempts := (db.attempts.rows.filter fun a => a.executionId = executionId).insertionSort
        fun a b => a.attemptNumber ≤ b.attemptNumber
      let memory := (db.memory.rows.filter fun m => m.executionId = executionId).insertionSort
        fun a b => a.sequence ≤ b.sequence
      let job ← construct row.check
      let attempts ← construct (attempts.mapM AgentExecutionAttempt.check)
      let memory ← construct (memory.mapM AgentMemoryEntry.check)
      let trace ← construct (AgentExecutionTrace.check ⟨job, attempts, memory⟩)
      pure (some trace)

/-- `Repository` as an agent-execution repository, on a database just created -/
def repository (columns : ColumnTypes) : AgentRuntimeRepository AgentDb where
  empty := ⟨.empty _, .empty _, .empty _⟩
  create job inputMemory := Tx.commit (createAgentExecution columns job inputMemory)
  claim clock contention id worker leaseSeconds :=
    Tx.commit (claimAgentExecution (clock 0) contention (some id) worker leaseSeconds)
  claimNext clock contention worker leaseSeconds :=
    Tx.commit (claimAgentExecution (clock 0) contention none worker leaseSeconds)
  finish now f := Tx.commit (finishAgentExecution columns now f)
  loadTrace id s := (Tx.commit (loadAgentExecutionTrace id) s).1

end AgentDb

end CapitalCipher
