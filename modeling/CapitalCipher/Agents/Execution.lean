/-
What an agent-execution repository is for, on its own terms: a list of executions, each with its
job, its attempts and its memory, that workers lease and finish.

  • `Execution.Lawful`: attempts and memory follow the attempt count and the status.
  • `Lawful.create`, `Lawful.claim`, `Lawful.finish`: every operation keeps it.
  • `Executions.Step.lawful`: so does every step of a repository's whole list.
  • `Executions.Grows`: what a later state keeps of an execution; a terminal one never changes.
-/
import CapitalCipher.Lib.Decimal
import CapitalCipher.Lib.Least
import CapitalCipher.Lib.Run
import CapitalCipher.Schemas.Agents

namespace CapitalCipher

open Lib

structure Execution where
  job : AgentExecutionJob
  attempts : List AgentExecutionAttempt
  memory : List AgentMemoryEntry
  deriving DecidableEq

/-- the arguments of `finish_agent_execution` -/
structure FinishRequest where
  attempt : AgentExecutionAttempt
  attemptMemory : AgentMemoryEntry
  workerId : String
  output : AgentOutput
  retryable : Bool
  /-- in seconds -/
  retryDelay : ℚ
  terminalMemory : Option AgentMemoryEntry

/-- `now + timedelta(seconds=delay)`, which rounds to microseconds -/
def afterSeconds (now : Time) (delay : ℚ) : Time :=
  now + (Decimal.nearest (delay * 1000000)).toNat

namespace AgentExecutionJob

/-- the fields the lifecycle leaves alone -/
def identity (j : AgentExecutionJob) : AgentExecutionJob :=
  { j with
    status := .pending, attemptCount := 0, availableAt := 0, leasedBy := none,
    leaseExpiresAt := none, lastErrorCode := none, output := none, updatedAt := 0,
    completedAt := none }

/-- waiting, due, and with attempts left -/
def ready (now : Time) (j : AgentExecutionJob) : Bool :=
  (j.status == .pending || j.status == .retry) && decide (j.availableAt ≤ now) &&
    decide (j.attemptCount < j.maxAttempts)

/-- leased, and the lease is over -/
def expired (now : Time) (j : AgentExecutionJob) : Bool :=
  j.status == .leased && j.leaseExpiresAt.any fun t => decide (t ≤ now)

/-- a worker may take the job -/
def claimable (now : Time) (j : AgentExecutionJob) : Bool := j.ready now || j.expired now

/-- the queue order: `available_at`, then `created_at` -/
def queueKey (j : AgentExecutionJob) : ℕ ×ₗ ℕ := toLex (j.availableAt, j.createdAt)

/-- taken by a worker; a lease that is taken over keeps its attempt -/
def leasedTo (now : Time) (worker : String) (leaseSeconds : ℕ) (j : AgentExecutionJob) :
    AgentExecutionJob :=
  { j with
    status := .leased
    attemptCount := if j.status == .leased then j.attemptCount else j.attemptCount + 1
    leasedBy := some worker
    leaseExpiresAt := some (now + leaseSeconds * 1000000)
    updatedAt := now }

/-- where a finished attempt leads -/
def outcome (f : FinishRequest) (j : AgentExecutionJob) : AgentExecutionStatus :=
  if f.output.successful then .completed
  else if f.retryable && decide (j.attemptCount < j.maxAttempts) then .retry
  else .deadLetter

/-- `last_error_code` of an output -/
def errorCode (o : AgentOutput) : Option String :=
  if o.successful then none
  else if o.status = .timeout then some "AGENT_TIMEOUT" else some "AGENT_FAILED"

/-- the job after its worker finished -/
def finished (now : Time) (f : FinishRequest) (j : AgentExecutionJob) : AgentExecutionJob :=
  { j with
    status := j.outcome f
    availableAt := if j.outcome f = .retry then afterSeconds now f.retryDelay else now
    leasedBy := none
    leaseExpiresAt := none
    lastErrorCode := errorCode f.output
    output := some f.output
    updatedAt := now
    completedAt := if (j.outcome f).terminal then some now else none }

@[simp] theorem identity_leasedTo (now : Time) (worker : String) (leaseSeconds : ℕ)
    (j : AgentExecutionJob) : (j.leasedTo now worker leaseSeconds).identity = j.identity := rfl

@[simp] theorem identity_finished (now : Time) (f : FinishRequest) (j : AgentExecutionJob) :
    (j.finished now f).identity = j.identity := rfl

theorem executionId_of_identity {j j' : AgentExecutionJob} (h : j.identity = j'.identity) :
    j.executionId = j'.executionId := (congrArg AgentExecutionJob.executionId h :)

theorem maxAttempts_of_identity {j j' : AgentExecutionJob} (h : j.identity = j'.identity) :
    j.maxAttempts = j'.maxAttempts := (congrArg AgentExecutionJob.maxAttempts h :)

theorem agentName_of_identity {j j' : AgentExecutionJob} (h : j.identity = j'.identity) :
    j.agentName = j'.agentName := (congrArg AgentExecutionJob.agentName h :)

theorem key_of_identity {j j' : AgentExecutionJob} (h : j.identity = j'.identity) :
    j.key = j'.key := by
  have h1 : j.agentName = j'.agentName := agentName_of_identity h
  have h2 : j.agentVersion = j'.agentVersion := (congrArg AgentExecutionJob.agentVersion h :)
  have h3 : j.idempotencyKey = j'.idempotencyKey :=
    (congrArg AgentExecutionJob.idempotencyKey h :)
  rw [key, key, h1, h2, h3]

end AgentExecutionJob

namespace Execution

/-- the lease is the worker's and the evidence is the next in line -/
def accepts (f : FinishRequest) (e : Execution) : Bool :=
  e.job.status == .leased && e.job.leasedBy == some f.workerId &&
    f.attempt.attemptNumber == e.attempts.length + 1 &&
    f.attemptMemory.sequence == f.attempt.attemptNumber * 2

/-- the attempt and its memory are appended and the job moves on -/
def finish (now : Time) (f : FinishRequest) (e : Execution) : Execution where
  job := e.job.finished now f
  attempts := e.attempts ++ [f.attempt]
  memory := e.memory ++ f.attemptMemory :: f.terminalMemory.toList

def claim (now : Time) (worker : String) (leaseSeconds : ℕ) (e : Execution) : Execution :=
  { e with job := e.job.leasedTo now worker leaseSeconds }

end Execution

/-- what the status says about the number of attempts -/
def AgentExecutionStatus.fits (attempts attemptCount maxAttempts : ℕ) :
    AgentExecutionStatus → Prop
  | .pending => attempts = 0 ∧ attemptCount = 0
  | .leased => attemptCount = attempts + 1
  | .retry => attemptCount = attempts ∧ attempts < maxAttempts
  | .completed | .deadLetter => attemptCount = attempts ∧ 0 < attempts

/-- the constraints a job keeps for life -/
structure AgentExecutionJob.Wellformed (j : AgentExecutionJob) : Prop where
  idempotencyKey : 1 ≤ j.idempotencyKey.length ∧ j.idempotencyKey.length ≤ 256
  correlationId : 1 ≤ j.correlationId.length ∧ j.correlationId.length ≤ 36
  maxAttempts : 1 ≤ j.maxAttempts ∧ j.maxAttempts ≤ 10
  fingerprint : j.requestFingerprint = j.executionId
  input : j.input.agentName = j.agentName
  digested : j.executionId =
    ⟨j.agentName ++ "@" ++ j.agentVersion, j.idempotencyKey, j.input⟩

/-- a worker id the runtime issues -/
def validWorkerId (w : String) : Prop := 1 ≤ w.length ∧ w.length ≤ 128

namespace Execution

/-- the sequences of the memory of an execution with `attempts` attempts -/
def memorySequences (attempts : ℕ) (terminal : Bool) : List ℕ :=
  1 :: (List.range' 1 attempts).map (2 * ·) ++ if terminal then [2 * attempts + 1] else []

/-- attempts and memory follow the attempt count and the status -/
structure Lawful (e : Execution) : Prop where
  wellformed : e.job.Wellformed
  numbers : e.attempts.map AgentExecutionAttempt.attemptNumber = List.range' 1 e.attempts.length
  attemptIds : ∀ a ∈ e.attempts, a.executionId = e.job.executionId
  attemptsChecked : ∀ a ∈ e.attempts, a.check = .ok a
  memoryIds : ∀ m ∈ e.memory, m.executionId = e.job.executionId
  sequences : e.memory.map AgentMemoryEntry.sequence =
    memorySequences e.attempts.length e.job.status.terminal
  terminals : (e.memory.filter AgentMemoryEntry.terminal).length =
    if e.job.status.terminal then 1 else 0
  fits : e.job.status.fits e.attempts.length e.job.attemptCount e.job.maxAttempts
  bounded : e.job.attemptCount ≤ e.job.maxAttempts
  leased : e.job.leasedBy.isSome = (e.job.status == .leased) ∧
    e.job.leaseExpiresAt.isSome = (e.job.status == .leased)
  worker : ∀ w ∈ e.job.leasedBy, validWorkerId w
  completed : e.job.completedAt.isSome = e.job.status.terminal
  output : e.job.status.terminal = true → e.job.output.isSome = true
  outputName : ∀ o ∈ e.job.output, o.agentName = e.job.agentName

end Execution

/-- what `_record_and_finish` hands over for a job that `worker` had claimed -/
structure FinishRequest.Issued (claimed : AgentExecutionJob) (worker : String)
    (f : FinishRequest) : Prop where
  workerId : f.workerId = worker
  attemptId : f.attempt.executionId = claimed.executionId
  attemptNumber : f.attempt.attemptNumber = claimed.attemptCount
  attemptWorker : f.attempt.workerId = worker
  attemptOutput : f.attempt.output = f.output
  attemptChecked : f.attempt.check = .ok f.attempt
  memoryId : f.attemptMemory.executionId = claimed.executionId
  memorySequence : f.attemptMemory.sequence = claimed.attemptCount * 2
  memoryType : f.attemptMemory.entryType = .attempt
  outputName : f.output.agentName = claimed.agentName
  retryable : f.retryable = true → f.output.successful = false
  delay : 0 ≤ f.retryDelay
  /-- the terminal entry is there exactly when the claimed job has no attempt left for a retry -/
  terminal : match f.terminalMemory with
    | none => f.retryable = true ∧ claimed.attemptCount < claimed.maxAttempts
    | some m => ¬ (f.retryable = true ∧ claimed.attemptCount < claimed.maxAttempts) ∧
      m.executionId = claimed.executionId ∧ m.sequence = claimed.attemptCount * 2 + 1 ∧
      m.entryType = if f.output.successful then .output else .deadLetter

/-! ## One execution -/

namespace AgentExecutionJob

theorem claimable_cases {now : Time} {j : AgentExecutionJob} (h : j.claimable now = true) :
    (j.status = .pending ∨ j.status = .retry) ∧ j.availableAt ≤ now ∧
        j.attemptCount < j.maxAttempts ∨
      j.status = .leased ∧ ∃ t, j.leaseExpiresAt = some t ∧ t ≤ now := by
  simp only [claimable, ready, expired, Bool.or_eq_true, Bool.and_eq_true, beq_iff_eq,
    decide_eq_true_eq, Option.any_eq_true] at h
  rcases h with ⟨⟨hs, ha⟩, hm⟩ | ⟨hs, t, ht, hle⟩
  · exact .inl ⟨hs, ha, hm⟩
  · exact .inr ⟨hs, t, ht, hle⟩

theorem outcome_cases (f : FinishRequest) (j : AgentExecutionJob) :
    (f.output.successful = true ∧ j.outcome f = .completed) ∨
      (f.output.successful = false ∧ f.retryable = true ∧ j.attemptCount < j.maxAttempts ∧
        j.outcome f = .retry) ∨
      (f.output.successful = false ∧ ¬ (f.retryable = true ∧ j.attemptCount < j.maxAttempts) ∧
        j.outcome f = .deadLetter) := by
  unfold outcome
  by_cases hs : f.output.successful = true
  · simp [hs]
  · by_cases hr : f.retryable = true ∧ j.attemptCount < j.maxAttempts
    · simp [hs, hr]
    · have hr' : ¬ (f.retryable && decide (j.attemptCount < j.maxAttempts)) = true := by
        simpa using hr
      simp [hs, hr, hr']

end AgentExecutionJob

namespace Execution

theorem Lawful.claim {e : Execution} (h : e.Lawful) {now : Time} {worker : String}
    (hw : validWorkerId worker) (hc : e.job.claimable now = true) (leaseSeconds : ℕ) :
    (e.claim now worker leaseSeconds).Lawful := by
  have hopen : e.job.status.terminal = false := by
    rcases AgentExecutionJob.claimable_cases hc with ⟨hs | hs, -⟩ | ⟨hs, -⟩ <;> rw [hs] <;> rfl
  have hfits := h.fits
  -- a fresh lease starts the next attempt, a taken-over one keeps it
  have hcount : (e.claim now worker leaseSeconds).job.attemptCount = e.attempts.length + 1 ∧
      e.attempts.length + 1 ≤ e.job.maxAttempts := by
    rcases AgentExecutionJob.claimable_cases hc with ⟨hs | hs, -, hlt⟩ | ⟨hs, -⟩
    · rw [hs] at hfits
      simp only [AgentExecutionStatus.fits] at hfits
      simp only [Execution.claim, AgentExecutionJob.leasedTo, hs]
      simp
      omega
    · rw [hs] at hfits
      simp only [AgentExecutionStatus.fits] at hfits
      simp only [Execution.claim, AgentExecutionJob.leasedTo, hs]
      simp
      omega
    · have hb := h.bounded
      rw [hs] at hfits
      simp only [AgentExecutionStatus.fits] at hfits
      simp only [Execution.claim, AgentExecutionJob.leasedTo, hs]
      simp
      omega
  refine
    { wellformed := ?_
      numbers := h.numbers
      attemptIds := h.attemptIds
      attemptsChecked := h.attemptsChecked
      memoryIds := h.memoryIds
      sequences := ?_
      terminals := ?_
      fits := hcount.1
      bounded := hcount.1.trans_le hcount.2
      leased := ⟨rfl, rfl⟩
      worker := ?_
      completed := ?_
      output := ?_
      outputName := h.outputName }
  · exact ⟨h.wellformed.idempotencyKey, h.wellformed.correlationId, h.wellformed.maxAttempts,
      h.wellformed.fingerprint, h.wellformed.input, h.wellformed.digested⟩
  · have := h.sequences
    rw [hopen] at this
    exact this
  · have := h.terminals
    rw [hopen] at this
    exact this
  · intro w hw'
    cases hw'
    exact hw
  · have := h.completed
    rw [hopen] at this
    exact this
  · intro ht
    cases ht

theorem memorySequences_succ (attempts : ℕ) (terminal : Bool) :
    memorySequences (attempts + 1) terminal = memorySequences attempts false ++
      (attempts + 1) * 2 :: (if terminal then [(attempts + 1) * 2 + 1] else []) := by
  have h1 : 2 * (1 + attempts) = (attempts + 1) * 2 := by omega
  have h2 : 2 * (attempts + 1) + 1 = (attempts + 1) * 2 + 1 := by omega
  simp [memorySequences, List.range'_1_concat, h1, h2]

/-- an accepted attempt is the one its worker claimed -/
theorem accepts_iff {f : FinishRequest} {e : Execution} : e.accepts f = true ↔
    e.job.status = .leased ∧ e.job.leasedBy = some f.workerId ∧
      f.attempt.attemptNumber = e.attempts.length + 1 ∧
      f.attemptMemory.sequence = f.attempt.attemptNumber * 2 := by
  simp [accepts, and_assoc]

theorem Lawful.claimed {e : Execution} (h : e.Lawful) {claimed : AgentExecutionJob}
    {worker : String} {f : FinishRequest} (hf : f.Issued claimed worker)
    (hid : claimed.identity = e.job.identity) (ha : e.accepts f = true) :
    e.job.status = .leased ∧ claimed.attemptCount = e.attempts.length + 1 ∧
      claimed.attemptCount = e.job.attemptCount ∧ claimed.maxAttempts = e.job.maxAttempts := by
  obtain ⟨hs, -, hn, -⟩ := accepts_iff.1 ha
  have hfits := h.fits
  rw [hs] at hfits
  have hcount : claimed.attemptCount = e.attempts.length + 1 := hf.attemptNumber.symm.trans hn
  exact ⟨hs, hcount, hcount.trans hfits.symm, AgentExecutionJob.maxAttempts_of_identity hid⟩

/-- the terminal entry comes exactly with a terminal status -/
theorem terminalMemory_iff {e : Execution} {claimed : AgentExecutionJob} {worker : String}
    {f : FinishRequest} (hf : f.Issued claimed worker)
    (hcount : claimed.attemptCount = e.job.attemptCount)
    (hmax : claimed.maxAttempts = e.job.maxAttempts) :
    f.terminalMemory.isSome = (e.job.outcome f).terminal := by
  have hterminal := hf.terminal
  rw [hcount, hmax] at hterminal
  cases hm : f.terminalMemory with
  | none =>
    rw [hm] at hterminal
    obtain ⟨hr, hlt⟩ := hterminal
    rcases e.job.outcome_cases f with ⟨ho, -⟩ | ⟨-, -, -, h⟩ | ⟨-, hn, -⟩
    · rw [hf.retryable hr] at ho
      cases ho
    · rw [h]
      rfl
    · exact absurd ⟨hr, hlt⟩ hn
  | some m =>
    rw [hm] at hterminal
    rcases e.job.outcome_cases f with ⟨-, h⟩ | ⟨-, hr, hlt, -⟩ | ⟨-, -, h⟩
    · rw [h]
      rfl
    · exact absurd ⟨hr, hlt⟩ hterminal.1
    · rw [h]
      rfl

theorem Lawful.finish {e : Execution} (h : e.Lawful) {claimed : AgentExecutionJob}
    {worker : String} {f : FinishRequest} (hf : f.Issued claimed worker)
    (hid : claimed.identity = e.job.identity) (ha : e.accepts f = true) (now : Time) :
    (e.finish now f).Lawful := by
  obtain ⟨hs, hk, hcount, hmax⟩ := h.claimed hf hid ha
  have hexec : claimed.executionId = e.job.executionId :=
    AgentExecutionJob.executionId_of_identity hid
  have hopen : e.job.status.terminal = false := by rw [hs]; rfl
  have hterm := terminalMemory_iff hf hcount hmax
  have hstatus : (e.finish now f).job.status = e.job.outcome f := rfl
  have hlen : (e.finish now f).attempts.length = e.attempts.length + 1 := by
    simp [Execution.finish]
  have hbounded := h.bounded
  refine
    { wellformed := ?_
      numbers := ?_
      attemptIds := ?_
      attemptsChecked := ?_
      memoryIds := ?_
      sequences := ?_
      terminals := ?_
      fits := ?_
      bounded := h.bounded
      leased := ?_
      worker := ?_
      completed := ?_
      output := fun _ => rfl
      outputName := ?_ }
  · exact ⟨h.wellformed.idempotencyKey, h.wellformed.correlationId, h.wellformed.maxAttempts,
      h.wellformed.fingerprint, h.wellformed.input, h.wellformed.digested⟩
  · rw [hlen]
    simp only [Execution.finish, List.map_append, List.map_cons, List.map_nil]
    rw [h.numbers, hf.attemptNumber, hk, List.range'_1_concat, Nat.add_comm 1]
  · intro a hmem
    rcases List.mem_append.1 hmem with hmem | hmem
    · exact h.attemptIds a hmem
    · rw [List.mem_singleton.1 hmem]
      exact hf.attemptId.trans hexec
  · intro a hmem
    rcases List.mem_append.1 hmem with hmem | hmem
    · exact h.attemptsChecked a hmem
    · rw [List.mem_singleton.1 hmem]
      exact hf.attemptChecked
  · intro m hmem
    simp only [Execution.finish, List.mem_append, List.mem_cons, Option.mem_toList] at hmem
    rcases hmem with hmem | rfl | hmem
    · exact h.memoryIds m hmem
    · exact hf.memoryId.trans hexec
    · have hterminal := hf.terminal
      rw [hmem] at hterminal
      exact hterminal.2.1.trans hexec
  · rw [hlen, hstatus, memorySequences_succ, ← hterm]
    have hseq := h.sequences
    rw [hopen] at hseq
    simp only [Execution.finish, List.map_append, List.map_cons, hseq, hf.memorySequence, hk]
    have hterminal := hf.terminal
    cases hm : f.terminalMemory with
    | none => simp
    | some m =>
      rw [hm] at hterminal
      simp [hterminal.2.2.1, hk]
  · rw [hstatus, ← hterm]
    have hcnt := h.terminals
    rw [hopen] at hcnt
    have hattempt : f.attemptMemory.terminal = false := by
      simp [AgentMemoryEntry.terminal, hf.memoryType]
    simp only [Execution.finish, List.filter_append, List.filter_cons, hattempt, List.length_append,
      hcnt]
    have hterminal := hf.terminal
    cases hm : f.terminalMemory with
    | none => simp
    | some m =>
      rw [hm] at hterminal
      have hmt : m.terminal = true := by
        simp only [AgentMemoryEntry.terminal, hterminal.2.2.2]
        split_ifs <;> rfl
      simp [hmt]
  · rw [hstatus, hlen]
    have hj : (e.finish now f).job.attemptCount = e.attempts.length + 1 := hcount.symm.trans hk
    have hm : (e.finish now f).job.maxAttempts = e.job.maxAttempts := rfl
    rw [hj, hm]
    rcases e.job.outcome_cases f with ⟨-, ho⟩ | ⟨-, -, hlt, ho⟩ | ⟨-, -, ho⟩
    · rw [ho]
      exact ⟨rfl, by omega⟩
    · rw [ho]
      exact ⟨rfl, by omega⟩
    · rw [ho]
      exact ⟨rfl, by omega⟩
  · rw [hstatus]
    rcases e.job.outcome_cases f with ⟨-, ho⟩ | ⟨-, -, -, ho⟩ | ⟨-, -, ho⟩ <;>
      rw [ho] <;> exact ⟨rfl, rfl⟩
  · intro w hw
    cases hw
  · rw [hstatus]
    change (if (e.job.outcome f).terminal then some now else none).isSome = _
    cases (e.job.outcome f).terminal <;> rfl
  · intro o ho
    cases ho
    exact hf.outputName.trans (AgentExecutionJob.agentName_of_identity hid)

theorem memorySequences_sorted {attempts : ℕ} {terminal : Bool}
    (h : terminal = true → 0 < attempts) :
    (memorySequences attempts terminal).Pairwise (· < ·) := by
  have hmap : ((List.range' 1 attempts).map (2 * ·)).Pairwise (· < ·) := by
    rw [List.pairwise_map]
    exact (List.pairwise_lt_range' (s := 1) (n := attempts)).imp fun h => by omega
  have hmem : ∀ x ∈ (List.range' 1 attempts).map (2 * ·), 1 < x ∧ x < 2 * attempts + 1 := by
    intro x hx
    obtain ⟨i, hi, rfl⟩ := List.mem_map.1 hx
    rw [List.mem_range'_1] at hi
    omega
  unfold memorySequences
  rw [List.cons_append, List.pairwise_cons, List.pairwise_append]
  refine ⟨fun x hx => ?_, hmap, ?_, fun x hx y hy => ?_⟩
  · rcases List.mem_append.1 hx with hx | hx
    · exact (hmem x hx).1
    · cases terminal with
      | false => cases hx
      | true =>
        rw [if_pos rfl, List.mem_singleton] at hx
        have := h rfl
        omega
  · cases terminal <;> simp
  · cases terminal with
    | false => cases hy
    | true =>
      rw [if_pos rfl, List.mem_singleton] at hy
      rw [hy]
      exact (hmem x hx).2

theorem Lawful.attempts_le {e : Execution} (h : e.Lawful) :
    e.attempts.length ≤ e.job.attemptCount := by
  have hfits := h.fits
  cases hs : e.job.status <;> rw [hs] at hfits <;> simp only [AgentExecutionStatus.fits] at hfits <;>
    omega

theorem Lawful.sorted {e : Execution} (h : e.Lawful) :
    (e.memory.map AgentMemoryEntry.sequence).Pairwise (· < ·) := by
  rw [h.sequences]
  refine memorySequences_sorted fun ht => ?_
  have hfits := h.fits
  cases hs : e.job.status with
  | pending | leased | retry =>
    rw [hs] at ht
    cases ht
  | completed | deadLetter =>
    rw [hs] at hfits
    exact hfits.2

/-- a lawful execution passes `validate_job_state` -/
theorem Lawful.job_check {e : Execution} (h : e.Lawful) : e.job.check = .ok e.job := by
  have hmax := h.wellformed.maxAttempts
  have hbounded := h.bounded
  have hworker : ∀ w ∈ e.job.leasedBy, w.length ≤ 128 := fun w hw => (h.worker w hw).2
  have hcount : e.job.attemptCount ≤ 10 := by omega
  have hlease : (e.job.status == .leased) =
      (e.job.leasedBy.isSome && e.job.leaseExpiresAt.isSome) := by
    rw [h.leased.1, h.leased.2, Bool.and_self]
  have hactive : e.job.status = .leased → 1 ≤ e.job.attemptCount := by
    intro hs
    have hfits := h.fits
    rw [hs] at hfits
    simp only [AgentExecutionStatus.fits] at hfits
    omega
  exact AgentExecutionJob.check_ok.2
    ⟨⟨h.wellformed.idempotencyKey, h.wellformed.correlationId, hcount, hmax, hworker⟩,
      ⟨h.wellformed.fingerprint.symm, h.bounded, h.wellformed.input, hlease, hactive,
        h.completed.symm, h.output, h.outputName⟩, rfl⟩

/-- and with its evidence it passes `validate_trace` -/
theorem Lawful.trace_check {e : Execution} (h : e.Lawful) {job : AgentExecutionJob}
    (hid : job.executionId = e.job.executionId) (hcount : job.attemptCount = e.job.attemptCount) :
    AgentExecutionTrace.check ⟨job, e.attempts, e.memory⟩ = .ok ⟨job, e.attempts, e.memory⟩ := by
  have hsorted : e.memory.map AgentMemoryEntry.sequence =
      (e.memory.map AgentMemoryEntry.sequence).dedup.insertionSort (· ≤ ·) := by
    have hlt := h.sorted
    rw [List.Nodup.dedup (hlt.imp fun hab => hab.ne)]
    exact (List.Pairwise.insertionSort_eq (hlt.imp fun hab => hab.le)).symm
  rw [AgentExecutionTrace.check, validateModel_ok]
  refine ⟨by simp, ?_, rfl⟩
  simp only [List.forall_mem_cons, List.all_eq_true, decide_eq_true_eq, hid, hcount]
  exact ⟨h.attemptIds, h.numbers, h.attempts_le, h.memoryIds, hsorted, by simp⟩

/-- a job just submitted -/
theorem Lawful.create {job : AgentExecutionJob} (hw : job.Wellformed) {input : AgentMemoryEntry}
    (hs : job.status = .pending) (ha : job.attemptCount = 0) (hl : job.leasedBy = none)
    (he : job.leaseExpiresAt = none) (hc : job.completedAt = none) (ho : job.output = none)
    (hid : input.executionId = job.executionId) (hseq : input.sequence = 1)
    (ht : input.entryType = .input) : (Execution.mk job [] [input]).Lawful where
  wellformed := hw
  numbers := rfl
  attemptIds := by simp
  attemptsChecked := by simp
  memoryIds := by simpa using hid
  sequences := by simp [hseq, hs, memorySequences, AgentExecutionStatus.terminal]
  terminals := by simp [AgentMemoryEntry.terminal, ht, hs, AgentExecutionStatus.terminal]
  fits := by
    rw [hs]
    exact ⟨rfl, ha⟩
  bounded := by simp [ha]
  leased := by simp [hl, he, hs]
  worker := by simp [hl]
  completed := by simp [hc, hs, AgentExecutionStatus.terminal]
  output := by simp [hs, AgentExecutionStatus.terminal]
  outputName := by simp [ho]

end Execution

/-! ## A repository's executions -/

/-- the job and the worker of every claim that was granted -/
abbrev Claims := List (AgentExecutionJob × String)

namespace Executions

/-- apply `g` to the execution of that id -/
def replace (id : ExecutionId) (g : Execution → Execution) (S : List Execution) :
    List Execution :=
  S.map fun e => if e.job.executionId = id then g e else e

def get? (S : List Execution) (id : ExecutionId) : Option Execution :=
  S.find? fun e => e.job.executionId = id

/-- a new job, unless its idempotency key is taken -/
def create (job : AgentExecutionJob) (input : AgentMemoryEntry) (S : List Execution) :
    Except Error AgentExecutionJob × List Execution :=
  match S.find? fun e => e.job.key = job.key with
  | some e =>
    if e.job.requestFingerprint ≠ job.requestFingerprint then
      (.error ⟨.validation, "Agent execution idempotency key conflicts with different input"⟩, S)
    else (.ok e.job, S)
  | none => (.ok job, S ++ [⟨job, [], [input]⟩])

/-- lease the execution of that id, if a worker may take it -/
def claimAt (now : Time) (id : ExecutionId) (worker : String) (leaseSeconds : ℕ)
    (S : List Execution) : Option AgentExecutionJob × List Execution :=
  match get? S id with
  | some e =>
    if e.job.claimable now then
      (some (e.job.leasedTo now worker leaseSeconds),
        replace id (Execution.claim now worker leaseSeconds) S)
    else (none, S)
  | none => (none, S)

/-- the executions tied for the first place of the queue -/
def first (now : Time) (S : List Execution) : List Execution :=
  tied (fun e => e.job.claimable now) (fun e => e.job.queueKey) S

/-- lease one of the executions tied for the first place of the queue -/
def claimNext (now : Time) (choice : ℕ) (worker : String) (leaseSeconds : ℕ)
    (S : List Execution) : Option AgentExecutionJob × List Execution :=
  match (first now S)[choice % (first now S).length]? with
  | some e => claimAt now e.job.executionId worker leaseSeconds S
  | none => (none, S)

/-- append the evidence of a worker that still holds its lease -/
def finish (now : Time) (f : FinishRequest) (S : List Execution) :
    Except Error AgentExecutionJob × List Execution :=
  match get? S f.attempt.executionId with
  | some e =>
    if e.accepts f then
      (.ok (e.job.finished now f), replace f.attempt.executionId (Execution.finish now f) S)
    else (.error ⟨.validation, "Agent execution lease ownership lost"⟩, S)
  | none => (.error ⟨.validation, "Agent execution does not exist"⟩, S)

/-- every execution is lawful and no two share an idempotency key -/
structure Lawful (S : List Execution) : Prop where
  each : ∀ e ∈ S, e.Lawful
  distinct : (S.map fun e => e.job.key).Nodup

/-- every granted claim is about a stored execution -/
structure Known (claims : Claims) (S : List Execution) : Prop where
  stored : ∀ c ∈ claims, ∃ e ∈ S, e.job.identity = c.1.identity
  worker : ∀ c ∈ claims, validWorkerId c.2

/-- one step of a repository whose granted claims are `claims` -/
inductive Step (claims : Claims) (S : List Execution) : List Execution → Prop
  | stay : Step claims S S
  | create {e : Execution} (fresh : ∀ x ∈ S, x.job.key ≠ e.job.key) (lawful : e.Lawful) :
      Step claims S (S ++ [e])
  | claim {e : Execution} {now : Time} {worker : String} (mem : e ∈ S)
      (claimable : e.job.claimable now = true) (valid : validWorkerId worker)
      (leaseSeconds : ℕ) :
      Step claims S (replace e.job.executionId (Execution.claim now worker leaseSeconds) S)
  | finish {e : Execution} {claimed : AgentExecutionJob} {worker : String} {f : FinishRequest}
      (mem : e ∈ S) (granted : (claimed, worker) ∈ claims) (issued : f.Issued claimed worker)
      (same : f.attempt.executionId = e.job.executionId) (accepts : e.accepts f = true)
      (now : Time) :
      Step claims S (replace e.job.executionId (Execution.finish now f) S)

theorem get?_eq_some {S : List Execution} {id : ExecutionId} {e : Execution}
    (h : get? S id = some e) : e ∈ S ∧ e.job.executionId = id :=
  ⟨List.mem_of_find?_eq_some h, by simpa using List.find?_some h⟩

theorem get?_eq_none {S : List Execution} {id : ExecutionId} :
    get? S id = none ↔ ∀ e ∈ S, e.job.executionId ≠ id := by
  simp [get?, List.find?_eq_none]

/-- an execution id determines the idempotency key -/
theorem key_of_executionId {j j' : AgentExecutionJob} (h : j.Wellformed) (h' : j'.Wellformed)
    (hid : j.executionId = j'.executionId) : j.key = j'.key := by
  have hd := h.digested
  rw [hid, h'.digested, ExecutionId.mk.injEq] at hd
  obtain ⟨hkey, hidem, hinput⟩ := hd
  have hname : j.agentName = j'.agentName := by
    rw [← h.input, ← h'.input, hinput]
  have hversion : j.agentVersion = j'.agentVersion := by
    rw [hname] at hkey
    exact (String.append_right_inj _).1 hkey.symm
  rw [AgentExecutionJob.key, AgentExecutionJob.key, hname, hversion, hidem]

theorem Lawful.eq_of_executionId {S : List Execution} (h : Lawful S) {a b : Execution}
    (ha : a ∈ S) (hb : b ∈ S) (hid : a.job.executionId = b.job.executionId) : a = b := by
  have hkey : a.job.key = b.job.key :=
    key_of_executionId (h.each a ha).wellformed (h.each b hb).wellformed hid
  exact List.inj_on_of_nodup_map h.distinct ha hb hkey

theorem Lawful.get? {S : List Execution} (h : Lawful S) {e : Execution} (he : e ∈ S) :
    get? S e.job.executionId = some e := by
  cases hg : Executions.get? S e.job.executionId with
  | none => exact absurd rfl (get?_eq_none.1 hg e he)
  | some x =>
    obtain ⟨hx, hid⟩ := get?_eq_some hg
    rw [h.eq_of_executionId hx he hid]

/-- where the executions go when one of them is replaced -/
theorem mem_replace {S : List Execution} (h : Lawful S) {e : Execution} (he : e ∈ S)
    {g : Execution → Execution} {x : Execution} :
    x ∈ replace e.job.executionId g S ↔ x = g e ∨ x ∈ S ∧ x ≠ e := by
  simp only [replace, List.mem_map]
  constructor
  · rintro ⟨y, hy, rfl⟩
    split_ifs with hid
    · exact .inl (by rw [h.eq_of_executionId hy he hid])
    · refine .inr ⟨hy, ?_⟩
      rintro rfl
      exact hid rfl
  · rintro (rfl | ⟨hx, hne⟩)
    · exact ⟨e, he, by rw [if_pos rfl]⟩
    · refine ⟨x, hx, ?_⟩
      rw [if_neg fun hid => hne (h.eq_of_executionId hx he hid)]

/-- storing a new version of a job, under a view that only changes for that job -/
theorem map_eq_replace {jobs : List AgentExecutionJob} {v v' : AgentExecutionJob → Execution}
    {id : ExecutionId} {new : AgentExecutionJob} {g : Execution → Execution}
    (hid : ∀ j ∈ jobs, (v j).job.executionId = j.executionId)
    (hnew : ∀ j ∈ jobs, j.executionId = id → v' new = g (v j))
    (hrest : ∀ j ∈ jobs, j.executionId ≠ id → v' j = v j) :
    (jobs.map fun j => if j.executionId = id then new else j).map v' =
      replace id g (jobs.map v) := by
  rw [replace, List.map_map, List.map_map]
  refine List.map_congr_left fun j hj => ?_
  simp only [Function.comp_apply, hid j hj]
  by_cases h : j.executionId = id
  · rw [if_pos h, if_pos h, hnew j hj h]
  · rw [if_neg h, if_neg h, hrest j hj h]

/-- what a step that replaces one execution keeps of the others -/
theorem Lawful.replace {S : List Execution} (h : Lawful S) {e : Execution} (he : e ∈ S)
    {g : Execution → Execution} (hg : (g e).Lawful)
    (hid : ∀ x, (g x).job.identity = x.job.identity) :
    Lawful (Executions.replace e.job.executionId g S) where
  each x hx := by
    rcases (mem_replace h he).1 hx with rfl | ⟨hx, -⟩
    · exact hg
    · exact h.each x hx
  distinct := by
    have hkeys : (Executions.replace e.job.executionId g S).map (fun e => e.job.key) =
        S.map fun e => e.job.key := by
      rw [Executions.replace, List.map_map]
      refine List.map_congr_left fun x _ => ?_
      simp only [Function.comp_apply]
      split_ifs
      · exact AgentExecutionJob.key_of_identity (hid x)
      · rfl
    rw [hkeys]
    exact h.distinct

theorem Step.lawful {claims : Claims} {S S' : List Execution} (h : Lawful S)
    (hk : Known claims S) (hs : Step claims S S') : Lawful S' := by
  cases hs with
  | stay => exact h
  | @create e hfresh hlawful =>
    refine ⟨fun x hx => ?_, ?_⟩
    · rcases List.mem_append.1 hx with hx | hx
      · exact h.each x hx
      · exact List.mem_singleton.1 hx ▸ hlawful
    · rw [List.map_append, List.nodup_append]
      refine ⟨h.distinct, by simp, ?_⟩
      intro k hk' k' hk'' heq
      obtain ⟨x, hx, rfl⟩ := List.mem_map.1 hk'
      rw [List.map_singleton, List.mem_singleton] at hk''
      exact hfresh x hx (heq.trans hk'')
  | claim he hc hw leaseSeconds =>
    exact h.replace he ((h.each _ he).claim hw hc leaseSeconds) fun _ => rfl
  | finish he hgranted hissued hsame haccepts now =>
    obtain ⟨x, hx, hxid⟩ := hk.stored _ hgranted
    have hxe : x.job.executionId = _ := (AgentExecutionJob.executionId_of_identity hxid).trans
      (hissued.attemptId.symm.trans hsame)
    have := h.eq_of_executionId hx he hxe
    subst this
    exact h.replace he ((h.each _ he).finish hissued hxid.symm haccepts now) fun _ => rfl

theorem Step.known {claims : Claims} {S S' : List Execution} (h : Lawful S)
    (hk : Known claims S) (hs : Step claims S S') : Known claims S' := by
  refine ⟨fun c hc => ?_, hk.worker⟩
  obtain ⟨e, he, hid⟩ := hk.stored c hc
  have hreplace : ∀ {x : Execution} {g : Execution → Execution}, x ∈ S →
      (∀ y, (g y).job.identity = y.job.identity) →
      ∃ e' ∈ replace x.job.executionId g S, e'.job.identity = c.1.identity := by
    intro x g hx hg
    by_cases hxe : e = x
    · exact ⟨g x, (mem_replace h hx).2 (.inl rfl), (hg x).trans (hxe ▸ hid)⟩
    · exact ⟨e, (mem_replace h hx).2 (.inr ⟨he, hxe⟩), hid⟩
  cases hs with
  | stay => exact ⟨e, he, hid⟩
  | create hfresh hlawful => exact ⟨e, List.mem_append_left _ he, hid⟩
  | claim hx hc hw leaseSeconds => exact hreplace hx fun _ => rfl
  | finish hx hgranted hissued hsame haccepts now => exact hreplace hx fun _ => rfl

/-- what a later state keeps of every execution: its identity, and a terminal one as it is -/
def Grows (S S' : List Execution) : Prop :=
  ∀ e ∈ S, ∃ e' ∈ S', e'.job.executionId = e.job.executionId ∧
    (e.job.status.terminal = true → e' = e)

instance : IsPreorder (List Execution) Grows where
  refl S e he := ⟨e, he, rfl, fun _ => rfl⟩
  trans S S' S'' h h' e he := by
    obtain ⟨e', he', hid, hfix⟩ := h e he
    obtain ⟨e'', he'', hid', hfix'⟩ := h' e' he'
    refine ⟨e'', he'', hid'.trans hid, fun ht => ?_⟩
    have heq := hfix ht
    rw [hfix' (heq ▸ ht), heq]

/-- a terminal execution takes no further step -/
theorem Step.grows {claims : Claims} {S S' : List Execution} (h : Lawful S)
    (hs : Step claims S S') : Grows S S' := by
  intro e he
  have hreplace : ∀ {x : Execution} {g : Execution → Execution}, x ∈ S →
      x.job.status.terminal = false → (∀ y, (g y).job.identity = y.job.identity) →
      ∃ e' ∈ replace x.job.executionId g S, e'.job.executionId = e.job.executionId ∧
        (e.job.status.terminal = true → e' = e) := by
    intro x g hx hopen hg
    by_cases hxe : e = x
    · refine ⟨g x, (mem_replace h hx).2 (.inl rfl), ?_, fun ht => ?_⟩
      · rw [hxe]
        exact AgentExecutionJob.executionId_of_identity (hg x)
      · rw [hxe, hopen] at ht
        cases ht
    · exact ⟨e, (mem_replace h hx).2 (.inr ⟨he, hxe⟩), rfl, fun _ => rfl⟩
  cases hs with
  | stay => exact ⟨e, he, rfl, fun _ => rfl⟩
  | create hfresh hlawful => exact ⟨e, List.mem_append_left _ he, rfl, fun _ => rfl⟩
  | claim hx hc hw leaseSeconds =>
    refine hreplace hx ?_ fun _ => rfl
    rcases AgentExecutionJob.claimable_cases hc with ⟨hst | hst, -⟩ | ⟨hst, -⟩ <;> rw [hst] <;> rfl
  | finish hx hgranted hissued hsame haccepts now =>
    refine hreplace hx ?_ fun _ => rfl
    rw [(Execution.accepts_iff.1 haccepts).1]
    rfl

/-! ## The operations are steps -/

theorem create_step {claims : Claims} {S : List Execution} {job : AgentExecutionJob}
    {input : AgentMemoryEntry} (hl : (Execution.mk job [] [input]).Lawful) :
    Step claims S (create job input S).2 := by
  unfold create
  split
  · split_ifs <;> exact .stay
  · rename_i hnone
    refine .create (fun x hx => ?_) hl
    simpa using List.find?_eq_none.1 hnone x hx

theorem claimAt_step {claims : Claims} {S : List Execution} {now : Time} {id : ExecutionId}
    {worker : String} (hw : validWorkerId worker) (leaseSeconds : ℕ) :
    Step claims S (claimAt now id worker leaseSeconds S).2 := by
  unfold claimAt
  cases hg : get? S id with
  | none => exact .stay
  | some e =>
    obtain ⟨he, rfl⟩ := get?_eq_some hg
    dsimp only
    split_ifs with hc
    · exact .claim he hc hw leaseSeconds
    · exact .stay

/-- a granted claim is about a stored execution -/
theorem claimAt_known {S : List Execution} {now : Time} {id : ExecutionId} {worker : String}
    {leaseSeconds : ℕ} (h : Lawful S) {job : AgentExecutionJob}
    (hj : (claimAt now id worker leaseSeconds S).1 = some job) :
    ∃ e ∈ (claimAt now id worker leaseSeconds S).2, e.job.identity = job.identity := by
  unfold claimAt at hj ⊢
  cases hg : get? S id with
  | none =>
    rw [hg] at hj
    cases hj
  | some e =>
    obtain ⟨he, rfl⟩ := get?_eq_some hg
    rw [hg] at hj
    dsimp only at hj ⊢
    split_ifs at hj ⊢ with hc
    cases hj
    exact ⟨_, (mem_replace h he).2 (.inl rfl), rfl⟩

theorem finish_step {claims : Claims} {S : List Execution} {claimed : AgentExecutionJob}
    {worker : String} {f : FinishRequest} (hgranted : (claimed, worker) ∈ claims)
    (hf : f.Issued claimed worker) (now : Time) : Step claims S (finish now f S).2 := by
  unfold finish
  cases hg : get? S f.attempt.executionId with
  | none => exact .stay
  | some e =>
    obtain ⟨he, hid⟩ := get?_eq_some hg
    dsimp only
    split_ifs with ha
    · have hstep := Step.finish he hgranted hf hid.symm ha now
      rwa [hid] at hstep
    · exact .stay

end Executions

end CapitalCipher
