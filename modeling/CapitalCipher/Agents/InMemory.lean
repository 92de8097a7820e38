/-
`InMemoryAgentRuntimeRepository` of `agents/runtime.py`: four dictionaries behind one lock.

The jobs are kept in insertion order, which is the order a stable sort breaks ties in.

  • `InMemory.refines`: it is an agent-execution repository.
  • `InMemory.claimNext_eq`: with one clock reading, it takes the earliest of the tied executions.
-/
import CapitalCipher.Agents.Refinement

namespace CapitalCipher

open Lib

structure InMemoryAgentRuntimeRepository where
  /-- `_jobs`, in insertion order -/
  jobs : List AgentExecutionJob
  idempotency : Dict (String × String × String) ExecutionId
  attempts : Dict ExecutionId (List AgentExecutionAttempt)
  memory : Dict ExecutionId (List AgentMemoryEntry)

namespace InMemory

def keyError : Error := ⟨.transport, "KeyError"⟩

/-- `self._jobs.get(execution_id)` -/
def job? (jobs : List AgentExecutionJob) (id : ExecutionId) : Option AgentExecutionJob :=
  jobs.find? fun j => j.executionId = id

/-- `self._jobs[job.execution_id] = job`: in place, or at the end -/
def setJob (job : AgentExecutionJob) (jobs : List AgentExecutionJob) : List AgentExecutionJob :=
  if (job? jobs job.executionId).isSome then
    jobs.map fun j => if j.executionId = job.executionId then job else j
  else jobs ++ [job]

def createAgentExecution (job : AgentExecutionJob) (inputMemory : AgentMemoryEntry)
    (s : InMemoryAgentRuntimeRepository) :
    Except Error AgentExecutionJob × InMemoryAgentRuntimeRepository :=
  match s.idempotency.lookup job.key with
  | some existingId =>
    match job? s.jobs existingId with
    | none => (.error keyError, s)
    | some existing =>
      if existing.requestFingerprint ≠ job.requestFingerprint then
        (.error ⟨.validation, "Agent execution idempotency key conflicts with different input"⟩, s)
      else (.ok existing, s)
  | none =>
    (.ok job,
      { jobs := setJob job s.jobs
        idempotency := AList.insert job.key job.executionId s.idempotency
        attempts := AList.insert job.executionId [] s.attempts
        memory := AList.insert job.executionId [inputMemory] s.memory })

/-- `_claim` -/
def claim (now : Time) (executionId : ExecutionId) (workerId : String) (leaseSeconds : ℕ)
    (s : InMemoryAgentRuntimeRepository) :
    Option AgentExecutionJob × InMemoryAgentRuntimeRepository :=
  match job? s.jobs executionId with
  | none => (none, s)
  | some job =>
    let ready := (job.status == .pending || job.status == .retry) && decide (job.availableAt ≤ now)
    let expired := job.status == .leased && job.leaseExpiresAt.any fun t => decide (t ≤ now)
    if !(ready || expired) then (none, s)
    else if ready && decide (job.maxAttempts ≤ job.attemptCount) then (none, s)
    else
      let nextAttempt := if expired then job.attemptCount else job.attemptCount + 1
      let claimed := { job with
        status := .leased
        attemptCount := nextAttempt
        leasedBy := some workerId
        leaseExpiresAt := some (now + leaseSeconds * 1000000)
        updatedAt := now }
      (some claimed, { s with jobs := setJob claimed s.jobs })

/-- the loop of `claim_next_agent_execution`, with a reading of the clock for each job it tries -/
def claimFirst (clock : ℕ → Time) (workerId : String) (leaseSeconds : ℕ) :
    ℕ → List AgentExecutionJob → InMemoryAgentRuntimeRepository →
      Option AgentExecutionJob × InMemoryAgentRuntimeRepository
  | _, [], s => (none, s)
  | i, job :: jobs, s =>
    match claim (clock i) job.executionId workerId leaseSeconds s with
    | (some claimed, s') => (some claimed, s')
    | (none, s') => claimFirst clock workerId leaseSeconds (i + 1) jobs s'

def claimNextAgentExecution (clock : ℕ → Time) (workerId : String) (leaseSeconds : ℕ)
    (s : InMemoryAgentRuntimeRepository) :
    Option AgentExecutionJob × InMemoryAgentRuntimeRepository :=
  let ordered := s.jobs.insertionSort fun a b => a.queueKey ≤ b.queueKey
  claimFirst clock workerId leaseSeconds 0 ordered s

/-- the `model_copy` of `finish_agent_execution` -/
def updatedJob (now : Time) (f : FinishRequest) (job : AgentExecutionJob) : AgentExecutionJob :=
  let successful := f.output.successful
  let willRetry := !successful && f.retryable && decide (job.attemptCount < job.maxAttempts)
  let status : AgentExecutionStatus :=
    if successful then .completed else if willRetry then .retry else .deadLetter
  let errorCode :=
    if successful then none
    else if f.output.status = .timeout then some "AGENT_TIMEOUT" else some "AGENT_FAILED"
  { job with
    status := status
    availableAt := if willRetry then afterSeconds now f.retryDelay else now
    leasedBy := none
    leaseExpiresAt := none
    lastErrorCode := errorCode
    output := some f.output
    updatedAt := now
    completedAt := if status = .completed ∨ status = .deadLetter then some now else none }

def finishAgentExecution (now : Time) (f : FinishRequest) (s : InMemoryAgentRuntimeRepository) :
    Except Error AgentExecutionJob × InMemoryAgentRuntimeRepository :=
  let executionId := f.attempt.executionId
  match job? s.jobs executionId with
  | none => (.error keyError, s)
  | some job =>
    if job.status ≠ .leased ∨ job.leasedBy ≠ some f.workerId then
      (.error ⟨.validation, "Agent execution lease ownership lost"⟩, s)
    else match s.attempts.lookup executionId, s.memory.lookup executionId with
    | some attempts, some memory =>
      if f.attempt.attemptNumber ≠ attempts.length + 1 then
        (.error ⟨.validation, "Agent attempts must be append-only"⟩, s)
      else if f.attemptMemory.sequence ≠ f.attempt.attemptNumber * 2 then
        (.error ⟨.validation, "Agent attempt memory sequence is invalid"⟩, s)
      else
        let updated := updatedJob now f job
        (.ok updated,
          { s with
            jobs := setJob updated s.jobs
            attempts := AList.insert executionId (attempts ++ [f.attempt]) s.attempts
            memory := AList.insert executionId
              (memory ++ [f.attemptMemory] ++ f.terminalMemory.toList) s.memory })
    | _, _ => (.error keyError, s)

/-- `load_agent_execution_trace`; the stored job is not validated again -/
def loadAgentExecutionTrace (executionId : ExecutionId) (s : InMemoryAgentRuntimeRepository) :
    Except Error (Option AgentExecutionTrace) :=
  match job? s.jobs executionId with
  | none => .ok none
  | some job =>
    match s.attempts.lookup executionId, s.memory.lookup executionId with
    | some attempts, some memory =>
      (AgentExecutionTrace.check ⟨job, attempts, memory⟩).map some
    | _, _ => .error keyError

/-- the repository with four empty dictionaries -/
def repository : AgentRuntimeRepository InMemoryAgentRuntimeRepository where
  empty := ⟨[], ∅, ∅, ∅⟩
  create := createAgentExecution
  claim clock _ id worker leaseSeconds s :=
    let (claimed, s') := claim (clock 0) id worker leaseSeconds s
    (.ok claimed, s')
  claimNext clock _ worker leaseSeconds s :=
    let (claimed, s') := claimNextAgentExecution clock worker leaseSeconds s
    (.ok claimed, s')
  finish := finishAgentExecution
  loadTrace := loadAgentExecutionTrace

/-! ## The executions of the four dictionaries -/

/-- a job with its evidence -/
def execution (s : InMemoryAgentRuntimeRepository) (j : AgentExecutionJob) : Execution :=
  ⟨j, (s.attempts.lookup j.executionId).getD [], (s.memory.lookup j.executionId).getD []⟩

def view (s : InMemoryAgentRuntimeRepository) : List Execution := s.jobs.map (execution s)

/-- the four dictionaries know the same executions -/
structure Kept (s : InMemoryAgentRuntimeRepository) : Prop where
  evidence : ∀ j ∈ s.jobs,
    (s.attempts.lookup j.executionId).isSome ∧ (s.memory.lookup j.executionId).isSome
  idempotency : ∀ k id, s.idempotency.lookup k = some id ↔
    ∃ j ∈ s.jobs, j.key = k ∧ j.executionId = id

variable {s : InMemoryAgentRuntimeRepository}

theorem job?_eq_some {jobs : List AgentExecutionJob} {id : ExecutionId} {j : AgentExecutionJob}
    (h : job? jobs id = some j) : j ∈ jobs ∧ j.executionId = id :=
  ⟨List.mem_of_find?_eq_some h, by simpa using List.find?_some h⟩

theorem get?_view (s : InMemoryAgentRuntimeRepository) (id : ExecutionId) :
    Executions.get? (view s) id = (job? s.jobs id).map (execution s) := by
  rw [Executions.get?, view, List.find?_map]
  rfl

theorem job_unique (h : Executions.Lawful (view s)) {j j' : AgentExecutionJob} (hj : j ∈ s.jobs)
    (hj' : j' ∈ s.jobs) (hid : j.executionId = j'.executionId) : j = j' := by
  have he : execution s j = execution s j' :=
    h.eq_of_executionId (List.mem_map_of_mem hj) (List.mem_map_of_mem hj') hid
  exact congrArg Execution.job he

/-- storing a new version of a job replaces it in the view -/
theorem setJob_eq {jobs : List AgentExecutionJob} {id : ExecutionId} {j job : AgentExecutionJob}
    (h : job? jobs id = some j) (hid : job.executionId = id) :
    setJob job jobs = jobs.map fun x => if x.executionId = id then job else x := by
  unfold setJob
  rw [hid, h]
  rfl

/-- a new version of a job is known under the same key and id -/
theorem known_replaced (h : Executions.Lawful (view s)) {job new : AgentExecutionJob}
    (hmem : job ∈ s.jobs) (hnew : new.identity = job.identity) (k : String × String × String)
    (i : ExecutionId) :
    (∃ j ∈ s.jobs, j.key = k ∧ j.executionId = i) ↔
      ∃ j ∈ s.jobs.map (fun x => if x.executionId = job.executionId then new else x),
        j.key = k ∧ j.executionId = i := by
  have hkey : new.key = job.key := AgentExecutionJob.key_of_identity hnew
  have hid : new.executionId = job.executionId := AgentExecutionJob.executionId_of_identity hnew
  constructor
  · rintro ⟨y, hy, hyk, hyi⟩
    refine ⟨_, List.mem_map.2 ⟨y, hy, rfl⟩, ?_⟩
    by_cases hyid : y.executionId = job.executionId
    · rw [job_unique h hy hmem hyid] at hyk hyi
      rw [if_pos hyid, hkey, hid]
      exact ⟨hyk, hyi⟩
    · rw [if_neg hyid]
      exact ⟨hyk, hyi⟩
  · rintro ⟨x, hx, hxk, hxi⟩
    obtain ⟨y, hy, rfl⟩ := List.mem_map.1 hx
    by_cases hyid : y.executionId = job.executionId
    · rw [if_pos hyid, hkey] at hxk
      rw [if_pos hyid, hid] at hxi
      exact ⟨job, hmem, hxk, hxi⟩
    · rw [if_neg hyid] at hxk hxi
      exact ⟨y, hy, hxk, hxi⟩

/-- `_claim` leases exactly the claimable jobs -/
theorem claim_eq (now : Time) (id : ExecutionId) (worker : String) (leaseSeconds : ℕ) :
    claim now id worker leaseSeconds s =
      match job? s.jobs id with
      | none => (none, s)
      | some job =>
        if job.claimable now then
          (some (job.leasedTo now worker leaseSeconds),
            { s with jobs := setJob (job.leasedTo now worker leaseSeconds) s.jobs })
        else (none, s) := by
  unfold claim
  cases job? s.jobs id with
  | none => rfl
  | some job =>
    dsimp only
    cases hs : job.status with
    | pending | retry =>
      by_cases ha : job.availableAt ≤ now
      · by_cases hm : job.attemptCount < job.maxAttempts
        · simp [AgentExecutionJob.claimable, AgentExecutionJob.ready, AgentExecutionJob.leasedTo,
            hs, ha, hm, Nat.not_le.2 hm]
        · simp [AgentExecutionJob.claimable, AgentExecutionJob.ready, AgentExecutionJob.expired,
            hs, ha, hm, Nat.not_lt.1 hm]
      · simp [AgentExecutionJob.claimable, AgentExecutionJob.ready, AgentExecutionJob.expired,
          hs, ha]
    | leased =>
      by_cases he : (job.leaseExpiresAt.any fun t => decide (t ≤ now)) = true
      · simp [AgentExecutionJob.claimable, AgentExecutionJob.ready, AgentExecutionJob.expired,
          AgentExecutionJob.leasedTo, hs, he]
      · simp [AgentExecutionJob.claimable, AgentExecutionJob.ready, AgentExecutionJob.expired,
          hs, he]
    | completed | deadLetter =>
      simp [AgentExecutionJob.claimable, AgentExecutionJob.ready, AgentExecutionJob.expired, hs]

theorem claim_refines (now : Time) (id : ExecutionId) (worker : String) (leaseSeconds : ℕ)
    (hk : Kept s) (h : Executions.Lawful (view s)) :
    Kept (claim now id worker leaseSeconds s).2 ∧
      (claim now id worker leaseSeconds s).1 =
        (Executions.claimAt now id worker leaseSeconds (view s)).1 ∧
      view (claim now id worker leaseSeconds s).2 =
        (Executions.claimAt now id worker leaseSeconds (view s)).2 := by
  rw [claim_eq, Executions.claimAt, get?_view]
  cases hj : job? s.jobs id with
  | none => exact ⟨hk, rfl, rfl⟩
  | some job =>
    obtain ⟨hmem, hid⟩ := job?_eq_some hj
    dsimp only [Option.map_some]
    have hjob : (execution s job).job = job := rfl
    rw [hjob]
    by_cases hc : job.claimable now = true
    · have hset : setJob (job.leasedTo now worker leaseSeconds) s.jobs = _ := setJob_eq hj hid
      rw [if_pos hc, if_pos hc, hset]
      refine ⟨⟨?_, ?_⟩, rfl, ?_⟩
      · intro x hx
        obtain ⟨y, hy, rfl⟩ := List.mem_map.1 hx
        by_cases hyid : y.executionId = id
        · rw [if_pos hyid]
          exact hk.evidence job hmem
        · rw [if_neg hyid]
          exact hk.evidence y hy
      · intro k i
        rw [hk.idempotency, known_replaced h hmem (job.identity_leasedTo now worker leaseSeconds), hid]
      · refine Executions.map_eq_replace (fun _ _ => rfl) (fun y hy hyid => ?_) fun _ _ _ => rfl
        rw [job_unique h hy hmem (hyid.trans hid.symm)]
        rfl
    · rw [if_neg hc, if_neg hc]
      exact ⟨hk, rfl, rfl⟩

/-- the loop claims one of the listed jobs, at one of its readings, or none -/
theorem claimFirst_refines {clock : ℕ → Time} {worker : String} {leaseSeconds : ℕ}
    (hk : Kept s) (h : Executions.Lawful (view s)) (jobs : List AgentExecutionJob) (i : ℕ) :
    Kept (claimFirst clock worker leaseSeconds i jobs s).2 ∧
      ((claimFirst clock worker leaseSeconds i jobs s).1 = none ∧
          (claimFirst clock worker leaseSeconds i jobs s).2 = s ∨
        ∃ now id, (claimFirst clock worker leaseSeconds i jobs s).1 =
            (Executions.claimAt now id worker leaseSeconds (view s)).1 ∧
          view (claimFirst clock worker leaseSeconds i jobs s).2 =
            (Executions.claimAt now id worker leaseSeconds (view s)).2) := by
  induction jobs generalizing i with
  | nil => exact ⟨hk, .inl ⟨rfl, rfl⟩⟩
  | cons job jobs ih =>
    obtain ⟨hk', ho, hv⟩ := claim_refines (clock i) job.executionId worker leaseSeconds hk h
    rw [claimFirst]
    rcases hc : claim (clock i) job.executionId worker leaseSeconds s with ⟨claimed, s'⟩
    rw [hc] at hk' ho hv
    cases claimed with
    | some claimed => exact ⟨hk', .inr ⟨clock i, job.executionId, ho, hv⟩⟩
    | none =>
      -- a refused claim changes nothing
      have hs' : s' = s := by
        rw [claim_eq] at hc
        split at hc
        · cases hc
          rfl
        · split_ifs at hc
          · cases hc
          · exact (Prod.mk.inj hc).2.symm
      rw [hs']
      exact ih (i + 1)

/-- with one reading of the clock the loop takes the first claimable job of its list -/
theorem claimFirst_find? {now : Time} {worker : String} {leaseSeconds : ℕ}
    (h : Executions.Lawful (view s)) {jobs : List AgentExecutionJob}
    (hjobs : ∀ j ∈ jobs, j ∈ s.jobs) (i : ℕ) :
    claimFirst (fun _ => now) worker leaseSeconds i jobs s =
      match jobs.find? (AgentExecutionJob.claimable now) with
      | none => (none, s)
      | some job => claim now job.executionId worker leaseSeconds s := by
  induction jobs generalizing i with
  | nil => rfl
  | cons job jobs ih =>
    have hmem : job ∈ s.jobs := hjobs job (by simp)
    have hfind : job? s.jobs job.executionId = some job := by
      cases hf : job? s.jobs job.executionId with
      | none =>
        have := List.find?_eq_none.1 hf job hmem
        simp at this
      | some x =>
        obtain ⟨hx, hid⟩ := job?_eq_some hf
        rw [job_unique h hx hmem hid]
    have hc := claim_eq (s := s) now job.executionId worker leaseSeconds
    rw [hfind] at hc
    dsimp only at hc
    rw [claimFirst]
    by_cases hcl : job.claimable now = true
    · rw [List.find?_cons_of_pos hcl]
      dsimp only
      rw [hc, if_pos hcl]
    · rw [List.find?_cons_of_neg hcl, hc, if_neg hcl]
      exact ih (fun j hj => hjobs j (List.mem_cons_of_mem job hj)) (i + 1)

/-- with one reading of the clock, the earliest of the tied executions is taken -/
theorem claimNext_eq (now : Time) (worker : String) (leaseSeconds : ℕ) (hk : Kept s)
    (h : Executions.Lawful (view s)) :
    (claimNextAgentExecution (fun _ => now) worker leaseSeconds s).1 =
        (Executions.claimNext now 0 worker leaseSeconds (view s)).1 ∧
      view (claimNextAgentExecution (fun _ => now) worker leaseSeconds s).2 =
        (Executions.claimNext now 0 worker leaseSeconds (view s)).2 := by
  have hsorted : ∀ j ∈ s.jobs.insertionSort fun a b => a.queueKey ≤ b.queueKey, j ∈ s.jobs :=
    fun j hj => (List.mem_insertionSort _).1 hj
  rw [claimNextAgentExecution, claimFirst_find? h hsorted, find?_insertionSort]
  have hfirst : (Executions.first now (view s))[0]? =
      (least? (AgentExecutionJob.claimable now) AgentExecutionJob.queueKey s.jobs).map
        (execution s) := by
    rw [← List.head?_eq_getElem?, Executions.first, tied_head?, view, least?_map]
    rfl
  rw [Executions.claimNext, Nat.zero_mod, hfirst]
  cases least? (AgentExecutionJob.claimable now) AgentExecutionJob.queueKey s.jobs with
  | none => exact ⟨rfl, rfl⟩
  | some job => exact (claim_refines _ _ _ _ hk h).2

theorem create_refines {job : AgentExecutionJob} {input : AgentMemoryEntry} (hk : Kept s)
    (h : Executions.Lawful (view s)) (hnew : Submitted job input) :
    Kept (createAgentExecution job input s).2 ∧
      view (createAgentExecution job input s).2 = (Executions.create job input (view s)).2 ∧
      (createAgentExecution job input s).1 = (Executions.create job input (view s)).1 := by
  unfold createAgentExecution Executions.create
  cases hl : s.idempotency.lookup job.key with
  | some id =>
    obtain ⟨j, hj, hjk, hjid⟩ := (hk.idempotency _ _).1 hl
    have hfind : job? s.jobs id = some j := by
      cases hf : job? s.jobs id with
      | none =>
        have := List.find?_eq_none.1 hf j hj
        simp [hjid] at this
      | some x =>
        obtain ⟨hx, hxid⟩ := job?_eq_some hf
        rw [job_unique h hx hj (hxid.trans hjid.symm)]
    have hview : (view s).find? (fun e => e.job.key = job.key) = some (execution s j) := by
      cases hf : (view s).find? (fun e => e.job.key = job.key) with
      | none =>
        have := List.find?_eq_none.1 hf (execution s j) (List.mem_map_of_mem hj)
        simp [execution, hjk] at this
      | some e =>
        have hek : e.job.key = job.key := by simpa using List.find?_some hf
        have he : e = execution s j :=
          List.inj_on_of_nodup_map h.distinct (List.mem_of_find?_eq_some hf)
            (List.mem_map_of_mem hj) (hek.trans hjk.symm)
        rw [he]
    rw [hview]
    dsimp only
    rw [hfind]
    dsimp only
    by_cases hfp : j.requestFingerprint ≠ job.requestFingerprint
    · have hfp' : (execution s j).job.requestFingerprint ≠ job.requestFingerprint := hfp
      rw [if_pos hfp, if_pos hfp']
      exact ⟨hk, rfl, rfl⟩
    · have hfp' : ¬ (execution s j).job.requestFingerprint ≠ job.requestFingerprint := hfp
      rw [if_neg hfp, if_neg hfp']
      exact ⟨hk, rfl, rfl⟩
  | none =>
    have hnokey : ∀ j ∈ s.jobs, j.key ≠ job.key := by
      intro j hj hjk
      have := (hk.idempotency job.key j.executionId).2 ⟨j, hj, hjk, rfl⟩
      rw [hl] at this
      cases this
    have hview : (view s).find? (fun e => e.job.key = job.key) = none := by
      rw [List.find?_eq_none]
      intro e he
      obtain ⟨j, hj, rfl⟩ := List.mem_map.1 he
      have hne : (execution s j).job.key ≠ job.key := hnokey j hj
      simpa using hne
    -- an id in use would mean that the key is in use
    have hnoid : ∀ j ∈ s.jobs, j.executionId ≠ job.executionId := by
      intro j hj hid
      exact hnokey j hj (Executions.key_of_executionId
        (h.each _ (List.mem_map_of_mem hj)).wellformed hnew.lawful.wellformed hid)
    have hset : setJob job s.jobs = s.jobs ++ [job] := by
      have hnone : job? s.jobs job.executionId = none :=
        List.find?_eq_none.2 fun j hj => by simpa using hnoid j hj
      rw [setJob, hnone]
      rfl
    rw [hview, hset]
    refine ⟨⟨?_, ?_⟩, ?_, rfl⟩
    · intro j hj
      simp only [Dict.lookup_insert_eq]
      rcases List.mem_append.1 hj with hj | hj
      · rw [if_neg (hnoid j hj), if_neg (hnoid j hj)]
        exact hk.evidence j hj
      · rw [List.mem_singleton.1 hj]
        simp
    · intro k id
      simp only [Dict.lookup_insert_eq, List.mem_append, List.mem_singleton]
      split_ifs with hkey
      · constructor
        · intro he
          cases he
          exact ⟨job, .inr rfl, hkey.symm, rfl⟩
        · rintro ⟨j, hj | rfl, hjk, hjid⟩
          · exact absurd (hjk.trans hkey) (hnokey j hj)
          · rw [hjid]
      · rw [hk.idempotency]
        constructor
        · rintro ⟨j, hj, hjk, hjid⟩
          exact ⟨j, .inl hj, hjk, hjid⟩
        · rintro ⟨j, hj | rfl, hjk, hjid⟩
          · exact ⟨j, hj, hjk, hjid⟩
          · exact absurd hjk.symm hkey
    · simp only [view, List.map_append, List.map_cons, List.map_nil]
      congr 1
      · refine List.map_congr_left fun j hj => ?_
        simp only [execution, Dict.lookup_insert_eq, if_neg (hnoid j hj)]
      · simp [execution]

theorem updatedJob_eq (now : Time) (f : FinishRequest) (job : AgentExecutionJob) :
    updatedJob now f job = job.finished now f := by
  unfold updatedJob
  cases hs : f.output.successful with
  | true =>
    simp [AgentExecutionJob.finished, AgentExecutionJob.outcome, AgentExecutionJob.errorCode, hs,
      AgentExecutionStatus.terminal]
  | false =>
    by_cases hr : (f.retryable && decide (job.attemptCount < job.maxAttempts)) = true
    · simp [AgentExecutionJob.finished, AgentExecutionJob.outcome, AgentExecutionJob.errorCode, hs,
        hr, AgentExecutionStatus.terminal]
    · simp [AgentExecutionJob.finished, AgentExecutionJob.outcome, AgentExecutionJob.errorCode, hs,
        hr, AgentExecutionStatus.terminal]

theorem finish_refines {f : FinishRequest}
    (now : Time) (hk : Kept s) (h : Executions.Lawful (view s)) :
    Kept (finishAgentExecution now f s).2 ∧
      view (finishAgentExecution now f s).2 = (Executions.finish now f (view s)).2 ∧
      SameAnswer (finishAgentExecution now f s).1 (Executions.finish now f (view s)).1 := by
  unfold finishAgentExecution Executions.finish
  rw [get?_view]
  dsimp only
  cases hj : job? s.jobs f.attempt.executionId with
  | none => exact ⟨hk, rfl, rfl⟩
  | some job =>
    obtain ⟨hmem, hid⟩ := job?_eq_some hj
    obtain ⟨hat, hme⟩ := hk.evidence job hmem
    rw [hid] at hat hme
    obtain ⟨attempts, hattempts⟩ := Option.isSome_iff_exists.1 hat
    obtain ⟨memory, hmemory⟩ := Option.isSome_iff_exists.1 hme
    have hexec : execution s job = ⟨job, attempts, memory⟩ := by
      rw [execution, hid, hattempts, hmemory]
      rfl
    dsimp only [Option.map_some]
    rw [hattempts, hmemory, hexec]
    dsimp only
    by_cases hlease : job.status ≠ .leased ∨ job.leasedBy ≠ some f.workerId
    · have hno : ¬ Execution.accepts f ⟨job, attempts, memory⟩ = true := by
        rw [Execution.accepts_iff]
        rintro ⟨h1, h2, -⟩
        exact hlease.elim (fun h => h h1) fun h => h h2
      rw [if_pos hlease, if_neg hno]
      exact ⟨hk, rfl, rfl⟩
    · rw [if_neg hlease]
      rw [not_or, not_not, not_not] at hlease
      by_cases hn : f.attempt.attemptNumber ≠ attempts.length + 1
      · have hno : ¬ Execution.accepts f ⟨job, attempts, memory⟩ = true := by
          rw [Execution.accepts_iff]
          rintro ⟨-, -, h3, -⟩
          exact hn h3
        rw [if_pos hn, if_neg hno]
        exact ⟨hk, rfl, rfl⟩
      · rw [if_neg hn]
        by_cases hm : f.attemptMemory.sequence ≠ f.attempt.attemptNumber * 2
        · have hno : ¬ Execution.accepts f ⟨job, attempts, memory⟩ = true := by
            rw [Execution.accepts_iff]
            rintro ⟨-, -, -, h4⟩
            exact hm h4
          rw [if_pos hm, if_neg hno]
          exact ⟨hk, rfl, rfl⟩
        · have hyes : Execution.accepts f ⟨job, attempts, memory⟩ = true :=
            Execution.accepts_iff.2 ⟨hlease.1, hlease.2, not_not.1 hn, not_not.1 hm⟩
          rw [if_neg hm, if_pos hyes]
          dsimp only
          rw [updatedJob_eq]
          have hset : setJob (job.finished now f) s.jobs = _ := setJob_eq hj hid
          rw [hset]
          refine ⟨⟨?_, ?_⟩, ?_, rfl⟩
          · intro x hx
            obtain ⟨y, hy, rfl⟩ := List.mem_map.1 hx
            simp only [Dict.lookup_insert_eq]
            by_cases hyid : y.executionId = f.attempt.executionId
            · have hfid : (job.finished now f).executionId = f.attempt.executionId := hid
              rw [if_pos hyid, if_pos hfid, if_pos hfid]
              simp
            · rw [if_neg hyid, if_neg hyid, if_neg hyid]
              exact hk.evidence y hy
          · intro k i
            rw [hk.idempotency, known_replaced h hmem (job.identity_finished now f), hid]
          · refine Executions.map_eq_replace (fun _ _ => rfl) (fun y hy hyid => ?_)
              fun y hy hyid => ?_
            · have hfid : (job.finished now f).executionId = f.attempt.executionId := hid
              rw [job_unique h hy hmem (hyid.trans hid.symm), hexec]
              simp only [execution, Dict.lookup_insert_eq, if_pos hfid]
              simp [Execution.finish]
            · simp only [execution, Dict.lookup_insert_eq, if_neg hyid]

theorem loadTrace_refines (id : ExecutionId) (hk : Kept s) (h : Executions.Lawful (view s)) :
    match Executions.get? (view s) id with
    | none => loadAgentExecutionTrace id s = .ok none
    | some e => loadAgentExecutionTrace id s = .ok (some ⟨e.job, e.attempts, e.memory⟩) := by
  unfold loadAgentExecutionTrace
  rw [get?_view]
  cases hj : job? s.jobs id with
  | none => rfl
  | some job =>
    obtain ⟨hmem, rfl⟩ := job?_eq_some hj
    obtain ⟨hat, hme⟩ := hk.evidence job hmem
    obtain ⟨attempts, hattempts⟩ := Option.isSome_iff_exists.1 hat
    obtain ⟨memory, hmemory⟩ := Option.isSome_iff_exists.1 hme
    have hexec : execution s job = ⟨job, attempts, memory⟩ := by
      rw [execution, hattempts, hmemory]
      rfl
    have hlawful := h.each _ (List.mem_map_of_mem hmem)
    rw [hexec] at hlawful
    dsimp only [Option.map_some]
    rw [hattempts, hmemory, hexec]
    dsimp only
    rw [hlawful.trace_check rfl rfl]
    rfl

/-- dictionaries hold anything -/
def limits : Limits := ⟨fun _ => true, fun _ => true⟩

/-- **The in-memory repository is an agent-execution repository.** -/
theorem refines : repository.Refines limits view Kept where
  empty := ⟨⟨by simp [repository], by simp [repository]⟩, rfl⟩
  create hk h hnew _ := by
    obtain ⟨h1, h2, h3⟩ := create_refines hk h hnew
    exact ⟨h1, h2, congrArg _ (congrArg _ h3)⟩
  refusesJob h := by cases h
  claim clock contention id leaseSeconds hk h hw := by
    obtain ⟨h1, h2, h3⟩ := claim_refines (clock 0) id _ leaseSeconds hk h
    exact ⟨h1, .inr ⟨clock 0, id, congrArg Except.ok h2, h3⟩⟩
  claimNext clock contention leaseSeconds hk h hw := by
    obtain ⟨h1, h2⟩ := claimFirst_refines hk h _ 0
    refine ⟨h1, ?_⟩
    rcases h2 with ⟨ho, hs⟩ | ⟨now, id, ho, hv⟩
    · exact .inl ⟨congrArg Except.ok ho, congrArg view hs⟩
    · exact .inr ⟨now, id, congrArg Except.ok ho, hv⟩
  finish now hk h hf hstored _ := finish_refines now hk h
  refusesFinish now h := by cases h
  loadTrace id hk h := by
    have hload := loadTrace_refines id hk h
    split
    · rename_i hg
      rw [hg] at hload
      exact hload
    · rename_i e hg
      rw [hg] at hload
      exact ⟨e.job, hload, rfl, (h.each e (Executions.get?_eq_some hg).1).job_check⟩

end InMemory

end CapitalCipher
