/-
What makes a repository an agent-execution repository: a view of its state as a list of executions
under which each operation is the abstract one.

  • `AgentRuntimeRepository.Refines`: the four operations and the trace, through the view.
  • `Refines.step`: one operation of the runtime system is one step of the viewed executions.
  • `Refines.sound`: so every reachable state is lawful, and its claims are about stored executions.
  • `Refines.grows`: no later state changes a terminal execution.
-/
import CapitalCipher.Agents.Runtime

namespace CapitalCipher

open Lib

/-- both refused, or both answered with the same view of a job -/
def SameAnswer (r r' : Except Error AgentExecutionJob) : Prop :=
  r.toOption.map AgentExecutionJob.view = r'.toOption.map AgentExecutionJob.view

/-- what `submit` hands to `create_agent_execution` -/
structure Submitted (job : AgentExecutionJob) (input : AgentMemoryEntry) : Prop where
  lawful : (Execution.mk job [] [input]).Lawful
  pending : job.status = .pending
  entryType : input.entryType = .input
  fresh : job.output = none ∧ job.lastErrorCode = none

theorem AgentRuntime.submit_submitted {registry : AgentRegistry} {request : AgentExecutionRequest}
    {now memoryAt : Time} {job : AgentExecutionJob} {input : AgentMemoryEntry}
    (h : submit registry request now memoryAt = .ok (job, input)) : Submitted job input := by
  have hl := (submit_ok h).1
  obtain ⟨-, -, h⟩ := Result.bind_ok.1 h
  obtain ⟨agent, -, h⟩ := Result.bind_ok.1 h
  obtain ⟨registration, -, h⟩ := Result.bind_ok.1 h
  obtain ⟨job', hjob, h⟩ := Result.bind_ok.1 h
  cases Result.pure_ok.1 h
  obtain ⟨-, -, rfl⟩ := AgentExecutionJob.check_ok.1 hjob
  exact ⟨hl, rfl, rfl, rfl, rfl⟩

/-- a claim leased the execution of some id, at some reading of the clock, or none -/
def Granted (worker : String) (leaseSeconds : ℕ) (S S' : List Execution)
    (r : Except Error (Option AgentExecutionJob)) : Prop :=
  r = .ok none ∧ S' = S ∨
    ∃ now id, r = .ok (Executions.claimAt now id worker leaseSeconds S).1 ∧
      S' = (Executions.claimAt now id worker leaseSeconds S).2

/-- what the storage of a repository can hold -/
structure Limits where
  job : AgentExecutionJob → Bool
  finish : FinishRequest → Bool

/-- through `view`, every operation of the repository is the abstract one, and an operation on what
its storage cannot hold is refused -/
structure AgentRuntimeRepository.Refines {σ : Type} (R : AgentRuntimeRepository σ)
    (limits : Limits) (view : σ → List Execution) (Kept : σ → Prop) : Prop where
  empty : Kept R.empty ∧ view R.empty = []
  create : ∀ {s job input}, Kept s → Executions.Lawful (view s) → Submitted job input →
    limits.job job = true →
    Kept (R.create job input s).2 ∧
      view (R.create job input s).2 = (Executions.create job input (view s)).2 ∧
      SameAnswer (R.create job input s).1 (Executions.create job input (view s)).1
  refusesJob : ∀ {s job input}, limits.job job = false →
    (R.create job input s).2 = s ∧ (R.create job input s).1.toOption = none
  claim : ∀ {s worker} clock contention id (leaseSeconds : ℕ+), Kept s →
    Executions.Lawful (view s) → validWorkerId worker →
    Kept (R.claim clock contention id worker leaseSeconds s).2 ∧
      Granted worker leaseSeconds (view s)
        (view (R.claim clock contention id worker leaseSeconds s).2)
        (R.claim clock contention id worker leaseSeconds s).1
  claimNext : ∀ {s worker} clock contention (leaseSeconds : ℕ+), Kept s →
    Executions.Lawful (view s) → validWorkerId worker →
    Kept (R.claimNext clock contention worker leaseSeconds s).2 ∧
      Granted worker leaseSeconds (view s)
        (view (R.claimNext clock contention worker leaseSeconds s).2)
        (R.claimNext clock contention worker leaseSeconds s).1
  finish : ∀ {s claimed worker f} now, Kept s → Executions.Lawful (view s) →
    FinishRequest.Issued claimed worker f →
    (∃ e ∈ view s, e.job.identity = claimed.identity) → limits.finish f = true →
    Kept (R.finish now f s).2 ∧
      view (R.finish now f s).2 = (Executions.finish now f (view s)).2 ∧
      SameAnswer (R.finish now f s).1 (Executions.finish now f (view s)).1
  refusesFinish : ∀ {s f} now, limits.finish f = false →
    (R.finish now f s).2 = s ∧ (R.finish now f s).1.toOption = none
  loadTrace : ∀ {s} id, Kept s → Executions.Lawful (view s) →
    match Executions.get? (view s) id with
    | none => R.loadTrace id s = .ok none
    | some e => ∃ job : AgentExecutionJob,
      R.loadTrace id s = .ok (some ⟨job, e.attempts, e.memory⟩) ∧ job.view = e.job.view ∧
        job.check = .ok job

namespace AgentRuntimeRepository.Refines

variable {σ : Type} {R : AgentRuntimeRepository σ} {limits : Limits}
  {view : σ → List Execution} {Kept : σ → Prop}

/-- the viewed executions are lawful and know every granted claim -/
structure Sound (view : σ → List Execution) (Kept : σ → Prop) (s : RuntimeState σ) : Prop where
  kept : Kept s.repository
  lawful : Executions.Lawful (view s.repository)
  known : Executions.Known s.claims (view s.repository)

@[simp] theorem reject_repository (s : RuntimeState σ) : s.reject.repository = s.repository := rfl

@[simp] theorem reject_claims (s : RuntimeState σ) : s.reject.claims = s.claims := rfl

@[simp] theorem answer_repository (s : RuntimeState σ) (r : Except Error AgentExecutionJob × σ) :
    (s.answer r).repository = r.2 := by
  obtain ⟨r, s'⟩ := r
  cases r <;> rfl

@[simp] theorem answer_claims (s : RuntimeState σ) (r : Except Error AgentExecutionJob × σ) :
    (s.answer r).claims = s.claims := by
  obtain ⟨r, s'⟩ := r
  cases r <;> rfl

@[simp] theorem grant_repository (s : RuntimeState σ) (worker : WorkerId)
    (r : Except Error (Option AgentExecutionJob) × σ) : (s.grant worker r).repository = r.2 := by
  obtain ⟨r, s'⟩ := r
  rcases r with e | _ | j <;> rfl

/-- the claims after a claim: one more when it was granted -/
theorem grant_claims (s : RuntimeState σ) (worker : WorkerId)
    (r : Except Error (Option AgentExecutionJob) × σ) :
    (s.grant worker r).claims = s.claims ∨
      ∃ job, r.1 = .ok (some job) ∧ (s.grant worker r).claims = s.claims ++ [(job, worker.1)] := by
  obtain ⟨r, s'⟩ := r
  rcases r with e | _ | j
  · exact .inl rfl
  · exact .inl rfl
  · exact .inr ⟨j, rfl, rfl⟩

/-- a claim is one step, and a granted one is about a stored execution -/
theorem grant_sound {s : RuntimeState σ} (hs : Sound view Kept s) {worker : WorkerId}
    {leaseSeconds : ℕ} {r : Except Error (Option AgentExecutionJob) × σ} (hkept : Kept r.2)
    (hr : Granted worker.1 leaseSeconds (view s.repository) (view r.2) r.1) :
    Executions.Step s.claims (view s.repository) (view (s.grant worker r).repository) ∧
      Sound view Kept (s.grant worker r) := by
  have hstep : Executions.Step s.claims (view s.repository) (view r.2) := by
    rcases hr with ⟨-, hv⟩ | ⟨now, id, -, hv⟩
    · rw [hv]
      exact .stay
    · rw [hv]
      exact Executions.claimAt_step worker.2 leaseSeconds
  have hlawful := hstep.lawful hs.lawful hs.known
  have hknown := hstep.known hs.lawful hs.known
  rw [grant_repository]
  refine ⟨hstep, by rwa [grant_repository], by rwa [grant_repository], ?_⟩
  rw [grant_repository]
  rcases grant_claims s worker r with h | ⟨job, hjob, h⟩
  · rwa [h]
  · rw [h]
    refine ⟨fun c hc => ?_, fun c hc => ?_⟩
    · rcases List.mem_append.1 hc with hc | hc
      · exact hknown.stored c hc
      · rw [List.mem_singleton.1 hc]
        rcases hr with ⟨hn, -⟩ | ⟨now, id, ho, hv⟩
        · rw [hjob] at hn
          cases hn
        · rw [hjob] at ho
          rw [hv]
          exact Executions.claimAt_known hs.lawful (Except.ok.inj ho).symm
    · rcases List.mem_append.1 hc with hc | hc
      · exact hknown.worker c hc
      · rw [List.mem_singleton.1 hc]
        exact worker.2

theorem answer_sound {s : RuntimeState σ} (hs : Sound view Kept s)
    {r : Except Error AgentExecutionJob × σ} (hkept : Kept r.2)
    (hstep : Executions.Step s.claims (view s.repository) (view r.2)) :
    Executions.Step s.claims (view s.repository) (view (s.answer r).repository) ∧
      Sound view Kept (s.answer r) := by
  rw [answer_repository]
  refine ⟨hstep, by rwa [answer_repository], ?_, ?_⟩
  · rw [answer_repository]
    exact hstep.lawful hs.lawful hs.known
  · rw [answer_repository, answer_claims]
    exact hstep.known hs.lawful hs.known

/-- one operation of the runtime system is one step of the viewed executions -/
theorem step (hR : R.Refines limits view Kept) (runtime : AgentRuntime) {s : RuntimeState σ}
    (hs : Sound view Kept s) (op : AgentOp) :
    Executions.Step s.claims (view s.repository) (view (R.step runtime s op).repository) ∧
      Sound view Kept (R.step runtime s op) := by
  have hstay : Executions.Step s.claims (view s.repository) (view s.reject.repository) ∧
      Sound view Kept s.reject := ⟨.stay, hs.kept, hs.lawful, hs.known⟩
  cases op with
  | submit registry request now memoryAt =>
    simp only [AgentRuntimeRepository.step]
    split
    · exact hstay
    · rename_i job input hsub
      have hsubmitted := AgentRuntime.submit_submitted hsub
      cases hfits : limits.job job with
      | false =>
        have hsame : (R.create job input s.repository).2 = s.repository :=
          (hR.refusesJob hfits).1
        refine answer_sound hs (by rw [hsame]; exact hs.kept) ?_
        rw [hsame]
        exact .stay
      | true =>
        obtain ⟨hkept, hv, -⟩ := hR.create hs.kept hs.lawful hsubmitted hfits
        refine answer_sound hs hkept ?_
        rw [hv]
        exact Executions.create_step hsubmitted.lawful
  | claim clock contention id worker leaseSeconds =>
    obtain ⟨hkept, h⟩ := hR.claim clock contention id leaseSeconds hs.kept hs.lawful worker.2
    exact grant_sound hs hkept h
  | claimNext clock contention worker leaseSeconds =>
    obtain ⟨hkept, h⟩ := hR.claimNext clock contention leaseSeconds hs.kept hs.lawful worker.2
    exact grant_sound hs hkept h
  | execute i registry analysis latencyMs createdAt clock =>
    simp only [AgentRuntimeRepository.step]
    split
    · exact ⟨.stay, hs⟩
    · rename_i job worker hclaim
      have hgranted : (job, worker) ∈ s.claims := List.mem_of_getElem? hclaim
      split
      · exact hstay
      · rename_i output retryable hexec
        obtain ⟨hname, hretry⟩ := AgentRuntime.executeClaimed_ok hexec
        split
        · exact hstay
        · rename_i f hf
          have hissued := AgentRuntime.recordAndFinish_issued hf hname hretry
          cases hholds : limits.finish f with
          | false =>
            have hsame : (R.finish clock.finishedAt f s.repository).2 = s.repository :=
              (hR.refusesFinish clock.finishedAt hholds).1
            refine answer_sound hs (by rw [hsame]; exact hs.kept) ?_
            rw [hsame]
            exact .stay
          | true =>
            obtain ⟨hkept, hv, -⟩ := hR.finish clock.finishedAt hs.kept hs.lawful hissued
              (hs.known.stored _ hgranted) hholds
            refine answer_sound hs hkept ?_
            rw [hv]
            exact Executions.finish_step hgranted hissued clock.finishedAt

theorem sound_init (hR : R.Refines limits view Kept) : Sound view Kept R.init where
  kept := hR.empty.1
  lawful := by
    have hv : view R.init.repository = [] := hR.empty.2
    rw [hv]
    exact ⟨by simp, by simp⟩
  known := ⟨by simp [init], by simp [init]⟩

/-- every reachable state is sound -/
theorem sound (hR : R.Refines limits view Kept) (runtime : AgentRuntime) (ops : List AgentOp) :
    Sound view Kept (R.after runtime ops) :=
  run_inv (P := Sound view Kept) (fun _ op hs => (hR.step runtime hs op).2) hR.sound_init ops

/-- what an earlier state had is still there later, the terminal executions unchanged -/
theorem grows (hR : R.Refines limits view Kept) (runtime : AgentRuntime) (pre post : List AgentOp) :
    Executions.Grows (view (R.after runtime pre).repository)
      (view (R.after runtime (pre ++ post)).repository) := by
  rw [after, after, run_append]
  have hstart : Sound view Kept (run (R.step runtime) R.init pre) := hR.sound runtime pre
  generalize run (R.step runtime) R.init pre = s at hstart
  induction post generalizing s with
  | nil => exact refl_of Executions.Grows _
  | cons op post ih =>
    obtain ⟨hstep, hs⟩ := hR.step runtime hstart op
    exact trans_of Executions.Grows (hstep.grows hstart.lawful) (ih _ hs)

end AgentRuntimeRepository.Refines

end CapitalCipher
