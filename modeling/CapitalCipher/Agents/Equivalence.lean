/-
The two agent-execution repositories, run side by side.

Both are the abstract list of executions, so a run of the one can be followed in the other. They
agree while a claim reads the clock once, while every value fits its column, and while a claim by
queue order that finds several executions tied for the first place returns the earliest submitted:
the database orders by `available_at` and `created_at` alone and may return any of them.

  • `Follows`: the two runtime systems view the same executions and gave the same replies.
  • `repositories_agree`: the same replies, and the same observable state of every execution.
  • `TiedSubmissions.tied_claim_differs`: two submissions at one reading of the clock, and either may be claimed.
-/
import CapitalCipher.Agents.Lifecycle

namespace CapitalCipher

open Lib

/-- what a loaded trace shows -/
structure Observation where
  job : JobView
  attempts : List AgentExecutionAttempt
  memory : List AgentMemoryEntry
  deriving DecidableEq

/-- the observable state of an execution; `none` when it cannot be loaded -/
def AgentRuntimeRepository.observe {σ : Type} (R : AgentRuntimeRepository σ) (id : ExecutionId)
    (s : σ) : Option (Option Observation) :=
  (R.loadTrace id s).toOption.map fun trace => trace.map fun t => ⟨t.job.view, t.attempts, t.memory⟩

/-- one reading of the clock, and no row locked by another transaction -/
def Contention.Alone (contention : Contention) (clock : ℕ → Time) : Prop :=
  (∀ i, clock i = clock 0) ∧ ∀ id, contention.locked id = false

/-- the operation meets the two repositories on equal terms -/
def Comparable (columns : ColumnTypes) (runtime : AgentRuntime) (s : RuntimeState AgentDb) :
    AgentOp → Prop
  | .submit registry request now memoryAt =>
    ∀ job input, AgentRuntime.submit registry request now memoryAt = .ok (job, input) →
      columns.limits.job job = true
  | .claim clock contention _ _ _ => contention.Alone clock
  | .claimNext clock contention _ _ => contention.Alone clock ∧
    contention.choice % (Executions.first (clock 0) (AgentDb.view s.repository)).length = 0
  | .execute i registry analysis latencyMs createdAt clock =>
    ∀ job worker output retryable f, s.claims[i]? = some (job, worker) →
      AgentRuntime.executeClaimed registry job analysis latencyMs createdAt =
        .ok (output, retryable) →
      runtime.recordAndFinish job worker output retryable clock = .ok f →
      columns.limits.finish f = true

/-- the two runtime systems view the same executions and gave the same replies -/
structure Follows (s : RuntimeState AgentDb) (m : RuntimeState InMemoryAgentRuntimeRepository) :
    Prop where
  stored : AgentRuntimeRepository.Refines.Sound AgentDb.view AgentDb.Kept s
  kept : AgentRuntimeRepository.Refines.Sound InMemory.view InMemory.Kept m
  executions : AgentDb.view s.repository = InMemory.view m.repository
  claims : s.claims = m.claims
  replies : s.replies = m.replies

namespace RuntimeState

variable {σ τ : Type}

theorem answer_replies (s : RuntimeState σ) (r : Except Error AgentExecutionJob × σ) :
    (s.answer r).replies = s.replies ++
      [match r.1.toOption.map AgentExecutionJob.view with
        | none => .rejected
        | some job => .accepted (some job)] := by
  obtain ⟨r, s'⟩ := r
  cases r <;> rfl

/-- equal answers to a claim are granted equally -/
theorem grant_eq {s : RuntimeState σ} {m : RuntimeState τ} (hclaims : s.claims = m.claims)
    (hreplies : s.replies = m.replies) (worker : WorkerId)
    {r : Except Error (Option AgentExecutionJob) × σ}
    {r' : Except Error (Option AgentExecutionJob) × τ} (h : r.1 = r'.1) :
    (s.grant worker r).claims = (m.grant worker r').claims ∧
      (s.grant worker r).replies = (m.grant worker r').replies := by
  obtain ⟨r, s'⟩ := r
  obtain ⟨r', m'⟩ := r'
  cases h
  rcases r with e | _ | job
  · exact ⟨hclaims, congrArg (· ++ _) hreplies⟩
  · exact ⟨hclaims, congrArg (· ++ _) hreplies⟩
  · exact ⟨congrArg (· ++ _) hclaims, congrArg (· ++ _) hreplies⟩

end RuntimeState

namespace Follows

open AgentRuntimeRepository

variable {columns : ColumnTypes} {runtime : AgentRuntime} {s : RuntimeState AgentDb}
  {m : RuntimeState InMemoryAgentRuntimeRepository}

theorem reject (h : Follows s m) : Follows s.reject m.reject where
  stored := ⟨h.stored.kept, h.stored.lawful, h.stored.known⟩
  kept := ⟨h.kept.kept, h.kept.lawful, h.kept.known⟩
  executions := h.executions
  claims := h.claims
  replies := congrArg (· ++ _) h.replies

/-- both sides answered as the abstract repository does -/
theorem answer (h : Follows s m) {r : Except Error AgentExecutionJob × AgentDb}
    {r' : Except Error AgentExecutionJob × InMemoryAgentRuntimeRepository}
    (hs : Refines.Sound AgentDb.view AgentDb.Kept (s.answer r))
    (hm : Refines.Sound InMemory.view InMemory.Kept (m.answer r'))
    (hview : AgentDb.view r.2 = InMemory.view r'.2) (hanswer : SameAnswer r.1 r'.1) :
    Follows (s.answer r) (m.answer r') where
  stored := hs
  kept := hm
  executions := by
    rw [Refines.answer_repository, Refines.answer_repository]
    exact hview
  claims := by
    rw [Refines.answer_claims, Refines.answer_claims]
    exact h.claims
  replies := by
    rw [RuntimeState.answer_replies, RuntimeState.answer_replies, h.replies, hanswer]

theorem grant (h : Follows s m) {worker : WorkerId}
    {r : Except Error (Option AgentExecutionJob) × AgentDb}
    {r' : Except Error (Option AgentExecutionJob) × InMemoryAgentRuntimeRepository}
    (hs : Refines.Sound AgentDb.view AgentDb.Kept (s.grant worker r))
    (hm : Refines.Sound InMemory.view InMemory.Kept (m.grant worker r'))
    (hview : AgentDb.view r.2 = InMemory.view r'.2) (hreply : r.1 = r'.1) :
    Follows (s.grant worker r) (m.grant worker r') where
  stored := hs
  kept := hm
  executions := by
    rw [Refines.grant_repository, Refines.grant_repository]
    exact hview
  claims := (RuntimeState.grant_eq h.claims h.replies worker hreply).1
  replies := (RuntimeState.grant_eq h.claims h.replies worker hreply).2

/-- a comparable operation is followed -/
theorem step (h : Follows s m) {op : AgentOp} (hop : Comparable columns runtime s op) :
    Follows ((AgentDb.repository columns).step runtime s op)
      (InMemory.repository.step runtime m op) := by
  have hs := ((AgentDb.refines columns).step runtime h.stored op).2
  have hm := (InMemory.refines.step runtime h.kept op).2
  cases op with
  | submit registry request now memoryAt =>
    simp only [AgentRuntimeRepository.step] at hs hm ⊢
    cases hsub : AgentRuntime.submit registry request now memoryAt with
    | error e => exact h.reject
    | ok p =>
      obtain ⟨job, input⟩ := p
      rw [hsub] at hs hm
      have hsubmitted := AgentRuntime.submit_submitted hsub
      obtain ⟨-, hv, ha⟩ := (AgentDb.refines columns).create h.stored.kept h.stored.lawful
        hsubmitted (hop job input hsub)
      obtain ⟨-, hv', ha'⟩ := InMemory.refines.create h.kept.kept h.kept.lawful hsubmitted rfl
      refine h.answer hs hm ?_ ?_
      · rw [hv, hv', h.executions]
      · rw [h.executions] at ha
        exact Eq.trans ha ha'.symm
  | claim clock contention id worker leaseSeconds =>
    obtain ⟨hclock, hfree⟩ := hop
    obtain ⟨ho, hv⟩ := AgentDb.claim_alone (clock 0) id h.stored.kept
      h.stored.lawful worker.2 leaseSeconds.pos hfree
    obtain ⟨-, ho', hv'⟩ := InMemory.claim_refines (clock 0) id worker.1 leaseSeconds h.kept.kept
      h.kept.lawful
    refine h.grant hs hm ?_ ?_
    · refine hv.trans ?_
      rw [h.executions]
      exact hv'.symm
    · refine ho.trans ?_
      rw [h.executions]
      exact congrArg Except.ok ho'.symm
  | claimNext clock contention worker leaseSeconds =>
    obtain ⟨⟨hclock, hfree⟩, hchoice⟩ := hop
    obtain ⟨ho, hv⟩ := AgentDb.claimNext_alone (clock 0) h.stored.kept h.stored.lawful
      worker.2 leaseSeconds.pos hfree
    have hconst : clock = fun _ => clock 0 := funext hclock
    obtain ⟨ho', hv'⟩ := InMemory.claimNext_eq (clock 0) worker.1 leaseSeconds h.kept.kept
      h.kept.lawful
    rw [← hconst] at ho' hv'
    -- the first of the tied executions is the one the sorted loop finds
    have hfirst : Executions.claimNext (clock 0) contention.choice worker.1 leaseSeconds
        (AgentDb.view s.repository) =
          Executions.claimNext (clock 0) 0 worker.1 leaseSeconds (InMemory.view m.repository) := by
      rw [Executions.claimNext, Executions.claimNext, hchoice, h.executions, Nat.zero_mod]
    refine h.grant hs hm ?_ ?_
    · refine hv.trans ?_
      exact (congrArg Prod.snd hfirst).trans hv'.symm
    · refine ho.trans ?_
      exact congrArg Except.ok ((congrArg Prod.fst hfirst).trans ho'.symm)
  | execute i registry analysis latencyMs createdAt clock =>
    simp only [AgentRuntimeRepository.step, ← h.claims] at hs hm ⊢
    cases hclaim : s.claims[i]? with
    | none => exact h
    | some c =>
      obtain ⟨job, worker⟩ := c
      rw [hclaim] at hs hm
      dsimp only at hs hm ⊢
      cases hexec : AgentRuntime.executeClaimed registry job analysis latencyMs createdAt with
      | error e => exact h.reject
      | ok p =>
        obtain ⟨output, retryable⟩ := p
        rw [hexec] at hs hm
        dsimp only at hs hm ⊢
        cases hf : runtime.recordAndFinish job worker output retryable clock with
        | error e => exact h.reject
        | ok f =>
          rw [hf] at hs hm
          have hgranted : (job, worker) ∈ s.claims := List.mem_of_getElem? hclaim
          obtain ⟨hname, hretry⟩ := AgentRuntime.executeClaimed_ok hexec
          have hissued := AgentRuntime.recordAndFinish_issued hf hname hretry
          obtain ⟨-, hv, ha⟩ := (AgentDb.refines columns).finish clock.finishedAt h.stored.kept
            h.stored.lawful hissued (h.stored.known.stored _ hgranted)
            (hop job worker output retryable f hclaim hexec hf)
          obtain ⟨-, hv', ha'⟩ := InMemory.refines.finish clock.finishedAt h.kept.kept
            h.kept.lawful hissued (h.kept.known.stored _ (h.claims ▸ hgranted)) rfl
          refine h.answer hs hm ?_ ?_
          · rw [hv, hv', h.executions]
          · rw [h.executions] at ha
            exact Eq.trans ha ha'.symm

theorem init (columns : ColumnTypes) :
    Follows (AgentDb.repository columns).init InMemory.repository.init where
  stored := (AgentDb.refines columns).sound_init
  kept := InMemory.refines.sound_init
  executions := (AgentDb.refines columns).empty.2.trans InMemory.refines.empty.2.symm
  claims := rfl
  replies := rfl

theorem run {ops : List AgentOp} (h : Follows s m)
    (hops : Along ((AgentDb.repository columns).step runtime) (Comparable columns runtime) s ops) :
    Follows (Lib.run ((AgentDb.repository columns).step runtime) s ops)
      (Lib.run (InMemory.repository.step runtime) m ops) := by
  induction ops generalizing s m with
  | nil => exact h
  | cons op ops ih => exact ih (h.step hops.1) hops.2

/-- the same executions are observed alike -/
theorem observe (h : Follows s m) (columns : ColumnTypes) (id : ExecutionId) :
    (AgentDb.repository columns).observe id s.repository =
      InMemory.repository.observe id m.repository := by
  have hload := (AgentDb.refines columns).loadTrace id h.stored.kept h.stored.lawful
  have hload' := InMemory.refines.loadTrace id h.kept.kept h.kept.lawful
  rw [h.executions] at hload
  unfold AgentRuntimeRepository.observe
  cases hg : Executions.get? (InMemory.view m.repository) id with
  | none =>
    rw [hg] at hload hload'
    rw [hload, hload']
  | some e =>
    rw [hg] at hload hload'
    obtain ⟨job, hload, hview, -⟩ := hload
    obtain ⟨job', hload', hview', -⟩ := hload'
    rw [hload, hload']
    simp only [Except.toOption, Option.map_some, hview, hview']

end Follows

/-- **The two repositories agree.** Over every run whose operations are comparable, both accept and
reject the same operations with the same answers, and every execution is observed alike. -/
theorem repositories_agree (columns : ColumnTypes) (runtime : AgentRuntime) (ops : List AgentOp)
    (h : Along ((AgentDb.repository columns).step runtime) (Comparable columns runtime)
      (AgentDb.repository columns).init ops) :
    ((AgentDb.repository columns).after runtime ops).replies =
        (InMemory.repository.after runtime ops).replies ∧
      ∀ id, (AgentDb.repository columns).observe id
          ((AgentDb.repository columns).after runtime ops).repository =
        InMemory.repository.observe id (InMemory.repository.after runtime ops).repository := by
  have hrun := (Follows.init columns).run h
  exact ⟨hrun.replies, fun id => hrun.observe columns id⟩

/-! ## Two submissions at once -/

namespace TiedSubmissions

def agent : BaseAgent where
  name := "trend"
  version := "1.0.0"
  description := ""
  requiredInputs := []
  capabilities := []
  decisionRole := .primary
  critical := false
  timeoutMs := 1000
  maxAttempts := 3
  enabled := true

def registry : AgentRegistry where
  agents := AList.insert "trend" agent ∅
  keyed := by
    intro k v h
    rw [Dict.lookup_insert_eq] at h
    split_ifs at h with hk
    · cases h
      exact hk.symm
    · simp at h

/-- a request of the trend agent, with its own idempotency key -/
def request (requestId : String)
    (accepted : ∀ f ∈ agentInputFields requestId "c" "trend" "BTCUSDT" "1h", f.2 = true) :
    AgentExecutionRequest where
  agentVersion := "1.0.0"
  idempotencyKey := none
  input := ⟨requestId, "c", "trend", 0, "BTCUSDT", "1h", [], [], accepted⟩
  accepted := by decide +kernel

def first : AgentExecutionRequest := request "r-1" (by decide +kernel)

def second : AgentExecutionRequest := request "r-2" (by decide +kernel)

def runtime : AgentRuntime where
  retryBaseSeconds := 1
  retryMaxSeconds := 60
  base_nonneg := by norm_num
  base_le_max := by norm_num

/-- columns that hold what is submitted here -/
def columns : ColumnTypes := ⟨fun _ => true, fun _ => true⟩

/-- two submissions at one reading of the clock, then a claim by queue order -/
def ops (choice : ℕ) : List AgentOp :=
  [.submit registry first 10 10, .submit registry second 10 11,
    .claimNext (fun _ => 20) ⟨fun _ => false, choice⟩ (AgentRuntime.workerId "agent" "w") 30]

/-- **A tied claim differs.** With equal clock readings the database may lease the second submission,
where the in-memory repository leases the first. -/
theorem tied_claim_differs :
    ((AgentDb.repository columns).after runtime (ops 1)).replies ≠
      (InMemory.repository.after runtime (ops 1)).replies := by
  decide +kernel

theorem submit_fits {request : AgentExecutionRequest} (hv : request.agentVersion.length ≤ 32)
    {now memoryAt : Time} {job : AgentExecutionJob} {input : AgentMemoryEntry}
    (h : AgentRuntime.submit registry request now memoryAt = .ok (job, input)) :
    columns.limits.job job = true := by
  simp only [ColumnTypes.limits, AgentRuntime.submit_version h, decide_eq_true hv]
  rfl

/-- the same run agrees when the database returns the first of the two -/
theorem earliest_claim_agrees :
    ((AgentDb.repository columns).after runtime (ops 0)).replies =
        (InMemory.repository.after runtime (ops 0)).replies ∧
      ∀ id, (AgentDb.repository columns).observe id
          ((AgentDb.repository columns).after runtime (ops 0)).repository =
        InMemory.repository.observe id (InMemory.repository.after runtime (ops 0)).repository :=
  repositories_agree columns runtime (ops 0)
    ⟨fun _ _ h => submit_fits (by decide) h, fun _ _ h => submit_fits (by decide) h,
      ⟨⟨fun _ => rfl, fun _ => rfl⟩, by simp⟩, trivial⟩

end TiedSubmissions

end CapitalCipher
