/-
The stored agent executions: the rows of the three tables as a list of executions.

A finished row keeps the `available_at` of its queue entry, which nothing reads any more; the view
puts the time it completed there.

  • `AgentDb.claimedRow_some`: a claim returns a claimable row; `claimedRow_alone`: without locked
    rows, one of the rows tied for the first place.
  • `AgentDb.refines`: the database is an agent-execution repository.
-/
import CapitalCipher.Database.Agents

namespace CapitalCipher

open Lib

namespace AgentTx

variable {s : AgentDb}

theorem failing_ok {α : Type} {pre : String} {keep : List ErrorKind} {x : AgentTx α}
    {r : α × AgentDb} : (failing pre keep x).run s = .ok r ↔ x.run s = .ok r := Tx.wrap_ok

theorem construct_ok {α : Type} {c : Except Error α} {r : α × AgentDb} :
    (construct c).run s = .ok r ↔ c = .ok r.1 ∧ r.2 = s := by
  cases c with
  | error e => exact ⟨fun h => (Tx.throw_ok.1 h).elim, fun h => by cases h.1⟩
  | ok a =>
    rw [construct, Tx.pure_ok]
    constructor
    · rintro rfl
      exact ⟨rfl, rfl⟩
    · rintro ⟨h1, h2⟩
      cases h1
      exact Prod.ext rfl h2

theorem columnsHold_ok {c : Bool} {r : Unit × AgentDb} :
    (columnsHold c).run s = .ok r ↔ c = true ∧ r = ((), s) := Tx.require_ok

end AgentTx

namespace AgentDb

open AgentTx

/-! ## The executions of the tables -/

/-- a finished job, available since it completed -/
def settled (j : AgentExecutionJob) : AgentExecutionJob :=
  if j.status.terminal then { j with availableAt := j.completedAt.getD j.availableAt } else j

theorem settled_eq (j : AgentExecutionJob) : ∃ t, settled j = { j with availableAt := t } := by
  unfold settled
  split_ifs
  · exact ⟨_, rfl⟩
  · exact ⟨j.availableAt, rfl⟩

@[simp] theorem settled_executionId (j : AgentExecutionJob) :
    (settled j).executionId = j.executionId := by
  obtain ⟨t, h⟩ := settled_eq j
  rw [h]

@[simp] theorem settled_key (j : AgentExecutionJob) : (settled j).key = j.key := by
  obtain ⟨t, h⟩ := settled_eq j
  rw [h]
  rfl

@[simp] theorem settled_status (j : AgentExecutionJob) : (settled j).status = j.status := by
  obtain ⟨t, h⟩ := settled_eq j
  rw [h]

@[simp] theorem settled_fingerprint (j : AgentExecutionJob) :
    (settled j).requestFingerprint = j.requestFingerprint := by
  obtain ⟨t, h⟩ := settled_eq j
  rw [h]

@[simp] theorem settled_view (j : AgentExecutionJob) : (settled j).view = j.view := by
  obtain ⟨t, h⟩ := settled_eq j
  rw [h]
  rfl

theorem settled_of_open {j : AgentExecutionJob} (h : j.status.terminal = false) :
    settled j = j := by
  rw [settled, h]
  rfl

/-- neither the model nor the CHECKs read `available_at` -/
theorem settled_check {j : AgentExecutionJob} (h : (settled j).check = .ok (settled j)) :
    j.check = .ok j := by
  obtain ⟨t, ht⟩ := settled_eq j
  rw [ht, AgentExecutionJob.check_ok] at h
  exact AgentExecutionJob.check_ok.2 ⟨h.1, h.2.1, rfl⟩

/-- a job row with its evidence -/
def execution (s : AgentDb) (j : AgentExecutionJob) : Execution where
  job := settled j
  attempts := s.attempts.rows.filter fun a => a.executionId = j.executionId
  memory := s.memory.rows.filter fun m => m.executionId = j.executionId

def view (s : AgentDb) : List Execution := s.jobs.rows.map (execution s)

/-- the foreign keys of the evidence tables -/
structure Kept (s : AgentDb) : Prop where
  attempts : ∀ a ∈ s.attempts.rows, ∃ j ∈ s.jobs.rows, j.executionId = a.executionId
  memory : ∀ m ∈ s.memory.rows, ∃ j ∈ s.jobs.rows, j.executionId = m.executionId

variable {s : AgentDb}

theorem execution_executionId (s : AgentDb) (j : AgentExecutionJob) :
    (execution s j).job.executionId = j.executionId := settled_executionId j

theorem get?_view (s : AgentDb) (id : ExecutionId) :
    Executions.get? (view s) id = (s.jobs.get? id).map (execution s) := by
  rw [Executions.get?, view, List.find?_map]
  congr 1
  refine List.find?_congr fun j _ => ?_
  simp only [Function.comp_apply, execution_executionId]
  rfl

theorem row_unique {j j' : AgentExecutionJob} (hj : j ∈ s.jobs.rows) (hj' : j' ∈ s.jobs.rows)
    (hid : j.executionId = j'.executionId) : j = j' := s.jobs.eq_of_key_eq hj hj' hid

/-- a lawful execution meets the CHECKs of its row -/
theorem schema_check {e : Execution} (h : e.Lawful) {j : AgentExecutionJob}
    (hj : settled j = e.job) : agentExecutionJobSchema.check j = true := by
  have hsame : agentExecutionJobSchema.check (settled j) = agentExecutionJobSchema.check j := by
    obtain ⟨t, ht⟩ := settled_eq j
    rw [ht]
    rfl
  have hm := h.wellformed.maxAttempts
  have hcount : e.job.attemptCount ≤ e.job.maxAttempts ∧ 0 < e.job.maxAttempts ∧
      e.job.maxAttempts ≤ 10 := ⟨h.bounded, hm.1, hm.2⟩
  rw [← hsame, hj]
  simp only [agentExecutionJobSchema, h.leased.1, h.leased.2, h.completed, decide_eq_true hcount]
  simp

/-- a row is replaced by a version with the same identity that meets the CHECKs -/
theorem update_row {row : AgentExecutionJob} (new : AgentExecutionJob) (hrow : row ∈ s.jobs.rows)
    (hid : new.identity = row.identity) (hc : agentExecutionJobSchema.check new = true) :
    ∃ t, s.jobs.update (fun r => r.executionId = row.executionId) (fun _ => new) = .ok t ∧
      t.rows = s.jobs.rows.map fun r => if r.executionId = row.executionId then new else r := by
  have hkey : new.key = row.key := AgentExecutionJob.key_of_identity hid
  have hexec : new.executionId = row.executionId := AgentExecutionJob.executionId_of_identity hid
  have hfp : new.requestFingerprint = row.requestFingerprint :=
    (congrArg AgentExecutionJob.requestFingerprint hid :)
  have hsame : ∀ r ∈ s.jobs.rows,
      (if decide (r.executionId = row.executionId) = true then new else r).executionId =
          r.executionId ∧
        (if decide (r.executionId = row.executionId) = true then new else r).requestFingerprint =
          r.requestFingerprint ∧
        (if decide (r.executionId = row.executionId) = true then new else r).key = r.key := by
    intro r hr
    by_cases h : r.executionId = row.executionId
    · rw [if_pos (decide_eq_true h), row_unique hr hrow h]
      exact ⟨hexec, hfp, hkey⟩
    · rw [if_neg (by simpa using h)]
      exact ⟨rfl, rfl, rfl⟩
  obtain ⟨t, ht⟩ := Table.update_isOk (T := s.jobs) (p := fun r => r.executionId = row.executionId)
    (f := fun _ => new)
    (fun r _ hp => by
      have hr : r.executionId = row.executionId := by simpa using hp
      simpa [agentExecutionJobSchema] using hr.trans hexec.symm)
    (fun _ _ _ => hc)
    (fun a ha b hb hab => by
      obtain ⟨ha1, ha2, ha3⟩ := hsame a ha
      obtain ⟨hb1, hb2, hb3⟩ := hsame b hb
      simpa only [Schema.Apart, agentExecutionJobSchema, ha1, ha2, ha3, hb1, hb2, hb3] using hab)
  refine ⟨t, ht, ?_⟩
  rw [(Table.update_ok ht).1]
  refine List.map_congr_left fun r _ => ?_
  simp only [decide_eq_true_eq]

/-- the evidence of the other tables follows a job to its new version -/
theorem Kept.update_row (hk : Kept s) {row : AgentExecutionJob} (new : AgentExecutionJob)
    (hid : new.identity = row.identity) {t : Table agentExecutionJobSchema}
    (ht : t.rows = s.jobs.rows.map fun r => if r.executionId = row.executionId then new else r) :
    Kept { s with jobs := t } := by
  have hexec : new.executionId = row.executionId := AgentExecutionJob.executionId_of_identity hid
  have hmoved : ∀ {i : ExecutionId}, (∃ j ∈ s.jobs.rows, j.executionId = i) →
      ∃ j ∈ t.rows, j.executionId = i := by
    rintro i ⟨j, hj, rfl⟩
    rw [ht]
    refine ⟨_, List.mem_map.2 ⟨j, hj, rfl⟩, ?_⟩
    split_ifs with h
    · exact hexec.trans h.symm
    · rfl
  exact ⟨fun a ha => hmoved (hk.attempts a ha), fun m hm => hmoved (hk.memory m hm)⟩

/-! ## Claims -/

/-- a job the statement may return -/
def offered (now : Time) (contention : Contention) (executionId : Option ExecutionId)
    (j : AgentExecutionJob) : Bool :=
  j.claimable now && executionId.all (fun id => decide (j.executionId = id)) &&
    !contention.locked j.executionId

theorem claimedRow_eq (now : Time) (contention : Contention) (executionId : Option ExecutionId)
    (rows : List AgentExecutionJob) :
    claimedRow now contention executionId rows =
      (tied (offered now contention executionId) AgentExecutionJob.queueKey rows)[
        contention.choice %
          (tied (offered now contention executionId) AgentExecutionJob.queueKey rows).length]? :=
  rfl

theorem claimedRow_some {now : Time} {contention : Contention} {executionId : Option ExecutionId}
    {rows : List AgentExecutionJob} {row : AgentExecutionJob}
    (h : claimedRow now contention executionId rows = some row) :
    row ∈ rows ∧ row.claimable now = true ∧ ∀ id ∈ executionId, row.executionId = id := by
  rw [claimedRow_eq] at h
  obtain ⟨hmem, hp⟩ := mem_tied (List.mem_of_getElem? h)
  simp only [offered, Bool.and_eq_true, Option.all_eq_true, decide_eq_true_eq] at hp
  exact ⟨hmem, hp.1.1, hp.1.2⟩

theorem claimedRow_none {now : Time} {contention : Contention} {executionId : Option ExecutionId}
    {rows : List AgentExecutionJob} :
    claimedRow now contention executionId rows = none ↔
      ∀ j ∈ rows, ¬ offered now contention executionId j = true := by
  rw [claimedRow_eq, List.getElem?_eq_none_iff,
    ← @tied_eq_nil _ _ _ _ AgentExecutionJob.queueKey]
  constructor
  · intro h
    by_contra hne
    exact absurd h (Nat.not_le.2 (Nat.mod_lt _ (List.length_pos_of_ne_nil hne)))
  · intro h
    rw [h]
    exact Nat.zero_le _

/-- the statement of a claim found a row, which a lease replaces -/
theorem claim_some {now : Time} {contention : Contention} {executionId : Option ExecutionId}
    {worker : String} {leaseSeconds : ℕ} {row : AgentExecutionJob} (hk : Kept s)
    (h : Executions.Lawful (view s)) (hw : validWorkerId worker) (hl : 1 ≤ leaseSeconds)
    (hrow : claimedRow now contention executionId s.jobs.rows = some row) :
    ∃ t, Tx.commit (claimAgentExecution now contention executionId worker leaseSeconds) s =
        (.ok (Executions.claimAt now row.executionId worker leaseSeconds (view s)).1, t) ∧
      Kept t ∧ view t = (Executions.claimAt now row.executionId worker leaseSeconds (view s)).2 := by
  obtain ⟨hmem, hc, -⟩ := claimedRow_some hrow
  have hopen : row.status.terminal = false := by
    rcases AgentExecutionJob.claimable_cases hc with ⟨hs | hs, -⟩ | ⟨hs, -⟩ <;> rw [hs] <;> rfl
  have hlawful := h.each _ (List.mem_map_of_mem hmem)
  have hjob : (execution s row).job = row := settled_of_open hopen
  have hclaimed := hlawful.claim hw (hjob ▸ hc) leaseSeconds
  have hleased : ((execution s row).claim now worker leaseSeconds).job =
      row.leasedTo now worker leaseSeconds := by
    rw [Execution.claim, hjob]
  obtain ⟨t, ht, hrows⟩ := update_row _ hmem (row.identity_leasedTo now worker leaseSeconds)
    (schema_check hclaimed ((settled_of_open rfl).trans hleased.symm))
  have hcompleted : row.completedAt = none := by
    have := hlawful.completed
    rw [hjob, hopen] at this
    simpa using this
  have hwritten : ({ row with
      status := .leased
      attemptCount := if (!(row.status == .leased)) = true then row.attemptCount + 1
        else row.attemptCount
      leasedBy := some worker
      leaseExpiresAt := some (now + leaseSeconds * 1000000)
      updatedAt := now
      completedAt := none } : AgentExecutionJob) = row.leasedTo now worker leaseSeconds := by
    cases hs : row.status == .leased <;> simp [AgentExecutionJob.leasedTo, hs, hcompleted]
  have hrun : (claimAgentExecution now contention executionId worker leaseSeconds).run s =
      .ok (some (row.leasedTo now worker leaseSeconds), { s with jobs := t }) := by
    simp only [claimAgentExecution, Tx.bind_ok, Tx.require_ok, failing_ok, Tx.get_ok]
    refine ⟨(), s, ⟨hl, rfl⟩, s, s, rfl, ?_⟩
    rw [hrow]
    simp only [Tx.bind_ok, construct_ok, onJobs, Tx.write_ok, hwritten]
    refine ⟨(), _, ⟨t, ht, rfl⟩, _, _, ⟨?_, rfl⟩, rfl⟩
    exact hleased ▸ hclaimed.job_check
  have hget : Executions.get? (view s) row.executionId = some (execution s row) := by
    rw [← execution_executionId s row]
    exact h.get? (List.mem_map_of_mem hmem)
  have hat : Executions.claimAt now row.executionId worker leaseSeconds (view s) =
      (some (row.leasedTo now worker leaseSeconds),
        Executions.replace row.executionId (Execution.claim now worker leaseSeconds) (view s)) := by
    rw [Executions.claimAt, hget]
    dsimp only
    rw [hjob, if_pos hc]
  refine ⟨{ s with jobs := t }, ?_, hk.update_row _ (row.identity_leasedTo ..) hrows, ?_⟩
  · rw [hat]
    exact Tx.commit_of_ok hrun
  · rw [hat, view, hrows]
    refine Executions.map_eq_replace (fun j _ => execution_executionId s j) (fun j hj hid => ?_)
      fun _ _ _ => rfl
    rw [row_unique hj hmem hid, Execution.claim, hjob, execution, settled_of_open rfl]
    rfl

theorem claim_none {now : Time} {contention : Contention} {executionId : Option ExecutionId}
    {worker : String} {leaseSeconds : ℕ} (hl : 1 ≤ leaseSeconds)
    (hrow : claimedRow now contention executionId s.jobs.rows = none) :
    Tx.commit (claimAgentExecution now contention executionId worker leaseSeconds) s =
      (.ok none, s) := by
  refine Tx.commit_of_ok ?_
  simp only [claimAgentExecution, Tx.bind_ok, Tx.require_ok, failing_ok, Tx.get_ok]
  refine ⟨(), s, ⟨hl, rfl⟩, s, s, rfl, ?_⟩
  rw [hrow]
  rfl

theorem claim_refines (now : Time) (contention : Contention) (executionId : Option ExecutionId)
    {worker : String} {leaseSeconds : ℕ} (hk : Kept s) (h : Executions.Lawful (view s))
    (hw : validWorkerId worker) (hl : 1 ≤ leaseSeconds) :
    Kept (Tx.commit (claimAgentExecution now contention executionId worker leaseSeconds) s).2 ∧
      Granted worker leaseSeconds (view s)
        (view (Tx.commit (claimAgentExecution now contention executionId worker leaseSeconds) s).2)
        (Tx.commit (claimAgentExecution now contention executionId worker leaseSeconds) s).1 := by
  cases hrow : claimedRow now contention executionId s.jobs.rows with
  | none =>
    rw [claim_none hl hrow]
    exact ⟨hk, .inl ⟨rfl, rfl⟩⟩
  | some row =>
    obtain ⟨t, hcommit, hkept, hview⟩ := claim_some hk h hw hl hrow
    rw [hcommit]
    exact ⟨hkept, .inr ⟨now, row.executionId, rfl, hview⟩⟩

/-- a finished row is claimable neither before nor after it is settled -/
theorem settled_claimable (now : Time) (j : AgentExecutionJob) :
    (settled j).claimable now = j.claimable now := by
  cases hs : j.status.terminal with
  | false => rw [settled_of_open hs]
  | true =>
    obtain ⟨t, ht⟩ := settled_eq j
    rw [ht]
    cases hj : j.status with
    | pending | leased | retry =>
      rw [hj] at hs
      cases hs
    | completed | deadLetter =>
      simp only [AgentExecutionJob.claimable, AgentExecutionJob.ready, AgentExecutionJob.expired, hj]
      rfl

/-- without locked rows, a claim by id is the abstract one -/
theorem claim_alone (now : Time) {contention : Contention} (id : ExecutionId) {worker : String}
    {leaseSeconds : ℕ} (hk : Kept s) (h : Executions.Lawful (view s)) (hw : validWorkerId worker)
    (hl : 1 ≤ leaseSeconds) (hfree : ∀ i, contention.locked i = false) :
    (Tx.commit (claimAgentExecution now contention (some id) worker leaseSeconds) s).1 =
        .ok (Executions.claimAt now id worker leaseSeconds (view s)).1 ∧
      view (Tx.commit (claimAgentExecution now contention (some id) worker leaseSeconds) s).2 =
        (Executions.claimAt now id worker leaseSeconds (view s)).2 := by
  cases hrow : claimedRow now contention (some id) s.jobs.rows with
  | none =>
    have hat : Executions.claimAt now id worker leaseSeconds (view s) = (none, view s) := by
      rw [Executions.claimAt, get?_view]
      cases hg : s.jobs.get? id with
      | none => rfl
      | some row =>
        obtain ⟨hmem, hid⟩ := (s.jobs.get?_eq_some).1 hg
        replace hid : row.executionId = id := hid
        have hno := claimedRow_none.1 hrow row hmem
        have hc : ¬ (execution s row).job.claimable now = true := by
          intro hc
          have hrc : row.claimable now = true := (settled_claimable now row).symm.trans hc
          exact hno (by simp [offered, hrc, hid, hfree])
        dsimp only [Option.map_some]
        rw [if_neg hc]
    rw [claim_none hl hrow, hat]
    exact ⟨rfl, rfl⟩
  | some row =>
    obtain ⟨t, hcommit, -, hview⟩ := claim_some hk h hw hl hrow
    have hid : row.executionId = id := (claimedRow_some hrow).2.2 id rfl
    rw [hcommit, ← hid]
    exact ⟨rfl, hview⟩

/-- without locked rows, a claim by queue order takes one of the first executions -/
theorem claimNext_alone (now : Time) {contention : Contention} {worker : String}
    {leaseSeconds : ℕ} (hk : Kept s) (h : Executions.Lawful (view s)) (hw : validWorkerId worker)
    (hl : 1 ≤ leaseSeconds) (hfree : ∀ i, contention.locked i = false) :
    (Tx.commit (claimAgentExecution now contention none worker leaseSeconds) s).1 =
        .ok (Executions.claimNext now contention.choice worker leaseSeconds (view s)).1 ∧
      view (Tx.commit (claimAgentExecution now contention none worker leaseSeconds) s).2 =
        (Executions.claimNext now contention.choice worker leaseSeconds (view s)).2 := by
  have hp : (fun e : Execution => e.job.claimable now) ∘ execution s =
      offered now contention none := by
    funext j
    simp only [Function.comp_apply, offered, hfree, Option.all_none, Bool.not_false, Bool.and_true]
    exact settled_claimable now j
  have hfirst : Executions.first now (view s) =
      (tied (offered now contention none) AgentExecutionJob.queueKey s.jobs.rows).map
        (execution s) := by
    rw [Executions.first, view, tied_map, hp]
    congr 1
    refine tied_congr (fun _ _ => rfl) fun j _ hj => ?_
    -- an offered row is open, so its queue entry is its own
    have hc : j.claimable now = true := by
      simp only [offered, Bool.and_eq_true] at hj
      exact hj.1.1
    have hopen : j.status.terminal = false := by
      rcases AgentExecutionJob.claimable_cases hc with ⟨hs | hs, -⟩ | ⟨hs, -⟩ <;> rw [hs] <;> rfl
    have hjob : (execution s j).job = j := settled_of_open hopen
    rw [Function.comp_apply, hjob]
  have hnext : (Executions.first now (view s))[
        contention.choice % (Executions.first now (view s)).length]? =
      (claimedRow now contention none s.jobs.rows).map (execution s) := by
    rw [hfirst, claimedRow_eq, List.length_map, List.getElem?_map]
  rw [Executions.claimNext, hnext]
  cases hrow : claimedRow now contention none s.jobs.rows with
  | none =>
    rw [claim_none hl hrow]
    exact ⟨rfl, rfl⟩
  | some row =>
    obtain ⟨t, hcommit, -, hview⟩ := claim_some hk h hw hl hrow
    dsimp only [Option.map_some]
    rw [hcommit, execution_executionId]
    exact ⟨rfl, hview⟩

/-! ## Submissions -/

theorem find?_key_view (s : AgentDb) (k : String × String × String) :
    (view s).find? (fun e => e.job.key = k) =
      (s.jobs.rows.find? fun row => row.key = k).map (execution s) := by
  rw [view, List.find?_map]
  congr 1
  refine List.find?_congr fun j _ => ?_
  have hj : (execution s j).job.key = j.key := settled_key j
  simp only [Function.comp_apply, hj]

/-- a submission whose key is free breaks no constraint -/
theorem apart_of_free {job : AgentExecutionJob} (h : Executions.Lawful (view s))
    (hw : job.Wellformed) (hfree : ∀ row ∈ s.jobs.rows, row.key ≠ job.key) :
    ∀ row ∈ s.jobs.rows, agentExecutionJobSchema.Apart row job := by
  intro row hrow
  have hlawful := h.each _ (List.mem_map_of_mem hrow)
  have hid : row.executionId ≠ job.executionId := by
    intro hid
    have := Executions.key_of_executionId hlawful.wellformed hw
      ((execution_executionId s row).trans hid)
    exact hfree row hrow ((settled_key row).symm.trans this)
  have hfp : row.requestFingerprint ≠ job.requestFingerprint := by
    intro hfp
    have hrowfp := hlawful.wellformed.fingerprint
    rw [execution_executionId] at hrowfp
    have hsettled : (execution s row).job.requestFingerprint = row.requestFingerprint :=
      settled_fingerprint row
    exact hid (hrowfp.symm.trans (hsettled.trans (hfp.trans hw.fingerprint)))
  have hkey := hfree row hrow
  refine ⟨hid, ?_, ?_⟩
  · simp [agentExecutionJobSchema, hfp, hkey]
  · simp [agentExecutionJobSchema, hfp.symm, hkey.symm]

/-- a free key: the job and its input are stored -/
theorem create_free {columns : ColumnTypes} {job : AgentExecutionJob} {input : AgentMemoryEntry}
    (hk : Kept s) (h : Executions.Lawful (view s)) (hnew : Submitted job input)
    (hfits : columns.limits.job job = true)
    (hfree : ∀ row ∈ s.jobs.rows, row.key ≠ job.key) :
    ∃ t, Tx.commit (createAgentExecution columns job input) s = (.ok job, t) ∧ Kept t ∧
      view t = view s ++ [⟨job, [], [input]⟩] := by
  have hapart := apart_of_free h hnew.lawful.wellformed hfree
  have hopen : job.status.terminal = false := by rw [hnew.pending]; rfl
  have hinput : input.executionId = job.executionId := hnew.lawful.memoryIds input (by simp)
  have hseq : input.sequence = 1 := by
    have := hnew.lawful.sequences
    simp only [List.map_cons, List.map_nil, hopen] at this
    simpa [Execution.memorySequences] using this
  have hmissing : ∀ j ∈ s.jobs.rows, j.executionId ≠ job.executionId := fun j hj =>
    (hapart j hj).1
  obtain ⟨T, hT⟩ := Table.insert_isOk (schema_check hnew.lawful (settled_of_open hopen)) hapart
  have hTrows := (Table.insert_ok hT).1
  obtain ⟨M, hM⟩ := Table.insert_isOk (T := s.memory) (r := input)
    (by simp [agentMemoryEntrySchema, hseq])
    (fun m hm => by
      obtain ⟨j, hj, hid⟩ := hk.memory m hm
      refine ⟨fun he => hmissing j hj ?_, rfl, rfl⟩
      exact hid.trans ((congrArg Prod.fst he :).trans hinput))
  have hMrows := (Table.insert_ok hM).1
  have hrun : (createAgentExecution columns job input).run s =
      .ok (job, { s with jobs := T, memory := M }) := by
    simp only [createAgentExecution, Tx.bind_ok, Tx.require_ok, failing_ok, Tx.get_ok,
      columnsHold_ok]
    refine ⟨(), s, ⟨⟨hinput, hseq, hnew.entryType⟩, rfl⟩, s, s, rfl, (), s, ⟨hfits, rfl⟩, ?_⟩
    rw [if_pos hapart]
    simp only [Tx.bind_ok, onJobs, onMemory, Tx.write_ok, Tx.pure_ok]
    exact ⟨(), _, ⟨T, hT, rfl⟩, (), _, ⟨M, hM, rfl⟩, rfl⟩
  refine ⟨_, Tx.commit_of_ok hrun, ⟨fun a ha => ?_, fun m hm => ?_⟩, ?_⟩
  · obtain ⟨j, hj, hid⟩ := hk.attempts a ha
    exact ⟨j, by simp [hTrows, hj], hid⟩
  · rw [hMrows] at hm
    rcases List.mem_append.1 hm with hm | hm
    · obtain ⟨j, hj, hid⟩ := hk.memory m hm
      exact ⟨j, by simp [hTrows, hj], hid⟩
    · rw [List.mem_singleton.1 hm]
      exact ⟨job, by simp [hTrows], hinput.symm⟩
  · have hattempts : (s.attempts.rows.filter fun a => a.executionId = job.executionId) = [] := by
      rw [List.filter_eq_nil_iff]
      intro a ha
      obtain ⟨j, hj, hid⟩ := hk.attempts a ha
      simpa [← hid] using hmissing j hj
    have hmemory : (s.memory.rows.filter fun m => m.executionId = job.executionId) = [] := by
      rw [List.filter_eq_nil_iff]
      intro m hm
      obtain ⟨j, hj, hid⟩ := hk.memory m hm
      simpa [← hid] using hmissing j hj
    rw [view, hTrows, List.map_append, List.map_singleton]
    congr 1
    · refine List.map_congr_left fun j hj => ?_
      have hne : job.executionId ≠ j.executionId := (hmissing j hj).symm
      simp [execution, hMrows, hinput, hne]
    · simp [execution, hMrows, hattempts, hmemory, hinput, settled_of_open hopen]

/-- a taken key: the stored job answers the same submission -/
theorem create_taken {columns : ColumnTypes} {job row : AgentExecutionJob}
    {input : AgentMemoryEntry} (h : Executions.Lawful (view s)) (hnew : Submitted job input)
    (hfits : columns.limits.job job = true)
    (hrow : (s.jobs.rows.find? fun r => r.key = job.key) = some row) :
    (Tx.commit (createAgentExecution columns job input) s).2 = s ∧
      (Tx.commit (createAgentExecution columns job input) s).1.toOption =
        if row.requestFingerprint = job.requestFingerprint then some row else none := by
  have hmem : row ∈ s.jobs.rows := List.mem_of_find?_eq_some hrow
  have hkey : row.key = job.key := by simpa using List.find?_some hrow
  have hclash : ¬ ∀ r ∈ s.jobs.rows, agentExecutionJobSchema.Apart r job := by
    intro hall
    have := (hall row hmem).2.1
    simp [agentExecutionJobSchema, hkey] at this
  have hopen : job.status.terminal = false := by rw [hnew.pending]; rfl
  have hinput : input.executionId = job.executionId := hnew.lawful.memoryIds input (by simp)
  have hseq : input.sequence = 1 := by
    have := hnew.lawful.sequences
    simp only [List.map_cons, List.map_nil, hopen] at this
    simpa [Execution.memorySequences] using this
  have hcheck : row.check = .ok row :=
    settled_check (h.each _ (List.mem_map_of_mem hmem)).job_check
  have hrun : ∀ r, (createAgentExecution columns job input).run s = .ok r ↔
      row.requestFingerprint = job.requestFingerprint ∧ r = (row, s) := by
    intro r
    simp only [createAgentExecution, Tx.bind_ok, Tx.require_ok, failing_ok, Tx.get_ok,
      columnsHold_ok]
    constructor
    · rintro ⟨_, _, ⟨-, he⟩, _, _, he', _, _, ⟨-, he''⟩, hr⟩
      cases he
      cases he'
      cases he''
      rw [if_neg hclash, hrow] at hr
      simp only [sameSubmission, Tx.bind_ok, Tx.require_ok, construct_ok] at hr
      obtain ⟨_, _, ⟨hfp, he⟩, hr, hs⟩ := hr
      cases he
      rw [hcheck] at hr
      exact ⟨hfp, Prod.ext (Except.ok.inj hr).symm hs⟩
    · rintro ⟨hfp, rfl⟩
      refine ⟨(), s, ⟨⟨hinput, hseq, hnew.entryType⟩, rfl⟩, s, s, rfl, (), s, ⟨hfits, rfl⟩, ?_⟩
      rw [if_neg hclash, hrow]
      simp only [sameSubmission, Tx.bind_ok, Tx.require_ok, construct_ok]
      exact ⟨(), s, ⟨hfp, rfl⟩, hcheck, rfl⟩
  split_ifs with hfp
  · have := Tx.commit_of_ok ((hrun (row, s)).2 ⟨hfp, rfl⟩)
    rw [this]
    exact ⟨rfl, rfl⟩
  · exact Tx.commit_of_not_ok fun r hr => hfp ((hrun r).1 hr).1

theorem create_refines {columns : ColumnTypes} {job : AgentExecutionJob}
    {input : AgentMemoryEntry} (hk : Kept s) (h : Executions.Lawful (view s))
    (hnew : Submitted job input) (hfits : columns.limits.job job = true) :
    Kept (Tx.commit (createAgentExecution columns job input) s).2 ∧
      view (Tx.commit (createAgentExecution columns job input) s).2 =
        (Executions.create job input (view s)).2 ∧
      SameAnswer (Tx.commit (createAgentExecution columns job input) s).1
        (Executions.create job input (view s)).1 := by
  unfold Executions.create SameAnswer
  rw [find?_key_view]
  cases hrow : s.jobs.rows.find? fun r => r.key = job.key with
  | none =>
    have hfree : ∀ row ∈ s.jobs.rows, row.key ≠ job.key := fun row hr => by
      simpa using List.find?_eq_none.1 hrow row hr
    obtain ⟨t, hcommit, hkept, hview⟩ := create_free hk h hnew hfits hfree
    rw [hcommit]
    exact ⟨hkept, hview, rfl⟩
  | some row =>
    obtain ⟨hs, ho⟩ := create_taken h hnew hfits hrow
    have hfp' : (execution s row).job.requestFingerprint = row.requestFingerprint :=
      settled_fingerprint row
    rw [hs, ho]
    dsimp only [Option.map_some]
    by_cases hfp : row.requestFingerprint = job.requestFingerprint
    · rw [if_pos hfp, if_neg (not_not.2 (hfp'.trans hfp))]
      exact ⟨hk, rfl, congrArg some (settled_view row).symm⟩
    · rw [if_neg hfp, if_pos (hfp' ▸ hfp)]
      exact ⟨hk, rfl, rfl⟩

/-! ## Finishes -/

/-- a committed finish was the lease owner's, with the next evidence -/
theorem finish_accepted {columns : ColumnTypes} {now : Time} {f : FinishRequest}
    {r : AgentExecutionJob × AgentDb}
    (h : (finishAgentExecution columns now f).run s = .ok r) :
    columns.limits.finish f = true ∧ ∃ row, s.jobs.get? f.attempt.executionId = some row ∧
      (execution s row).accepts f = true := by
  simp only [finishAgentExecution, Tx.bind_ok, Tx.require_ok, failing_ok, Tx.get_ok] at h
  obtain ⟨_, _, ⟨-, he⟩, _, _, ⟨hevidence, he'⟩, _, _, he'', h⟩ := h
  cases he
  cases he'
  cases he''
  cases hrow : s.jobs.get? f.attempt.executionId with
  | none =>
    rw [hrow] at h
    exact (Tx.throw_ok.1 h).elim
  | some row =>
    rw [hrow] at h
    simp only [Tx.bind_ok, Tx.require_ok, columnsHold_ok] at h
    obtain ⟨_, _, ⟨hlease, he⟩, _, _, ⟨-, he'⟩, _, _, ⟨hprior, he''⟩, _, _, -, _, _, -, _, _, -, _,
      _, -, _, _, ⟨hholds, -⟩, -⟩ := h
    cases he
    cases he'
    cases he''
    obtain ⟨-, hid⟩ := (s.jobs.get?_eq_some).1 hrow
    have hid' : row.executionId = f.attempt.executionId := hid
    have hopen : row.status.terminal = false := by rw [hlease.1]; rfl
    have hjob : (execution s row).job = row := settled_of_open hopen
    refine ⟨hholds, row, rfl, Execution.accepts_iff.2 ⟨?_, ?_, ?_, hevidence.2.2.2.1⟩⟩
    · rw [hjob]
      exact hlease.1
    · rw [hjob]
      exact hlease.2
    · rw [execution, hid']
      exact hprior.symm

/-- what is written is the finished job, once settled -/
theorem settled_finishedRow {now : Time} {f : FinishRequest} {row : AgentExecutionJob} :
    settled (finishedRow now f row) = row.finished now f := by
  rcases row.outcome_cases f with ⟨hs, ho⟩ | ⟨hs, hr, hlt, ho⟩ | ⟨hs, hr, ho⟩
  · simp [settled, finishedRow, AgentExecutionJob.finished, ho, hs, AgentExecutionStatus.terminal,
      AgentExecutionJob.errorCode]
  · simp [settled, finishedRow, AgentExecutionJob.finished, ho, hs, hr, hlt,
      AgentExecutionStatus.terminal, AgentExecutionJob.errorCode]
  · have hr' : (f.retryable && decide (row.attemptCount < row.maxAttempts)) = false := by
      simpa using hr
    simp [settled, finishedRow, AgentExecutionJob.finished, ho, hs, hr',
      AgentExecutionStatus.terminal, AgentExecutionJob.errorCode]

/-- the memory of an open execution ends before the next attempt's entry -/
theorem memory_lt {e : Execution} (h : e.Lawful) (hopen : e.job.status.terminal = false)
    {m : AgentMemoryEntry} (hm : m ∈ e.memory) : m.sequence < (e.attempts.length + 1) * 2 := by
  have hseq : m.sequence ∈ Execution.memorySequences e.attempts.length false := by
    rw [← hopen, ← h.sequences]
    exact List.mem_map_of_mem hm
  simp only [Execution.memorySequences, List.mem_append, List.mem_cons, List.mem_map,
    List.mem_range'_1] at hseq
  rcases hseq with (hone | ⟨i, ⟨-, hi⟩, heq⟩) | hnil
  · omega
  · omega
  · simp at hnil

/-- the terminal entry is appended, where the finished row is terminal -/
theorem appendTerminalMemory_isOk {f : FinishRequest} (updated : AgentExecutionJob) {t : AgentDb}
    (hsome : f.terminalMemory.isSome = updated.status.terminal)
    (hm : ∀ m ∈ f.terminalMemory, m.executionId = updated.executionId ∧
      m.entryType = (if updated.status = .completed then .output else .deadLetter) ∧
      m.sequence = f.attempt.attemptNumber * 2 + 1 ∧
      ∀ x ∈ t.memory.rows, x.executionId = m.executionId → x.sequence ≠ m.sequence) :
    ∃ M, (appendTerminalMemory f updated).run t = .ok ((), { t with memory := M }) ∧
      M.rows = t.memory.rows ++ f.terminalMemory.toList := by
  have hterminal : (updated.status = .completed ∨ updated.status = .deadLetter) ↔
      updated.status.terminal = true := by
    cases updated.status <;> simp [AgentExecutionStatus.terminal]
  unfold appendTerminalMemory
  cases hf : f.terminalMemory with
  | none =>
    rw [hf] at hsome
    rw [if_neg (by rw [hterminal, ← hsome]; simp)]
    exact ⟨t.memory, rfl, by simp⟩
  | some m =>
    rw [hf] at hsome
    obtain ⟨hid, htype, hseq, hfresh⟩ := hm m (by simp [hf])
    obtain ⟨M, hM⟩ := Table.insert_isOk (T := t.memory) (r := m)
      (by simp [agentMemoryEntrySchema, hseq])
      (fun x hx => by
        refine ⟨fun he => ?_, rfl, rfl⟩
        exact hfresh x hx (congrArg Prod.fst he :) (congrArg Prod.snd he :))
    rw [if_pos (by rw [hterminal, ← hsome]; rfl)]
    dsimp only
    rw [if_pos ⟨hid, htype, hseq⟩]
    exact ⟨M, Tx.write_ok.2 ⟨M, hM, rfl⟩, by simp [(Table.insert_ok hM).1]⟩

/-- an accepted finish commits the finished row and its evidence -/
theorem finish_isOk {columns : ColumnTypes} (now : Time) {f : FinishRequest}
    {claimed row : AgentExecutionJob} {worker : String} (hk : Kept s)
    (h : Executions.Lawful (view s)) (hf : f.Issued claimed worker)
    (hrow : s.jobs.get? f.attempt.executionId = some row)
    (hid : claimed.identity = (execution s row).job.identity)
    (hacc : (execution s row).accepts f = true) (hholds : columns.limits.finish f = true) :
    ∃ t, Tx.commit (finishAgentExecution columns now f) s = (.ok (finishedRow now f row), t) ∧
      Kept t ∧
      view t = Executions.replace f.attempt.executionId (Execution.finish now f) (view s) := by
  obtain ⟨hmem, hrowid⟩ := (s.jobs.get?_eq_some).1 hrow
  replace hrowid : row.executionId = f.attempt.executionId := hrowid
  have hlawful := h.each _ (List.mem_map_of_mem hmem)
  obtain ⟨hs, hlen, hcount, hmax⟩ := hlawful.claimed hf hid hacc
  obtain ⟨-, hlease, hnumber, hsequence⟩ := Execution.accepts_iff.1 hacc
  have hopen : (execution s row).job.status.terminal = false := by rw [hs]; rfl
  have hrowopen : row.status.terminal = false := (settled_status row) ▸ hopen
  have hjob : (execution s row).job = row := settled_of_open hrowopen
  have hfinished := hlawful.finish hf hid hacc now
  have hnew : ((execution s row).finish now f).job = row.finished now f := by
    rw [Execution.finish, hjob]
  have hstatus : (finishedRow now f row).status = row.outcome f := by
    rw [← settled_status, settled_finishedRow]
    rfl
  -- the job row
  obtain ⟨T, hT, hTrows⟩ := update_row (finishedRow now f row) hmem rfl
    (schema_check hfinished (settled_finishedRow.trans hnew.symm))
  -- the attempt
  obtain ⟨⟨hpos, hten⟩, -, htimes, -, -⟩ := AgentExecutionAttempt.check_ok.1 hf.attemptChecked
  have hattempt : ({ f.attempt with output := f.output } : AgentExecutionAttempt) = f.attempt := by
    rw [← hf.attemptOutput]
  obtain ⟨A, hA⟩ := Table.insert_isOk (T := s.attempts) (r := f.attempt)
    (decide_eq_true ⟨hpos, hten, htimes⟩)
    (fun a ha => by
      refine ⟨fun he => ?_, rfl, rfl⟩
      have haid : a.executionId = f.attempt.executionId := (congrArg Prod.fst he :)
      have hanum : a.attemptNumber = f.attempt.attemptNumber := (congrArg Prod.snd he :)
      have hin : a.attemptNumber ∈ (execution s row).attempts.map
          AgentExecutionAttempt.attemptNumber :=
        List.mem_map_of_mem (List.mem_filter.2 ⟨ha, by simp [haid, hrowid]⟩)
      rw [hlawful.numbers, List.mem_range'_1] at hin
      omega)
  have hArows := (Table.insert_ok hA).1
  -- its memory entry
  have hmemid : f.attemptMemory.executionId = f.attempt.executionId :=
    hf.memoryId.trans hf.attemptId.symm
  have hbefore : ∀ m ∈ s.memory.rows, m.executionId = f.attempt.executionId →
      m.sequence < f.attempt.attemptNumber * 2 := by
    intro m hm hmid
    rw [hnumber]
    exact memory_lt hlawful hopen (List.mem_filter.2 ⟨hm, by simp [hmid, hrowid]⟩)
  obtain ⟨M, hM⟩ := Table.insert_isOk (T := s.memory) (r := f.attemptMemory)
    (by
      have : 0 < f.attempt.attemptNumber := hpos
      simp only [agentMemoryEntrySchema, hsequence, decide_eq_true_eq]
      omega)
    (fun m hm => by
      refine ⟨fun he => ?_, rfl, rfl⟩
      have hmid : m.executionId = f.attemptMemory.executionId := (congrArg Prod.fst he :)
      have hmseq : m.sequence = f.attemptMemory.sequence := (congrArg Prod.snd he :)
      have := hbefore m hm (hmid.trans hmemid)
      omega)
  have hMrows := (Table.insert_ok hM).1
  -- the terminal entry
  have hterminal := hf.terminal
  obtain ⟨M', hM', hM'rows⟩ := appendTerminalMemory_isOk (f := f) (finishedRow now f row)
    (t := { s with attempts := A, memory := M })
    (by
      rw [hstatus, Execution.terminalMemory_iff hf hcount hmax, hjob])
    (fun m hm => by
      rw [Option.mem_def] at hm
      rw [hm] at hterminal
      obtain ⟨hnoretry, hmid, hmseq, hmtype⟩ := hterminal
      have hmid' : m.executionId = f.attempt.executionId := hmid.trans hf.attemptId.symm
      refine ⟨hmid'.trans hrowid.symm, ?_, by rw [hmseq, hf.attemptNumber], fun x hx hxid => ?_⟩
      · rw [hmtype, hstatus]
        rcases row.outcome_cases f with ⟨ho, hc⟩ | ⟨ho, hr, hlt, -⟩ | ⟨ho, -, hc⟩
        · rw [ho, hc]
          rfl
        · rw [hjob] at hmax hcount
          rw [← hmax, ← hcount] at hlt
          exact absurd ⟨hr, hlt⟩ hnoretry
        · rw [ho, hc]
          rfl
      · have hx' : x ∈ s.memory.rows ++ [f.attemptMemory] := by
          rw [← hMrows]
          exact hx
        rcases List.mem_append.1 hx' with hx' | hx'
        · have := hbefore x hx' (hxid.trans hmid')
          rw [hf.attemptNumber] at this
          omega
        · rw [List.mem_singleton.1 hx', hf.memorySequence, hmseq]
          omega)
  have hrun : (finishAgentExecution columns now f).run s = .ok (finishedRow now f row,
      { jobs := T, attempts := A, memory := M' }) := by
    simp only [finishAgentExecution, Tx.bind_ok, Tx.require_ok, failing_ok, Tx.get_ok]
    refine ⟨(), s, ⟨hf.delay, rfl⟩, (), s, ⟨⟨hmemid.symm, hf.attemptOutput,
      hf.attemptWorker.trans hf.workerId.symm, hsequence, hf.memoryType⟩, rfl⟩, s, s, rfl, ?_⟩
    rw [hrow]
    have hprior : (s.attempts.rows.filter fun a =>
        a.executionId = f.attempt.executionId).length + 1 = f.attempt.attemptNumber := by
      rw [hnumber, execution, hrowid]
    have hrowcount : row.attemptCount = f.attempt.attemptNumber := by
      rw [hjob] at hcount
      rw [← hcount, hf.attemptNumber]
    rw [hjob] at hs hlease
    simp only [Tx.bind_ok, Tx.require_ok, columnsHold_ok, construct_ok, onAttempts, onMemory, onJobs,
      Tx.write_ok, hattempt]
    exact ⟨(), s, ⟨⟨hs, hlease⟩, rfl⟩, (), s, ⟨hrowcount, rfl⟩, (), s, ⟨hprior, rfl⟩,
      (), _, ⟨A, hA, rfl⟩, (), _, ⟨M, hM, rfl⟩, (), _, hM', (), _, ⟨T, hT, rfl⟩,
      (), _, ⟨hholds, rfl⟩, settled_check ((settled_finishedRow.trans hnew.symm) ▸
        hfinished.job_check), rfl⟩
  have hkept := hk.update_row (finishedRow now f row) rfl hTrows
  have hstored : ∃ j ∈ T.rows, j.executionId = f.attempt.executionId := by
    refine ⟨finishedRow now f row, ?_, hrowid⟩
    rw [hTrows]
    exact List.mem_map.2 ⟨row, hmem, if_pos rfl⟩
  have hterminalid : ∀ m ∈ f.terminalMemory, m.executionId = f.attempt.executionId := by
    intro m hm
    rw [Option.mem_def] at hm
    rw [hm] at hterminal
    exact hterminal.2.1.trans hf.attemptId.symm
  refine ⟨_, Tx.commit_of_ok hrun, ⟨fun a ha => ?_, fun m hm => ?_⟩, ?_⟩
  · rw [hArows] at ha
    rcases List.mem_append.1 ha with ha | ha
    · exact hkept.attempts a ha
    · rw [List.mem_singleton.1 ha]
      exact hstored
  · rw [hM'rows] at hm
    have hm' : m ∈ (s.memory.rows ++ [f.attemptMemory]) ++ f.terminalMemory.toList := by
      rw [← hMrows]
      exact hm
    rcases List.mem_append.1 hm' with hm' | hm'
    · rcases List.mem_append.1 hm' with hm' | hm'
      · exact hkept.memory m hm'
      · rw [List.mem_singleton.1 hm', hmemid]
        exact hstored
    · rw [hterminalid m (Option.mem_toList.1 hm')]
      exact hstored
  · have hallmemory : M'.rows = s.memory.rows ++ f.attemptMemory :: f.terminalMemory.toList := by
      rw [hM'rows, hMrows]
      simp
    rw [view, hTrows, hrowid]
    refine Executions.map_eq_replace (fun j _ => execution_executionId s j) (fun j hj hjid => ?_)
      fun j hj hjid => ?_
    · rw [row_unique hj hmem (hjid.trans hrowid.symm)]
      have hnewid : (finishedRow now f row).executionId = f.attempt.executionId := hrowid
      have hkeep : f.terminalMemory.toList.filter
          (fun m => decide (m.executionId = f.attempt.executionId)) = f.terminalMemory.toList :=
        List.filter_eq_self.2 fun m hm => by simpa using hterminalid m (Option.mem_toList.1 hm)
      rw [Execution.finish, hjob, execution, settled_finishedRow, hnewid]
      simp only [execution, hArows, hallmemory, hrowid, List.filter_append, List.filter_cons, hmemid,
        decide_true, if_true, hkeep, List.filter_nil]
    · have hdrop : f.terminalMemory.toList.filter
          (fun m => decide (m.executionId = j.executionId)) = [] :=
        List.filter_eq_nil_iff.2 fun m hm => by
          have := hterminalid m (Option.mem_toList.1 hm)
          simpa [this] using hjid.symm
      simp only [execution, hArows, hallmemory, List.filter_append, List.filter_cons, hmemid,
        hdrop, List.filter_nil, hjid.symm, decide_false]
      simp

theorem finish_refines {columns : ColumnTypes} (now : Time) {f : FinishRequest}
    {claimed : AgentExecutionJob} {worker : String} (hk : Kept s)
    (h : Executions.Lawful (view s)) (hf : f.Issued claimed worker)
    (hstored : ∃ e ∈ view s, e.job.identity = claimed.identity)
    (hholds : columns.limits.finish f = true) :
    Kept (Tx.commit (finishAgentExecution columns now f) s).2 ∧
      view (Tx.commit (finishAgentExecution columns now f) s).2 =
        (Executions.finish now f (view s)).2 ∧
      SameAnswer (Tx.commit (finishAgentExecution columns now f) s).1
        (Executions.finish now f (view s)).1 := by
  -- the claimed execution is the one the attempt is about
  obtain ⟨e, he, hid⟩ := hstored
  have heid : e.job.executionId = f.attempt.executionId :=
    (AgentExecutionJob.executionId_of_identity hid).trans hf.attemptId.symm
  have hget : Executions.get? (view s) f.attempt.executionId = some e := heid ▸ h.get? he
  have hrow := hget
  rw [get?_view, Option.map_eq_some_iff] at hrow
  obtain ⟨row, hrow, rfl⟩ := hrow
  unfold Executions.finish SameAnswer
  rw [hget]
  dsimp only
  by_cases hacc : (execution s row).accepts f = true
  · obtain ⟨t, hcommit, hkept, hview⟩ := finish_isOk now hk h hf hrow hid.symm hacc hholds
    obtain ⟨hs, -⟩ := Execution.accepts_iff.1 hacc
    have hopen : row.status.terminal = false := by
      have hrs : (execution s row).job.status = row.status := settled_status row
      rw [← hrs, hs]
      rfl
    have hjob : (execution s row).job = row := settled_of_open hopen
    rw [if_pos hacc, hcommit, hjob, ← settled_finishedRow]
    exact ⟨hkept, hview, congrArg some (settled_view _).symm⟩
  · have hno : ∀ r, (finishAgentExecution columns now f).run s ≠ .ok r := by
      intro r hr
      obtain ⟨-, row', hrow', hacc'⟩ := finish_accepted hr
      rw [hrow] at hrow'
      cases hrow'
      exact hacc hacc'
    obtain ⟨hs, ho⟩ := Tx.commit_of_not_ok hno
    rw [if_neg hacc, hs, ho]
    exact ⟨hk, rfl, rfl⟩

/-! ## Traces -/

/-- the stored evidence is in order already -/
theorem loadTrace_run {row : AgentExecutionJob} (h : (execution s row).Lawful)
    (hrow : s.jobs.get? row.executionId = some row) :
    (loadAgentExecutionTrace row.executionId).run s =
      .ok (some ⟨row, (execution s row).attempts, (execution s row).memory⟩, s) := by
  have hattempts : (execution s row).attempts.insertionSort
      (fun a b => a.attemptNumber ≤ b.attemptNumber) = (execution s row).attempts := by
    refine List.Pairwise.insertionSort_eq ?_
    have hsorted : ((execution s row).attempts.map AgentExecutionAttempt.attemptNumber).Pairwise
        (· ≤ ·) := by
      rw [h.numbers]
      exact List.pairwise_le_range'
    exact List.pairwise_map.1 hsorted
  have hmemory : (execution s row).memory.insertionSort (fun a b => a.sequence ≤ b.sequence) =
      (execution s row).memory :=
    List.Pairwise.insertionSort_eq (List.pairwise_map.1 (h.sorted.imp fun hab => hab.le))
  have hchecked : (execution s row).attempts.mapM AgentExecutionAttempt.check =
      .ok (execution s row).attempts := by
    have := Result.mapM_ok (g := id) h.attemptsChecked
    rwa [List.map_id] at this
  have hentries : (execution s row).memory.mapM AgentMemoryEntry.check =
      .ok (execution s row).memory := by
    have hcheck : ∀ m ∈ (execution s row).memory, AgentMemoryEntry.check m = .ok (id m) := by
      intro m hm
      have hpos : 0 < m.sequence := by
        have := s.memory.checked m (List.mem_of_mem_filter hm)
        simpa [agentMemoryEntrySchema] using this
      rw [AgentMemoryEntry.check, validateModel_ok]
      refine ⟨?_, by simp, rfl⟩
      simpa using Nat.one_le_of_lt hpos
    have := Result.mapM_ok hcheck
    rwa [List.map_id] at this
  have htrace := @Execution.Lawful.trace_check _ h row (execution_executionId s row).symm (by
    obtain ⟨t, ht⟩ := settled_eq row
    rw [execution, ht])
  simp only [loadAgentExecutionTrace, failing_ok, Tx.bind_ok, Tx.get_ok]
  refine ⟨s, s, rfl, ?_⟩
  rw [hrow]
  simp only [Tx.bind_ok, construct_ok, Tx.pure_ok]
  refine ⟨row, s, ⟨settled_check h.job_check, rfl⟩, (execution s row).attempts, s,
    ⟨?_, rfl⟩, (execution s row).memory, s, ⟨?_, rfl⟩, _, s, ⟨htrace, rfl⟩, rfl⟩
  · rw [← hchecked]
    exact congrArg _ hattempts
  · rw [← hentries]
    exact congrArg _ hmemory

/-- **The database is an agent-execution repository,** whatever its columns can hold. -/
theorem refines (columns : ColumnTypes) :
    (repository columns).Refines columns.limits view Kept where
  empty := ⟨⟨by simp [repository], by simp [repository]⟩, rfl⟩
  create hk h hnew hfits := create_refines hk h hnew hfits
  refusesJob hfits := by
    refine Tx.commit_of_not_ok fun r hr => ?_
    simp only [createAgentExecution, Tx.bind_ok, Tx.require_ok, failing_ok, Tx.get_ok,
      columnsHold_ok] at hr
    obtain ⟨_, _, -, _, _, -, _, _, ⟨hyes, -⟩, -⟩ := hr
    rw [hfits] at hyes
    cases hyes
  claim clock contention id leaseSeconds hk h hw :=
    claim_refines (clock 0) contention (some id) hk h hw leaseSeconds.pos
  claimNext clock contention leaseSeconds hk h hw :=
    claim_refines (clock 0) contention none hk h hw leaseSeconds.pos
  finish now hk h hf hstored hholds := finish_refines now hk h hf hstored hholds
  refusesFinish now hholds := by
    refine Tx.commit_of_not_ok fun r hr => ?_
    rw [(finish_accepted hr).1] at hholds
    cases hholds
  loadTrace := by
    intro s id hk h
    rw [get?_view]
    cases hrow : s.jobs.get? id with
    | none =>
      refine congrArg Prod.fst (Tx.commit_of_ok (s := s) (t := s) ?_)
      simp only [loadAgentExecutionTrace, failing_ok, Tx.bind_ok, Tx.get_ok]
      refine ⟨s, s, rfl, ?_⟩
      rw [hrow]
      rfl
    | some row =>
      obtain ⟨hmem, hid⟩ := (s.jobs.get?_eq_some).1 hrow
      replace hid : row.executionId = id := hid
      subst hid
      have hlawful := h.each _ (List.mem_map_of_mem hmem)
      exact ⟨row, congrArg Prod.fst (Tx.commit_of_ok (loadTrace_run hlawful hrow)),
        (settled_view row).symm, settled_check hlawful.job_check⟩

end AgentDb

end CapitalCipher
