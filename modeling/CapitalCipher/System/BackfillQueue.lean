/-
The backfill queue and its job records, over every interleaving of submissions, claims, runs and
finishes by any number of workers.

The CHECK of the queue bounds the attempts, and a lease ends with the finish that clears it. What the
queue does not fence is the job record: a claim overwrites it without looking, and so does a run
whose lease is gone.

  • `Fenced`: no step writes over a completed job.
  • `leases_kept`: in every run, a lease ends with at most one finish.
  • `backfill_consistent`: in every fenced run, completed items have completed jobs, and a completed
    job is final.
  • `StaleRun.completed_job_overwritten`: a run that outlives its lease overwrites a completed job.
-/
import CapitalCipher.Lib.Run
import CapitalCipher.MarketData.Backfill

namespace CapitalCipher

open Lib

namespace BackfillDb

/-- a completed job keeps its status and its counters -/
def Final (s t : BackfillDb) : Prop :=
  ∀ j ∈ s.jobs.rows, j.status = .completed → ∃ j' ∈ t.jobs.rows,
    j'.jobId = j.jobId ∧ j'.status = .completed ∧ j'.counters = j.counters

instance : DecidableRel Final := fun s t => by
  unfold Final
  infer_instance

/-- a completed item has a completed job -/
def Completed (s : BackfillDb) : Prop :=
  ∀ q ∈ s.queue.rows, q.status = .completed → ∃ j ∈ s.jobs.rows,
    j.jobId = q.jobId ∧ j.status = .completed

instance : DecidablePred Completed := fun s => by
  unfold Completed
  infer_instance

/-- storing the record leaves a completed job as it is -/
def Storable (s : BackfillDb) (job : HistoricalBackfillJob) : Prop :=
  ∀ j ∈ s.jobs.rows, j.jobId = job.jobId → j.status = .completed →
    job.status = .completed ∧ job.counters = j.counters

instance (s : BackfillDb) : DecidablePred (Storable s) := fun job => by
  unfold Storable
  infer_instance

/-- no item is leased or completed that was not so before -/
structure Unclaimed (s t : BackfillDb) : Prop where
  leased : ∀ q ∈ t.queue.rows, q.status = .leased →
    ∃ q' ∈ s.queue.rows, q'.queueId = q.queueId ∧ q'.status = .leased
  completed : ∀ q ∈ t.queue.rows, q.status = .completed → q ∈ s.queue.rows

instance : IsPreorder BackfillDb Final where
  refl s j hj hc := ⟨j, hj, rfl, hc, rfl⟩
  trans s t u h h' j hj hc := by
    obtain ⟨j', hj', hid, hc', hn⟩ := h j hj hc
    obtain ⟨j'', hj'', hid', hc'', hn'⟩ := h' j' hj' hc'
    exact ⟨j'', hj'', hid'.trans hid, hc'', hn'.trans hn⟩

instance : IsPreorder BackfillDb Unclaimed where
  refl s := ⟨fun q hq hs => ⟨q, hq, rfl, hs⟩, fun q hq _ => hq⟩
  trans s t u h h' := by
    refine ⟨fun q hq hs => ?_, fun q hq hs => h.completed q (h'.completed q hq hs) hs⟩
    obtain ⟨q', hq', hid, hs'⟩ := h'.leased q hq hs
    obtain ⟨q'', hq'', hid', hs''⟩ := h.leased q' hq' hs'
    exact ⟨q'', hq'', hid'.trans hid, hs''⟩

/-- completed items keep their completed jobs -/
theorem Completed.mono {s t : BackfillDb} (h : Completed s) (hf : Final s t)
    (hu : Unclaimed s t) : Completed t := by
  intro q hq hs
  obtain ⟨j, hj, hid, hc⟩ := h q (hu.completed q hq hs) hs
  obtain ⟨j', hj', hid', hc', -⟩ := hf j hj hc
  exact ⟨j', hj', hid'.trans hid, hc'⟩

/-! ## What the transactions did -/

variable {s t : BackfillDb}

theorem failing_ok {α : Type} {pre : String} {x : BackfillTx α} {r : α × BackfillDb} :
    (failing pre x).run s = .ok r ↔ x.run s = .ok r := Tx.wrap_ok

theorem construct_ok {α : Type} {c : Except Error α} {r : α × BackfillDb} :
    (construct c).run s = .ok r ↔ c = .ok r.1 ∧ r.2 = s := by
  cases c with
  | error e => exact ⟨fun h => (Tx.throw_ok.1 h).elim, fun h => by cases h.1⟩
  | ok a =>
    rw [construct, Tx.pure_ok]
    constructor
    · rintro rfl
      exact ⟨rfl, rfl⟩
    · rintro ⟨h1, h2⟩
      cases h1
      exact Prod.ext rfl h2

theorem setJob_ok {id : BackfillId} {f : HistoricalBackfillJob → HistoricalBackfillJob}
    {r : Unit × BackfillDb} (h : (setJob id f).run s = .ok r) :
    r.2.queue = s.queue ∧
      r.2.jobs.rows = s.jobs.rows.map fun j => if j.jobId = id then f j else j := by
  unfold setJob onJobs at h
  obtain ⟨T, hT, he⟩ := Tx.write_ok.1 h
  cases he
  refine ⟨rfl, (Table.update_ok hT).1.trans (List.map_congr_left fun j _ => ?_)⟩
  simp only [decide_eq_true_eq]

theorem setItem_ok {id : BackfillId} {f : BackfillQueueItem → BackfillQueueItem}
    {r : Unit × BackfillDb} (h : (setItem id f).run s = .ok r) :
    r.2.jobs = s.jobs ∧
      r.2.queue.rows = s.queue.rows.map fun q => if q.queueId = id then f q else q := by
  unfold setItem onQueue at h
  obtain ⟨T, hT, he⟩ := Tx.write_ok.1 h
  cases he
  refine ⟨rfl, (Table.update_ok hT).1.trans (List.map_congr_left fun q _ => ?_)⟩
  simp only [decide_eq_true_eq]

/-- an update that keeps completed jobs as they are -/
theorem final_of_map {p : HistoricalBackfillJob → Prop} [DecidablePred p]
    {f : HistoricalBackfillJob → HistoricalBackfillJob}
    (hrows : t.jobs.rows = s.jobs.rows.map fun j => if p j then f j else j)
    (hf : ∀ j ∈ s.jobs.rows, p j → j.status = .completed →
      (f j).jobId = j.jobId ∧ (f j).status = .completed ∧ (f j).counters = j.counters) :
    Final s t := by
  intro j hj hc
  by_cases hp : p j
  · refine ⟨f j, ?_, hf j hj hp hc⟩
    rw [hrows]
    exact List.mem_map.2 ⟨j, hj, if_pos hp⟩
  · refine ⟨j, ?_, rfl, hc, rfl⟩
    rw [hrows]
    exact List.mem_map.2 ⟨j, hj, if_neg hp⟩

/-- an update that leases and completes nothing -/
theorem unclaimed_of_map {p : BackfillQueueItem → Prop} [DecidablePred p]
    {f : BackfillQueueItem → BackfillQueueItem}
    (hrows : t.queue.rows = s.queue.rows.map fun q => if p q then f q else q)
    (hf : ∀ q ∈ s.queue.rows, p q → (f q).status ≠ .leased ∧ (f q).status ≠ .completed) :
    Unclaimed s t := by
  refine ⟨fun q hq hs => ?_, fun q hq hs => ?_⟩
  · rw [hrows] at hq
    obtain ⟨x, hx, rfl⟩ := List.mem_map.1 hq
    by_cases hp : p x
    · rw [if_pos hp] at hs
      exact absurd hs (hf x hx hp).1
    · rw [if_neg hp] at hs ⊢
      exact ⟨x, hx, rfl, hs⟩
  · rw [hrows] at hq
    obtain ⟨x, hx, rfl⟩ := List.mem_map.1 hq
    by_cases hp : p x
    · rw [if_pos hp] at hs
      exact absurd hs (hf x hx hp).2
    · rw [if_neg hp]
      exact hx

theorem final_of_eq (h : t.jobs = s.jobs) : Final s t := by
  intro j hj hc
  exact ⟨j, h ▸ hj, rfl, hc, rfl⟩

theorem unclaimed_of_eq (h : t.queue = s.queue) : Unclaimed s t :=
  ⟨fun q hq hs => ⟨q, h ▸ hq, rfl, hs⟩, fun _ hq _ => h ▸ hq⟩

theorem final_of_insert {job : HistoricalBackfillJob} (h : s.jobs.insert job = .ok t.jobs) :
    Final s t := by
  intro j hj hc
  refine ⟨j, ?_, rfl, hc, rfl⟩
  rw [(Table.insert_ok h).1]
  exact List.mem_append_left _ hj

theorem unclaimed_of_insert {item : BackfillQueueItem} (h : s.queue.insert item = .ok t.queue)
    (hs : item.status = .pending) : Unclaimed s t := by
  have hrows := (Table.insert_ok h).1
  refine ⟨fun q hq hl => ?_, fun q hq hc => ?_⟩
  · rw [hrows] at hq
    rcases List.mem_append.1 hq with hq | hq
    · exact ⟨q, hq, rfl, hl⟩
    · rw [List.mem_singleton.1 hq, hs] at hl
      cases hl
  · rw [hrows] at hq
    rcases List.mem_append.1 hq with hq | hq
    · exact hq
    · rw [List.mem_singleton.1 hq, hs] at hc
      cases hc

theorem loadJob_ok {id : BackfillId} {r : Option HistoricalBackfillJob × BackfillDb}
    (h : (loadHistoricalBackfillJob id).run s = .ok r) : r.2 = s := by
  simp only [loadHistoricalBackfillJob, Tx.bind_ok, Tx.get_ok] at h
  obtain ⟨_, _, he, h⟩ := h
  cases he
  split at h
  · cases Tx.pure_ok.1 h
    rfl
  · rw [map_eq_pure_bind, Tx.bind_ok] at h
    obtain ⟨job, u, h1, h2⟩ := h
    cases Tx.pure_ok.1 h2
    exact (construct_ok.1 h1).2

theorem saveJob_final {job : HistoricalBackfillJob} (hjob : Storable s job)
    {r : Unit × BackfillDb} (h : (saveHistoricalBackfillJob job).run s = .ok r) :
    Final s r.2 := by
  simp only [saveHistoricalBackfillJob, failing_ok, Tx.bind_ok, Tx.get_ok] at h
  obtain ⟨_, _, he, h⟩ := h
  cases he
  split at h
  · obtain ⟨T, hT, he⟩ := Tx.write_ok.1 h
    cases he
    exact final_of_insert hT
  · refine final_of_map (setJob_ok h).2 fun j hj hid hc => ⟨hid.symm, ?_⟩
    exact hjob j hj hid hc

theorem saveJob_queue {job : HistoricalBackfillJob} {r : Unit × BackfillDb}
    (h : (saveHistoricalBackfillJob job).run s = .ok r) : r.2.queue = s.queue := by
  simp only [saveHistoricalBackfillJob, failing_ok, Tx.bind_ok, Tx.get_ok] at h
  obtain ⟨_, _, he, h⟩ := h
  cases he
  split at h
  · obtain ⟨T, hT, he⟩ := Tx.write_ok.1 h
    cases he
    rfl
  · exact (setJob_ok h).1

theorem insertJob_keeps {job : HistoricalBackfillJob} {r : Unit × BackfillDb}
    (h : (insertJob job).run s = .ok r) : Final s r.2 ∧ Unclaimed s r.2 := by
  simp only [insertJob, Tx.bind_ok, Tx.get_ok] at h
  obtain ⟨_, _, he, h⟩ := h
  cases he
  split at h
  · obtain ⟨T, hT, he⟩ := Tx.write_ok.1 h
    cases he
    exact ⟨final_of_insert hT, unclaimed_of_eq rfl⟩
  · cases Tx.pure_ok.1 h
    exact ⟨refl_of Final _, refl_of Unclaimed _⟩

theorem insertItem_keeps {item : BackfillQueueItem} (hs : item.status = .pending)
    {r : Unit × BackfillDb} (h : (insertItem item).run s = .ok r) :
    Final s r.2 ∧ Unclaimed s r.2 := by
  simp only [insertItem, Tx.bind_ok, Tx.get_ok] at h
  obtain ⟨_, _, he, h⟩ := h
  cases he
  split at h
  · obtain ⟨T, hT, he⟩ := Tx.write_ok.1 h
    cases he
    exact ⟨final_of_eq rfl, unclaimed_of_insert hT hs⟩
  · cases Tx.pure_ok.1 h
    exact ⟨refl_of Final _, refl_of Unclaimed _⟩

/-- a submission goes over no completed job, and leases nothing -/
theorem submit_keeps {job : HistoricalBackfillJob} {item : BackfillQueueItem}
    (hs : item.status = .pending) {r : Bool × BackfillDb}
    (h : (submitHistoricalBackfill job item).run s = .ok r) :
    Final s r.2 ∧ Unclaimed s r.2 := by
  simp only [submitHistoricalBackfill, Tx.bind_ok, Tx.require_ok, failing_ok, Tx.get_ok] at h
  obtain ⟨_, _, ⟨-, he⟩, _, s₁, h1, _, s₂, h2, _, _, he', h⟩ := h
  cases he
  cases he'
  have hfirst := insertJob_keeps h1
  have hsecond := insertItem_keeps hs h2
  have hmid : Final s s₂ ∧ Unclaimed s s₂ :=
    ⟨trans_of Final hfirst.1 hsecond.1, trans_of Unclaimed hfirst.2 hsecond.2⟩
  split at h
  · exact (Tx.throw_ok.1 h).elim
  · exact (Tx.throw_ok.1 h).elim
  · rename_i queueRow jobRow hqueue hjob
    obtain ⟨hjobmem, hjobid⟩ := (s₂.jobs.get?_eq_some).1 hjob
    split_ifs at h with hcompleted hleased
    · cases Tx.pure_ok.1 h
      exact hmid
    · cases Tx.pure_ok.1 h
      exact hmid
    · simp only [Tx.bind_ok, Tx.pure_ok] at h
      obtain ⟨_, s₃, h3, _, s₄, h4, he⟩ := h
      cases he
      obtain ⟨hq3, hj3⟩ := setJob_ok h3
      obtain ⟨hj4, hq4⟩ := setItem_ok h4
      rw [hq3] at hq4
      refine ⟨trans_of Final hmid.1 (trans_of Final (final_of_map hj3 ?_) (final_of_eq hj4)),
        trans_of Unclaimed hmid.2 (unclaimed_of_map hq4 ?_)⟩
      · intro j hj hid hc
        rw [s₂.jobs.eq_of_key_eq hj hjobmem (hid.trans hjobid.symm)] at hc
        exact absurd hc hcompleted
      · intro q hq hid
        simp [hs]

/-! ## Claims -/

/-- the loop gives up exactly its items and their jobs -/
theorem deadLetters_ok {now : Time} {rows : List BackfillQueueItem} {r : Unit × BackfillDb}
    (h : (Tx.forEach rows (deadLetter now)).run s = .ok r) :
    (r.2.queue.rows = s.queue.rows.map fun q =>
      if q.queueId ∈ rows.map BackfillQueueItem.queueId then abandonedItem now q else q) ∧
    r.2.jobs.rows = s.jobs.rows.map fun j =>
      if j.jobId ∈ rows.map BackfillQueueItem.jobId then abandonedJob now j else j := by
  induction rows generalizing s with
  | nil =>
    cases Tx.pure_ok.1 h
    simp
  | cons row rows ih =>
    rw [Tx.forEach, Tx.bind_ok] at h
    obtain ⟨_, s₁, h1, h2⟩ := h
    obtain ⟨hqueue, hjobs⟩ := ih h2
    rw [deadLetter, Tx.bind_ok] at h1
    obtain ⟨_, s₂, h3, h4⟩ := h1
    obtain ⟨hj3, hq3⟩ := setItem_ok h3
    obtain ⟨hq4, hj4⟩ := setJob_ok h4
    rw [hqueue, hjobs, hq4, hq3, hj4, hj3, List.map_map, List.map_map]
    refine ⟨List.map_congr_left fun q _ => ?_, List.map_congr_left fun j _ => ?_⟩
    · by_cases hid : q.queueId = row.queueId
      · have hsame : (abandonedItem now q).queueId = q.queueId := rfl
        simp only [Function.comp_apply, List.map_cons, List.mem_cons, hid, if_true, true_or]
        split_ifs <;> rfl
      · simp only [Function.comp_apply, List.map_cons, List.mem_cons, hid, if_false, false_or]
    · by_cases hid : j.jobId = row.jobId
      · simp only [Function.comp_apply, List.map_cons, List.mem_cons, hid, if_true, true_or]
        split_ifs <;> rfl
      · simp only [Function.comp_apply, List.map_cons, List.mem_cons, hid, if_false, false_or]

/-- giving up the exhausted items does not change which item is claimed -/
theorem claimedRow_abandoned (now : Time) (locked : BackfillId → Bool) (choice : ℕ)
    (T : Table backfillQueueItemSchema) :
    claimedRow now locked choice (T.rows.map fun q =>
      if q.queueId ∈ (T.rows.filter (exhausted now locked)).map BackfillQueueItem.queueId then
        abandonedItem now q else q) = claimedRow now locked choice T.rows := by
  have hexhausted : ∀ q ∈ T.rows,
      q.queueId ∈ (T.rows.filter (exhausted now locked)).map BackfillQueueItem.queueId →
      exhausted now locked q = true := by
    intro q hq hmem
    obtain ⟨x, hx, hid⟩ := List.mem_map.1 hmem
    rw [List.mem_filter] at hx
    rw [← T.eq_of_key_eq hx.1 hq hid]
    exact hx.2
  have hnot : ∀ q, exhausted now locked q = true → claimable now locked q = false := by
    intro q hq
    simp only [exhausted, Bool.and_eq_true, decide_eq_true_eq] at hq
    have hattempts : ¬ q.attemptCount < q.maxAttempts := Nat.not_lt.2 hq.1.1
    simp [claimable, hattempts]
  have htied : tied (claimable now locked) (fun q => toLex (q.availableAt, q.createdAt))
      (T.rows.map fun q =>
        if q.queueId ∈ (T.rows.filter (exhausted now locked)).map BackfillQueueItem.queueId then
          abandonedItem now q else q) =
      tied (claimable now locked) (fun q => toLex (q.availableAt, q.createdAt)) T.rows := by
    refine tied_map_fixed (fun q hq => ?_) fun q hq hc => ?_
    · split_ifs with hmem
      · rw [hnot q (hexhausted q hq hmem)]
        rfl
      · rfl
    · split_ifs with hmem
      · rw [hnot q (hexhausted q hq hmem)] at hc
        cases hc
      · rfl
  simp only [claimedRow, htied]

theorem claimedRow_mem {now : Time} {locked : BackfillId → Bool} {choice : ℕ}
    {rows : List BackfillQueueItem} {q : BackfillQueueItem}
    (h : claimedRow now locked choice rows = some q) :
    q ∈ rows ∧ claimable now locked q = true :=
  mem_tied (List.mem_of_getElem? h)

/-- the jobs a claim writes: of the items it gives up and of the one it leases -/
def Taken (now : Time) (locked : BackfillId → Bool) (choice : ℕ) (s : BackfillDb)
    (q : BackfillQueueItem) : Prop :=
  exhausted now locked q = true ∨ claimedRow now locked choice s.queue.rows = some q

instance (now : Time) (locked : BackfillId → Bool) (choice : ℕ) (s : BackfillDb) :
    DecidablePred (Taken now locked choice s) := fun q => by
  unfold Taken
  infer_instance

/-- what a claim did -/
theorem claim_keeps {now : Time} {locked : BackfillId → Bool} {choice : ℕ} {workerId : String}
    {leaseSeconds : ℕ} {r : Option BackfillQueueItem × BackfillDb}
    (h : (claimNextBackfill now locked choice workerId leaseSeconds).run s = .ok r) :
    ((∀ q ∈ s.queue.rows, Taken now locked choice s q → ∀ j ∈ s.jobs.rows, j.jobId = q.jobId →
        j.status ≠ .completed) → Final s r.2) ∧
      (∀ q ∈ r.2.queue.rows, q.status = .completed → q ∈ s.queue.rows) ∧
      ∀ q ∈ r.2.queue.rows, q.status = .leased →
        (∃ q' ∈ s.queue.rows, q'.queueId = q.queueId ∧ q'.status = .leased) ∨
          ∃ item, r.1 = some item ∧ item.queueId = q.queueId := by
  simp only [claimNextBackfill, Tx.bind_ok, Tx.require_ok, failing_ok, Tx.get_ok] at h
  obtain ⟨_, _, ⟨-, he⟩, _, _, he', _, s₁, h1, _, _, he'', h⟩ := h
  cases he
  cases he'
  cases he''
  obtain ⟨hqueue, hjobs⟩ := deadLetters_ok h1
  have hloop : Unclaimed s s₁ := unclaimed_of_map hqueue fun q _ _ => by simp [abandonedItem]
  have hloopFinal : (∀ q ∈ s.queue.rows, Taken now locked choice s q →
      ∀ j ∈ s.jobs.rows, j.jobId = q.jobId → j.status ≠ .completed) → Final s s₁ := by
    intro hclear
    refine final_of_map hjobs fun j hj hmem hc => ?_
    obtain ⟨q, hq, hid⟩ := List.mem_map.1 hmem
    rw [List.mem_filter] at hq
    exact absurd hc (hclear q hq.1 (.inl hq.2) j hj hid.symm)
  rw [hqueue, claimedRow_abandoned] at h
  cases hrow : claimedRow now locked choice s.queue.rows with
  | none =>
    rw [hrow] at h
    cases Tx.pure_ok.1 h
    exact ⟨hloopFinal, hloop.completed, fun q hq hs => .inl (hloop.leased q hq hs)⟩
  | some row =>
    rw [hrow] at h
    simp only [Tx.bind_ok] at h
    obtain ⟨_, s₂, h2, h⟩ := h
    obtain ⟨hj2, hq2⟩ := setItem_ok h2
    split at h
    · exact (Tx.throw_ok.1 h).elim
    · simp only [Tx.bind_ok, map_eq_pure_bind, construct_ok, Tx.pure_ok] at h
      obtain ⟨_, s₃, h3, item, s₄, ⟨hitem, he⟩, he'⟩ := h
      cases he
      cases he'
      obtain ⟨hq3, hj3⟩ := setJob_ok h3
      have hrowid : item.queueId = row.queueId := by
        rw [BackfillQueueItem.check_eq hitem]
      refine ⟨fun hclear => trans_of Final (hloopFinal hclear) ?_, fun q hq hs => ?_,
        fun q hq hs => ?_⟩
      · rw [hj2] at hj3
        refine final_of_map hj3 fun j hj hid hc => ?_
        -- the leased item's job was not completed before the loop, nor after it
        rw [hjobs] at hj
        obtain ⟨x, hx, rfl⟩ := List.mem_map.1 hj
        split_ifs at hid hc with hmem
        · cases hc
        · exact absurd hc (hclear row (claimedRow_mem hrow).1 (.inr hrow) x hx hid)
      · rw [hq3, hq2] at hq
        obtain ⟨x, hx, rfl⟩ := List.mem_map.1 hq
        split_ifs at hs ⊢
        exact hloop.completed x hx hs
      · rw [hq3, hq2] at hq
        obtain ⟨x, hx, rfl⟩ := List.mem_map.1 hq
        by_cases hid : x.queueId = row.queueId
        · refine .inr ⟨item, rfl, ?_⟩
          rw [if_pos hid]
          exact hrowid
        · rw [if_neg hid] at hs ⊢
          exact .inl (hloop.leased x hx hs)

/-! ## Finishes -/

/-- what a finish did: it ended a lease, and completed the item only with its job -/
theorem finish_keeps {now : Time} {queueId : BackfillId} {workerId : String}
    {result : HistoricalBackfillJob} {retryable : Bool} {retryDelay : ℚ}
    {r : BackfillQueueItem × BackfillDb}
    (h : (finishBackfillQueueItem now queueId workerId result retryable retryDelay).run s = .ok r) :
    (∃ row ∈ s.queue.rows, row.queueId = queueId ∧ row.status = .leased ∧
        row.leasedBy = some workerId) ∧
      (Storable s result → Final s r.2) ∧ (Completed s → Storable s result → Completed r.2) ∧
      ∀ q ∈ r.2.queue.rows, q.status = .leased → q.queueId ≠ queueId ∧ q ∈ s.queue.rows := by
  simp only [finishBackfillQueueItem, Tx.bind_ok, Tx.require_ok, failing_ok, Tx.get_ok] at h
  obtain ⟨_, _, ⟨-, he⟩, _, _, he', h⟩ := h
  cases he
  cases he'
  cases hrow : s.queue.get? queueId with
  | none =>
    rw [hrow] at h
    exact (Tx.throw_ok.1 h).elim
  | some row =>
    rw [hrow] at h
    simp only [Tx.bind_ok, Tx.require_ok, construct_ok] at h
    obtain ⟨_, _, ⟨hlease, he⟩, _, _, ⟨hresult, he'⟩, _, _, ⟨hstored, he''⟩, _, s₁, h1, _, s₂, h2,
      -, hrow'⟩ := h
    cases he
    cases he'
    cases he''
    obtain ⟨hmem, hid⟩ := (s.queue.get?_eq_some).1 hrow
    replace hid : row.queueId = queueId := hid
    obtain ⟨hq1, hj1⟩ := setJob_ok h1
    obtain ⟨hj2, hq2⟩ := setItem_ok h2
    rw [hq1] at hq2
    have hfinal : Storable s result → Final s r.2 := by
      intro hstorable
      rw [hrow']
      refine trans_of Final (final_of_map hj1 fun j hj hjid hc => ?_) (final_of_eq hj2)
      obtain ⟨hcompleted, hcounters⟩ := hstorable j hj (hjid.trans hresult.symm) hc
      have hretry : shouldRetry result retryable row = false := by
        simp [shouldRetry, hcompleted]
      rw [hretry]
      exact ⟨hresult.trans hjid.symm, hcompleted, hcounters⟩
    refine ⟨⟨row, hmem, hid, hlease.1, hlease.2⟩, hfinal, fun hcompleted hstorable => ?_,
      fun q hq hs => ?_⟩
    · intro q hq hs
      rw [hrow', hq2] at hq
      obtain ⟨x, hx, rfl⟩ := List.mem_map.1 hq
      by_cases hxid : x.queueId = queueId
      · rw [if_pos hxid] at hs ⊢
        -- the finished item is completed with a completed result, which its job took over
        have hdone : result.status = .completed := by
          by_contra hne
          simp only [finishedItem, hne, if_false] at hs
          split_ifs at hs
        have hretry : shouldRetry result retryable row = false := by
          simp [shouldRetry, hdone]
        obtain ⟨j, hj⟩ := Option.isSome_iff_exists.1 hstored
        obtain ⟨hjmem, hjid⟩ := (s.jobs.get?_eq_some).1 hj
        refine ⟨finishedJob now result (shouldRetry result retryable row) j, ?_, ?_, ?_⟩
        · rw [hrow', hj2, hj1]
          exact List.mem_map.2 ⟨j, hjmem, if_pos hjid⟩
        · rw [hretry]
          exact hresult
        · rw [hretry]
          exact hdone
      · rw [if_neg hxid] at hs ⊢
        obtain ⟨j, hj, hjid, hc⟩ := hcompleted x hx hs
        obtain ⟨j', hj', hjid', hc', -⟩ := hfinal hstorable j hj hc
        exact ⟨j', hj', hjid'.trans hjid, hc'⟩
    · rw [hrow', hq2] at hq
      obtain ⟨x, hx, rfl⟩ := List.mem_map.1 hq
      by_cases hxid : x.queueId = queueId
      · rw [if_pos hxid] at hs
        simp only [finishedItem] at hs
        split_ifs at hs
      · rw [if_neg hxid]
        exact ⟨hxid, hx⟩

end BackfillDb

/-! ## What a step can do -/

namespace BackfillWorld

open BackfillDb HistoricalBackfillWorker

/-- the item a finish would end is leased by that worker -/
def Held (db : BackfillDb) (worker : HistoricalBackfillWorker) (item : BackfillQueueItem) : Prop :=
  ∃ q ∈ db.queue.rows, q.queueId = item.queueId ∧ q.status = .leased ∧
    q.leasedBy = some worker.workerId

instance (db : BackfillDb) (worker : HistoricalBackfillWorker) (item : BackfillQueueItem) :
    Decidable (Held db worker item) := by
  unfold Held
  infer_instance

/-- a claim takes no item whose job is completed -/
def Clear (env : BackfillEnv) (db : BackfillDb) : Prop :=
  ∀ q ∈ db.queue.rows, Taken env.now env.locked env.choice db q →
    ∀ j ∈ db.jobs.rows, j.jobId = q.jobId → j.status ≠ .completed

instance (env : BackfillEnv) : DecidablePred (Clear env) := fun db => by
  unfold Clear
  infer_instance

/-- the next transaction of a task -/
inductive Change (env : BackfillEnv) (w : BackfillWorld) : BackfillTask → BackfillWorld → Prop
  | same (task : BackfillTask) : Change env w task w
  | submitted {request : HistoricalBackfillRequest} {n : ℕ} {source : String}
      {previous : Option HistoricalBackfillJob} {s : BackfillDb} (final : Final w.db s)
      (unclaimed : Unclaimed w.db s) :
      Change env w (.submitStore request n source previous) { w with db := s }
  | passed {worker : HistoricalBackfillWorker} {s : BackfillDb}
      (final : Clear env w.db → Final w.db s) (unclaimed : Unclaimed w.db s) :
      Change env w (.claim worker) { w with db := s }
  | claimed {worker : HistoricalBackfillWorker} {s : BackfillDb} (item : BackfillQueueItem)
      (final : Clear env w.db → Final w.db s)
      (completed : ∀ q ∈ s.queue.rows, q.status = .completed → q ∈ w.db.queue.rows)
      (leased : ∀ q ∈ s.queue.rows, q.status = .leased →
        (∃ q' ∈ w.db.queue.rows, q'.queueId = q.queueId ∧ q'.status = .leased) ∨
          item.queueId = q.queueId) :
      Change env w (.claim worker)
        { w with
          db := s, granted := w.granted + 1,
          current := AList.insert item.queueId w.granted w.current }
  | started {worker : HistoricalBackfillWorker} {item : BackfillQueueItem}
      {job : HistoricalBackfillJob} {s : BackfillDb} (final : Storable w.db job → Final w.db s)
      (queue : s.queue = w.db.queue) : Change env w (.start worker item job) { w with db := s }
  | stored {worker : HistoricalBackfillWorker} {item : BackfillQueueItem}
      {job : HistoricalBackfillJob} {s : BackfillDb} (final : Storable w.db job → Final w.db s)
      (queue : s.queue = w.db.queue) : Change env w (.store worker item job) { w with db := s }
  | finished {worker : HistoricalBackfillWorker} {item : BackfillQueueItem}
      {result : HistoricalBackfillJob} {s : BackfillDb} (held : Held w.db worker item)
      (final : Storable w.db result → Final w.db s)
      (completed : BackfillDb.Completed w.db → Storable w.db result → BackfillDb.Completed s)
      (leased : ∀ q ∈ s.queue.rows, q.status = .leased →
        q.queueId ≠ item.queueId ∧ q ∈ w.db.queue.rows) :
      Change env w (.finish worker item result)
        { w with db := s, finishes := w.finishes ++ (w.current.lookup item.queueId).toList }

@[simp] theorem read_fst {α : Type} (w : BackfillWorld) (x : BackfillTx α)
    (next : α → BackfillTask) : (w.read x next).1 = w := by
  unfold read
  split <;> rfl

/-- a write that committed or left the database as it was -/
theorem write_change {α : Type} {w : BackfillWorld} {x : BackfillTx α} {next : α → BackfillTask}
    {P : BackfillWorld → Prop} (hsame : P w)
    (hok : ∀ a s, x.run w.db = .ok (a, s) → P { w with db := s }) : P (w.write x next).1 := by
  unfold write Tx.commit
  cases h : x.run w.db with
  | error e => exact hsame
  | ok r => exact hok r.1 r.2 h

theorem advance_change (service : HistoricalBackfillService) (env : BackfillEnv)
    (w : BackfillWorld) (task : BackfillTask) :
    Change env w task (w.advance service env task).1 := by
  cases task with
  | submit request maxAttempts =>
    simp only [advance]
    cases service.admission request maxAttempts with
    | error e => exact .same _
    | ok source =>
      simp only [read_fst]
      exact .same _
  | submitCheck request maxAttempts source previous =>
    simp only [advance, read_fst]
    exact .same _
  | submitStore request maxAttempts source previous =>
    simp only [advance]
    refine write_change (.same _) fun a s h => ?_
    obtain ⟨hfinal, hunclaimed⟩ := submit_keeps rfl h
    exact .submitted hfinal hunclaimed
  | claim worker =>
    simp only [advance, Tx.commit]
    cases h : (claimNextBackfill env.now env.locked env.choice worker.workerId
        worker.leaseSeconds).run w.db with
    | error e => exact .same _
    | ok r =>
      obtain ⟨found, s⟩ := r
      obtain ⟨hfinal, hcompleted, hleased⟩ := claim_keeps h
      cases found with
      | none =>
        refine .passed hfinal ⟨fun q hq hs => ?_, hcompleted⟩
        rcases hleased q hq hs with hold | ⟨item, hitem, -⟩
        · exact hold
        · cases hitem
      | some item =>
        refine .claimed item hfinal hcompleted fun q hq hs => ?_
        rcases hleased q hq hs with hold | ⟨item', hitem, hid⟩
        · exact .inl hold
        · cases hitem
          exact .inr hid
  | load worker item request =>
    simp only [advance, read_fst]
    exact .same _
  | start worker item job =>
    simp only [advance]
    exact write_change (.same _) fun a s h =>
      .started (fun hjob => saveJob_final hjob h) (saveJob_queue h)
  | importing worker item job => exact .same _
  | store worker item finished =>
    simp only [advance]
    exact write_change (.same _) fun a s h =>
      .stored (fun hjob => saveJob_final hjob h) (saveJob_queue h)
  | finish worker item result =>
    simp only [advance, Tx.commit]
    cases h : (finishBackfillQueueItem env.now item.queueId worker.workerId result
        (isRetryable result) (worker.retryDelay item.attemptCount)).run w.db with
    | error e => exact .same _
    | ok r =>
      obtain ⟨hheld, hfinal, hcompleted, hleased⟩ := finish_keeps h
      exact .finished hheld hfinal hcompleted hleased
  | ended => exact .same _

/-- tasks come and go; only an advance touches the rest -/
theorem step_cases (service : HistoricalBackfillService) (w : BackfillWorld) (op : BackfillOp) :
    (∃ tasks, w.step service op = { w with tasks := tasks }) ∨
      ∃ i env task tasks w', op = .advance i env ∧ w.tasks[i]? = some task ∧
        Change env w task w' ∧ w.step service op = { w' with tasks := tasks } := by
  cases op with
  | submit request maxAttempts => exact .inl ⟨_, rfl⟩
  | runOnce worker => exact .inl ⟨_, rfl⟩
  | drop i => exact .inl ⟨_, rfl⟩
  | advance i env =>
    cases htask : w.tasks[i]? with
    | none =>
      refine .inl ⟨w.tasks, ?_⟩
      simp only [step, htask]
    | some task =>
      refine .inr ⟨i, env, task, (w.advance service env task).1.tasks.set i
        (w.advance service env task).2, _, rfl, htask, advance_change service env w task, ?_⟩
      simp only [step, htask]

/-! ## Leases -/

/-- lease numbers: each item's last lease is its own, and is not finished while it is held -/
structure Leases (w : BackfillWorld) : Prop where
  current_lt : ∀ id n, w.current.lookup id = some n → n < w.granted
  current_inj : ∀ id id' n, w.current.lookup id = some n → w.current.lookup id' = some n → id = id'
  finished_lt : ∀ n ∈ w.finishes, n < w.granted
  nodup : w.finishes.Nodup
  held : ∀ q ∈ w.db.queue.rows, q.status = .leased →
    ∃ n, w.current.lookup q.queueId = some n ∧ n ∉ w.finishes

theorem Leases.of_unclaimed {w : BackfillWorld} (h : Leases w) {s : BackfillDb}
    (hu : Unclaimed w.db s) : Leases { w with db := s } := by
  refine ⟨h.current_lt, h.current_inj, h.finished_lt, h.nodup, fun q hq hs => ?_⟩
  obtain ⟨q', hq', hid, hs'⟩ := hu.leased q hq hs
  rw [← hid]
  exact h.held q' hq' hs'

/-- a fresh lease -/
theorem Leases.claimed {w : BackfillWorld} (h : Leases w) {s : BackfillDb}
    (id : BackfillId) (hleased : ∀ q ∈ s.queue.rows, q.status = .leased →
      (∃ q' ∈ w.db.queue.rows, q'.queueId = q.queueId ∧ q'.status = .leased) ∨ id = q.queueId) :
    Leases { w with
      db := s, granted := w.granted + 1, current := AList.insert id w.granted w.current } := by
  have hlookup : ∀ x n, (AList.insert id w.granted w.current).lookup x = some n →
      (x = id ∧ n = w.granted) ∨ (x ≠ id ∧ w.current.lookup x = some n) := by
    intro x n hx
    by_cases hid : x = id
    · subst hid
      rw [AList.lookup_insert] at hx
      exact .inl ⟨rfl, (Option.some.inj hx).symm⟩
    · rw [AList.lookup_insert_ne hid] at hx
      exact .inr ⟨hid, hx⟩
  refine ⟨fun x n hx => ?_, fun x y n hx hy => ?_, fun n hn => ?_, h.nodup, fun q hq hs => ?_⟩
  · rcases hlookup x n hx with ⟨-, hn⟩ | ⟨-, hx⟩
    · exact hn ▸ Nat.lt_succ_self _
    · exact Nat.lt_succ_of_lt (h.current_lt x n hx)
  · rcases hlookup x n hx with ⟨hxid, hn⟩ | ⟨-, hx'⟩
    · rcases hlookup y n hy with ⟨hyid, -⟩ | ⟨-, hy'⟩
      · exact hxid.trans hyid.symm
      · exact absurd (h.current_lt y n hy') (hn ▸ lt_irrefl _)
    · rcases hlookup y n hy with ⟨-, hn⟩ | ⟨-, hy'⟩
      · exact absurd (h.current_lt x n hx') (hn ▸ lt_irrefl _)
      · exact h.current_inj x y n hx' hy'
  · exact Nat.lt_succ_of_lt (h.finished_lt n hn)
  · by_cases hid : q.queueId = id
    · refine ⟨w.granted, ?_, fun hmem => lt_irrefl _ (h.finished_lt _ hmem)⟩
      rw [hid]
      exact AList.lookup_insert _
    · rcases hleased q hq hs with ⟨q', hq', hqid, hs'⟩ | hqid
      · obtain ⟨n, hn, hmem⟩ := h.held q' hq' hs'
        refine ⟨n, ?_, hmem⟩
        rw [← hn, hqid]
        exact AList.lookup_insert_ne hid
      · exact absurd hqid.symm hid

/-- a lease that ends -/
theorem Leases.finished {w : BackfillWorld} (h : Leases w) {s : BackfillDb}
    {worker : HistoricalBackfillWorker} {item : BackfillQueueItem} (hheld : Held w.db worker item)
    (hleased : ∀ q ∈ s.queue.rows, q.status = .leased →
      q.queueId ≠ item.queueId ∧ q ∈ w.db.queue.rows) :
    Leases { w with
      db := s, finishes := w.finishes ++ (w.current.lookup item.queueId).toList } := by
  obtain ⟨q₀, hq₀, hid₀, hs₀, -⟩ := hheld
  obtain ⟨n₀, hn₀, hfresh⟩ := h.held q₀ hq₀ hs₀
  rw [hid₀] at hn₀
  rw [hn₀, Option.toList_some]
  refine ⟨h.current_lt, h.current_inj, fun n hn => ?_, ?_, fun q hq hs => ?_⟩
  · rcases List.mem_append.1 hn with hn | hn
    · exact h.finished_lt n hn
    · rw [List.mem_singleton.1 hn]
      exact h.current_lt _ _ hn₀
  · refine List.Nodup.append h.nodup (List.nodup_singleton _) ?_
    rw [List.disjoint_singleton]
    exact hfresh
  · obtain ⟨hne, hold⟩ := hleased q hq hs
    obtain ⟨n, hn, hmem⟩ := h.held q hold hs
    refine ⟨n, hn, fun hin => ?_⟩
    rcases List.mem_append.1 hin with hin | hin
    · exact hmem hin
    · rw [List.mem_singleton.1 hin] at hn
      exact hne (h.current_inj _ _ _ hn hn₀)

theorem Leases.change {w w' : BackfillWorld} (h : Leases w) {env : BackfillEnv}
    {task : BackfillTask} (hc : Change env w task w') : Leases w' := by
  cases hc with
  | same => exact h
  | submitted _ hunclaimed => exact h.of_unclaimed hunclaimed
  | passed _ hunclaimed => exact h.of_unclaimed hunclaimed
  | claimed item _ _ hleased => exact h.claimed item.queueId hleased
  | started _ hqueue => exact h.of_unclaimed (unclaimed_of_eq hqueue)
  | stored _ hqueue => exact h.of_unclaimed (unclaimed_of_eq hqueue)
  | finished hheld _ _ hleased => exact h.finished hheld hleased

theorem Leases.tasks {w : BackfillWorld} (h : Leases w) (tasks : List BackfillTask) :
    Leases { w with tasks := tasks } :=
  ⟨h.current_lt, h.current_inj, h.finished_lt, h.nodup, h.held⟩

/-- **Leases end once.** In every run, whatever its steps meet. -/
theorem leases_kept (service : HistoricalBackfillService) (ops : List BackfillOp) :
    Leases (run (step service) init ops) := by
  refine run_inv (P := Leases) (fun w op h => ?_) ?_ ops
  · rcases step_cases service w op with ⟨tasks, he⟩ | ⟨_, _, _, tasks, _, -, -, hc, he⟩
    · rw [he]
      exact h.tasks tasks
    · rw [he]
      exact (h.change hc).tasks tasks
  · exact ⟨by simp [init], by simp [init], by simp [init], List.nodup_nil, by
      intro q hq
      cases hq⟩

/-! ## Job records -/

/-- no step writes over a completed job -/
def Fenced (w : BackfillWorld) : BackfillOp → Prop
  | .advance i env =>
    match w.tasks[i]? with
    | some (.claim _) => Clear env w.db
    | some (.start _ _ job) => Storable w.db job
    | some (.store _ _ job) => Storable w.db job
    | some (.finish worker item result) => Held w.db worker item → Storable w.db result
    | _ => True
  | _ => True

instance (w : BackfillWorld) : DecidablePred (Fenced w) := fun op => by
  unfold Fenced
  split
  · split <;> infer_instance
  · infer_instance

/-- what a fenced step keeps -/
theorem fenced_step (service : HistoricalBackfillService) {w : BackfillWorld} {op : BackfillOp}
    (hf : Fenced w op) :
    Final w.db (w.step service op).db ∧
      (BackfillDb.Completed w.db → BackfillDb.Completed (w.step service op).db) := by
  rcases step_cases service w op with ⟨tasks, he⟩ | ⟨i, env, task, tasks, w', rfl, htask, hc, he⟩
  · rw [he]
    exact ⟨refl_of Final _, id⟩
  · rw [he]
    simp only [Fenced, htask] at hf
    cases hc with
    | same => exact ⟨refl_of Final _, id⟩
    | submitted hfinal hunclaimed => exact ⟨hfinal, fun h => h.mono hfinal hunclaimed⟩
    | passed hfinal hunclaimed => exact ⟨hfinal hf, fun h => h.mono (hfinal hf) hunclaimed⟩
    | claimed item hfinal hcompleted hleased =>
      refine ⟨hfinal hf, fun h q hq hs => ?_⟩
      obtain ⟨j, hj, hid, hdone⟩ := h q (hcompleted q hq hs) hs
      obtain ⟨j', hj', hid', hdone', -⟩ := hfinal hf j hj hdone
      exact ⟨j', hj', hid'.trans hid, hdone'⟩
    | started hfinal hqueue =>
      exact ⟨hfinal hf, fun h => h.mono (hfinal hf) (unclaimed_of_eq hqueue)⟩
    | stored hfinal hqueue =>
      exact ⟨hfinal hf, fun h => h.mono (hfinal hf) (unclaimed_of_eq hqueue)⟩
    | finished hheld hfinal hcompleted hleased =>
      exact ⟨hfinal (hf hheld), fun h => hcompleted h (hf hheld)⟩

/-- completed jobs over a fenced run -/
theorem fenced_run (service : HistoricalBackfillService) {w : BackfillWorld}
    {ops : List BackfillOp} (h : Along (step service) Fenced w ops) :
    Final w.db (run (step service) w ops).db := by
  induction ops generalizing w with
  | nil => exact refl_of Final _
  | cons op ops ih => exact trans_of Final (fenced_step service h.1).1 (ih h.2)

/-- **Backfill queue and jobs agree.** In every run whose steps are fenced, attempts stay within
their limit, a lease ends at most once, a completed item has a completed job, and a completed job
keeps its status and counters for ever. -/
theorem backfill_consistent (service : HistoricalBackfillService) (ops : List BackfillOp)
    (h : Along (step service) Fenced init ops) :
    (∀ q ∈ (run (step service) init ops).db.queue.rows, q.attemptCount ≤ q.maxAttempts) ∧
      (run (step service) init ops).finishes.Nodup ∧
      BackfillDb.Completed (run (step service) init ops).db ∧
      ∀ pre post, ops = pre ++ post →
        Final (run (step service) init pre).db (run (step service) init ops).db := by
  refine ⟨fun q hq => ?_, (leases_kept service ops).nodup, ?_, fun pre post he => ?_⟩
  · have hcheck := (run (step service) init ops).db.queue.checked q hq
    simp only [backfillQueueItemSchema, Bool.and_eq_true, decide_eq_true_eq] at hcheck
    exact hcheck.1.1.1.2.1
  · refine along_inv (P := fun w => BackfillDb.Completed w.db)
      (fun w op hop hw => (fenced_step service hop).2 hw) ?_ h
    intro q hq
    cases hq
  · subst he
    rw [run_append]
    exact fenced_run service (along_append.1 h).2

end BackfillWorld

/-! ## A run that outlives its lease -/

namespace StaleRun

open BackfillWorld

def service : HistoricalBackfillService := ⟨fun _ => some "binance-public", 1000⟩

def request : HistoricalBackfillRequest :=
  ⟨.binance, "BTCUSDT", "1m", 0, 60000000, 0, 0, 10, by decide⟩

def slow : HistoricalBackfillWorker := ⟨"worker-a", 30, 5, 60⟩

def quick : HistoricalBackfillWorker := ⟨"worker-b", 30, 5, 60⟩

/-- at that second, with no row locked; what an import then finds -/
def env (second : ℕ) (outcome : ImportOutcome) : BackfillEnv :=
  ⟨second * 1000000, fun _ => false, 0, outcome⟩

def timedOut : ImportOutcome := .failed "MARKET_DATA_UNAVAILABLE" "timed out"

def both : ImportOutcome := .imported 2 2 0 (some "digest") .synced "clock-1"

/-- a job is submitted, and the first worker claims it and starts -/
def started : List BackfillOp :=
  [.submit request 3, .advance 0 (env 1 both), .advance 0 (env 1 both), .runOnce slow,
   .advance 1 (env 2 both), .advance 1 (env 2 both), .advance 1 (env 2 both)]

example : (run (step service) init started).db.queue.rows.map (·.status) = [.leased] := by
  decide +kernel

/-- its lease runs out, and the second one claims the item and imports both candles -/
def takenOver : List BackfillOp :=
  started ++
    [.runOnce quick, .advance 2 (env 40 both), .advance 2 (env 40 both), .advance 2 (env 40 both),
     .advance 2 (env 41 both), .advance 2 (env 41 both), .advance 2 (env 41 both)]

/-- the first import then fails, and `_finish` stores that -/
def late : List BackfillOp := [.advance 1 (env 42 timedOut), .advance 1 (env 42 timedOut)]

/-- up to the late record the run is fenced, and the job is completed -/
theorem taken_over_consistent :
    BackfillDb.Completed (run (step service) init takenOver).db ∧
      (run (step service) init takenOver).finishes = [1] ∧
      (run (step service) init takenOver).db.jobs.rows.map (·.status) = [.completed] := by
  refine ⟨(backfill_consistent service takenOver (by decide +kernel)).2.2.1, ?_, ?_⟩ <;>
    decide +kernel

/-- the late record turns the completed job into a failed one -/
theorem completed_job_overwritten :
    ¬ BackfillDb.Completed (run (step service) init (takenOver ++ late)).db ∧
      ¬ BackfillDb.Final (run (step service) init takenOver).db
        (run (step service) init (takenOver ++ late)).db := by
  decide +kernel

end StaleRun

end CapitalCipher
