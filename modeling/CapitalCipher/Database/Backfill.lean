/-
The backfill tables of `database/models.py` and the transactions of
`database/repositories/repository.py` over them.

A queue item is leased under its own row lock; the job record is written by whoever has it.

  • `submitHistoricalBackfill`, `claimNextBackfill`, `finishBackfillQueueItem`: the queue and the job.
  • `saveHistoricalBackfillJob`: the job alone.
-/
import CapitalCipher.Database.Models
import CapitalCipher.Lib.Least
import CapitalCipher.Schemas.Backfill

namespace CapitalCipher

open Lib

/-- `historical_backfill_jobs` -/
def historicalBackfillJobSchema : Schema BackfillId HistoricalBackfillJob where
  key j := j.jobId
  check j := decide (j.startAt ≤ j.endAt)
  clash a b := a.requestFingerprint == b.requestFingerprint
  guard old new := decide (old.jobId = new.jobId)
  guard_key h := by simpa using h

/-- `backfill_queue_items` -/
def backfillQueueItemSchema : Schema BackfillId BackfillQueueItem where
  key q := q.queueId
  check q := decide (q.startAt ≤ q.endAt) && decide (0 < q.maxCandles ∧ q.maxCandles ≤ 1000000) &&
    decide (q.attemptCount ≤ q.maxAttempts ∧ 0 < q.maxAttempts ∧ q.maxAttempts ≤ 100) &&
    ((q.status == .leased) == q.leasedBy.isSome) &&
    ((q.status == .leased) == q.leaseExpiresAt.isSome) &&
    (q.status.terminal == q.completedAt.isSome)
  clash a b := a.jobId == b.jobId
  guard old new := decide (old.queueId = new.queueId)
  guard_key h := by simpa using h

structure BackfillDb where
  jobs : Table historicalBackfillJobSchema
  queue : Table backfillQueueItemSchema

abbrev BackfillTx := Tx BackfillDb Error

namespace BackfillDb

def empty : BackfillDb := ⟨.empty _, .empty _⟩

def onJobs : (Table historicalBackfillJobSchema →
    Except Violation (Table historicalBackfillJobSchema)) → BackfillTx Unit :=
  Tx.write BackfillDb.jobs (fun db t => { db with jobs := t })
    (integrityError "historical_backfill_jobs")

def onQueue : (Table backfillQueueItemSchema →
    Except Violation (Table backfillQueueItemSchema)) → BackfillTx Unit :=
  Tx.write BackfillDb.queue (fun db t => { db with queue := t })
    (integrityError "backfill_queue_items")

/-- raise what a model's construction raises -/
def construct {α : Type} : Except Error α → BackfillTx α
  | .ok a => pure a
  | .error e => throw e

/-- `except Exception as exc: raise DatabaseError(prefix + exc)` -/
def failing {α : Type} (pre : String) (x : BackfillTx α) : BackfillTx α :=
  Tx.wrap (fun e => ⟨.database, pre ++ e.message⟩) x

/-- `ValueError` and `RuntimeError` -/
def raised (message : String) : Error := ⟨.transport, message⟩

/-- the job row of that id becomes `f` of it -/
def setJob (id : BackfillId) (f : HistoricalBackfillJob → HistoricalBackfillJob) :
    BackfillTx Unit :=
  onJobs (·.update (fun j => j.jobId = id) f)

/-- the queue row of that id becomes `f` of it -/
def setItem (id : BackfillId) (f : BackfillQueueItem → BackfillQueueItem) : BackfillTx Unit :=
  onQueue (·.update (fun q => q.queueId = id) f)

def loadHistoricalBackfillJob (jobId : BackfillId) : BackfillTx (Option HistoricalBackfillJob) := do
  let db ← get
  match db.jobs.get? jobId with
  | none => pure none
  | some row => some <$> construct row.check

def loadBackfillQueueItem (queueId : BackfillId) : BackfillTx (Option BackfillQueueItem) := do
  let db ← get
  match db.queue.get? queueId with
  | none => pure none
  | some row => some <$> construct row.check

def saveHistoricalBackfillJob (job : HistoricalBackfillJob) : BackfillTx Unit :=
  failing "Failed to persist historical backfill job: " do
    let db ← get
    match db.jobs.get? job.jobId with
    | none => onJobs (·.insert job)
    | some _ =>
      setJob job.jobId fun row =>
        { job with requestFingerprint := row.requestFingerprint, createdAt := row.createdAt }

/-- `INSERT ... ON CONFLICT (job_id) DO NOTHING` -/
def insertJob (job : HistoricalBackfillJob) : BackfillTx Unit := do
  let db ← get
  match db.jobs.get? job.jobId with
  | none => onJobs (·.insert job)
  | some _ => pure ()

/-- `INSERT ... ON CONFLICT (queue_id) DO NOTHING` -/
def insertItem (item : BackfillQueueItem) : BackfillTx Unit := do
  let db ← get
  match db.queue.get? item.queueId with
  | none => onQueue (·.insert item)
  | some _ => pure ()

def submitHistoricalBackfill (job : HistoricalBackfillJob) (item : BackfillQueueItem) :
    BackfillTx Bool := do
  Tx.require (job.jobId = item.jobId) (raised "job and queue item identities must match")
  failing "Failed to submit historical backfill: " do
    insertJob job
    insertItem item
    let db ← get
    match db.queue.get? item.queueId, db.jobs.get? job.jobId with
    | none, _ => throw (raised "backfill queue insert did not materialize")
    | _, none => throw (raised "backfill job insert did not materialize")
    | some queueRow, some jobRow =>
      if jobRow.status = .completed then pure false
      else if queueRow.status = .leased then pure false
      else
        setJob job.jobId fun row =>
          { job with requestFingerprint := row.requestFingerprint, createdAt := row.createdAt,
                     attemptCount := row.attemptCount }
        setItem item.queueId fun row =>
          { item with
            jobId := row.jobId, createdAt := row.createdAt,
            attemptCount := if row.status = .deadLetter then 0 else row.attemptCount }
        pure true

/-- the `exhausted_statement` of a claim, less the rows that other transactions hold locked -/
def exhausted (now : Time) (locked : BackfillId → Bool) (q : BackfillQueueItem) : Bool :=
  decide (q.maxAttempts ≤ q.attemptCount) &&
    (q.status == .pending || q.status == .retry ||
      (q.status == .leased && q.leaseExpiresAt.any fun t => decide (t ≤ now))) &&
    !locked q.queueId

/-- `claimable`, less the rows that other transactions hold locked -/
def claimable (now : Time) (locked : BackfillId → Bool) (q : BackfillQueueItem) : Bool :=
  (((q.status == .pending || q.status == .retry) && decide (q.availableAt ≤ now) &&
      decide (q.attemptCount < q.maxAttempts)) ||
    (q.status == .leased && (q.leaseExpiresAt.any fun t => decide (t ≤ now)) &&
      decide (q.attemptCount < q.maxAttempts))) &&
    !locked q.queueId

/-- the row the statement of a claim returns; `choice` is which of several tied ones -/
def claimedRow (now : Time) (locked : BackfillId → Bool) (choice : ℕ)
    (rows : List BackfillQueueItem) : Option BackfillQueueItem :=
  let found := tied (claimable now locked) (fun q => toLex (q.availableAt, q.createdAt)) rows
  found[choice % found.length]?

/-- an exhausted item is given up -/
def abandonedItem (now : Time) (q : BackfillQueueItem) : BackfillQueueItem :=
  { q with
    status := .deadLetter, leasedBy := none, leaseExpiresAt := none,
    lastErrorCode := some "BACKFILL_ATTEMPTS_EXHAUSTED",
    lastErrorMessage := some "Maximum durable backfill attempts were exhausted",
    completedAt := some now, updatedAt := now }

/-- and so is its job -/
def abandonedJob (now : Time) (j : HistoricalBackfillJob) : HistoricalBackfillJob :=
  { j with
    status := .failed, errorCode := some "BACKFILL_ATTEMPTS_EXHAUSTED",
    errorMessage := some "Maximum durable backfill attempts were exhausted",
    completedAt := some now, updatedAt := now }

def deadLetter (now : Time) (row : BackfillQueueItem) : BackfillTx Unit := do
  setItem row.queueId (abandonedItem now)
  setJob row.jobId (abandonedJob now)

def claimNextBackfill (now : Time) (locked : BackfillId → Bool) (choice : ℕ) (workerId : String)
    (leaseSeconds : ℕ) : BackfillTx (Option BackfillQueueItem) := do
  Tx.require (1 ≤ leaseSeconds) (raised "lease_seconds must be positive")
  failing "Failed to claim historical backfill: " do
    let db ← get
    Tx.forEach (db.queue.rows.filter (exhausted now locked)) (deadLetter now)
    let db ← get
    match claimedRow now locked choice db.queue.rows with
    | none => pure none
    | some row =>
      let leased := { row with
        status := .leased, attemptCount := row.attemptCount + 1, leasedBy := some workerId,
        leaseExpiresAt := some (now + leaseSeconds * 1000000), updatedAt := now,
        completedAt := none }
      setItem row.queueId fun _ => leased
      match db.jobs.get? row.jobId with
      | none => throw (raised "queue item references a missing job")
      | some _ =>
        setJob row.jobId fun j =>
          { j with
            status := .running, startedAt := some now, completedAt := none, updatedAt := now }
        some <$> construct leased.check

/-- `(error_message or "")[:500] or None` -/
def truncated (message : Option String) : Option String :=
  let text := String.ofList ((message.getD "").toList.take 500)
  if text = "" then none else some text

/-- `should_retry` -/
def shouldRetry (result : HistoricalBackfillJob) (retryable : Bool) (row : BackfillQueueItem) :
    Bool :=
  result.status != .completed && retryable && decide (row.attemptCount < row.maxAttempts)

/-- what `finish_backfill_queue_item` leaves of a leased item -/
def finishedItem (now : Time) (result : HistoricalBackfillJob) (retryable : Bool)
    (retryDelay : ℚ) (row : BackfillQueueItem) : BackfillQueueItem :=
  let partially := result.status = .partially ∧ result.errorCode = none
  { row with
    status :=
      if result.status = .completed then .completed
      else if shouldRetry result retryable row then .retry else .deadLetter
    availableAt :=
      if shouldRetry result retryable row then
        now + (Decimal.nearest (retryDelay * 1000000)).toNat
      else row.availableAt
    completedAt := if shouldRetry result retryable row then none else some now
    leasedBy := none
    leaseExpiresAt := none
    lastErrorCode := if partially then some "BACKFILL_PARTIAL" else result.errorCode
    lastErrorMessage := truncated
      (if partially then some (toString result.remainingGapCount ++ " market-data gaps remain")
       else result.errorMessage)
    updatedAt := now }

/-- and of the job -/
def finishedJob (now : Time) (result : HistoricalBackfillJob) (retry : Bool)
    (row : HistoricalBackfillJob) : HistoricalBackfillJob :=
  let written :=
    { result with requestFingerprint := row.requestFingerprint, createdAt := row.createdAt }
  if retry then { written with status := .pending, completedAt := none, updatedAt := now }
  else written

def finishBackfillQueueItem (now : Time) (queueId : BackfillId) (workerId : String)
    (result : HistoricalBackfillJob) (retryable : Bool) (retryDelay : ℚ) :
    BackfillTx BackfillQueueItem := do
  Tx.require (0 ≤ retryDelay) (raised "retry_delay_seconds must not be negative")
  failing "Failed to finish historical backfill queue item: " do
    let db ← get
    match db.queue.get? queueId with
    | none => throw (raised "backfill queue item does not exist")
    | some row =>
      Tx.require (row.status = .leased ∧ row.leasedBy = some workerId)
        (raised "backfill lease ownership was lost")
      Tx.require (result.jobId = row.jobId)
        (raised "backfill result does not match the leased job")
      Tx.require ((db.jobs.get? row.jobId).isSome) (raised "queue item references a missing job")
      setJob row.jobId (finishedJob now result (shouldRetry result retryable row))
      setItem queueId fun _ => finishedItem now result retryable retryDelay row
      construct (finishedItem now result retryable retryDelay row).check

end BackfillDb

end CapitalCipher
