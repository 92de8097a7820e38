/-
The backfill schemas of `schemas/backfill.py` and `schemas/data_lake.py`.

A fingerprint is taken to be the request it digests. The digest is over the ISO texts of the two
datetimes, so a request keeps the UTC offsets they were written with.

  • `BackfillQueueItem.check_eq`: validation returns the item it was given.
-/
import CapitalCipher.Schemas.Market

namespace CapitalCipher

/-- the field constraints of a `HistoricalBackfillRequest`, and `validate_range` -/
def backfillRequestFields (symbol timeframe : String) (startAt endAt : Time) (maxCandles : ℕ) :
    List (String × Bool) :=
  [("symbol", validSymbol symbol),
   ("timeframe", validTimeframe timeframe),
   ("max_candles", decide (1 ≤ maxCandles ∧ maxCandles ≤ 1000000)),
   ("start_at must not be after end_at", decide (startAt ≤ endAt))]

structure HistoricalBackfillRequest where
  exchange : Exchange
  symbol : String
  timeframe : String
  startAt : Time
  endAt : Time
  /-- microseconds east of UTC -/
  startOffset : ℤ
  endOffset : ℤ
  maxCandles : ℕ
  accepted : ∀ f ∈ backfillRequestFields symbol timeframe startAt endAt maxCandles, f.2 = true
  deriving DecidableEq

/-- what `backfill_request_fingerprint` digests -/
structure BackfillId where
  request : HistoricalBackfillRequest
  deriving DecidableEq

def backfillRequestFingerprint (request : HistoricalBackfillRequest) : BackfillId := ⟨request⟩

inductive BackfillStatus where
  | pending | running | completed | partially | blocked | failed
  deriving DecidableEq, Repr

/-- `status in {"COMPLETED", "PARTIAL", "BLOCKED", "FAILED"}` -/
def BackfillStatus.terminal : BackfillStatus → Bool
  | .completed | .partially | .blocked | .failed => true
  | .pending | .running => false

inductive ClockStatus where
  | synced | warning | unsafeOffset | unknown
  deriving DecidableEq, Repr

structure HistoricalBackfillJob where
  jobId : BackfillId
  requestFingerprint : BackfillId
  exchange : Exchange
  symbol : String
  timeframe : String
  startAt : Time
  endAt : Time
  source : String
  status : BackfillStatus := .pending
  retrievedCount : ℕ := 0
  insertedCount : ℕ := 0
  remainingGapCount : ℕ := 0
  attemptCount : ℕ := 0
  datasetHash : Option String := none
  clockObservationId : Option String := none
  clockStatus : ClockStatus := .unknown
  errorCode : Option String := none
  errorMessage : Option String := none
  createdAt : Time
  startedAt : Option Time := none
  completedAt : Option Time := none
  updatedAt : Time
  deriving DecidableEq

/-- `validate_job`; a row meets the field constraints it was stored with -/
def HistoricalBackfillJob.check (j : HistoricalBackfillJob) : Except Error HistoricalBackfillJob :=
  validateModel []
    [("start_at must not be after end_at", decide (j.startAt ≤ j.endAt)),
     ("job_id must equal request_fingerprint", decide (j.jobId = j.requestFingerprint)),
     ("terminal backfill jobs require completed_at",
       !j.status.terminal || j.completedAt.isSome)] j

/-- the counters of a job -/
def HistoricalBackfillJob.counters (j : HistoricalBackfillJob) : ℕ × ℕ × ℕ × ℕ :=
  (j.retrievedCount, j.insertedCount, j.remainingGapCount, j.attemptCount)

inductive QueueStatus where
  | pending | leased | retry | completed | deadLetter
  deriving DecidableEq, Repr

/-- `status in {"COMPLETED", "DEAD_LETTER"}` -/
def QueueStatus.terminal : QueueStatus → Bool
  | .completed | .deadLetter => true
  | .pending | .leased | .retry => false

structure BackfillQueueItem where
  queueId : BackfillId
  jobId : BackfillId
  exchange : Exchange
  symbol : String
  timeframe : String
  startAt : Time
  endAt : Time
  maxCandles : ℕ
  status : QueueStatus := .pending
  attemptCount : ℕ := 0
  maxAttempts : ℕ
  availableAt : Time
  leasedBy : Option String := none
  leaseExpiresAt : Option Time := none
  lastErrorCode : Option String := none
  lastErrorMessage : Option String := none
  createdAt : Time
  updatedAt : Time
  completedAt : Option Time := none
  deriving DecidableEq

/-- `^[A-Za-z0-9][A-Za-z0-9._:-]{2,127}$` -/
def validLeaseOwner (s : String) : Bool :=
  decide (3 ≤ s.length ∧ s.length ≤ 128) &&
  match s.toList with
  | first :: rest =>
    first.isAlphanum && rest.all fun c => c.isAlphanum || c ∈ ['.', '_', ':', '-']
  | [] => false

namespace BackfillQueueItem

/-- the field constraints and `validate_queue_item` -/
def check (q : BackfillQueueItem) : Except Error BackfillQueueItem :=
  validateModel
    [("symbol", validSymbol q.symbol),
     ("timeframe", validTimeframe q.timeframe),
     ("max_candles", decide (1 ≤ q.maxCandles ∧ q.maxCandles ≤ 1000000)),
     ("max_attempts", decide (1 ≤ q.maxAttempts ∧ q.maxAttempts ≤ 100)),
     ("leased_by", q.leasedBy.all validLeaseOwner)]
    [("queue_id must equal job_id", decide (q.queueId = q.jobId)),
     ("start_at must not be after end_at", decide (q.startAt ≤ q.endAt)),
     ("attempt_count must not exceed max_attempts", decide (q.attemptCount ≤ q.maxAttempts)),
     ("leased items require owner and expiry",
       q.status != .leased || (q.leasedBy.isSome && q.leaseExpiresAt.isSome)),
     ("only leased items may have lease metadata",
       q.status == .leased || (q.leasedBy.isNone && q.leaseExpiresAt.isNone)),
     ("terminal queue items require completed_at", !q.status.terminal || q.completedAt.isSome),
     ("non-terminal queue items cannot be completed", q.status.terminal || q.completedAt.isNone)] q

theorem check_eq {q q' : BackfillQueueItem} (h : q.check = .ok q') : q' = q :=
  (validateModel_ok.1 h).2.2

/-- `to_request`: a row's datetimes are in UTC -/
def toRequest (q : BackfillQueueItem) : Except Error HistoricalBackfillRequest :=
  if h : ∀ f ∈ backfillRequestFields q.symbol q.timeframe q.startAt q.endAt q.maxCandles,
      f.2 = true then
    .ok ⟨q.exchange, q.symbol, q.timeframe, q.startAt, q.endAt, 0, 0, q.maxCandles, h⟩
  else .error ⟨.schema, "HistoricalBackfillRequest"⟩

end BackfillQueueItem

end CapitalCipher
