/-
`HistoricalBackfillService` of `market_data/backfill.py` and `HistoricalBackfillWorker` of
`market_data/backfill_worker.py`, as tasks over the shared tables.

A task stands at its next awaited transaction; between two of them any other task may run, and a
task that is dropped (a crash, a lost reply) never comes back. What an import finds is an input:
everything between the RUNNING record and the final one touches neither table.

The world also numbers the leases as they are granted and logs which of them a finish ended.

  • `BackfillWorld.step`: one awaited transaction of one task.
-/
import CapitalCipher.Database.Backfill
import CapitalCipher.Lib.Dict

namespace CapitalCipher

open Lib

structure HistoricalBackfillService where
  /-- the source name of each configured client -/
  clients : Exchange → Option String
  maxCandles : ℕ

/-- what an import finds, up to `_finish` -/
inductive ImportOutcome where
  | blocked (reason : Option String) (clockStatus : ClockStatus) (observationId : String)
  | imported (retrieved inserted remaining : ℕ) (datasetHash : Option String)
      (clockStatus : ClockStatus) (observationId : String)
  | failed (errorCode : String) (message : String)

namespace HistoricalBackfillService

/-- `_validate_request_size` -/
def validateRequestSize (service : HistoricalBackfillService)
    (request : HistoricalBackfillRequest) : Except Error Unit :=
  match timeframeSeconds request.timeframe with
  | none => .error ⟨.transport, "Unsupported timeframe: " ++ request.timeframe⟩
  | some stepSeconds =>
    let expected := (request.endAt - request.startAt) / (stepSeconds * 1000000) + 1
    let allowed := min request.maxCandles service.maxCandles
    if allowed < expected then
      .error ⟨.transport, "Requested range contains " ++ toString expected ++
        " candles; limit is " ++ toString allowed⟩
    else .ok ()

/-- `submit`, before its first await: the source of the range -/
def admission (service : HistoricalBackfillService) (request : HistoricalBackfillRequest)
    (maxAttempts : ℕ) : Except Error String := do
  service.validateRequestSize request
  if maxAttempts < 1 ∨ 100 < maxAttempts then
    throw ⟨.transport, "max_attempts must be between 1 and 100"⟩
  match service.clients request.exchange with
  | none =>
    throw ⟨.transport, "No public market-data client for " ++ request.exchange.value⟩
  | some source => pure source

/-- the job `submit` builds -/
def submittedJob (request : HistoricalBackfillRequest) (source : String)
    (previous : Option HistoricalBackfillJob) (now : Time) : HistoricalBackfillJob where
  jobId := backfillRequestFingerprint request
  requestFingerprint := backfillRequestFingerprint request
  exchange := request.exchange
  symbol := request.symbol
  timeframe := request.timeframe
  startAt := request.startAt
  endAt := request.endAt
  source := source
  status := .pending
  attemptCount := (previous.map HistoricalBackfillJob.attemptCount).getD 0
  createdAt := (previous.map HistoricalBackfillJob.createdAt).getD now
  updatedAt := now

/-- and its queue item -/
def submittedItem (request : HistoricalBackfillRequest) (maxAttempts : ℕ)
    (previous : Option HistoricalBackfillJob) (now : Time) : BackfillQueueItem where
  queueId := backfillRequestFingerprint request
  jobId := backfillRequestFingerprint request
  exchange := request.exchange
  symbol := request.symbol
  timeframe := request.timeframe
  startAt := request.startAt
  endAt := request.endAt
  maxCandles := request.maxCandles
  maxAttempts := maxAttempts
  availableAt := now
  createdAt := (previous.map HistoricalBackfillJob.createdAt).getD now
  updatedAt := now

/-- the record `run` stores before it imports -/
def runningJob (request : HistoricalBackfillRequest) (source : String)
    (previous : Option HistoricalBackfillJob) (now : Time) : HistoricalBackfillJob where
  jobId := backfillRequestFingerprint request
  requestFingerprint := backfillRequestFingerprint request
  exchange := request.exchange
  symbol := request.symbol
  timeframe := request.timeframe
  startAt := request.startAt
  endAt := request.endAt
  source := source
  status := .running
  attemptCount := (previous.map HistoricalBackfillJob.attemptCount).getD 0 + 1
  createdAt := (previous.map HistoricalBackfillJob.createdAt).getD now
  startedAt := some now
  updatedAt := now

/-- the `model_copy` of `_finish` -/
def finishedRecord (job : HistoricalBackfillJob) (completedAt : Time) :
    ImportOutcome → HistoricalBackfillJob
  | .blocked reason clockStatus observationId =>
    { job with
      status := .blocked, retrievedCount := 0, insertedCount := 0, remainingGapCount := 0,
      datasetHash := none, clockObservationId := some observationId, clockStatus := clockStatus,
      errorCode := some "CLOCK_UNTRUSTED", errorMessage := BackfillDb.truncated reason,
      completedAt := some completedAt, updatedAt := completedAt }
  | .imported retrieved inserted remaining datasetHash clockStatus observationId =>
    { job with
      status := if remaining = 0 then .completed else .partially, retrievedCount := retrieved,
      insertedCount := inserted, remainingGapCount := remaining, datasetHash := datasetHash,
      clockObservationId := some observationId, clockStatus := clockStatus, errorCode := none,
      errorMessage := none, completedAt := some completedAt, updatedAt := completedAt }
  | .failed errorCode message =>
    { job with
      status := .failed, retrievedCount := 0, insertedCount := 0, remainingGapCount := 0,
      datasetHash := none, clockObservationId := none, clockStatus := .unknown,
      errorCode := some errorCode, errorMessage := BackfillDb.truncated (some message),
      completedAt := some completedAt, updatedAt := completedAt }

end HistoricalBackfillService

structure HistoricalBackfillWorker where
  workerId : String
  leaseSeconds : ℕ
  retryBaseSeconds : ℚ
  retryMaxSeconds : ℚ

namespace HistoricalBackfillWorker

/-- `_is_retryable` -/
def isRetryable (result : HistoricalBackfillJob) : Bool :=
  result.status == .partially || result.status == .blocked ||
    (result.status == .failed && result.errorCode.any fun code =>
      code ∈ ["BACKFILL_FAILED", "CLOCK_UNTRUSTED", "EXTERNAL_SERVICE_ERROR",
        "MARKET_DATA_UNAVAILABLE"])

/-- `min(retry_max, retry_base * 2 ** max(0, attempt_count - 1))` -/
def retryDelay (worker : HistoricalBackfillWorker) (attemptCount : ℕ) : ℚ :=
  min worker.retryMaxSeconds (worker.retryBaseSeconds * 2 ^ (attemptCount - 1))

end HistoricalBackfillWorker

/-- a task, at its next awaited transaction -/
inductive BackfillTask where
  /-- `submit`, at the load of the job -/
  | submit (request : HistoricalBackfillRequest) (maxAttempts : ℕ)
  /-- at the load of the queue item of a PENDING or RUNNING job -/
  | submitCheck (request : HistoricalBackfillRequest) (maxAttempts : ℕ) (source : String)
      (previous : HistoricalBackfillJob)
  /-- at `submit_historical_backfill` -/
  | submitStore (request : HistoricalBackfillRequest) (maxAttempts : ℕ) (source : String)
      (previous : Option HistoricalBackfillJob)
  /-- `run_once`, at the claim -/
  | claim (worker : HistoricalBackfillWorker)
  /-- `run`, at the load of the job -/
  | load (worker : HistoricalBackfillWorker) (item : BackfillQueueItem)
      (request : HistoricalBackfillRequest)
  /-- at the save of the RUNNING record -/
  | start (worker : HistoricalBackfillWorker) (item : BackfillQueueItem)
      (job : HistoricalBackfillJob)
  /-- importing -/
  | importing (worker : HistoricalBackfillWorker) (item : BackfillQueueItem)
      (job : HistoricalBackfillJob)
  /-- `_finish`, at the save of the final record -/
  | store (worker : HistoricalBackfillWorker) (item : BackfillQueueItem)
      (finished : HistoricalBackfillJob)
  /-- `run_once`, at `finish_backfill_queue_item` -/
  | finish (worker : HistoricalBackfillWorker) (item : BackfillQueueItem)
      (result : HistoricalBackfillJob)
  | ended

/-- what a step meets: the clock, the rows other transactions hold locked, the row a tied query
returns, and what an import found -/
structure BackfillEnv where
  now : Time
  locked : BackfillId → Bool
  choice : ℕ
  outcome : ImportOutcome

structure BackfillWorld where
  db : BackfillDb
  tasks : List BackfillTask
  /-- how many leases were granted -/
  granted : ℕ
  /-- the number of the last lease granted on an item -/
  current : Dict BackfillId ℕ
  /-- the leases that a finish ended, in order -/
  finishes : List ℕ

inductive BackfillOp where
  | submit (request : HistoricalBackfillRequest) (maxAttempts : ℕ)
  | runOnce (worker : HistoricalBackfillWorker)
  | advance (i : ℕ) (env : BackfillEnv)
  | drop (i : ℕ)

namespace BackfillWorld

open BackfillDb HistoricalBackfillService HistoricalBackfillWorker

def init : BackfillWorld := ⟨.empty, [], 0, ∅, []⟩

/-- a task that only reads -/
def read {α : Type} (w : BackfillWorld) (x : BackfillTx α) (next : α → BackfillTask) :
    BackfillWorld × BackfillTask :=
  match (Tx.commit x w.db).1 with
  | .ok a => (w, next a)
  | .error _ => (w, .ended)

/-- a task that writes, and goes on or raises -/
def write {α : Type} (w : BackfillWorld) (x : BackfillTx α) (next : α → BackfillTask) :
    BackfillWorld × BackfillTask :=
  match Tx.commit x w.db with
  | (.ok a, db) => ({ w with db := db }, next a)
  | (.error _, db) => ({ w with db := db }, .ended)

/-- `submit`, after the load of the job -/
def submitLoaded (request : HistoricalBackfillRequest) (maxAttempts : ℕ) (source : String) :
    Option HistoricalBackfillJob → BackfillTask
  | none => .submitStore request maxAttempts source none
  | some previous =>
    if previous.status = .completed then .ended
    else if previous.status = .pending ∨ previous.status = .running then
      .submitCheck request maxAttempts source previous
    else .submitStore request maxAttempts source (some previous)

/-- and after the load of the queue item -/
def submitChecked (request : HistoricalBackfillRequest) (maxAttempts : ℕ) (source : String)
    (previous : HistoricalBackfillJob) : Option BackfillQueueItem → BackfillTask
  | some _ => .ended
  | none => .submitStore request maxAttempts source (some previous)

/-- `run_once`, after a claim that leased an item -/
def runClaimed (worker : HistoricalBackfillWorker) (item : BackfillQueueItem) : BackfillTask :=
  match item.toRequest with
  | .ok request => .load worker item request
  | .error _ => .ended

/-- `run`, after the load of the job -/
def runLoaded (service : HistoricalBackfillService) (now : Time)
    (worker : HistoricalBackfillWorker) (item : BackfillQueueItem)
    (request : HistoricalBackfillRequest) (previous : Option HistoricalBackfillJob) :
    BackfillTask :=
  match previous.filter fun p => p.status = .completed with
  | some previous => .finish worker item previous
  | none =>
    match service.clients request.exchange with
    | none => .ended
    | some source => .start worker item (runningJob request source previous now)

/-- what a claim did -/
def claimed (w : BackfillWorld) (worker : HistoricalBackfillWorker) :
    Except Error (Option BackfillQueueItem) × BackfillDb → BackfillWorld × BackfillTask
  | (.error _, db) => ({ w with db := db }, .ended)
  | (.ok none, db) => ({ w with db := db }, .ended)
  | (.ok (some item), db) =>
    ({ w with
        db := db, granted := w.granted + 1,
        current := AList.insert item.queueId w.granted w.current }, runClaimed worker item)

/-- what a finish did -/
def finished (w : BackfillWorld) (id : BackfillId) :
    Except Error BackfillQueueItem × BackfillDb → BackfillWorld × BackfillTask
  | (.error _, db) => ({ w with db := db }, .ended)
  | (.ok _, db) =>
    ({ w with db := db, finishes := w.finishes ++ (w.current.lookup id).toList }, .ended)

/-- the next awaited transaction of a task, and where it then stands -/
def advance (service : HistoricalBackfillService) (env : BackfillEnv) (w : BackfillWorld) :
    BackfillTask → BackfillWorld × BackfillTask
  | .submit request maxAttempts =>
    match service.admission request maxAttempts with
    | .error _ => (w, .ended)
    | .ok source =>
      w.read (loadHistoricalBackfillJob (backfillRequestFingerprint request))
        (submitLoaded request maxAttempts source)
  | .submitCheck request maxAttempts source previous =>
    w.read (loadBackfillQueueItem (backfillRequestFingerprint request))
      (submitChecked request maxAttempts source previous)
  | .submitStore request maxAttempts source previous =>
    w.write (submitHistoricalBackfill (submittedJob request source previous env.now)
      (submittedItem request maxAttempts previous env.now)) fun _ => .ended
  | .claim worker =>
    w.claimed worker (Tx.commit (claimNextBackfill env.now env.locked env.choice worker.workerId
      worker.leaseSeconds) w.db)
  | .load worker item request =>
    w.read (loadHistoricalBackfillJob (backfillRequestFingerprint request))
      (runLoaded service env.now worker item request)
  | .start worker item job =>
    w.write (saveHistoricalBackfillJob job) fun _ => .importing worker item job
  | .importing worker item job => (w, .store worker item (finishedRecord job env.now env.outcome))
  | .store worker item finished =>
    w.write (saveHistoricalBackfillJob finished) fun _ => .finish worker item finished
  | .finish worker item result =>
    w.finished item.queueId (Tx.commit (finishBackfillQueueItem env.now item.queueId
      worker.workerId result (isRetryable result) (worker.retryDelay item.attemptCount)) w.db)
  | .ended => (w, .ended)

def step (service : HistoricalBackfillService) (w : BackfillWorld) :
    BackfillOp → BackfillWorld
  | .submit request maxAttempts => { w with tasks := w.tasks ++ [.submit request maxAttempts] }
  | .runOnce worker => { w with tasks := w.tasks ++ [.claim worker] }
  | .advance i env =>
    match w.tasks[i]? with
    | none => w
    | some task =>
      let (w', next) := w.advance service env task
      { w' with tasks := w'.tasks.set i next }
  | .drop i => { w with tasks := w.tasks.set i .ended }

end BackfillWorld

end CapitalCipher
