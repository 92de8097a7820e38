/-
`EventBus` of `core/event_bus.py` and `OutboxDispatcher.drain_once` of `core/outbox.py`, journaled by
the repository and sharing one publication lock, as `api/context.py` wires them.

A task stands at its next await; between two awaits of it any other task may run. The lock is
FIFO, as `asyncio.Lock` is. A handler is entered where the fan-out calls it and ends at a later step.

The world also logs every call of a handler, every event that was remembered and every event the
transport took.

  • `BusWorld.step`: one operation, or one await of one task.
-/
import CapitalCipher.Database.Events
import CapitalCipher.Lib.Dict
import Mathlib.Data.PNat.Basic

namespace CapitalCipher

open Lib

structure EventBusConfig where
  /-- `transport is not None` -/
  transport : Bool
  transportRequired : Bool
  maxProcessedEventIds : ℕ+

/-- how a transaction ends: with its reply, rolled back, or committed with the reply lost -/
inductive DbReply where
  | answered
  | refused (text : String)
  | lost (text : String)
  deriving DecidableEq

/-- run a transaction of the repository; a driver's failure carries the method's prefix too -/
def DbReply.run {α : Type} (reply : DbReply) (pre : String) (x : EventTx α) (db : EventDb) :
    Except Error α × EventDb :=
  match reply with
  | .answered => Tx.commit (Tx.wrap (fun e => ⟨.database, pre ++ e.message⟩) x) db
  | .refused text => (.error ⟨.database, pre ++ text⟩, db)
  | .lost text => (.error ⟨.database, pre ++ text⟩, (Tx.commit x db).2)

/-- what a step meets: the clock, the end of a transaction, what the transport answers (an exception
with its type's name), and whether a handler raised -/
structure BusEnv where
  now : Time
  reply : DbReply
  broker : Except (String × Error) String
  raised : Bool

/-- where a `publish` stands -/
inductive PublishStage where
  /-- for the lock -/
  | waiting
  /-- at the journal write -/
  | journal
  /-- at `transport.publish` -/
  | transport
  | markPublished (brokerId : String)
  /-- at `mark_failed`, after that exception -/
  | markFailed (errorType : String) (error : Error)
  /-- at that handler of the topic -/
  | handler (k : ℕ)
  /-- the handler raised; at that handler of the dead-letter topic -/
  | deadLetter (k d : ℕ)
  /-- returned, without handing the event around -/
  | duplicate
  /-- returned, after the last handler -/
  | delivered
  | raised (error : Error)

structure OutboxDrainResult where
  attempted : ℕ
  published : ℕ
  failed : ℕ
  deriving DecidableEq

/-- where a `drain_once` stands -/
inductive DrainStage where
  | waiting
  /-- at `list_pending_bus_messages` -/
  | list
  | transport (message : BusMessage) (rest : List BusMessage) (result : OutboxDrainResult)
  | markPublished (brokerId : String) (message : BusMessage) (rest : List BusMessage)
      (result : OutboxDrainResult)
  | markFailed (errorType : String) (message : BusMessage) (rest : List BusMessage)
      (result : OutboxDrainResult)
  | drained (result : OutboxDrainResult)
  | raised (error : Error)

inductive BusTask where
  | publish (message : BusMessage) (stage : PublishStage)
  | drain (batchSize : ℕ) (stage : DrainStage)

structure BusWorld where
  db : EventDb
  /-- the handlers of each topic -/
  subscribers : Dict String (List ℕ)
  /-- `_processed_event_ids` -/
  processed : List String
  /-- `_publication_lock` -/
  lock : List ℕ
  tasks : List BusTask
  /-- the calls of handlers -/
  invoked : List (ℕ × String)
  /-- every event ever remembered -/
  remembered : List String
  /-- the events the transport took -/
  sent : List String

inductive BusOp where
  | publish (message : BusMessage)
  | drain (batchSize : ℕ)
  | subscribe (topic : String) (handler : ℕ)
  | unsubscribe (topic : String) (handler : ℕ)
  | advance (i : ℕ) (env : BusEnv)

namespace BusWorld

open EventDb

def init : BusWorld := ⟨.empty, ∅, [], [], [], [], [], []⟩

/-- `self._subscribers.get(topic, [])` -/
def handlers (w : BusWorld) (topic : String) : List ℕ := (w.subscribers.lookup topic).getD []

def subscribe (w : BusWorld) (topic : String) (handler : ℕ) : BusWorld :=
  if handler ∈ w.handlers topic then w
  else { w with subscribers := AList.insert topic (w.handlers topic ++ [handler]) w.subscribers }

def unsubscribe (w : BusWorld) (topic : String) (handler : ℕ) : BusWorld :=
  if handler ∈ w.handlers topic then
    { w with subscribers := AList.insert topic ((w.handlers topic).erase handler) w.subscribers }
  else w

/-- `_remember` -/
def remember (cfg : EventBusConfig) (w : BusWorld) (eventId : String) : BusWorld :=
  let ids := w.processed.filter (· ≠ eventId) ++ [eventId]
  { w with
    processed := ids.drop (ids.length - cfg.maxProcessedEventIds)
    remembered := w.remembered ++ [eventId] }

/-- leave the lock -/
def release (w : BusWorld) : BusWorld := { w with lock := w.lock.tail }

/-- the fan-out, from the `k`-th handler on -/
def handOn (w : BusWorld) (m : BusMessage) (k : ℕ) : BusWorld × PublishStage :=
  match (w.handlers m.topic)[k]? with
  | some handler => ({ w with invoked := w.invoked ++ [(handler, m.eventId)] }, .handler k)
  | none => (w, .delivered)

/-- `_to_dead_letter`, from the `d`-th handler on; then the fan-out goes on -/
def deadLetterOn (w : BusWorld) (m : BusMessage) (k d : ℕ) : BusWorld × PublishStage :=
  match (w.handlers Topics.deadLetter)[d]? with
  | some handler => ({ w with invoked := w.invoked ++ [(handler, m.eventId)] }, .deadLetter k d)
  | none => w.handOn m (k + 1)

/-- out of the lock, remember the event and hand it around -/
def deliver (cfg : EventBusConfig) (w : BusWorld) (m : BusMessage) : BusWorld × PublishStage :=
  (w.release.remember cfg m.eventId).handOn m 0

/-- what a publish does before it asks for the lock -/
def admission (m : BusMessage) : Except Error Unit := do
  let m ← m.check
  ensurePayloadHasNoSecrets m.payload

/-- a durable duplicate is not handed around again -/
def isDuplicate (cfg : EventBusConfig) (r : JournalWriteResult) : Bool :=
  !r.inserted && (!cfg.transport || r.brokerPublished)

/-- `publish`, after the journal write -/
def journaled (cfg : EventBusConfig) (w : BusWorld) (m : BusMessage) :
    Except Error JournalWriteResult × EventDb → BusWorld × PublishStage
  | (.error e, db) => ({ w with db := db }.release, .raised e)
  | (.ok r, db) =>
    if isDuplicate cfg r then
      (({ w with db := db }.release).remember cfg m.eventId, .duplicate)
    else if cfg.transport then ({ w with db := db }, .transport)
    else { w with db := db }.deliver cfg m

/-- `publish`, after `mark_published` -/
def marked (cfg : EventBusConfig) (w : BusWorld) (m : BusMessage) :
    Except Error Unit × EventDb → BusWorld × PublishStage
  | (.error e, db) => ({ w with db := db }, .markFailed "DatabaseError" e)
  | (.ok (), db) => { w with db := db }.deliver cfg m

/-- `publish`, after `mark_failed`, whatever became of it -/
def unpublished (cfg : EventBusConfig) (w : BusWorld) (m : BusMessage) (error : Error) :
    BusWorld × PublishStage :=
  if cfg.transportRequired then (w.release, .raised error) else w.deliver cfg m

/-- the next await of a `publish` that is task `i` -/
def publishNext (cfg : EventBusConfig) (env : BusEnv) (w : BusWorld) (i : ℕ) (m : BusMessage) :
    PublishStage → BusWorld × PublishStage
  | .waiting => (w, if w.lock.head? = some i then .journal else .waiting)
  | .journal =>
    w.journaled cfg m
      (env.reply.run "Failed to journal bus message: " (saveBusMessage m) w.db)
  | .transport =>
    match env.broker with
    | .ok brokerId => ({ w with sent := w.sent ++ [m.eventId] }, .markPublished brokerId)
    | .error (errorType, error) => (w, .markFailed errorType error)
  | .markPublished brokerId =>
    w.marked cfg m
      (env.reply.run "Failed to mark bus message published: "
        (markBusMessagePublished env.now m.eventId brokerId) w.db)
  | .markFailed errorType error =>
    { w with
      db := (env.reply.run "Failed to mark bus message failed: "
        (markBusMessageFailed env.now m.eventId errorType) w.db).2 }.unpublished cfg m error
  | .handler k => if env.raised then w.deadLetterOn m k 0 else w.handOn m (k + 1)
  | .deadLetter k d => w.deadLetterOn m k (d + 1)
  | .duplicate => (w, .duplicate)
  | .delivered => (w, .delivered)
  | .raised error => (w, .raised error)

/-- `drain_once`, at its next pending message -/
def drainOn (w : BusWorld) (result : OutboxDrainResult) : List BusMessage → BusWorld × DrainStage
  | [] => (w.release, .drained result)
  | message :: rest => (w, .transport message rest result)

/-- `drain_once`, after the list -/
def listed (w : BusWorld) (batchSize : ℕ) : DbReply → BusWorld × DrainStage
  | .answered =>
    let pending := w.db.listPendingBusMessages batchSize
    w.drainOn ⟨pending.length, 0, 0⟩ pending
  | .refused text => (w.release, .raised ⟨.transport, text⟩)
  | .lost text => (w.release, .raised ⟨.transport, text⟩)

/-- `drain_once`, after `mark_bus_message_published` -/
def drainMarked (w : BusWorld) (message : BusMessage) (rest : List BusMessage)
    (result : OutboxDrainResult) : Except Error Unit × EventDb → BusWorld × DrainStage
  | (.error _, db) =>
    ({ w with db := db },
      .markFailed "DatabaseError" message rest { result with failed := result.failed + 1 })
  | (.ok (), db) =>
    { w with db := db }.drainOn { result with published := result.published + 1 } rest

/-- `drain_once`, after `mark_bus_message_failed` -/
def drainFailed (w : BusWorld) (rest : List BusMessage) (result : OutboxDrainResult) :
    Except Error Unit × EventDb → BusWorld × DrainStage
  | (.error e, db) => ({ w with db := db }.release, .raised e)
  | (.ok (), db) => { w with db := db }.drainOn result rest

/-- the next await of a `drain_once` that is task `i` -/
def drainNext (env : BusEnv) (w : BusWorld) (i batchSize : ℕ) :
    DrainStage → BusWorld × DrainStage
  | .waiting => (w, if w.lock.head? = some i then .list else .waiting)
  | .list => w.listed batchSize env.reply
  | .transport message rest result =>
    match env.broker with
    | .ok brokerId =>
      ({ w with sent := w.sent ++ [message.eventId] },
        .markPublished brokerId message rest result)
    | .error (errorType, _) =>
      (w, .markFailed errorType message rest { result with failed := result.failed + 1 })
  | .markPublished brokerId message rest result =>
    w.drainMarked message rest result
      (env.reply.run "Failed to mark bus message published: "
        (markBusMessagePublished env.now message.eventId brokerId) w.db)
  | .markFailed errorType message rest result =>
    w.drainFailed rest result
      (env.reply.run "Failed to mark bus message failed: "
        (markBusMessageFailed env.now message.eventId errorType) w.db)
  | .drained result => (w, .drained result)
  | .raised error => (w, .raised error)

/-- a task that asks for the lock gets it at once when it is free -/
def startPublish (w : BusWorld) (m : BusMessage) : BusWorld :=
  match admission m with
  | .error e => { w with tasks := w.tasks ++ [.publish m (.raised e)] }
  | .ok () =>
    if m.eventId ∈ w.processed then { w with tasks := w.tasks ++ [.publish m .duplicate] }
    else
      { w with
        lock := w.lock ++ [w.tasks.length],
        tasks := w.tasks ++ [.publish m (if w.lock = [] then .journal else .waiting)] }

def startDrain (w : BusWorld) (batchSize : ℕ) : BusWorld :=
  { w with
    lock := w.lock ++ [w.tasks.length],
    tasks := w.tasks ++ [.drain batchSize (if w.lock = [] then .list else .waiting)] }

/-- the next await of a task -/
def advance (cfg : EventBusConfig) (env : BusEnv) (w : BusWorld) (i : ℕ) :
    BusTask → BusWorld × BusTask
  | .publish m stage =>
    let (w', next) := w.publishNext cfg env i m stage
    (w', .publish m next)
  | .drain batchSize stage =>
    let (w', next) := w.drainNext env i batchSize stage
    (w', .drain batchSize next)

def step (cfg : EventBusConfig) (w : BusWorld) : BusOp → BusWorld
  | .publish m => w.startPublish m
  | .drain batchSize => if cfg.transport then w.startDrain batchSize else w
  | .subscribe topic handler => w.subscribe topic handler
  | .unsubscribe topic handler => w.unsubscribe topic handler
  | .advance i env =>
    match w.tasks[i]? with
    | none => w
    | some task =>
      let (w', next) := w.advance cfg env i task
      { w' with tasks := w'.tasks.set i next }

end BusWorld

end CapitalCipher
