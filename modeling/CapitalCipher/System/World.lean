/-
The running system: processes with their memories, the tasks in flight, and the one database.

An `Op` is anything that can happen next: a call starts, the database runs the transaction a task
awaits (or fails before or after its commit), an adapter answers, a task that was replied runs its
next segment, a process crashes, a clock or the state machine moves. `step` is total: an operation
that does not apply changes nothing. Transactions are serialised; a segment runs alone.

The history records what the database and the venue see: approvals minted and consumed, with the
number of triggers committed by then, commands handed out, and submissions with the in-memory kill
switch of their process.
-/
import CapitalCipher.Lib.Run
import CapitalCipher.Oms.Reconciliation

namespace CapitalCipher

open Lib

/-- a call into a process -/
inductive Call where
  | initializeRisk
  | check (a : CheckArgs)
  | createOrder (a : PaperTradingEngine.CreateArgs)
  | closeOrder (a : PaperTradingEngine.CloseArgs)
  | onCandle (candle : Candle)
  | submitApproved (a : OmsService.SubmitArgs)
  | queueCancel (omsOrderId : String)
  | dispatchOnce (workerId : String)
  | dispatchWorker (workerId : String)
  | reconcileOnce (runId : String)
  | reconcileWorker (runId : String)
  | refreshPositions
  | triggerKillSwitch (reason actor : String) (correlationId : Option String)
  | resetKillSwitch (reason actor : String) (correlationId : Option String)

/-- run a program for its effects -/
def forget {α : Type} (p : Program α) : Program Unit := p.bind fun _ => .ret ()

def Call.program (cfg : Config) : Call → Program Unit
  | .initializeRisk => RiskManager.initializeRisk cfg
  | .check a => forget (RiskManager.check cfg a)
  | .createOrder a => forget (PaperTradingEngine.createOrder cfg a)
  | .closeOrder a => forget (PaperTradingEngine.closeOrder cfg a)
  | .onCandle c => forget (PaperTradingEngine.onCandle cfg c)
  | .submitApproved a => forget (OmsService.submitApproved cfg a)
  | .queueCancel i => forget (OmsService.queueCancel cfg i)
  | .dispatchOnce w => forget (OmsService.dispatchOnce cfg w)
  | .dispatchWorker w => OmsService.run cfg w
  | .reconcileOnce r => forget (ReconciliationService.reconcileOnce cfg r)
  | .reconcileWorker r => ReconciliationService.run cfg r
  | .refreshPositions => RiskManager.refreshPositions cfg
  | .triggerKillSwitch r a c => RiskManager.triggerKillSwitch cfg r a c
  | .resetKillSwitch r a c => RiskManager.resetKillSwitch cfg r a c

/-- where a task stands: it awaits a reply, was replied, or ended -/
inductive TaskState where
  | waiting (q : Request) (k : Except Error q.Reply → Program Unit)
  | replied (q : Request) (r : Except Error q.Reply) (k : Except Error q.Reply → Program Unit)
  | done (r : Except Error Unit)

structure Task where
  node : ℕ
  state : TaskState
  /-- how many triggers had committed when the gates of its evaluation ran -/
  gateEpoch : ℕ := 0

/-- an unfinished task dies with its process -/
def Task.killed (node : ℕ) (t : Task) : Task :=
  match t.state with
  | .done _ => t
  | _ =>
    if t.node = node then { t with state := .done (.error ⟨.transport, "process crashed"⟩) }
    else t

/-- what the database or the venue saw -/
inductive Event where
  | minted (approvalId : String) (gateEpoch : ℕ)
  | consumed (approvalId : String) (epoch : ℕ)
  | claimed (commandId : String)
  | submitted (node : ℕ) (order : OmsOrder) (killSwitchActive : Bool)
  deriving DecidableEq

structure World where
  db : Db
  mem : ℕ → Memory
  tasks : List Task
  history : List Event

/-- how an execution of a transaction may go wrong -/
inductive Fault where
  | none
  | refused (e : Error)      -- nothing is committed
  | lost (e : Error)         -- committed, and the reply is lost
  deriving DecidableEq

def Fault.commits : Fault → Bool
  | .refused _ => false
  | _ => true

/-- what an adapter answers -/
inductive Answer where
  | rules (r : Except Error (Option QuantityRules))
  | order (r : Except Error VenueOrderSnapshot)
  | state (r : Except Error VenueStateSnapshot)

/-- an answer a model's construction would let through -/
def Answer.admissible : Answer → Bool
  | .order (.ok v) => decide (v.check = .ok v)
  | .state (.ok s) => decide (s.check = .ok s)
  | _ => true

/-- the answer as the reply to a request, when it is of that kind -/
def Answer.toReply : (q : Request) → Answer → Option (Except Error q.Reply)
  | .instrumentRules _ _, .rules r => some r
  | .submitOrder _, .order r => some r
  | .cancelOrder _, .order r => some r
  | .fetchState _ _, .state r => some r
  | _, _ => none

inductive Op where
  | start (node : ℕ) (call : Call)
  | exec (task : ℕ) (locked : List String) (fault : Fault)
  | answer (task : ℕ) (a : Answer)
  | resume (task : ℕ)
  | crash (node : ℕ)
  | clock (node : ℕ) (now : Time)
  | auditFailMode (node : ℕ) (on : Bool)
  | transition (node : ℕ) (newState : SystemState)

/-- how many kill-switch triggers have committed -/
def Db.epoch (db : Db) : ℕ := (db.riskControlEvents.rows.filter RiskControlEvent.triggered).length

namespace World

def init (cfg : Config) : World where
  db := .empty
  mem _ := .fresh cfg 0
  tasks := []
  history := []

def setMem (w : World) (node : ℕ) (m : Memory) : World :=
  { w with mem := fun n => if n = node then m else w.mem n }

/-- the gates of an evaluation ran in the segment that asks to record its evidence -/
def gates : Request → Bool
  | .saveAuditLog r => r.evidence.isSome
  | _ => false

/-- the task a segment leaves -/
def paused (w : World) (node gateEpoch : ℕ) :
    Paused Memory Error Request.Reply Unit → Task
  | .done r => ⟨node, .done r, gateEpoch⟩
  | .waiting q k => ⟨node, .waiting q k, if gates q then w.db.epoch else gateEpoch⟩

/-- the submission a segment starts -/
def submissions (node : ℕ) (m : Memory) : Paused Memory Error Request.Reply Unit → List Event
  | .waiting (.submitOrder order) _ => [.submitted node order m.killSwitchActive]
  | _ => []

/-- run one segment of a program on a process; `put` files the task it leaves -/
def segment (w : World) (node gateEpoch : ℕ) (p : Program Unit) (put : Task → List Task) : World :=
  let s := p.settle (w.mem node)
  { w.setMem node s.1 with
    tasks := put (w.paused node gateEpoch s.2)
    history := w.history ++ submissions node s.1 s.2 }

def consumedIds (db : Db) : List String :=
  (db.approvals.rows.filter fun a => a.status == .consumed).map OrderApproval.approvalId

/-- the approvals a commit minted and consumed -/
def changes (gateEpoch : ℕ) (db db' : Db) : List Event :=
  ((db'.approvals.rows.map OrderApproval.approvalId).filter
    fun i => (db.approvals.get? i).isNone).map (Event.minted · gateEpoch) ++
  ((consumedIds db').filter fun i => i ∉ consumedIds db).map (Event.consumed · db.epoch)

/-- the command a commit hands out -/
def handed : (q : Request) → q.Reply → List Event
  | .claimExecutionCommand _ _, some (command, _) => [.claimed command.commandId]
  | _, _ => []

/-- the reply to an awaited transaction -/
def execute (w : World) (i : ℕ) (locked : List String) (fault : Fault) : World :=
  match w.tasks[i]? with
  | some ⟨node, .waiting q k, gateEpoch⟩ =>
    match q.transaction (w.mem node).now locked with
    | none => w
    | some tx =>
      let reply (r : Except Error q.Reply) := w.tasks.set i ⟨node, .replied q r k, gateEpoch⟩
      match fault with
      | .refused e => { w with tasks := reply (.error e) }
      | _ =>
        match tx.run w.db with
        | .error e => { w with tasks := reply (.error e) }
        | .ok (r, db) =>
          { w with
            db := db
            tasks := reply (match fault with
              | .lost e => .error e
              | _ => .ok r)
            history := w.history ++ changes gateEpoch w.db db ++ handed q r }
  | _ => w

/-- the reply of an adapter -/
def answered (w : World) (i : ℕ) (a : Answer) : World :=
  match w.tasks[i]? with
  | some ⟨node, .waiting q k, gateEpoch⟩ =>
    match a.toReply q with
    | none => w
    | some r => if a.admissible then
        { w with tasks := w.tasks.set i ⟨node, .replied q r k, gateEpoch⟩ } else w
  | _ => w

def step (cfg : Config) (w : World) : Op → World
  | .start node call => w.segment node 0 (call.program cfg) fun t => w.tasks ++ [t]
  | .exec i locked fault => w.execute i locked fault
  | .answer i a => w.answered i a
  | .resume i =>
    match w.tasks[i]? with
    | some ⟨node, .replied _ r k, gateEpoch⟩ => w.segment node gateEpoch (k r) fun t => w.tasks.set i t
    | _ => w
  | .crash node =>
    { w.setMem node (.fresh cfg (w.mem node).now) with tasks := w.tasks.map (Task.killed node) }
  | .clock node now => w.setMem node { w.mem node with now := now }
  | .auditFailMode node on => w.setMem node { w.mem node with auditFailMode := on }
  | .transition node newState =>
    match (w.mem node).sm.transition newState with
    | .ok sm => w.setMem node { w.mem node with sm := sm }
    | .error _ => w

/-- the world after the operations, from an empty database and fresh processes -/
def run (cfg : Config) (ops : List Op) : World := Lib.run (step cfg) (init cfg) ops

end World

/-! ## Traces -/

/-- the transaction a task awaits succeeds, and the task goes on -/
def serve (task : ℕ) : List Op := [.exec task [] .none, .resume task]

/-- a process boots -/
def boot : List Op := [.transition 0 .initializing, .transition 0 .paper]

def sampleDecision : Decision where
  decisionId := "d"
  correlationId := "c"
  symbol := "BTCUSDT"
  timeframe := "1m"
  candidateAction := .buy
  strategy := "s"

/-- the id every sample evaluation of `sampleDecision` gives its approval -/
def sampleApprovalId : String := Config.sample.digest.evaluationId "d" ""

/-- go on with the check a process remembers for `sampleDecision` -/
def withCheck (ops : List Op) (f : RiskCheck → List Op) : List Op :=
  match ((World.run .sample ops).mem 0).checksByKey.lookup "d" with
  | some check => ops ++ f check
  | none => ops

/-- task 0 checks `sampleDecision`; task 1 submits it: a TESTNET order of 100 at 100, and its command
queued -/
def sampleQueued : List Op :=
  withCheck (boot ++ [.start 0 (.check { decision := sampleDecision, entryPrice := 100 })] ++
    serve 0 ++ serve 0 ++ serve 0) fun check =>
    [.start 0 (.submitApproved
      ⟨sampleDecision, check, 100, none, none⟩)] ++
    serve 1 ++ [.answer 1 (.rules (.ok none)), .resume 1] ++ serve 1 ++ serve 1

example : (World.run .sample sampleQueued).db.omsOrders.rows.map (·.status) = [.pendingSubmission] := by
  decide +kernel

def sampleOrderId : String := "oms-order:" ++ sampleApprovalId

/-- what the venue says of the sample order -/
def sampleAnswer (status : OmsOrderStatus) (filled : ℚ) (observedAt : Time) : VenueOrderSnapshot where
  exchange := .bybit
  venueOrderId := "v"
  clientOrderId := "cc-" ++ String.ofList (sampleApprovalId.toList.take 32)
  symbol := "BTCUSDT"
  side := .buy
  orderType := .market
  status := status
  quantity := 100
  cumulativeFilledQuantity := filled
  averageFillPrice := some 100
  observedAt := observedAt

/-- a venue that holds nothing -/
def sampleFlat (observedAt : Time) : VenueStateSnapshot where
  exchange := .bybit
  environment := .testnet
  observedAt := observedAt

/-- an adapter answers, and the task goes on -/
def answer (task : ℕ) (a : Answer) : List Op := [.answer task a, .resume task]

/-- a whole dispatch of the next command, with the venue's answer -/
def sampleDispatch (task : ℕ) (venue : VenueOrderSnapshot) : List Op :=
  [.start 0 (.dispatchOnce "w")] ++ serve task ++ answer task (.order (.ok venue)) ++
  serve task ++ serve task ++ serve task

/-- a whole reconciliation run, with the venue's snapshot -/
def sampleReconcile (task : ℕ) (runId : String) (snapshot : VenueStateSnapshot) : List Op :=
  [.start 0 (.reconcileOnce runId)] ++ serve task ++ answer task (.state (.ok snapshot)) ++
  serve task ++ serve task ++ serve task

end CapitalCipher
