/-
The row locks that the transactions of `database/repositories/repository.py` take, and which of those
transactions can deadlock on PostgreSQL.

A transaction is the program of its locking statements: `with_for_update`, the UPDATE of the active
approvals, and inserts, which wait for another one with the same primary key. Plain reads lock
nothing and are left out. Every statement may raise, which ends the transaction.

  • `authorisation_deadlocked_iff`: consumptions, order creations and kill-switch commands deadlock
    exactly where a creation and whoever holds the control row took approval and control row in
    opposite orders.
  • `kill_switch_deadlocks`: the kill-switch trigger can be the one that does.
  • `never_deadlocked`: no deadlock of all the transactions together passes through the finish of an
    execution command, a cancellation, or any of the backfill queue's transactions;
    `claims_deadlock`: claims of execution commands can deadlock each other.
-/
import CapitalCipher.Lib.RowLocks

namespace CapitalCipher

open Lib Lib.RowLocks

/-- the locked rows, by their primary keys -/
inductive LockedRow where
  | riskControl
  | orderApproval (approvalId : String)
  | paperOrder (paperOrderId : String)
  | omsOrder (omsOrderId : String)
  | executionCommand (commandId : String)
  | reconciliationRun (runId : String)
  | executionFill (fillId : String)
  | backfillJob (jobId : String)
  | backfillQueueItem (queueId : String)
  deriving DecidableEq, Repr

namespace LockedRow

def isOrderApproval : LockedRow → Bool
  | orderApproval _ => true
  | _ => false

def isPaperOrder : LockedRow → Bool
  | paperOrder _ => true
  | _ => false

def isOmsOrder : LockedRow → Bool
  | omsOrder _ => true
  | _ => false

def isExecutionCommand : LockedRow → Bool
  | executionCommand _ => true
  | _ => false

def isBackfillQueueItem : LockedRow → Bool
  | backfillQueueItem _ => true
  | _ => false

/-- a row of the backfill tables -/
def backfill : LockedRow → Bool
  | backfillJob _ | backfillQueueItem _ => true
  | _ => false

/-- rows of neither the backfill tables nor the commands -/
def plain (r : LockedRow) : Bool := !r.backfill && !r.isExecutionCommand

end LockedRow

/-! ## The transactions -/

namespace Locking

/-- lock rows one by one; a missing one raises if it must be there -/
def lockEach (required : Bool) : List LockedRow → RowLocks.Program LockedRow → RowLocks.Program LockedRow
  | [], next => next
  | r :: rows, next => .lock r fun found =>
    if found || !required then lockEach required rows next else .done

def insertEach : List LockedRow → RowLocks.Program LockedRow → RowLocks.Program LockedRow
  | [], next => next
  | r :: rows, next => .insert r (insertEach rows next)

/-- `_durable_position_exposures(lock_paper=True)` -/
def durablePositionExposures (next : RowLocks.Program LockedRow) : RowLocks.Program LockedRow :=
  .scan LockedRow.isPaperOrder fun _ => .scan LockedRow.isOmsOrder fun _ => next

def consumeOrderApproval (approvalId paperOrderId : String) (mirror : Bool) : RowLocks.Program LockedRow :=
  .lock .riskControl fun _ =>
  .lock (.orderApproval approvalId) fun found =>
    if found then
      durablePositionExposures <|
      .insert (.paperOrder paperOrderId) <|
      if mirror then .insert (.omsOrder paperOrderId) .done else .done
    else .done

/-- what `create_oms_order` does behind the control row -/
def openOmsOrder (omsOrderId : String) (commandId : Option String) : RowLocks.Program LockedRow :=
  durablePositionExposures <|
  .insert (.omsOrder omsOrderId) <|
  commandId.elim .done fun c => .insert (.executionCommand c) .done

/-- `create_oms_order` with `consume_approval=True`, past its unlocked look for the same order -/
def createOmsOrder (approvalId omsOrderId : String) (commandId : Option String) :
    RowLocks.Program LockedRow :=
  .lock (.orderApproval approvalId) fun found =>
    if found then .lock .riskControl fun _ => openOmsOrder omsOrderId commandId else .done

def setRiskControl (active : Bool) : RowLocks.Program LockedRow :=
  let revoke := if active then .scan LockedRow.isOrderApproval fun _ => .done else .done
  .lock .riskControl fun found => if found then revoke else .insert .riskControl revoke

/-- the orders that commands belong to -/
def commandOrders (orderOf : String → String) : List LockedRow → List LockedRow
  | [] => []
  | .executionCommand c :: rows => .omsOrder (orderOf c) :: commandOrders orderOf rows
  | _ :: rows => commandOrders orderOf rows

/-- dead-letters the commands whose lease is exhausted, then leases the first that is ready -/
def claimExecutionCommand (orderOf : String → String) : RowLocks.Program LockedRow :=
  .skip LockedRow.isExecutionCommand fun expired =>
  lockEach true (commandOrders orderOf expired) <|
  .skip LockedRow.isExecutionCommand fun ready =>
  lockEach true (commandOrders orderOf (ready.take 1)) .done

def finishExecutionCommand (orderOf : String → String) (commandId : String) : RowLocks.Program LockedRow :=
  .lock (.executionCommand commandId) fun found =>
    if found then .lock (.omsOrder (orderOf commandId)) fun _ => .done else .done

def queueCancelCommand (omsOrderId commandId : String) : RowLocks.Program LockedRow :=
  .lock (.omsOrder omsOrderId) fun found =>
    if found then .insert (.executionCommand commandId) .done else .done

def persistReconciliation (runId : String) (omsOrderIds fillIds : List String) :
    RowLocks.Program LockedRow :=
  .insert (.reconciliationRun runId) <|
  lockEach false (omsOrderIds.map .omsOrder) <|
  insertEach (fillIds.map .executionFill) .done

/-- an upsert -/
def saveHistoricalBackfillJob (jobId : String) : RowLocks.Program LockedRow :=
  .insert (.backfillJob jobId) <| .lock (.backfillJob jobId) fun _ => .done

/-- a queue item has the id of its job -/
def submitHistoricalBackfill (jobId : String) : RowLocks.Program LockedRow :=
  .insert (.backfillJob jobId) <|
  .insert (.backfillQueueItem jobId) <|
  .lock (.backfillQueueItem jobId) fun found =>
    if found then .lock (.backfillJob jobId) fun _ => .done else .done

/-- the jobs that queue items belong to -/
def queueJobs : List LockedRow → List LockedRow
  | [] => []
  | .backfillQueueItem q :: rows => .backfillJob q :: queueJobs rows
  | _ :: rows => queueJobs rows

/-- dead-letters the items without attempts left, then leases the first that is ready -/
def claimNextBackfill : RowLocks.Program LockedRow :=
  .skip LockedRow.isBackfillQueueItem fun exhausted =>
  lockEach false (queueJobs exhausted) <|
  .skip LockedRow.isBackfillQueueItem fun ready =>
  lockEach true (queueJobs (ready.take 1)) .done

def finishBackfillQueueItem (queueId : String) : RowLocks.Program LockedRow :=
  .lock (.backfillQueueItem queueId) fun found =>
    if found then .lock (.backfillJob queueId) fun _ => .done else .done

end Locking

/-- the transactions that grant or withdraw trading authority -/
inductive Authorisation where
  | consumeOrderApproval (approvalId paperOrderId : String) (mirror : Bool)
  | createOmsOrder (approvalId omsOrderId : String) (commandId : Option String)
  | setRiskControl (active : Bool)
  deriving DecidableEq, Repr

def Authorisation.program : Authorisation → RowLocks.Program LockedRow
  | .consumeOrderApproval a p mirror => Locking.consumeOrderApproval a p mirror
  | .createOmsOrder a o c => Locking.createOmsOrder a o c
  | .setRiskControl active => Locking.setRiskControl active

/-! ## Deadlocks among authorisations -/

/-- what an authorisation has in hand when it wants a row -/
def Ordered (task : Authorisation) (h : Hand LockedRow) (want : Option LockedRow) : Prop :=
  ∀ r, want = some r → AtGate .riskControl h.held r ∧
    (.riskControl ∈ h.held ∨ h.held = [] ∨
      ∃ a o c, task = .createOmsOrder a o c ∧ h.held = [.orderApproval a])

/-- behind the control row everything is in order -/
theorem kept_behind (task : Authorisation) :
    Kept (Ordered task) (fun _ => True) fun h => .riskControl ∈ h.held where
  allows _ _ _ hc _ _ := ⟨.inl hc, .inl hc⟩
  held _ r _ hc := List.mem_cons_of_mem r hc
  known _ _ _ hc := hc
  fresh _ _ _ hc := hc
  overtaken _ _ _ hc := hc

theorem ordered_empty (task : Authorisation) {h : Hand LockedRow} (hheld : h.held = [])
    (want : Option LockedRow) : Ordered task h want :=
  fun _ _ => ⟨.inr (.inl hheld), .inr (.inl hheld)⟩

/-- a program that takes the control row first -/
theorem ordered_entering (task : Authorisation) (k : Bool → RowLocks.Program LockedRow)
    {h : Hand LockedRow} (hfresh : h.fresh = []) (hwant : Ordered task h (some .riskControl))
    (hidle : Ordered task h none) :
    (RowLocks.Program.lock .riskControl k).Obeys (· = .riskControl) (Ordered task) h := by
  refine ⟨hidle, ⟨hwant, ?_, fun hf => ?_⟩, fun hsure => absurd rfl hsure⟩
  · exact (kept_behind task).obeys (k true) List.mem_cons_self
  · rw [hfresh] at hf
    cases hf

theorem Authorisation.ordered (task : Authorisation) :
    task.program.Obeys (· = .riskControl) (Ordered task) ⟨[], [], []⟩ := by
  cases task with
  | consumeOrderApproval a p mirror =>
    exact ordered_entering _ _ rfl (ordered_empty _ rfl _) (ordered_empty _ rfl _)
  | setRiskControl active =>
    exact ordered_entering _ _ rfl (ordered_empty _ rfl _) (ordered_empty _ rfl _)
  | createOmsOrder a o c =>
    refine ⟨ordered_empty _ rfl _, ⟨ordered_empty _ rfl _, ?_, fun hf => by cases hf⟩, fun _ => ?_⟩
    · -- the approval is in hand, the control row is still to be taken
      have hone : ∀ want, want = none ∨ want = some .riskControl →
          Ordered (.createOmsOrder a o c) ⟨[], [.orderApproval a], []⟩ want := by
        rintro want (rfl | rfl) r hr
        · cases hr
        · cases hr
          exact ⟨.inr (.inr ⟨rfl, _, rfl⟩), .inr (.inr ⟨a, o, c, rfl, rfl⟩)⟩
      exact ordered_entering _ (fun _ => Locking.openOmsOrder o c) rfl (hone _ (.inr rfl))
        (hone _ (.inl rfl))
    · exact ordered_empty _ rfl _

/-- `i` creates an order and holds its approval while it waits for the control row, whose holder `j`
waits for that approval -/
structure OutOfOrder (d : Database Authorisation LockedRow) (i j : ℕ) (approvalId : String) :
    Prop where
  creation : ∃ omsOrderId commandId,
    (d.session i).task = some (.createOmsOrder approvalId omsOrderId commandId)
  holds : (d.session i).held = [.orderApproval approvalId]
  wants : d.wants i = some .riskControl
  control : .riskControl ∈ (d.session j).held
  awaits : d.wants j = some (.orderApproval approvalId)

theorem crossed_iff {d : Database Authorisation LockedRow}
    (hd : Sound Authorisation.program (· = .riskControl) Ordered d) {i j : ℕ} :
    d.Crossed .riskControl i j ↔ ∃ a, OutOfOrder d i j a := by
  constructor
  · rintro ⟨hne, hi, hj, r, hheld, hwj⟩
    obtain ⟨task, htask⟩ := hd.task_of_wants hi
    obtain ⟨known, -, hin⟩ := hd.wants hi htask
    rcases (hin _ rfl).2 with hc | hempty | ⟨a, o, c, rfl, ha⟩
    · exact absurd (hd.unshared i j .riskControl hc hj) hne
    · rw [hheld] at hempty
      cases hempty
    · have hra : r = .orderApproval a := List.singleton_injective (hheld.symm.trans ha)
      rw [hra] at hheld hwj
      exact ⟨a, ⟨o, c, htask⟩, hheld, hi, hj, hwj⟩
  · rintro ⟨a, -, hheld, hi, hj, hwj⟩
    refine ⟨fun hij => ?_, hi, hj, _, hheld, hwj⟩
    rw [← hij, hheld] at hj
    simp at hj

/-- **Authorisations deadlock only out of order.** Once the control row exists, whatever consumptions,
order creations and kill-switch commands run and however their statements interleave, the deadlocked
ones are exactly an order creation that holds its approval and the holder of the control row that
waits for that approval. -/
theorem authorisation_deadlocked_iff {stored : LockedRow → Bool}
    (hcontrol : stored .riskControl = true) (ops : List (RowLocks.Op Authorisation LockedRow)) (i : ℕ) :
    (run (Database.step Authorisation.program) ⟨stored, []⟩ ops).Deadlocked i ↔
      ∃ j a, OutOfOrder (run (Database.step Authorisation.program) ⟨stored, []⟩ ops) i j a ∨
        OutOfOrder (run (Database.step Authorisation.program) ⟨stored, []⟩ ops) j i a := by
  have hd : Sound Authorisation.program (· = .riskControl) Ordered
      (run (Database.step Authorisation.program) ⟨stored, []⟩ ops) := by
    refine RowLocks.run_sound Authorisation.ordered ?_ ops
    rintro r rfl
    exact hcontrol
  have hgate := gate_deadlocked_iff hd.unshared (c := .riskControl) (fun j r hr => by
    obtain ⟨task, htask⟩ := hd.task_of_wants hr
    obtain ⟨known, -, hin⟩ := hd.wants hr htask
    exact (hin r rfl).1) i
  rw [hgate]
  refine exists_congr fun j => ?_
  rw [crossed_iff hd, crossed_iff hd, exists_or]

/-- an order is created while the kill switch is triggered -/
def creationBesideTrigger : List (RowLocks.Op Authorisation LockedRow) :=
  [.start (.createOmsOrder "approval" "order" none), .start (.setRiskControl true),
   .execute 0 [] [], .acquire 0, .execute 1 [] [], .acquire 1, .execute 0 [] [],
   .execute 1 [.orderApproval "approval"] []]

/-- the creation waits for the control row, the trigger for the approval it is to revoke -/
theorem kill_switch_deadlocks :
    (run (Database.step Authorisation.program)
      ⟨fun r => decide (r = .riskControl ∨ r = .orderApproval "approval"), []⟩
      creationBesideTrigger).Deadlocked 1 :=
  (authorisation_deadlocked_iff (by decide) creationBesideTrigger 1).2
    ⟨0, "approval", .inr ⟨⟨"order", none, by decide⟩, by decide, by decide, by decide, by decide⟩⟩

/-! ## All transactions together -/

inductive LockingTask where
  | authorise (task : Authorisation)
  | claimExecutionCommand
  | finishExecutionCommand (commandId : String)
  | queueCancelCommand (omsOrderId commandId : String)
  | persistReconciliation (runId : String) (omsOrderIds fillIds : List String)
  | saveHistoricalBackfillJob (jobId : String)
  | submitHistoricalBackfill (jobId : String)
  | claimNextBackfill
  | finishBackfillQueueItem (queueId : String)
  deriving DecidableEq, Repr

namespace LockingTask

/-- `orderOf` is the order a command belongs to, which never changes -/
def program (orderOf : String → String) : LockingTask → RowLocks.Program LockedRow
  | authorise task => task.program
  | claimExecutionCommand => Locking.claimExecutionCommand orderOf
  | finishExecutionCommand c => Locking.finishExecutionCommand orderOf c
  | queueCancelCommand o c => Locking.queueCancelCommand o c
  | persistReconciliation r os fs => Locking.persistReconciliation r os fs
  | saveHistoricalBackfillJob j => Locking.saveHistoricalBackfillJob j
  | submitHistoricalBackfill j => Locking.submitHistoricalBackfill j
  | claimNextBackfill => Locking.claimNextBackfill
  | finishBackfillQueueItem q => Locking.finishBackfillQueueItem q

/-- the transactions of the backfill queue -/
def backfill : LockingTask → Bool
  | saveHistoricalBackfillJob _ | submitHistoricalBackfill _ | claimNextBackfill
  | finishBackfillQueueItem _ => true
  | _ => false

/-- the transactions that finish an execution command or queue a cancellation -/
def commands : LockingTask → Bool
  | finishExecutionCommand _ | queueCancelCommand _ _ => true
  | _ => false

end LockingTask

namespace Locking

/-- a backfill transaction wants a row empty-handed, one it holds already, a job whose queue item it
holds, or the queue item of a job it has inserted itself -/
def JobOrder (h : Hand LockedRow) (r : LockedRow) : Prop :=
  (h.held = [] ∨ r ∈ h.held ∨ (∃ x, r = .backfillJob x ∧ .backfillQueueItem x ∈ h.held) ∨
    ∃ x, r = .backfillQueueItem x ∧ h.held = [.backfillJob x] ∧ .backfillJob x ∈ h.fresh) ∧
  ∀ x, .backfillJob x ∈ h.held → .backfillQueueItem x ∈ h.held ∨ h.held = [.backfillJob x]

/-- what a transaction has in hand, and what it may want then -/
structure Discipline (task : LockingTask) (h : Hand LockedRow) (want : Option LockedRow) :
    Prop where
  /-- a queue item is inserted beside its job -/
  queued : ∀ x, .backfillQueueItem x ∈ h.fresh →
    .backfillJob x ∈ h.held ∨ .backfillJob x ∈ h.known
  foreign : task.backfill = false → ∀ r ∈ h.held, r.backfill = false
  jobs : task.backfill = true → ∀ r, want = some r → JobOrder h r
  /-- the insertion of a command is a transaction's last statement -/
  inserted : ∀ c, want ≠ none → .executionCommand c ∈ h.fresh → .executionCommand c ∉ h.held
  lookup : ∀ c, want = some (.executionCommand c) → .executionCommand c ∉ h.fresh → h.held = []
  finish : ∀ c, task = .finishExecutionCommand c → want ≠ none →
    h.fresh = [] ∧ (h.held = [] ∨ h.held = [.executionCommand c])
  cancel : ∀ o c r, task = .queueCancelCommand o c → want = some r →
    h.held = [] ∨ (r = .executionCommand c ∧ r ∈ h.fresh)

/-! ## Every transaction keeps the discipline -/

structure Plain (h : Hand LockedRow) : Prop where
  held : ∀ r ∈ h.held, r.plain = true
  fresh : ∀ r ∈ h.fresh, r.plain = true

namespace Plain

variable {h : Hand LockedRow}

theorem empty : Plain ⟨[], [], []⟩ := ⟨by simp, by simp⟩

theorem not_queued (hh : Plain h) (x : String) : .backfillQueueItem x ∉ h.fresh := by
  intro hx
  cases hh.fresh _ hx

theorem not_inserted (hh : Plain h) (c : String) : .executionCommand c ∉ h.fresh := by
  intro hc
  cases hh.fresh _ hc

theorem foreign (hh : Plain h) {r : LockedRow} (hr : r ∈ h.held) : r.backfill = false := by
  have := hh.held r hr
  cases r <;> simp_all [LockedRow.plain, LockedRow.backfill, LockedRow.isExecutionCommand]

theorem kept {task : LockingTask} (hbackfill : task.backfill = false)
    (hcommands : task.commands = false) :
    Kept (Discipline task) (fun r => r.plain = true) Plain where
  allows h want hwant hh := by
    refine ⟨fun x hx => absurd hx (hh.not_queued x), fun _ r => hh.foreign, fun hb => ?_,
      fun c _ hc => absurd hc (hh.not_inserted c), fun c hc => ?_, ?_, ?_⟩
    · rw [hbackfill] at hb
      cases hb
    · cases hwant _ hc
    · rintro c rfl
      cases hcommands
    · rintro o c r rfl
      cases hcommands
  held h r hr hh := ⟨by simpa using ⟨hr, hh.held⟩, hh.fresh⟩
  known h r hr hh := ⟨hh.held, hh.fresh⟩
  fresh h r hr hh := ⟨hh.held, by simpa using ⟨hr, hh.fresh⟩⟩
  overtaken h r hr hh := ⟨hh.held, fun r' hr' => hh.fresh r' (List.mem_filter.1 hr').1⟩

end Plain

section

variable {sure : LockedRow → Prop} {I : Hand LockedRow → Option LockedRow → Prop}
  {T : LockedRow → Prop} {Q : Hand LockedRow → Prop} {h : Hand LockedRow}

theorem obeys_lockEach (hQ : Kept I T Q) {required : Bool} {rows : List LockedRow}
    {next : RowLocks.Program LockedRow} (hrows : ∀ r ∈ rows, T r)
    (hnext : ∀ h, Q h → next.Obeys sure I h) (hh : Q h) :
    (lockEach required rows next).Obeys sure I h := by
  induction rows generalizing h with
  | nil => exact hnext h hh
  | cons r rows ih =>
    refine hQ.lock (hrows r List.mem_cons_self) (fun found h hh => ?_) hh
    by_cases hfound : (found || !required) = true
    · rw [if_pos hfound]
      exact ih (fun r' hr' => hrows r' (List.mem_cons_of_mem r hr')) hh
    · rw [if_neg hfound]
      exact hQ.idle hh

theorem obeys_insertEach (hQ : Kept I T Q) {rows : List LockedRow} {next : RowLocks.Program LockedRow}
    (hrows : ∀ r ∈ rows, T r) (hnext : ∀ h, Q h → next.Obeys sure I h) (hh : Q h) :
    (insertEach rows next).Obeys sure I h := by
  induction rows generalizing h with
  | nil => exact hnext h hh
  | cons r rows ih =>
    exact hQ.insert (hrows r List.mem_cons_self)
      (fun _ hh => ih (fun r' hr' => hrows r' (List.mem_cons_of_mem r hr')) hh) hh

theorem obeys_exposures (hQ : Kept I (fun r => r.plain = true) Q) {next : RowLocks.Program LockedRow}
    (hnext : ∀ h, Q h → next.Obeys sure I h) (hh : Q h) :
    (durablePositionExposures next).Obeys sure I h := by
  refine hQ.scan ?_ (fun _ _ hh => hQ.scan ?_ (fun _ h hh => hnext h hh) hh) hh
  · intro r hr
    cases r <;> first | rfl | cases hr
  · intro r hr
    cases r <;> first | rfl | cases hr

end

variable {sure : LockedRow → Prop} {h : Hand LockedRow}

theorem obeys_consumeOrderApproval (a p : String) (mirror : Bool) :
    (consumeOrderApproval a p mirror).Obeys sure
      (Discipline (.authorise (.consumeOrderApproval a p mirror))) ⟨[], [], []⟩ := by
  have hQ : Kept (Discipline (.authorise (.consumeOrderApproval a p mirror))) _ Plain := Plain.kept rfl rfl
  refine hQ.lock rfl (fun _ _ hh => hQ.lock rfl (fun found h hh => ?_) hh) Plain.empty
  cases found with
  | false => exact hQ.idle hh
  | true =>
    refine obeys_exposures hQ (fun _ hh => hQ.insert rfl (fun h hh => ?_) hh) hh
    cases mirror with
    | false => exact hQ.idle hh
    | true => exact hQ.insert rfl (fun _ hh => hQ.idle hh) hh

theorem obeys_setRiskControl (active : Bool) :
    (setRiskControl active).Obeys sure (Discipline (.authorise (.setRiskControl active)))
      ⟨[], [], []⟩ := by
  have hQ : Kept (Discipline (.authorise (.setRiskControl active))) _ Plain := Plain.kept rfl rfl
  have hrevoke : ∀ h, Plain h → (if active then RowLocks.Program.scan LockedRow.isOrderApproval
      fun _ => RowLocks.Program.done else RowLocks.Program.done).Obeys sure
        (Discipline (.authorise (.setRiskControl active))) h := by
    intro h hh
    cases active with
    | false => exact hQ.idle hh
    | true =>
      refine hQ.scan (fun r hr => ?_) (fun _ _ hh => hQ.idle hh) hh
      cases r <;> first | rfl | cases hr
  refine hQ.lock rfl (fun found h hh => ?_) Plain.empty
  cases found with
  | false => exact hQ.insert rfl hrevoke hh
  | true => exact hrevoke h hh

theorem obeys_persistReconciliation (r : String) (os fs : List String) :
    (persistReconciliation r os fs).Obeys sure (Discipline (.persistReconciliation r os fs))
      ⟨[], [], []⟩ := by
  have hQ : Kept (Discipline (.persistReconciliation r os fs)) _ Plain := Plain.kept rfl rfl
  refine hQ.insert rfl (fun _ hh => obeys_lockEach hQ ?_ (fun _ hh => obeys_insertEach hQ ?_
    (fun _ hh => hQ.idle hh) hh) hh) Plain.empty
  · intro row hrow
    obtain ⟨o, -, rfl⟩ := List.mem_map.1 hrow
    rfl
  · intro row hrow
    obtain ⟨f, -, rfl⟩ := List.mem_map.1 hrow
    rfl

/-- a command is inserted last, and nothing is wanted after it -/
theorem obeys_insertCommand {task : LockingTask} (hbackfill : task.backfill = false)
    (hfinish : ∀ c, task ≠ .finishExecutionCommand c) (c : String)
    (hcancel : ∀ o c', task = .queueCancelCommand o c' → c' = c) (hh : Plain h) :
    (RowLocks.Program.insert (.executionCommand c) .done).Obeys sure (Discipline task) h := by
  -- between statements only the backfill rows matter
  have hidle : ∀ h : Hand LockedRow, (∀ x, .backfillQueueItem x ∉ h.fresh) →
      (∀ r ∈ h.held, r.backfill = false) → Discipline task h none := by
    intro h hfresh hheld
    refine ⟨fun x hx => absurd hx (hfresh x), fun _ => hheld, ?_, fun c hw => absurd rfl hw,
      ?_, ?_, ?_⟩
    · rw [hbackfill]
      rintro ⟨⟩
    · rintro c ⟨⟩
    · intro c htask
      exact absurd htask (hfinish c)
    · rintro o c r - ⟨⟩
  have hfresh : ∀ x, .backfillQueueItem x ∉ LockedRow.executionCommand c :: h.fresh := by
    intro x hx
    rcases List.mem_cons.1 hx with hx | hx
    · cases hx
    · exact hh.not_queued x hx
  have hheld : ∀ r ∈ h.held, r.backfill = false := fun r hr => hh.foreign hr
  refine ⟨hidle h hh.not_queued hheld, ⟨?_, hidle _ hfresh ?_, fun _ _ => hidle _ ?_ hheld⟩,
    hidle _ hh.not_queued hheld, fun _ => hidle h hh.not_queued hheld⟩
  · have honly : ∀ c', LockedRow.executionCommand c' ∈ LockedRow.executionCommand c :: h.fresh →
        c' = c := by
      intro c' hc'
      rcases List.mem_cons.1 hc' with hc' | hc'
      · exact LockedRow.executionCommand.inj hc'
      · exact absurd hc' (hh.not_inserted c')
    refine ⟨fun x hx => absurd hx (hfresh x), fun _ => hheld, ?_, fun c' _ hc' hin => ?_, ?_, ?_, ?_⟩
    · rw [hbackfill]
      rintro ⟨⟩
    · cases hh.held _ hin
    · rintro c' ⟨⟩ hc'
      exact absurd List.mem_cons_self hc'
    · intro c' htask
      exact absurd htask (hfinish c')
    · rintro o c' r htask ⟨⟩
      rw [hcancel o c' htask]
      exact .inr ⟨rfl, List.mem_cons_self⟩
  · intro r hr
    rcases List.mem_cons.1 hr with rfl | hr
    · rfl
    · exact hheld r hr
  · intro x hx
    exact hfresh x (List.mem_filter.1 hx).1

theorem obeys_createOmsOrder (a o : String) (c : Option String) :
    (createOmsOrder a o c).Obeys sure (Discipline (.authorise (.createOmsOrder a o c)))
      ⟨[], [], []⟩ := by
  have hQ : Kept (Discipline (.authorise (.createOmsOrder a o c))) _ Plain := Plain.kept rfl rfl
  refine hQ.lock rfl (fun found h hh => ?_) Plain.empty
  cases found with
  | false => exact hQ.idle hh
  | true =>
    refine hQ.lock rfl (fun _ _ hh => obeys_exposures hQ (fun _ hh =>
      hQ.insert rfl (fun h hh => ?_) hh) hh) hh
    cases c with
    | none => exact hQ.idle hh
    | some c => exact obeys_insertCommand rfl (fun c hc => by cases hc) c (fun o c' hc => by cases hc) hh

theorem obeys_queueCancelCommand (o c : String) :
    (queueCancelCommand o c).Obeys sure (Discipline (.queueCancelCommand o c)) ⟨[], [], []⟩ := by
  have hempty : ∀ want, (∀ c, want ≠ some (.executionCommand c)) →
      Discipline (.queueCancelCommand o c) ⟨[], [], []⟩ want := by
    intro want hwant
    refine ⟨by simp, by simp, by rintro ⟨⟩, by simp, fun c' hc' => absurd hc' (hwant c'), by simp,
      fun _ _ _ _ _ => .inl rfl⟩
  refine ⟨hempty none (by simp), ⟨hempty _ (by simp), ?_, fun hf => by cases hf⟩,
    fun _ => hempty none (by simp)⟩
  refine obeys_insertCommand rfl (fun c hc => by cases hc) c (fun o c' hc => by cases hc; rfl) ?_
  exact ⟨by simp [LockedRow.plain, LockedRow.backfill, LockedRow.isExecutionCommand], by simp⟩

theorem mem_commandOrders {orderOf : String → String} {rows : List LockedRow} {r : LockedRow}
    (hr : r ∈ commandOrders orderOf rows) : ∃ c, r = .omsOrder (orderOf c) := by
  induction rows with
  | nil => cases hr
  | cons row rows ih =>
    cases row with
    | executionCommand c =>
      rcases List.mem_cons.1 hr with rfl | hr
      · exact ⟨c, rfl⟩
      · exact ih hr
    | _ => exact ih hr

/-- a claim holds commands it has skipped to and waits only for orders -/
structure Claiming (h : Hand LockedRow) : Prop where
  held : ∀ r ∈ h.held, r.backfill = false
  fresh : ∀ r ∈ h.fresh, r.isOmsOrder = true

theorem Claiming.kept : Kept (Discipline .claimExecutionCommand) (fun r => r.isOmsOrder = true)
    Claiming where
  allows h want hwant hh := by
    refine ⟨fun x hx => ?_, fun _ => hh.held, by rintro ⟨⟩, fun c _ hc => ?_, fun c hc => ?_,
      by rintro c ⟨⟩, by rintro o c r ⟨⟩⟩
    · cases hh.fresh _ hx
    · cases hh.fresh _ hc
    · cases hwant _ hc
  held h r hr hh := by
    refine ⟨fun r' hr' => ?_, hh.fresh⟩
    rcases List.mem_cons.1 hr' with rfl | hr'
    · cases r' <;> first | rfl | cases hr
    · exact hh.held r' hr'
  known h r hr hh := ⟨hh.held, hh.fresh⟩
  fresh h r hr hh := ⟨hh.held, by simpa using ⟨hr, hh.fresh⟩⟩
  overtaken h r hr hh := ⟨hh.held, fun r' hr' => hh.fresh r' (List.mem_filter.1 hr').1⟩

theorem Claiming.skipped {rows : List LockedRow}
    (hrows : ∀ r ∈ rows, r.isExecutionCommand = true) (hh : Claiming h) :
    Claiming { h with known := rows ++ h.known, held := rows ++ h.held } := by
  refine ⟨fun r hr => ?_, hh.fresh⟩
  rcases List.mem_append.1 hr with hr | hr
  · have := hrows r hr
    cases r <;> first | rfl | cases this
  · exact hh.held r hr

theorem obeys_claimExecutionCommand (orderOf : String → String) :
    (claimExecutionCommand orderOf).Obeys sure (Discipline .claimExecutionCommand)
      ⟨[], [], []⟩ := by
  have hQ := Claiming.kept
  have horders : ∀ rows, ∀ r ∈ commandOrders orderOf rows, r.isOmsOrder = true := by
    intro rows r hr
    obtain ⟨c, rfl⟩ := mem_commandOrders hr
    rfl
  refine hQ.skip (fun _ _ hrows hh => hh.skipped hrows) (fun expired _ _ hh =>
    obeys_lockEach hQ (horders expired) (fun _ hh => hQ.skip (fun _ _ hrows hh => hh.skipped hrows)
      (fun ready _ _ hh => obeys_lockEach hQ (horders _) (fun _ hh => hQ.idle hh) hh) hh) hh) ?_
  exact ⟨by simp, by simp⟩

theorem obeys_finishExecutionCommand (orderOf : String → String) (c : String) :
    (finishExecutionCommand orderOf c).Obeys sure (Discipline (.finishExecutionCommand c))
      ⟨[], [], []⟩ := by
  -- at most the command is in hand when a row is wanted, and only the order is wanted then
  have hstage : ∀ held want, (∀ r ∈ held, r.backfill = false) →
      (want ≠ none → held = [] ∨ held = [LockedRow.executionCommand c]) →
      (∀ c', want = some (.executionCommand c') → held = []) →
      Discipline (.finishExecutionCommand c) ⟨[], held, []⟩ want := by
    intro held want hforeign hheld hwant
    refine ⟨by simp, fun _ => hforeign, by rintro ⟨⟩, by simp, fun c' hc' _ => hwant c' hc',
      ?_, by rintro o c' r ⟨⟩⟩
    rintro c' ⟨⟩ hw
    exact ⟨rfl, hheld hw⟩
  have hbefore : ∀ want, Discipline (.finishExecutionCommand c) ⟨[], [], []⟩ want :=
    fun want => hstage [] want (by simp) (fun _ => .inl rfl) fun _ _ => rfl
  have hbehind : ∀ want, (∀ c', want ≠ some (.executionCommand c')) →
      Discipline (.finishExecutionCommand c) ⟨[], [.executionCommand c], []⟩ want := by
    intro want hwant
    refine hstage _ want ?_ (fun _ => .inr rfl) fun c' hc' => absurd hc' (hwant c')
    intro r hr
    rw [List.mem_singleton.1 hr]
    rfl
  refine ⟨hbefore none, ⟨hbefore _, ⟨hbehind none (by simp), ⟨hbehind _ (by simp), ?_,
    fun hf => by cases hf⟩, fun _ => hbehind none (by simp)⟩, fun hf => by cases hf⟩,
    fun _ => hbefore none⟩
  refine hstage _ none ?_ (fun hw => absurd rfl hw) (by simp)
  intro r hr
  rcases List.mem_cons.1 hr with rfl | hr
  · rfl
  · rw [List.mem_singleton.1 hr]
    rfl

/-! ## The backfill queue -/

theorem discipline_backfill {task : LockingTask} (hbackfill : task.backfill = true)
    {want : Option LockedRow} (hqueued : ∀ x, .backfillQueueItem x ∈ h.fresh →
      .backfillJob x ∈ h.held ∨ .backfillJob x ∈ h.known)
    (hfresh : ∀ c, .executionCommand c ∉ h.fresh) (hwant : ∀ c, want ≠ some (.executionCommand c))
    (hjobs : ∀ r, want = some r → JobOrder h r) : Discipline task h want where
  queued := hqueued
  foreign hb := by
    rw [hbackfill] at hb
    cases hb
  jobs _ := hjobs
  inserted c _ hc := absurd hc (hfresh c)
  lookup c hc := absurd hc (hwant c)
  finish c hc := by
    rw [hc] at hbackfill
    cases hbackfill
  cancel o c r hc := by
    rw [hc] at hbackfill
    cases hbackfill

theorem mem_queueJobs {rows : List LockedRow} {r : LockedRow} (hr : r ∈ queueJobs rows) :
    ∃ x, r = .backfillJob x ∧ .backfillQueueItem x ∈ rows := by
  induction rows with
  | nil => cases hr
  | cons row rows ih =>
    have hlater : r ∈ queueJobs rows → ∃ x, r = .backfillJob x ∧ .backfillQueueItem x ∈ row :: rows :=
      fun h => (ih h).imp fun x hx => ⟨hx.1, List.mem_cons_of_mem row hx.2⟩
    cases row with
    | backfillQueueItem q =>
      rcases List.mem_cons.1 hr with rfl | hr
      · exact ⟨q, rfl, List.mem_cons_self⟩
      · exact hlater hr
    | _ => exact hlater hr

/-- a backfill claim holds queue items, `base` among them, and jobs of items it holds -/
structure Leasing (base : List LockedRow) (h : Hand LockedRow) : Prop where
  base : ∀ r ∈ base, r ∈ h.held
  items : ∀ x, .backfillJob x ∈ h.held → .backfillQueueItem x ∈ h.held
  fresh : ∀ r ∈ h.fresh, ∃ x, r = .backfillJob x

theorem Leasing.kept (base : List LockedRow) : Kept (Discipline .claimNextBackfill)
    (fun r => ∃ x, r = .backfillJob x ∧ .backfillQueueItem x ∈ base) (Leasing base) where
  allows h want hwant hh := by
    refine discipline_backfill rfl (fun x hx => ?_) (fun c hc => ?_) (fun c hc => ?_) fun r hr => ?_
    · obtain ⟨y, hy⟩ := hh.fresh _ hx
      cases hy
    · obtain ⟨y, hy⟩ := hh.fresh _ hc
      cases hy
    · obtain ⟨y, hy, -⟩ := hwant _ hc
      cases hy
    · obtain ⟨x, rfl, hx⟩ := hwant r hr
      exact ⟨.inr (.inr (.inl ⟨x, rfl, hh.base _ hx⟩)), fun y hy => .inl (hh.items y hy)⟩
  held h r hr hh := by
    obtain ⟨x, rfl, hx⟩ := hr
    refine ⟨fun r hr => List.mem_cons_of_mem _ (hh.base r hr), fun y hy => ?_, hh.fresh⟩
    refine List.mem_cons_of_mem _ ?_
    rcases List.mem_cons.1 hy with hy | hy
    · cases hy
      exact hh.base _ hx
    · exact hh.items y hy
  known h r hr hh := ⟨hh.base, hh.items, hh.fresh⟩
  fresh h r hr hh := by
    refine ⟨hh.base, hh.items, fun r' hr' => ?_⟩
    rcases List.mem_cons.1 hr' with rfl | hr'
    · exact hr.imp fun x hx => hx.1
    · exact hh.fresh r' hr'
  overtaken h r hr hh :=
    ⟨hh.base, hh.items, fun r' hr' => hh.fresh r' (List.mem_filter.1 hr').1⟩

theorem Leasing.skipped {base rows : List LockedRow}
    (hrows : ∀ r ∈ rows, r.isBackfillQueueItem = true) (hh : Leasing base h) :
    Leasing rows { h with known := rows ++ h.known, held := rows ++ h.held } := by
  refine ⟨fun r hr => List.mem_append_left _ hr, fun x hx => ?_, hh.fresh⟩
  rcases List.mem_append.1 hx with hx | hx
  · cases hrows _ hx
  · exact List.mem_append_right _ (hh.items x hx)

theorem obeys_claimNextBackfill :
    claimNextBackfill.Obeys sure (Discipline .claimNextBackfill) ⟨[], [], []⟩ := by
  have hbase : Leasing [] ⟨[], [], []⟩ := ⟨by simp, by simp, by simp⟩
  refine ⟨(Leasing.kept []).idle hbase, fun exhausted hexhausted => ?_⟩
  refine obeys_lockEach (Leasing.kept exhausted) (fun r hr => mem_queueJobs hr) (fun h hh => ?_)
    (hbase.skipped hexhausted)
  refine ⟨(Leasing.kept exhausted).idle hh, fun ready hready => ?_⟩
  refine obeys_lockEach (Leasing.kept ready) (fun r hr => ?_)
    (fun _ hh => (Leasing.kept ready).idle hh) (hh.skipped hready)
  obtain ⟨x, hx, hmem⟩ := mem_queueJobs hr
  exact ⟨x, hx, List.mem_of_mem_take hmem⟩

/-- what the transactions about one item have in hand: rows of the item, its queue row or, before
that, nothing but the job they inserted -/
structure About (x : String) (h : Hand LockedRow) : Prop where
  held : ∀ r ∈ h.held, r = .backfillQueueItem x ∨ r = .backfillJob x
  fresh : ∀ r ∈ h.fresh, r = .backfillQueueItem x ∨ r = .backfillJob x
  item : .backfillQueueItem x ∈ h.held ∨ h.held = [] ∨
    (h.held = [.backfillJob x] ∧ .backfillJob x ∈ h.fresh)
  queued : .backfillQueueItem x ∈ h.fresh → .backfillJob x ∈ h.held ∨ .backfillJob x ∈ h.known

namespace About

variable {x : String}

theorem jobs (hh : About x h) {y : String} (hy : .backfillJob y ∈ h.held) :
    .backfillQueueItem y ∈ h.held ∨ h.held = [.backfillJob y] := by
  have hxy : y = x := by
    rcases hh.held _ hy with h | h <;> cases h
    rfl
  rw [hxy] at hy ⊢
  rcases hh.item with h | h | h
  · exact .inl h
  · rw [h] at hy
    cases hy
  · exact .inr h.1

theorem discipline {task : LockingTask} (hbackfill : task.backfill = true) (hh : About x h)
    {want : Option LockedRow} (hwant : ∀ r, want = some r → r = .backfillQueueItem x ∨
      (r = .backfillJob x ∧ (.backfillQueueItem x ∈ h.held ∨ r ∈ h.held ∨ h.held = []))) :
    Discipline task h want := by
  refine discipline_backfill hbackfill (fun y hy => ?_) (fun c hc => ?_) (fun c hc => ?_)
    fun r hr => ⟨?_, fun y hy => hh.jobs hy⟩
  · rcases hh.fresh _ hy with h | h
    · cases h
      exact hh.queued hy
    · cases h
  · rcases hh.fresh _ hc with h | h <;> cases h
  · rcases hwant _ hc with h | h
    · cases h
    · cases h.1
  · rcases hwant r hr with rfl | ⟨rfl, h | h | h⟩
    · rcases hh.item with h | h | h
      · exact .inr (.inl h)
      · exact .inl h
      · exact .inr (.inr (.inr ⟨x, rfl, h⟩))
    · exact .inr (.inr (.inl ⟨x, rfl, h⟩))
    · exact .inr (.inl h)
    · exact .inl h

/-- locking the queue item, and the job behind it -/
theorem lock_both {task : LockingTask} (hbackfill : task.backfill = true) (hh : About x h)
    (hplaced : .backfillQueueItem x ∈ h.fresh → .backfillQueueItem x ∈ h.held) :
    (RowLocks.Program.lock (.backfillQueueItem x) fun found =>
      if found then .lock (.backfillJob x) fun _ => .done else .done).Obeys sure
        (Discipline task) h := by
  have hidle : ∀ {h}, About x h → Discipline task h none :=
    fun hh => hh.discipline hbackfill (by simp)
  have hitem : About x { h with held := .backfillQueueItem x :: h.held } :=
    ⟨by simpa using hh.held, hh.fresh, .inl List.mem_cons_self,
      fun hx => (hh.queued hx).imp_left (List.mem_cons_of_mem _)⟩
  refine ⟨hidle hh, ⟨hh.discipline hbackfill ?_, ⟨hidle hitem, ⟨?_, ?_, fun hf hn => ?_⟩,
    fun _ => hidle hitem⟩, fun hf hn => absurd (hplaced hf) hn⟩, fun _ => hidle hh⟩
  · rintro r ⟨⟩
    exact .inl rfl
  · refine hitem.discipline hbackfill ?_
    rintro r ⟨⟩
    exact .inr ⟨rfl, .inl List.mem_cons_self⟩
  · refine hidle ⟨?_, hitem.fresh, .inl (by simp), fun hx =>
      (hitem.queued hx).imp_left (List.mem_cons_of_mem _)⟩
    intro r hr
    rcases List.mem_cons.1 hr with rfl | hr
    · exact .inr rfl
    · exact hitem.held r hr
  · refine hidle ⟨hitem.held, fun r hr => hitem.fresh r (List.mem_filter.1 hr).1,
      .inl List.mem_cons_self, fun hx => ?_⟩
    exact .inr List.mem_cons_self

end About

theorem obeys_finishBackfillQueueItem (q : String) :
    (finishBackfillQueueItem q).Obeys sure (Discipline (.finishBackfillQueueItem q)) ⟨[], [], []⟩ := by
  have hh : About q ⟨[], [], []⟩ := ⟨by simp, by simp, .inr (.inl rfl), by simp⟩
  exact hh.lock_both rfl (by simp)

theorem obeys_saveHistoricalBackfillJob (j : String) :
    (saveHistoricalBackfillJob j).Obeys sure (Discipline (.saveHistoricalBackfillJob j))
      ⟨[], [], []⟩ := by
  have hstage : ∀ known held fresh want, (∀ r ∈ fresh, r = LockedRow.backfillJob j) →
      (∀ r, want = some r → r = .backfillJob j ∧ (held = [] ∨ held = [.backfillJob j])) →
      Discipline (.saveHistoricalBackfillJob j) ⟨known, held, fresh⟩ want := by
    intro known held fresh want hfresh hwant
    refine discipline_backfill rfl (fun x hx => by cases hfresh _ hx)
      (fun c hc => by cases hfresh _ hc) (fun c hc => by cases (hwant _ hc).1) fun r hr => ?_
    obtain ⟨rfl, rfl | rfl⟩ := hwant r hr
    · exact ⟨.inl rfl, by simp⟩
    · exact ⟨.inr (.inl List.mem_cons_self), by simp⟩
  have hlock : ∀ known held fresh, (∀ r ∈ fresh, r = LockedRow.backfillJob j) →
      held = [] ∨ held = [.backfillJob j] →
      (RowLocks.Program.lock (.backfillJob j) fun _ => .done).Obeys sure
        (Discipline (.saveHistoricalBackfillJob j)) ⟨known, held, fresh⟩ := by
    intro known held fresh hfresh hheld
    refine ⟨hstage _ _ _ _ hfresh (by simp), ⟨hstage _ _ _ _ hfresh ?_,
      hstage _ _ _ _ hfresh (by simp), fun _ _ => hstage _ _ _ _ ?_ (by simp)⟩,
      fun _ => hstage _ _ _ _ hfresh (by simp)⟩
    · rintro r ⟨⟩
      exact ⟨rfl, hheld⟩
    · intro r hr
      exact hfresh r (List.mem_filter.1 hr).1
  refine ⟨hstage _ _ _ _ (by simp) (by simp), ⟨hstage _ _ _ _ (by simp) ?_,
    hlock _ _ _ (by simp) (.inr rfl), fun _ _ => hlock _ _ _ (by simp) (.inl rfl)⟩,
    hlock _ _ _ (by simp) (.inl rfl), fun hf => by cases hf⟩
  rintro r ⟨⟩
  exact ⟨rfl, .inl rfl⟩

theorem obeys_submitHistoricalBackfill (j : String) :
    (submitHistoricalBackfill j).Obeys sure (Discipline (.submitHistoricalBackfill j))
      ⟨[], [], []⟩ := by
  have hQ : ∀ {h : Hand LockedRow} {want : Option LockedRow}, About j h →
      (∀ r, want = some r → r = .backfillQueueItem j ∨ (r = .backfillJob j ∧
        (.backfillQueueItem j ∈ h.held ∨ r ∈ h.held ∨ h.held = []))) →
      Discipline (.submitHistoricalBackfill j) h want := fun hh hwant => hh.discipline rfl hwant
  -- the queue item is inserted empty-handed or beside the job just inserted
  have hqueue : ∀ known held fresh, (held = [] ∧ fresh = [] ∧ .backfillJob j ∈ known) ∨
      (held = [.backfillJob j] ∧ fresh = [LockedRow.backfillJob j]) →
      (RowLocks.Program.insert (.backfillQueueItem j) <| .lock (.backfillQueueItem j) fun found =>
        if found then .lock (.backfillJob j) fun _ => .done else .done).Obeys sure
          (Discipline (.submitHistoricalBackfill j)) ⟨known, held, fresh⟩ := by
    rintro known held fresh (⟨rfl, rfl, hknown⟩ | ⟨rfl, rfl⟩)
    · have hbefore : About j ⟨known, [], []⟩ := ⟨by simp, by simp, .inr (.inl rfl), by simp⟩
      have hpresent : About j ⟨.backfillQueueItem j :: known, [], []⟩ :=
        ⟨by simp, by simp, .inr (.inl rfl), by simp⟩
      refine ⟨hQ hbefore (by simp), ⟨hQ ⟨by simp, by simp, .inr (.inl rfl), fun _ => .inr hknown⟩ ?_,
        About.lock_both rfl ⟨by simp, by simp, .inl (by simp), fun _ => .inr hknown⟩ (by simp),
        fun _ _ => ?_⟩, hpresent.lock_both rfl (by simp), fun hf => by cases hf⟩
      · rintro r ⟨⟩
        exact .inl rfl
      · exact About.lock_both rfl ⟨by simp, by simp, .inr (.inl rfl), by simp⟩ (by simp)
    · have hpresent : ∀ known, About j ⟨known, [.backfillJob j], [.backfillJob j]⟩ := fun known =>
        ⟨by simp, by simp, .inr (.inr ⟨rfl, List.mem_cons_self⟩), by simp⟩
      refine ⟨hQ (hpresent _) (by simp), ⟨hQ ⟨by simp, by simp, .inr (.inr ⟨rfl, by simp⟩), by simp⟩ ?_,
        About.lock_both rfl ⟨by simp, by simp, .inl (by simp), by simp⟩ (by simp), fun _ _ => ?_⟩,
        (hpresent _).lock_both rfl (by simp), fun hf => by simp at hf⟩
      · rintro r ⟨⟩
        exact .inl rfl
      · exact About.lock_both rfl ⟨by simp, by simp, .inr (.inr ⟨rfl, by simp⟩), by simp⟩ (by simp)
  have hstart : About j ⟨[], [], []⟩ := ⟨by simp, by simp, .inr (.inl rfl), by simp⟩
  refine ⟨hQ hstart (by simp), ⟨hQ ⟨by simp, by simp, .inr (.inl rfl), by simp⟩ ?_,
    hqueue _ _ _ (.inr ⟨rfl, rfl⟩), fun _ _ => hqueue _ _ _ (.inl ⟨rfl, by simp, by simp⟩)⟩,
    hqueue _ _ _ (.inl ⟨rfl, rfl, by simp⟩), fun hf => by cases hf⟩
  rintro r ⟨⟩
  exact .inr ⟨rfl, .inr (.inr rfl)⟩

theorem disciplined (orderOf : String → String) (task : LockingTask) :
    (task.program orderOf).Obeys (fun _ => False) (Discipline task) ⟨[], [], []⟩ := by
  cases task with
  | authorise task =>
    cases task with
    | consumeOrderApproval a p mirror => exact obeys_consumeOrderApproval a p mirror
    | createOmsOrder a o c => exact obeys_createOmsOrder a o c
    | setRiskControl active => exact obeys_setRiskControl active
  | claimExecutionCommand => exact obeys_claimExecutionCommand orderOf
  | finishExecutionCommand c => exact obeys_finishExecutionCommand orderOf c
  | queueCancelCommand o c => exact obeys_queueCancelCommand o c
  | persistReconciliation r os fs => exact obeys_persistReconciliation r os fs
  | saveHistoricalBackfillJob j => exact obeys_saveHistoricalBackfillJob j
  | submitHistoricalBackfill j => exact obeys_submitHistoricalBackfill j
  | claimNextBackfill => exact obeys_claimNextBackfill
  | finishBackfillQueueItem q => exact obeys_finishBackfillQueueItem q

end Locking

/-! ## Deadlocks among all transactions -/

/-- the sessions of all transactions, and the foreign key of the backfill queue -/
structure LockingSound (orderOf : String → String) (d : Database LockingTask LockedRow) : Prop where
  sound : Sound (LockingTask.program orderOf) (fun _ => False) Locking.Discipline d
  items : ∀ x, d.stored (.backfillQueueItem x) = true → d.stored (.backfillJob x) = true

namespace LockingSound

variable {orderOf : String → String} {d : Database LockingTask LockedRow} {i j : ℕ}

/-- a queue item is committed after its job or with it -/
theorem step (h : LockingSound orderOf d) (op : RowLocks.Op LockingTask LockedRow) :
    LockingSound orderOf (d.step (LockingTask.program orderOf) op) := by
  refine ⟨h.sound.step (Locking.disciplined orderOf) op, fun x hx => ?_⟩
  obtain ⟨-, hstored, hnew⟩ := step_spec (LockingTask.program orderOf) d op
  rcases hnew _ hx with hold | ⟨n, -, hpending, hfresh, hcommitted⟩
  · exact hstored _ (h.items x hold)
  · obtain ⟨task, htask⟩ : ∃ task, (d.session n).task = some task := by
      refine Option.ne_none_iff_exists'.1 fun hn => ?_
      rw [h.sound.idle n hn] at hfresh
      cases hfresh
    obtain ⟨known, hknown, hdisc⟩ := h.sound.between hpending htask
    rcases hdisc.queued x hfresh with hheld | hjob
    · rcases h.sound.backed n _ (.inl hheld) with hjob | hjob
      · exact hstored _ hjob
      · exact hcommitted _ hjob
    · exact hstored _ (hknown _ hjob)

theorem run {stored : LockedRow → Bool}
    (hitems : ∀ x, stored (.backfillQueueItem x) = true → stored (.backfillJob x) = true)
    (ops : List (RowLocks.Op LockingTask LockedRow)) : LockingSound orderOf
      (Lib.run (Database.step (LockingTask.program orderOf)) ⟨stored, []⟩ ops) :=
  run_inv (fun _ op h => h.step op) ⟨Sound.empty fun _ h => h.elim, hitems⟩ ops

/-- what a deadlocked session is doing -/
theorem discipline (h : LockingSound orderOf d) (hi : d.Deadlocked i) :
    ∃ task r, (d.session i).task = some task ∧ d.wants i = some r ∧ r ∉ (d.session i).held ∧
      ∃ known : List LockedRow, (∀ r ∈ known, d.stored r = true) ∧
        Locking.Discipline task ⟨known, (d.session i).held, (d.session i).fresh⟩ (some r) := by
  obtain ⟨j, ⟨hne, r, hr, hheld⟩, -⟩ := hi.next
  obtain ⟨task, htask⟩ := h.sound.task_of_wants hr
  exact ⟨task, r, htask, hr, fun hir => hne (h.sound.unshared i j r hir hheld),
    h.sound.wants hr htask⟩

/-- of a queue item and the job just inserted for it, deadlocked sessions do not hold one each -/
theorem item_beside_job (h : LockingSound orderOf d) (hi : d.Deadlocked i) (hne : i ≠ j)
    {x : String} (hitem : .backfillQueueItem x ∈ (d.session i).held)
    (hheld : .backfillJob x ∈ (d.session j).held) (hfresh : .backfillJob x ∈ (d.session j).fresh) :
    False := by
  have hunstored := h.sound.unstored j _ hfresh hheld
  rcases h.sound.backed i _ (.inl hitem) with hstored | hqueue
  · exact hunstored (h.items x hstored)
  · obtain ⟨task, r, -, -, -, known, hknown, hdisc⟩ := h.discipline hi
    rcases hdisc.queued x hqueue with hjob | hjob
    · exact hne (h.sound.unshared i j _ hjob hheld)
    · exact hunstored (hknown _ hjob)

theorem backfill_free (h : LockingSound orderOf d) {task : LockingTask}
    (htask : (d.session i).task = some task) (hbackfill : task.backfill = true) :
    ¬ d.Deadlocked i := by
  intro hi
  obtain ⟨j, ⟨hne, r, hr, hheld⟩, hj⟩ := hi.next
  obtain ⟨known, hknown, hdisc⟩ := h.sound.wants hr htask
  obtain ⟨task', r', htask', hr', hmiss', known', hknown', hdisc'⟩ := h.discipline hj
  rcases (hdisc.jobs hbackfill r rfl).1 with hempty | hown | ⟨x, rfl, hitem⟩ | ⟨x, rfl, hjob, hfresh⟩
  · exact hi.held_ne_nil hempty
  · exact hne (h.sound.unshared i j r hown hheld)
  · -- the job is held by one that holds only what it has just inserted
    have hbackfill' : task'.backfill = true := by
      by_contra hforeign
      have := hdisc'.foreign (by simpa using hforeign) _ hheld
      cases this
    obtain ⟨hcases, hjobs⟩ := hdisc'.jobs hbackfill' r' rfl
    rcases hjobs x hheld with hitem' | honly
    · exact hne (h.sound.unshared i j _ hitem hitem')
    · rcases hcases with hempty | hown | ⟨y, rfl, hy⟩ | ⟨y, rfl, hy, hfresh⟩
      · exact hj.held_ne_nil hempty
      · exact hmiss' hown
      · rw [honly] at hy
        simp at hy
      · have hxy : y = x := by
          have := hy.symm.trans honly
          simpa using this
        rw [hxy] at hfresh
        exact h.item_beside_job hi hne hitem hheld hfresh
  · refine h.item_beside_job hj hne.symm hheld ?_ hfresh
    have := hjob
    dsimp only at this
    rw [this]
    exact List.mem_cons_self

theorem commands_free (h : LockingSound orderOf d) {task : LockingTask}
    (htask : (d.session i).task = some task) (hcommands : task.commands = true) :
    ¬ d.Deadlocked i := by
  intro hi
  obtain ⟨j, ⟨hne, r, hr, hheld⟩, hj⟩ := hi.next
  obtain ⟨known, hknown, hdisc⟩ := h.sound.wants hr htask
  cases task with
  | finishExecutionCommand c =>
    -- whoever waits for the command looks it up empty-handed
    obtain ⟨hfresh, hempty | honly⟩ := hdisc.finish c rfl (by simp)
    · exact hi.held_ne_nil hempty
    · dsimp only at hfresh honly
      obtain ⟨k, ⟨hki, s, hs, hsheld⟩, hk⟩ := hi.prev
      rw [honly, List.mem_singleton] at hsheld
      rw [hsheld] at hs
      have hin : .executionCommand c ∈ (d.session i).held := by
        rw [honly]
        exact List.mem_cons_self
      obtain ⟨task', htask'⟩ := h.sound.task_of_wants hs
      obtain ⟨known', -, hdisc'⟩ := h.sound.wants hs htask'
      by_cases hck : .executionCommand c ∈ (d.session k).fresh
      · have hmiss : .executionCommand c ∉ (d.session k).held :=
          fun hc => hki (h.sound.unshared k i _ hc hin)
        rcases h.sound.backed i _ (.inl hin) with hstored | hf
        · exact Sound.unstored_of_wants hs hck hmiss hstored
        · rw [hfresh] at hf
          cases hf
      · exact hk.held_ne_nil (hdisc'.lookup c rfl hck)
  | queueCancelCommand o c =>
    rcases hdisc.cancel o c r rfl rfl with hempty | ⟨rfl, hfresh⟩
    · exact hi.held_ne_nil hempty
    · -- whoever holds the command it means to insert has inserted it and wants nothing more
      obtain ⟨task', r', -, -, -, known', -, hdisc'⟩ := h.discipline hj
      have hmiss : .executionCommand c ∉ (d.session i).held :=
        fun hc => hne (h.sound.unshared i j _ hc hheld)
      rcases h.sound.backed j _ (.inl hheld) with hstored | hf
      · exact Sound.unstored_of_wants hr hfresh hmiss hstored
      · exact hdisc'.inserted c (by simp) hf hheld
  | _ => cases hcommands

end LockingSound

/-- **Finishing, cancelling and backfilling never deadlock.** Whatever transactions run and however
their statements interleave, no deadlock passes through the finish of an execution command, a queued
cancellation, or a submission, save, claim or finish of the backfill queue. -/
theorem never_deadlocked (orderOf : String → String) {stored : LockedRow → Bool}
    (hitems : ∀ x, stored (.backfillQueueItem x) = true → stored (.backfillJob x) = true)
    (ops : List (RowLocks.Op LockingTask LockedRow)) (i : ℕ) (task : LockingTask)
    (htask : ((run (Database.step (LockingTask.program orderOf)) ⟨stored, []⟩ ops).session i).task =
      some task)
    (hkind : task.backfill = true ∨ task.commands = true) :
    ¬ (run (Database.step (LockingTask.program orderOf)) ⟨stored, []⟩ ops).Deadlocked i := by
  have h : LockingSound orderOf _ := LockingSound.run hitems ops
  rcases hkind with hbackfill | hcommands
  · exact h.backfill_free htask hbackfill
  · exact h.commands_free htask hcommands

/-- each order has two commands -/
def twoOrders (commandId : String) : String :=
  if commandId = "submit-1" ∨ commandId = "cancel-1" then "order-1" else "order-2"

/-- two dispatchers dead-letter one command each and lease the other command of the other's order,
while a third finishes a dead-lettered one -/
def twoDispatchers : List (RowLocks.Op LockingTask LockedRow) :=
  [.start .claimExecutionCommand, .start .claimExecutionCommand,
   .start (.finishExecutionCommand "submit-1"),
   .execute 0 [.executionCommand "submit-1"] [], .execute 0 [] [], .acquire 0,
   .execute 1 [.executionCommand "submit-2"] [], .execute 1 [] [], .acquire 1,
   .execute 0 [.executionCommand "cancel-2"] [], .execute 0 [] [],
   .execute 1 [.executionCommand "cancel-1"] [], .execute 1 [] [],
   .execute 2 [] []]

/-- the two claims deadlock, the finish that waits for one of them does not -/
theorem claims_deadlock :
    (run (Database.step (LockingTask.program twoOrders)) ⟨fun r => !r.backfill, []⟩
      twoDispatchers).Deadlocked 0 ∧
    ¬ (run (Database.step (LockingTask.program twoOrders)) ⟨fun r => !r.backfill, []⟩
      twoDispatchers).Deadlocked 2 :=
  ⟨Database.deadlocked_pair (j := 1) ⟨by decide, .omsOrder "order-2", by decide, by decide⟩
      ⟨by decide, .omsOrder "order-1", by decide, by decide⟩,
    never_deadlocked twoOrders (fun x hx => by cases hx) twoDispatchers 2
      (.finishExecutionCommand "submit-1") (by decide) (.inr rfl)⟩

end CapitalCipher
