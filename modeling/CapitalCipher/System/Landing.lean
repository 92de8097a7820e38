/-
How a claimed command lands: the finish that `dispatch_once` asks for, and when it is accepted.

A claim looks at the command, never at the status of its order, and the order the dispatcher stores
is built from whatever it was handed. An order that reached a terminal status between queueing and
claiming accepts no further version, so its command is never finished.

  • `dispatched_eq`: the finish the program asks for, whatever it found and was answered.
  • `dispatch_lands_iff`: it is accepted exactly for an open order and an answer that fits it.
  • `dispatch_wedged`: a cancellation of an order that reconciliation saw filled.
-/
import CapitalCipher.Database.Acceptance
import CapitalCipher.System.Ledger
import CapitalCipher.System.Dispatch

namespace CapitalCipher

open Lib Coro Tx Repository OmsService

variable {cfg : Config} {db db₁ : Db} {command : ExecutionCommand} {order : OmsOrder}
  {workerId : String} {m m' : Memory} {answer : Except Error VenueOrderSnapshot}

/-! ## What the program asks -/

/-- the finish a program asks for: at once, or after the adapter's answer to its write -/
def finishAsked (p : Program Bool) (m m' : Memory) (answer : Except Error VenueOrderSnapshot) :
    Option Request :=
  match (p.settle m).2 with
  | .waiting (.submitOrder _) k | .waiting (.cancelOrder _) k =>
    match ((k answer).settle m').2 with
    | .waiting q _ => some q
    | .done _ => none
  | .waiting q _ => some q
  | .done _ => none

/-- the finish `dispatch_once` asks for, once it was handed a command and its order -/
def dispatched (cfg : Config) (workerId : String) (command : ExecutionCommand) (order : OmsOrder)
    (m m' : Memory) (answer : Except Error VenueOrderSnapshot) : Option Request :=
  match ((dispatchOnce cfg workerId).settle m).2 with
  | .waiting (.claimExecutionCommand _ _) k =>
    finishAsked (k (.ok (some (command, order)))) m m' answer
  | _ => none

/-- no adapter may write the order -/
def adapterMissing (cfg : Config) (order : OmsOrder) : Prop :=
  (order.exchange, order.environment) ∉ cfg.adapters ∨ order.environment ≠ .testnet

instance (cfg : Config) (order : OmsOrder) : Decidable (adapterMissing cfg order) :=
  decidable_of_iff ((cfg.adapters.all fun a => decide (a ≠ (order.exchange, order.environment))) =
    true ∨ order.environment ≠ .testnet) (by
      rw [adapterMissing, List.all_eq_true]
      simp only [decide_eq_true_eq]
      exact or_congr_left ⟨fun h hmem => h _ hmem rfl, fun h a ha he => h (he ▸ ha)⟩)

/-- the next version of the order, on each of the three paths -/
def dispatchOutcome (cfg : Config) (command : ExecutionCommand) (order : OmsOrder) (m m' : Memory)
    (answer : Except Error VenueOrderSnapshot) : WriteOutcome :=
  if adapterMissing cfg order then
    { updated := { order with
        status := .unknown, stateVersion := order.stateVersion + 1, updatedAt := m.now }
      eventType := "EXECUTION_ADAPTER_BLOCKED", errorType := some "SecurityError" }
  else if command.commandType = .submit ∧ m.killSwitchActive then
    { updated := { order with
        status := .quarantined, stateVersion := order.stateVersion + 1
        updatedAt := m.now, terminalAt := some m.now
        rejectionReason := some "KILL_SWITCH_ACTIVE" }
      eventType := "SUBMISSION_BLOCKED_BY_KILL_SWITCH", errorType := some "RiskError" }
  else writeOutcome command.commandType order m'.now answer

theorem dispatched_eq (hr : cfg.repository = true) :
    dispatched cfg workerId command order m m' answer =
      some (.finishExecutionCommand command.commandId workerId
        (dispatchOutcome cfg command order m m' answer).updated
        (dispatchOutcome cfg command order m m' answer).eventType
        (dispatchOutcome cfg command order m m' answer).errorType) := by
  unfold dispatched dispatchOnce
  rw [if_pos hr]
  by_cases hmissing : (order.exchange, order.environment) ∉ cfg.adapters ∨ order.environment ≠ .testnet
  · have hout : adapterMissing cfg order := hmissing
    simp only [bind_eq, ask, call, await_bind, settle, leave_ok, ret_bind, read_bind, finishAsked,
      if_pos hmissing, dispatchOutcome, if_pos hout]
    rfl
  have hout : ¬ adapterMissing cfg order := hmissing
  by_cases hkill : command.commandType = .submit ∧ m.killSwitchActive
  · simp only [bind_eq, ask, call, await_bind, settle, leave_ok, ret_bind, read_bind, finishAsked,
      if_neg hmissing, if_pos hkill, dispatchOutcome, if_neg hout]
    rfl
  · simp only [bind_eq, ask, call, await_bind, settle, leave_ok, ret_bind, read_bind, finishAsked,
      if_neg hmissing, if_neg hkill, dispatchOutcome, if_neg hout]
    cases hc : command.commandType <;> cases answer <;> simp only [dispatchWrite, hc, OmsService.write] <;> rfl

/-! ## What the database finds -/

/-- a command and its order as a claim handed them out, with no write of either since -/
structure Untouched (db : Db) (workerId : String) (command : ExecutionCommand) (order : OmsOrder) :
    Prop where
  held : Held workerId command db
  stored : db.omsOrders.get? order.omsOrderId = some order
  valid : order.check = .ok order
  owned : command.omsOrderId = order.omsOrderId

/-- what a claim hands out is held, and stays so while neither row is written -/
theorem untouched_of_claim {now : Time} {locked : List String} {lease : ℕ} {db₀ : Db}
    (h : (claimExecutionCommand now locked workerId lease).run db₀ =
      .ok (some (command, order), db₁))
    (hc : db.commands.get? command.commandId = db₁.commands.get? command.commandId)
    (ho : db.omsOrders.get? order.omsOrderId = db₁.omsOrders.get? order.omsOrderId) :
    Untouched db workerId command order := by
  obtain ⟨d, -, he | ⟨leased, o, he, hcl⟩⟩ := claimExecutionCommand_ok h
  · cases he
  cases he
  obtain ⟨c, -, -, hlease⟩ := hcl.command
  obtain ⟨-, -, -, -, -, -, -, hmem⟩ := hcl.spends
  have hid : order.omsOrderId = command.omsOrderId := ((d.omsOrders.get?_eq_some).1 hcl.order).2
  have hsame : db₁.omsOrders = d.omsOrders := by rw [show db₁ = _ from hcl.rest]
  refine ⟨⟨?_, by rw [hlease]; rfl, by rw [hlease]; rfl⟩, ?_, hcl.valid, hid.symm⟩
  · rw [hc, (db₁.commands.get?_eq_some)]
    exact ⟨hmem, rfl⟩
  · rw [ho, hsame, hid]
    exact hcl.order

/-! ## The next version -/

/-- the venue answered the write, and about this order -/
structure Acked (cfg : Config) (command : ExecutionCommand) (order : OmsOrder) (m : Memory)
    (answer : Except Error VenueOrderSnapshot) (v : VenueOrderSnapshot) : Prop where
  adapter : ¬ adapterMissing cfg order
  allowed : ¬ (command.commandType = .submit ∧ m.killSwitchActive)
  answer : answer = .ok v
  own : ¬ foreign order v

/-- the next version of an order without a word of the venue's in it -/
structure KeptFill (order updated : OmsOrder) : Prop where
  identity : updated.identity = order.identity
  version : updated.stateVersion = order.stateVersion + 1
  createdAt : updated.createdAt = order.createdAt
  filled : updated.cumulativeFilledQuantity = order.cumulativeFilledQuantity
  average : updated.averageFillPrice = order.averageFillPrice
  status : updated.status ≠ .created
  closed : order.terminalAt = none → updated.status.terminal = updated.terminalAt.isSome

theorem writeFailed_kept (kind : ExecutionCommandType) (order : OmsOrder) (now : Time) (e : Error) :
    KeptFill order (writeFailed kind order now e).updated := by
  have hambiguous : KeptFill order (ambiguous order now) :=
    ⟨rfl, rfl, rfl, rfl, rfl, (nomatch ·), fun h => by simp [ambiguous, h, OmsOrderStatus.terminal]⟩
  unfold writeFailed
  split
  · exact hambiguous
  · split_ifs
    · exact ⟨rfl, rfl, rfl, rfl, rfl, (nomatch ·), fun _ => rfl⟩
    · exact ⟨rfl, rfl, rfl, rfl, rfl, (nomatch ·), fun _ => rfl⟩
  · exact hambiguous
  · exact hambiguous

/-- an answer about another order is stored as UNKNOWN -/
theorem writeOutcome_foreign {kind : ExecutionCommandType} {now : Time} {v : VenueOrderSnapshot}
    (h : foreign order v) :
    (writeOutcome kind order now (.ok v)).updated = ambiguous order now := by
  simp only [writeOutcome, applyVenueSnapshot, if_pos h, writeFailed]

theorem writeOutcome_own {kind : ExecutionCommandType} {now : Time} {v : VenueOrderSnapshot}
    (h : ¬ foreign order v) :
    (writeOutcome kind order now (.ok v)).updated = acknowledged order v := by
  simp only [writeOutcome, applyVenueSnapshot, if_neg h]

/-- **The next version.** It is the venue's word, or the order with nothing of the venue's in it. -/
theorem dispatchOutcome_cases (cfg : Config) (command : ExecutionCommand) (order : OmsOrder)
    (m m' : Memory) (answer : Except Error VenueOrderSnapshot) :
    (∃ v, Acked cfg command order m answer v ∧
      (dispatchOutcome cfg command order m m' answer).updated = acknowledged order v) ∨
    ((∀ v, ¬ Acked cfg command order m answer v) ∧
      KeptFill order (dispatchOutcome cfg command order m m' answer).updated) := by
  unfold dispatchOutcome
  by_cases hmissing : adapterMissing cfg order
  · rw [if_pos hmissing]
    exact .inr ⟨fun v h => h.adapter hmissing, rfl, rfl, rfl, rfl, rfl, (nomatch ·),
      fun h => by simp [h, OmsOrderStatus.terminal]⟩
  rw [if_neg hmissing]
  by_cases hkill : command.commandType = .submit ∧ m.killSwitchActive
  · rw [if_pos hkill]
    exact .inr ⟨fun v h => h.allowed hkill, rfl, rfl, rfl, rfl, rfl, (nomatch ·), fun _ => rfl⟩
  rw [if_neg hkill]
  cases answer with
  | error e => exact .inr ⟨fun v h => (nomatch h.answer), writeFailed_kept _ _ _ e⟩
  | ok v =>
    by_cases hforeign : foreign order v
    · refine .inr ⟨fun x h => ?_, ?_⟩
      · obtain rfl := Except.ok.inj h.answer
        exact h.own hforeign
      · simp only [writeOutcome, applyVenueSnapshot, if_pos hforeign]
        exact writeFailed_kept _ _ _ _
    · exact .inl ⟨v, ⟨hmissing, hkill, rfl, hforeign⟩, writeOutcome_own hforeign⟩

theorem dispatchOutcome_identity (cfg : Config) (command : ExecutionCommand) (order : OmsOrder)
    (m m' : Memory) (answer : Except Error VenueOrderSnapshot) :
    (dispatchOutcome cfg command order m m' answer).updated.identity = order.identity ∧
    (dispatchOutcome cfg command order m m' answer).updated.stateVersion =
      order.stateVersion + 1 := by
  rcases dispatchOutcome_cases cfg command order m m' answer with ⟨v, -, he⟩ | ⟨-, hk⟩
  · rw [he]
    exact ⟨rfl, rfl⟩
  · exact ⟨hk.identity, hk.version⟩

/-- the venue's word fits an open order when its status and its fill do -/
theorem fits_acknowledged {v : VenueOrderSnapshot} (hv : v.check = .ok v)
    (hrow : order.status.terminal = order.terminalAt.isSome) :
    Fits order (acknowledged order v) ↔ order.status.terminal = false ∧
      (v.status = order.status ∨ v.status ≠ .created) ∧
      v.cumulativeFilledQuantity ≤ order.quantity := by
  constructor
  · intro h
    exact ⟨h.opened, h.status, h.filled.2⟩
  · rintro ⟨hopen, hstatus, hfill⟩
    refine ⟨hopen, hstatus, ⟨(VenueOrderSnapshot.check_ok hv).2, hfill⟩, ?_⟩
    have hnone : order.terminalAt.isSome = false := hrow.symm.trans hopen
    simp only [acknowledged]
    cases hterm : v.status.terminal
    · simp [hnone]
    · simp

theorem KeptFill.fits {updated : OmsOrder} (h : KeptFill order updated)
    (hmem : order ∈ db.omsOrders.rows) (hopen : order.status.terminal = false) :
    Fits order updated := by
  obtain ⟨⟨-, -, -, -, -, h0, hle, -⟩, hrow⟩ := rowCheck_of_mem hmem
  rw [hopen] at hrow
  refine ⟨hopen, .inr h.status, ?_, h.closed (by simpa using hrow.symm)⟩
  rw [h.filled]
  exact ⟨h0, hle⟩

/-! ## Landing -/

/-- the venue's answer, if there is one about this order, fits it -/
def AnswerFits (cfg : Config) (command : ExecutionCommand) (order : OmsOrder) (m : Memory)
    (answer : Except Error VenueOrderSnapshot) : Prop :=
  ∀ v, Acked cfg command order m answer v → (v.status = order.status ∨ v.status ≠ .created) ∧
    v.cumulativeFilledQuantity ≤ order.quantity

/-- the next version fits exactly when the order is open and the answer fits -/
theorem dispatchOutcome_fits (m m' : Memory) (ha : ∀ v, answer = .ok v → v.check = .ok v)
    (hmem : order ∈ db.omsOrders.rows) :
    Fits order (dispatchOutcome cfg command order m m' answer).updated ↔
      order.status.terminal = false ∧ AnswerFits cfg command order m answer := by
  rcases dispatchOutcome_cases cfg command order m m' answer with ⟨v, hv, he⟩ | ⟨hnone, hk⟩
  · rw [he, fits_acknowledged (ha v hv.answer) (rowCheck_of_mem hmem).2]
    refine and_congr_right fun _ => ⟨fun h x hx => ?_, fun h => h v hv⟩
    obtain rfl := Except.ok.inj (hx.answer.symm.trans hv.answer)
    exact h
  · exact ⟨fun h => ⟨h.opened, fun v hv => absurd hv (hnone v)⟩, fun h => hk.fits hmem h.1⟩

/-- the finish the dispatcher asks for is accepted, completes its command and leaves a terminal order
as it was -/
def Lands (cfg : Config) (workerId : String) (command : ExecutionCommand) (order : OmsOrder)
    (m m' : Memory) (answer : Except Error VenueOrderSnapshot) (now : Time) (db : Db) : Prop :=
  ∃ q tx v db', dispatched cfg workerId command order m m' answer = some q ∧
    q.transaction now [] = some tx ∧ tx.run db = .ok (v, db') ∧
    (∃ c ∈ db'.commands.rows, c.commandId = command.commandId ∧ c.status = .completed) ∧
    (order.status.terminal = true → order ∈ db'.omsOrders.rows)

/-- the finish of an untouched order commits exactly when the next version fits -/
theorem Untouched.finish_iff {o : OmsOrder} {eventType : String} {errorType : Option String}
    (hu : Untouched db workerId command order) (hv : Versioned db) (hid : o.identity = order.identity)
    (hver : o.stateVersion = order.stateVersion + 1) :
    (∃ db', (finishExecutionCommand command.commandId workerId o eventType errorType).run db =
      .ok (o, db')) ↔ Fits order o := by
  have hkey : o.omsOrderId = order.omsOrderId := congrArg OmsIdentity.omsOrderId hid
  refine finish_isOk_iff hu.held ⟨hkey ▸ hu.stored, hu.valid, hid.symm, hver⟩
    (hu.owned.trans hkey.symm) fun e he hee => ?_
  have := hv.fresh ((db.omsOrders.get?_eq_some).1 hu.stored).1 he (hee.trans hkey)
  omega

/-- the finish of an untouched command is accepted exactly when its order is open and the answer
fits -/
theorem Untouched.accepted_iff (m m' : Memory) (now : Time) (hr : cfg.repository = true)
    (hu : Untouched db workerId command order) (hv : Versioned db)
    (ha : ∀ v, answer = .ok v → v.check = .ok v) :
    (∃ q tx r db', dispatched cfg workerId command order m m' answer = some q ∧
      q.transaction now [] = some tx ∧ tx.run db = .ok (r, db')) ↔
      order.status.terminal = false ∧ AnswerFits cfg command order m answer := by
  have hmem := ((db.omsOrders.get?_eq_some).1 hu.stored).1
  obtain ⟨hid, hver⟩ := dispatchOutcome_identity cfg command order m m' answer
  rw [← dispatchOutcome_fits m m' ha hmem, ← hu.finish_iff hv hid hver]
  constructor
  · rintro ⟨q, tx, v, db', hq, htx, hrun⟩
    rw [dispatched_eq hr, Option.some.injEq] at hq
    subst hq
    simp only [Request.transaction, Option.some.injEq] at htx
    subst htx
    have he : v = (dispatchOutcome cfg command order m m' answer).updated :=
      (finishExecutionCommand_ok hrun).1
    exact ⟨db', he ▸ hrun⟩
  · rintro ⟨db', hrun⟩
    exact ⟨_, _, _, db', dispatched_eq hr, rfl, hrun⟩

/-- what the finish of an untouched command leaves: the command completed, the next version stored -/
theorem Untouched.finished {now : Time} (hr : cfg.repository = true)
    (hu : Untouched db workerId command order) {q : Request} {tx : Txn q.Reply} {r : q.Reply}
    {db' : Db} (hq : dispatched cfg workerId command order m m' answer = some q)
    (htx : q.transaction now [] = some tx) (hrun : tx.run db = .ok (r, db')) :
    (∃ c ∈ db'.commands.rows, c.commandId = command.commandId ∧ c.status = .completed) ∧
    db'.omsOrders.get? order.omsOrderId =
      some (withTransition (dispatchOutcome cfg command order m m' answer).updated order) := by
  rw [dispatched_eq hr, Option.some.injEq] at hq
  subst hq
  simp only [Request.transaction, Option.some.injEq] at htx
  subst htx
  have hf := (finishExecutionCommand_ok hrun).2
  constructor
  · obtain ⟨c, hc, -, -, -⟩ := hf.leased
    obtain ⟨hcm, hci⟩ := (db.commands.get?_eq_some).1 hc
    replace hci : c.commandId = command.commandId := hci
    have hin := Table.mem_of_update hf.commands hcm
    rw [if_pos (by simpa using hci)] at hin
    exact ⟨_, hin, hci, rfl⟩
  · have hkey : (dispatchOutcome cfg command order m m' answer).updated.omsOrderId =
        order.omsOrderId :=
      congrArg OmsIdentity.omsOrderId (dispatchOutcome_identity cfg command order m m' answer).1
    rw [Table.get?_of_update hf.omsOrders hu.stored, if_pos (by simpa using hkey.symm)]

/-- an untouched command lands exactly when its order is open and the answer fits -/
theorem Untouched.lands_iff {now : Time} (hr : cfg.repository = true)
    (hu : Untouched db workerId command order) (hv : Versioned db)
    (ha : ∀ v, answer = .ok v → v.check = .ok v) :
    Lands cfg workerId command order m m' answer now db ↔
      order.status.terminal = false ∧ AnswerFits cfg command order m answer := by
  rw [← hu.accepted_iff m m' now hr hv ha]
  constructor
  · rintro ⟨q, tx, r, db', hq, htx, hrun, -⟩
    exact ⟨q, tx, r, db', hq, htx, hrun⟩
  · rintro ⟨q, tx, r, db', hq, htx, hrun⟩
    refine ⟨q, tx, r, db', hq, htx, hrun, (hu.finished hr hq htx hrun).1, fun hterm => ?_⟩
    have hopen := ((hu.accepted_iff m m' now hr hv ha).1 ⟨q, tx, r, db', hq, htx, hrun⟩).1
    rw [hopen] at hterm
    cases hterm

/-- **How a command lands.** Whatever the adapter answered, and whatever happened to other orders
since the claim, the finish that `dispatch_once` asks for is accepted, its command leaves LEASED and
a terminal order keeps its status, if and only if the order was open when it was claimed and the
answer, if it is about this order, reports no more than its quantity and does not make it CREATED. -/
theorem dispatch_lands_iff (cfg : Config) (ops later : List Op) (now claimedAt : Time)
    (locked : List String) (workerId : String) (lease : ℕ) (command : ExecutionCommand)
    (order : OmsOrder) (db₁ : Db) (m m' : Memory) (answer : Except Error VenueOrderSnapshot)
    (hr : cfg.repository = true)
    (hclaim : (claimExecutionCommand claimedAt locked workerId lease).run (World.run cfg ops).db =
      .ok (some (command, order), db₁))
    (hcommand : (World.run cfg later).db.commands.get? command.commandId =
      db₁.commands.get? command.commandId)
    (horder : (World.run cfg later).db.omsOrders.get? order.omsOrderId =
      db₁.omsOrders.get? order.omsOrderId)
    (hanswer : ∀ v, answer = .ok v → v.check = .ok v) :
    Lands cfg workerId command order m m' answer now (World.run cfg later).db ↔
      order.status.terminal = false ∧ AnswerFits cfg command order m answer :=
  (untouched_of_claim hclaim hcommand horder).lands_iff hr (run_versioned cfg later) hanswer

/-- what a claim by worker "w" at time 200 finds, if it hands out a command -/
def sampleClaim (ops : List Op) : Option (ExecutionCommand × OmsOrder × Db) :=
  match (claimExecutionCommand 200 [] "w" 15000000).run (World.run .sample ops).db with
  | .ok (some (command, order), db) => some (command, order, db)
  | _ => none

theorem sampleClaim_eq {ops : List Op} (h : sampleClaim ops = some (command, order, db)) :
    (claimExecutionCommand 200 [] "w" 15000000).run (World.run .sample ops).db =
      .ok (some (command, order), db) := by
  unfold sampleClaim at h
  split at h
  · rename_i hrun
    cases h
    exact hrun
  · cases h

/-- the claim, as the next operations of the run -/
def claiming (task : ℕ) : List Op := [.clock 0 200, .start 0 (.dispatchOnce "w"), .exec task [] .none]

/-- the claim handed out an order of this status, and the rows are as it left them -/
def claimsOrder (ops : List Op) (task : ℕ) (status : OmsOrderStatus) : Bool :=
  match sampleClaim ops with
  | some (command, order, db) =>
    order.status == status &&
    (World.run .sample (ops ++ claiming task)).db.commands.get? command.commandId ==
      db.commands.get? command.commandId &&
    (World.run .sample (ops ++ claiming task)).db.omsOrders.get? order.omsOrderId ==
      db.omsOrders.get? order.omsOrderId
  | none => false

theorem claimsOrder_eq (ops : List Op) (task : ℕ) (status : OmsOrderStatus)
    (h : claimsOrder ops task status = true) :
    ∃ command order db, (claimExecutionCommand 200 [] "w" 15000000).run (World.run .sample ops).db =
        .ok (some (command, order), db) ∧ order.status = status ∧
      (World.run .sample (ops ++ claiming task)).db.commands.get? command.commandId =
        db.commands.get? command.commandId ∧
      (World.run .sample (ops ++ claiming task)).db.omsOrders.get? order.omsOrderId =
        db.omsOrders.get? order.omsOrderId := by
  unfold claimsOrder at h
  split at h
  · rename_i command order db hclaim
    simp only [Bool.and_eq_true, beq_iff_eq] at h
    exact ⟨command, order, db, sampleClaim_eq hclaim, h.1.1, h.1.2, h.2⟩
  · cases h

theorem dispatch_lands_queued : ∃ command order m m',
    Lands .sample "w" command order m m' (.error ⟨.transport, "timeout"⟩) 200
      (World.run .sample (sampleQueued ++ claiming 2)).db := by
  obtain ⟨command, order, db, hclaim, hstatus, hc, ho⟩ := claimsOrder_eq sampleQueued
    2 .pendingSubmission (by decide +kernel)
  refine ⟨command, order, .fresh .sample 200, .fresh .sample 200, ?_⟩
  refine (dispatch_lands_iff .sample sampleQueued _ 200 200 [] "w" 15000000 command order db _ _ _ rfl
    hclaim hc ho (by rintro v ⟨⟩)).2 ⟨by rw [hstatus]; rfl, fun v hv => by cases hv.answer⟩

/-- an order is submitted, its cancellation is queued, and reconciliation sees it filled -/
def canceledTooLate : List Op :=
  sampleQueued ++ sampleDispatch 2 (sampleAnswer .submitted 0 0) ++
  [.start 0 (.queueCancel sampleOrderId)] ++ serve 3 ++ serve 3 ++ serve 3 ++
  sampleReconcile 4 "run" { sampleFlat 100 with
    orders := [sampleAnswer .filled 100 100]
    positions := [
      { exchange := .bybit, environment := .testnet, symbol := "BTCUSDT", side := .buy
        quantity := 100, observedAt := 100 }] }

/-- **The dispatcher wedges.** The cancellation is claimed for a filled order, and the finish it ends
in is refused whatever the venue answers. -/
theorem dispatch_wedged :
    ¬ ∀ (cfg : Config) (ops later : List Op) (now claimedAt : Time) (locked : List String)
      (workerId : String) (lease : ℕ) (command : ExecutionCommand) (order : OmsOrder) (db₁ : Db)
      (m m' : Memory) (answer : Except Error VenueOrderSnapshot), cfg.repository = true →
      (claimExecutionCommand claimedAt locked workerId lease).run (World.run cfg ops).db =
        .ok (some (command, order), db₁) →
      (World.run cfg later).db.commands.get? command.commandId =
        db₁.commands.get? command.commandId →
      (World.run cfg later).db.omsOrders.get? order.omsOrderId =
        db₁.omsOrders.get? order.omsOrderId →
      (∀ v, answer = .ok v → v.check = .ok v) →
      Lands cfg workerId command order m m' answer now (World.run cfg later).db := by
  intro h
  obtain ⟨command, order, db, hclaim, hstatus, hc, ho⟩ :=
    claimsOrder_eq canceledTooLate 5 .filled (by decide +kernel)
  have ha : ∀ v : VenueOrderSnapshot, (.ok (sampleAnswer .filled 100 200) : Except Error _) = .ok v →
      v.check = .ok v := by
    rintro v ⟨⟩
    decide +kernel
  have hlands := h .sample canceledTooLate _ 200 200 [] "w" 15000000 command order db
    (.fresh .sample 200) (.fresh .sample 200) (.ok (sampleAnswer .filled 100 200)) rfl hclaim hc ho ha
  have hopen := ((untouched_of_claim hclaim hc ho).lands_iff rfl (run_versioned _ _) ha).1 hlands
  rw [hstatus] at hopen
  cases hopen.1

end CapitalCipher
