/-
How `execution/adapters/binance_testnet.py` reads an order out of a response, and what `dispatch_once`
makes of the acknowledgement of a cancellation.

One parser serves every response; it takes `clientOrderId` before `origClientOrderId`, and the
acknowledgement of a cancellation names the cancellation itself by the first and the order by the
second. Numbers are taken as parsed.

  • `orderSnapshot_clientOrderId`: the client id a response is read as.
  • `cancel_never_applied`: no acknowledgement with an id of its own is ever applied to its order;
    the dispatch that gets it halts the process.
  • `acknowledged_cancel_halts`: an order that the venue cancelled, left UNKNOWN behind a kill switch.
-/
import Mathlib.Data.List.TakeWhile
import CapitalCipher.Lib.Result
import CapitalCipher.Lib.Sequential
import CapitalCipher.System.KillSwitch

namespace CapitalCipher

open Lib Coro Tx

/-- the fields of an order response that the adapter reads; a number in text is taken as parsed -/
structure BinanceOrderRow where
  symbol : Option String := none
  side : Option String := none
  clientOrderId : Option String := none
  origClientOrderId : Option String := none
  orderId : Option String := none
  origQty : Option ℚ := none
  executedQty : Option ℚ := none
  cummulativeQuoteQty : Option ℚ := none
  type : Option String := none
  status : Option String := none

namespace BinanceTestnet

/-- `x or y` for texts, where the empty text is false -/
def textOr (x y : Option String) : Option String := (x.filter (· ≠ "")).orElse fun _ => y

/-- `_binance_status` -/
def binanceStatus : String → OmsOrderStatus
  | "NEW" => .submitted
  | "PENDING_NEW" => .submitted
  | "PARTIALLY_FILLED" => .partiallyFilled
  | "FILLED" => .filled
  | "CANCELED" => .canceled
  | "PENDING_CANCEL" => .cancelPending
  | "REJECTED" => .rejected
  | "EXPIRED" => .expired
  | "EXPIRED_IN_MATCH" => .expired
  | _ => .unknown

/-- `OrderSide(...)` -/
def parseSide : String → Except Error OrderSide
  | "BUY" => .ok .buy
  | "SELL" => .ok .sell
  | _ => .error ⟨.transport, "ValueError"⟩

/-- `OMSOrderType(...)` -/
def parseType : String → Except Error OmsOrderType
  | "MARKET" => .ok .market
  | "LIMIT" => .ok .limit
  | _ => .error ⟨.transport, "ValueError"⟩

def sideValue : OrderSide → String
  | .buy => "BUY"
  | .sell => "SELL"

def typeValue : OmsOrderType → String
  | .market => "MARKET"
  | .limit => "LIMIT"

/-- the client id a response is read as -/
def clientIdOf (row : BinanceOrderRow) (fallback : Option OmsOrder) : Option String :=
  (textOr row.clientOrderId (textOr row.origClientOrderId (fallback.map OmsOrder.clientOrderId))).filter
    (· ≠ "")

/-- `_order_snapshot` -/
def orderSnapshot (row : BinanceOrderRow) (fallback : Option OmsOrder) (now : Time) :
    Except Error VenueOrderSnapshot :=
  let symbol := (textOr row.symbol (fallback.map OmsOrder.symbol)).filter (· ≠ "")
  let side := (textOr row.side (fallback.map fun o => sideValue o.side)).filter (· ≠ "")
  match symbol, side, clientIdOf row fallback, row.orderId with
  | some symbol, some side, some clientOrderId, some venueOrderId => do
    let quantity := row.origQty.getD ((fallback.map OmsOrder.quantity).getD 0)
    let filled := row.executedQty.getD 0
    let quoteFilled := row.cummulativeQuoteQty.getD 0
    let orderType ← parseType ((textOr row.type (fallback.map fun o => typeValue o.orderType)).getD
      "MARKET")
    let orderSide ← parseSide side
    VenueOrderSnapshot.check
      { exchange := .binance
        environment := .testnet
        venueOrderId := venueOrderId
        clientOrderId := clientOrderId
        symbol := symbol
        side := orderSide
        orderType := orderType
        status := binanceStatus (row.status.getD "NEW")
        quantity := quantity
        cumulativeFilledQuantity := filled
        averageFillPrice := if 0 < filled ∧ 0 < quoteFilled then some (quoteFilled / filled) else none
        observedAt := now }
  | _, _, _, _ =>
    .error ⟨.externalService, "Binance TESTNET returned an incomplete order identity"⟩

variable {row : BinanceOrderRow} {fallback : Option OmsOrder} {now : Time} {v : VenueOrderSnapshot}

theorem orderSnapshot_clientOrderId (h : orderSnapshot row fallback now = .ok v) :
    clientIdOf row fallback = some v.clientOrderId := by
  unfold orderSnapshot at h
  dsimp only at h
  split at h
  · rename_i hclient _
    obtain ⟨orderType, -, h⟩ := Result.bind_ok.1 h
    obtain ⟨side, -, h⟩ := Result.bind_ok.1 h
    rw [(VenueOrderSnapshot.check_iff.1 h).2.2.2.2, hclient]
  · cases h

/-- what Binance answers to a cancellation: the order's client id as the original one, and a new id for
the cancellation -/
structure CancelAcknowledgement (row : BinanceOrderRow) (order : OmsOrder) : Prop where
  original : row.origClientOrderId = some order.clientOrderId
  generated : ∃ own, row.clientOrderId = some own ∧ own ≠ "" ∧ own ≠ order.clientOrderId

/-- an acknowledgement is read as another order's -/
theorem foreign_of_acknowledgement {order : OmsOrder} (hrow : CancelAcknowledgement row order)
    (h : orderSnapshot row fallback now = .ok v) : OmsService.foreign order v := by
  obtain ⟨own, hown, hne, hother⟩ := hrow.generated
  have hclient : clientIdOf row fallback = some own := by
    simp [clientIdOf, textOr, hown, hne]
  have hid : own = v.clientOrderId := by
    rw [orderSnapshot_clientOrderId h] at hclient
    exact (Option.some.inj hclient).symm
  exact .inr (.inr (.inl (hid ▸ hother)))

/-! ## The dispatch -/

/-- the replies of a dispatch: the adapter's answer to a cancellation, and the database -/
def replies (row : BinanceOrderRow) (now : Time) (q : Request) (db : Db) :
    Except Error q.Reply × Db :=
  match q with
  | .cancelOrder order => (orderSnapshot row (some order) now, db)
  | q =>
    match q.transaction now [] with
    | some tx => tx.commit db
    | none => (.error ⟨.transport, "not a transaction"⟩, db)

/-- `dispatch_once` alone, with this response to its cancellation -/
def dispatched (cfg : Config) (row : BinanceOrderRow) (workerId : String) (m : Memory) (db : Db) :
    Except Error Bool × Memory × Db :=
  (OmsService.dispatchOnce cfg workerId).runAlone (replies row m.now) m db

/-- the response was applied to its order: its identity is accepted, the venue's status and fill are
stored, and the switch is not triggered -/
structure CancelApplied (order : OmsOrder) (row : BinanceOrderRow) (m : Memory)
    (r : Except Error Bool × Memory × Db) : Prop where
  returned : r.1 = .ok true
  recorded : ∃ v stored, orderSnapshot row (some order) m.now = .ok v ∧ ¬ OmsService.foreign order v ∧
    r.2.2.omsOrders.get? order.omsOrderId = some stored ∧
    stored.status = v.status ∧ stored.cumulativeFilledQuantity = v.cumulativeFilledQuantity
  running : m.killSwitchActive = false → r.2.1.killSwitchActive = false

variable {cfg : Config} {m : Memory} {db : Db}

/-- the switch is active in memory -/
def Halted (m : Memory) : Prop := m.killSwitchActive = true

/-- an audit record leaves the memory as it is -/
theorem record_retains (I : Memory → Prop) (r : AuditRecord) :
    Retains I (AuditService.record cfg r) := by
  apply Retains.read
  intro m
  split_ifs
  · exact Retains.raise _
  · exact (Retains.call _).handle fun e => Retains.raise _
  · exact Retains.ret _

/-- a trigger with a reason leaves the switch active, whatever the database replies -/
theorem triggerUnlessActive_halts {reason actor : String} {correlationId : Option String}
    (hreason : strip reason ≠ "") (m : Memory) :
    Alone (OmsService.triggerUnlessActive cfg reason actor correlationId) m fun _ m => Halted m := by
  unfold OmsService.triggerUnlessActive
  simp only [Coro.bind_eq, Coro.read_bind, alone_get]
  split_ifs with hactive
  · exact hactive
  · unfold RiskManager.triggerKillSwitch
    rw [if_neg hreason]
    have hensured : ∀ p : Program Unit, Alone (p.ensure
        (Coro.modify (RiskManager.haltAll (strip reason)))) m fun _ m => Halted m := by
      intro p
      have hend : Alone p.attempt m fun r _ => ∃ r', r = .ok r' :=
        alone_attempt.2 ((alone_true p m).imp fun r _ _ => ⟨r, rfl⟩)
      refine hend.bind (fun r m' _ => ?_) fun e m' he => ?_
      · exact alone_leave.2 (haltAll_killed _ _)
      · obtain ⟨r', hr⟩ := he
        cases hr
    refine (hensured _).bind (fun _ m' hm' => ?_) fun e m' hm' => hm'
    exact record_retains Halted _ m' hm'

/-- a text that starts with a visible character is not blank -/
theorem strip_ne_empty {text : String} {first : Char} {rest : List Char}
    (h : text.toList = first :: rest) (hfirst : first.isWhitespace = false) : strip text ≠ "" := by
  intro hstrip
  have hkept : (first :: rest).dropWhile Char.isWhitespace = first :: rest := by
    rw [List.dropWhile_cons, hfirst]
    rfl
  rw [strip, h, hkept] at hstrip
  have hnil := String.ofList_injective (hstrip.trans String.ofList_nil.symm)
  rw [List.reverse_eq_nil_iff, List.dropWhile_eq_nil_iff] at hnil
  have hblank := hnil first (List.mem_reverse.2 List.mem_cons_self)
  rw [hfirst] at hblank
  cases hblank

/-- what follows a write that violated an identity ends in a halt, if it returns -/
theorem dispatchFinished_halts {outcome : OmsService.WriteOutcome} {updated : OmsOrder}
    {violation : String} (hviolation : outcome.securityViolation = some violation) (m : Memory) :
    Alone (OmsService.dispatchFinished cfg outcome updated) m
      fun r m => r = .ok () → Halted m := by
  have hreason : strip ("OMS venue identity violation: " ++ violation) ≠ "" := by
    have htext : ("OMS venue identity violation: " ++ violation).toList =
        'O' :: ("MS venue identity violation: ".toList ++ violation.toList) := by
      rw [String.toList_append]
      rfl
    exact strip_ne_empty htext (by decide)
  have haudit : strip "OMS post-write audit persistence failed" ≠ "" := by decide +kernel
  unfold OmsService.dispatchFinished
  rw [hviolation]
  refine (alone_true _ m).bind (fun _ m₁ _ => ?_) fun e m' _ he => by cases he
  refine (triggerUnlessActive_halts hreason m₁).bind (fun _ m₂ hm₂ => ?_)
    fun e m' _ he => by cases he
  have hretains : Retains Halted ((AuditService.record cfg
      { auditType := "OMS_" ++ outcome.eventType, entityId := some updated.omsOrderId }).handle
      fun e => if e.kind = .audit then
        OmsService.triggerUnlessActive cfg "OMS post-write audit persistence failed" "oms-worker"
          (some updated.correlationId)
        else Coro.raise e) := by
    refine (record_retains Halted _).handle fun e => ?_
    split_ifs
    · exact fun m _ => triggerUnlessActive_halts haudit m
    · exact Retains.raise e
  exact (hretains m₂ hm₂).imp fun _ _ h _ => h

/-- the outcome of a cancellation whose acknowledgement is another order's -/
def violated (order : OmsOrder) (now : Time) : OmsService.WriteOutcome :=
  OmsService.writeFailed .cancel order now
    ⟨.security, "Venue acknowledgement identity does not match OMS"⟩

/-- what follows the acknowledged cancellation -/
def afterCancel (cfg : Config) (workerId : String) (command : ExecutionCommand) (order : OmsOrder) :
    Program Bool :=
  Coro.bind Coro.read fun m => ((OmsService.finishCommand workerId command
    (violated order m.now).updated (violated order m.now).eventType (violated order m.now).errorType).bind
      fun updated => OmsService.dispatchFinished cfg (violated order m.now) updated).bind
        fun _ => Coro.ret true

theorem afterCancel_halts {workerId : String} {command : ExecutionCommand} {order : OmsOrder}
    (m : Memory) :
    Alone (afterCancel cfg workerId command order) m fun r m => r = .ok true → Halted m := by
  refine (alone_true _ m).bind (fun m₀ m₁ _ => ?_) fun e m' _ he => by cases he
  have hviolation : (violated order m₀.now).securityViolation =
      some "Venue acknowledgement identity does not match OMS" := rfl
  have hfinished : Alone ((OmsService.finishCommand workerId command (violated order m₀.now).updated
      (violated order m₀.now).eventType (violated order m₀.now).errorType).bind fun updated =>
        OmsService.dispatchFinished cfg (violated order m₀.now) updated) m₁
      fun r m => r = .ok () → Halted m := by
    refine (alone_true _ m₁).bind (fun updated m₂ _ => ?_) fun e m' _ he => by cases he
    exact dispatchFinished_halts hviolation m₂
  refine hfinished.bind (fun u m₃ hm₃ => ?_) fun e m' _ he => by cases he
  exact fun _ => hm₃ rfl

/-- a dispatch that claims a cancellation and gets the acknowledgement of it -/
theorem dispatched_eq {workerId : String} {command : ExecutionCommand} {order : OmsOrder} {db' : Db}
    (hr : cfg.repository = true)
    (hclaim : (Repository.claimExecutionCommand m.now [] workerId cfg.leaseMicroseconds).run db =
      .ok (some (command, order), db'))
    (hcancel : command.commandType = .cancel)
    (hadapter : (order.exchange, order.environment) ∈ cfg.adapters)
    (htestnet : order.environment = .testnet) (hrow : CancelAcknowledgement row order)
    (hv : orderSnapshot row (some order) m.now = .ok v) :
    dispatched cfg row workerId m db =
      (afterCancel cfg workerId command order).runAlone (replies row m.now) m db' := by
  have hreply : replies row m.now (.claimExecutionCommand workerId cfg.leaseMicroseconds) db =
      (.ok (some (command, order)), db') := commit_of_ok hclaim
  have hforeign := foreign_of_acknowledgement hrow hv
  have houtcome : ∀ now, OmsService.writeOutcome .cancel order now (.ok v) = violated order now := by
    intro now
    rw [OmsService.writeOutcome, OmsService.applyVenueSnapshot, if_pos hforeign]
    rfl
  have hopen : ¬ ((order.exchange, order.environment) ∉ cfg.adapters ∨ order.environment ≠ .testnet) :=
    not_or.2 ⟨not_not.2 hadapter, not_not.2 htestnet⟩
  have hsubmit : ¬ (command.commandType = .submit ∧ m.killSwitchActive = true) := by
    rw [hcancel]
    exact fun h => by cases h.1
  unfold dispatched OmsService.dispatchOnce
  rw [if_pos hr]
  simp only [Coro.bind_eq, Coro.call, Coro.await_bind, Coro.runAlone, hreply, Coro.leave_ok,
    Coro.ret_bind, Coro.read_bind, if_neg hopen, if_neg hsubmit]
  have hasked : replies row m.now (.cancelOrder order) db' = (.ok v, db') := congrArg (·, db') hv
  simp only [OmsService.dispatchWrite, OmsService.write, hcancel, ask, Coro.call, Coro.bind_eq,
    Coro.attempt, Coro.await_bind, Coro.runAlone, hasked, Coro.leave_ok, Coro.ret_bind,
    Coro.read_bind, Coro.get_bind, houtcome]
  rfl

/-- **Acknowledged cancellations.** Whatever order a dispatch claims to cancel on Binance TESTNET and
whatever the venue acknowledges: the acknowledgement is never applied to the order, and once it is read
the dispatch ends in a halt or not at all. -/
theorem cancel_never_applied (hr : cfg.repository = true) (workerId : String)
    {command : ExecutionCommand} {order : OmsOrder} {db' : Db}
    (hclaim : (Repository.claimExecutionCommand m.now [] workerId cfg.leaseMicroseconds).run db =
      .ok (some (command, order), db'))
    (hcancel : command.commandType = .cancel)
    (hadapter : (Exchange.binance, ExecutionEnvironment.testnet) ∈ cfg.adapters)
    (hbinance : order.exchange = .binance) (htestnet : order.environment = .testnet)
    (hrow : CancelAcknowledgement row order) :
    ¬ CancelApplied order row m (dispatched cfg row workerId m db) ∧
    ((orderSnapshot row (some order) m.now).isOk = true →
      (dispatched cfg row workerId m db).1 = .ok true →
        Halted (dispatched cfg row workerId m db).2.1) := by
  constructor
  · intro happlied
    obtain ⟨v, stored, hv, hours, -⟩ := happlied.recorded
    exact hours (foreign_of_acknowledgement hrow hv)
  · intro hread hreturned
    obtain ⟨v, hv⟩ : ∃ v, orderSnapshot row (some order) m.now = .ok v := by
      cases h : orderSnapshot row (some order) m.now with
      | ok v => exact ⟨v, rfl⟩
      | error e =>
        rw [h] at hread
        cases hread
    have hours : (order.exchange, order.environment) ∈ cfg.adapters := by
      rw [hbinance, htestnet]
      exact hadapter
    have heq := dispatched_eq hr hclaim hcancel hours htestnet hrow hv
    rw [heq] at hreturned ⊢
    exact (afterCancel_halts m).runAlone (replies row m.now) db' hreturned

/-! ## An acknowledged cancellation -/

/-- the durable TESTNET configuration, on Binance -/
def binance : Config := { Config.sample with
  targetExchange := .binance
  adapters := [(.binance, .testnet)] }

/-- the sample order is submitted to Binance, and its cancellation is requested -/
def cancelRequested : World :=
  World.run binance
    (sampleQueued ++
      sampleDispatch 2 { sampleAnswer .submitted 0 0 with exchange := .binance } ++
      [.start 0 (.queueCancel sampleOrderId)] ++ serve 3 ++ serve 3 ++ serve 3)

/-- Binance cancels it: the order's client id is the original one -/
def acknowledged : BinanceOrderRow where
  symbol := some "BTCUSDT"
  side := some "BUY"
  clientOrderId := some "cancel-1"
  origClientOrderId := some ("cc-" ++ String.ofList (sampleApprovalId.toList.take 32))
  orderId := some "1"
  origQty := some 100
  executedQty := some 0
  type := some "MARKET"
  status := some "CANCELED"

/-- the dispatch of that cancellation -/
def acknowledgedRun : Except Error Bool × Memory × Db :=
  dispatched binance acknowledged "w" (cancelRequested.mem 0) cancelRequested.db

/-- what that dispatch claims -/
def claimedCancel : Except Error (Option (ExecutionCommand × OmsOrder) × Db) :=
  (Repository.claimExecutionCommand (cancelRequested.mem 0).now [] "w" binance.leaseMicroseconds).run
    cancelRequested.db

/-- a claimed cancellation of an order of the configured venue, whose client id the acknowledgement
names -/
def claimsAcknowledged : Except Error (Option (ExecutionCommand × OmsOrder) × Db) → Bool
  | .ok (some (command, order), _) =>
    decide (command.commandType = .cancel ∧ order.exchange = .binance ∧ order.environment = .testnet ∧
      acknowledged.origClientOrderId = some order.clientOrderId ∧
      acknowledged.clientOrderId ≠ some order.clientOrderId) &&
    (orderSnapshot acknowledged (some order) (cancelRequested.mem 0).now).isOk
  | _ => false

theorem claimsAcknowledged_claimedCancel : claimsAcknowledged claimedCancel = true := by
  decide +kernel

/-- the sample dispatch claims the cancellation it gets the acknowledgement of -/
theorem claimedCancel_eq : ∃ command order db', claimedCancel = .ok (some (command, order), db') ∧
    command.commandType = .cancel ∧ order.exchange = .binance ∧ order.environment = .testnet ∧
    CancelAcknowledgement acknowledged order ∧
    (orderSnapshot acknowledged (some order) (cancelRequested.mem 0).now).isOk = true := by
  have hclaims := claimsAcknowledged_claimedCancel
  unfold claimsAcknowledged at hclaims
  split at hclaims
  · rename_i command order db' heq
    rw [Bool.and_eq_true, decide_eq_true_eq] at hclaims
    obtain ⟨⟨hcancel, hbinance, htestnet, horiginal, hother⟩, hread⟩ := hclaims
    refine ⟨command, order, db', heq, hcancel, hbinance, htestnet, ⟨horiginal, ?_⟩, hread⟩
    exact ⟨"cancel-1", rfl, by decide, fun h => hother (congrArg some h)⟩
  · cases hclaims

/-- the sample acknowledgement is not applied -/
theorem cancel_never_applied_sample : ∃ order, CancelAcknowledgement acknowledged order ∧
    ¬ CancelApplied order acknowledged (cancelRequested.mem 0) acknowledgedRun := by
  obtain ⟨command, order, db', hclaim, hcancel, hbinance, htestnet, hrow, -⟩ := claimedCancel_eq
  have hadapter : (Exchange.binance, ExecutionEnvironment.testnet) ∈ binance.adapters :=
    List.mem_singleton_self _
  exact ⟨order, hrow, (cancel_never_applied rfl "w" hclaim hcancel hadapter hbinance htestnet hrow).1⟩

/-- the venue cancelled the order; it is left UNKNOWN, behind a kill switch that its acknowledgement
triggered -/
theorem acknowledged_cancel_halts :
    claimsAcknowledged claimedCancel = true ∧ acknowledged.status = some "CANCELED" ∧
    (cancelRequested.mem 0).killSwitchActive = false ∧
    acknowledgedRun.1.toOption = some true ∧ acknowledgedRun.2.1.killSwitchActive = true ∧
    (acknowledgedRun.2.2.omsOrders.get? sampleOrderId).map OmsOrder.status = some .unknown := by
  decide +kernel

end BinanceTestnet

end CapitalCipher
