/-
The dispatch worker and reconciliation meet the contract, and with them every call.

  • `writeOutcome_priced`, `writeOutcome_eventType`: what a write may come to.
  • `ToRefresh`: an order was finished, or a run persisted, and the portfolio is still to be
    refreshed; `safe_finishCommand` and `safe_persist` end there.
  • `benign_program`: every call meets the contract in each of its segments.
-/
import CapitalCipher.System.Segments

namespace CapitalCipher

open Lib Coro

variable {cfg : Config} {c : Trigger} {m₀ m : Memory}

/-! ## Dispatch -/

theorem priced_of_check {o o' : OmsOrder} (h : o.check = .ok o') : Priced o := by
  obtain ⟨hf, -, -⟩ := validateModel_ok.1 h
  simp only [List.forall_mem_cons, decide_eq_true_eq] at hf
  exact hf.2.2.2.2.2.2.2.2.2.2.2.2.1

theorem venue_priced {v v' : VenueOrderSnapshot} (h : v.check = .ok v') :
    ∀ x ∈ v.averageFillPrice, 0 < x := by
  obtain ⟨hf, -, -⟩ := validateModel_ok.1 h
  simp only [List.forall_mem_cons, decide_eq_true_eq] at hf
  exact hf.2.2.1

/-- whatever a write comes to, the order it leaves is priced -/
theorem writeOutcome_priced {kind : ExecutionCommandType} {order : OmsOrder} {now : Time}
    {answer : Except Error VenueOrderSnapshot} (ho : Priced order)
    (hv : ∀ v, answer = .ok v → v.check = .ok v) :
    Priced (OmsService.writeOutcome kind order now answer).updated := by
  have hfailed : ∀ e, Priced (OmsService.writeFailed kind order now e).updated := by
    intro e
    unfold OmsService.writeFailed
    split <;> try split_ifs
    all_goals exact ho
  unfold OmsService.writeOutcome
  cases answer with
  | error e => exact hfailed e
  | ok v =>
    dsimp only
    split
    · exact hfailed _
    · rename_i updated happ
      unfold OmsService.applyVenueSnapshot at happ
      split_ifs at happ
      cases happ
      exact venue_priced (hv v rfl)

/-- the event types a write is recorded under -/
theorem writeOutcome_eventType (kind : ExecutionCommandType) (order : OmsOrder) (now : Time)
    (answer : Except Error VenueOrderSnapshot) :
    (OmsService.writeOutcome kind order now answer).eventType ∈
      ["WRITE_STATUS_UNKNOWN", "WRITE_REJECTED", "CANCEL_REJECTED_RECONCILE_REQUIRED",
       "VENUE_IDENTITY_REJECTED", "SUBMISSION_ACKNOWLEDGED", "CANCELLATION_ACKNOWLEDGED"] := by
  have hfailed : ∀ e, (OmsService.writeFailed kind order now e).eventType ∈
      ["WRITE_STATUS_UNKNOWN", "WRITE_REJECTED", "CANCEL_REJECTED_RECONCILE_REQUIRED",
       "VENUE_IDENTITY_REJECTED", "SUBMISSION_ACKNOWLEDGED", "CANCELLATION_ACKNOWLEDGED"] := by
    intro e
    unfold OmsService.writeFailed
    split <;> try split_ifs
    all_goals simp
  unfold OmsService.writeOutcome
  cases answer with
  | error e => exact hfailed e
  | ok v =>
    dsimp only
    split
    · exact hfailed _
    · dsimp only
      split_ifs <;> simp

theorem writeOutcome_plain (kind : ExecutionCommandType) (order : OmsOrder) (now : Time)
    (answer : Except Error VenueOrderSnapshot) (i : Option String) :
    (OmsService.writeOutcome kind order now answer).eventType ≠ "EXECUTION_ADAPTER_BLOCKED" ∧
      AuditRecord.plain { auditType :=
        "OMS_" ++ (OmsService.writeOutcome kind order now answer).eventType, entityId := i } := by
  have h := writeOutcome_eventType kind order now answer
  generalize (OmsService.writeOutcome kind order now answer).eventType = t at h
  simp only [List.mem_cons, List.not_mem_nil, or_false] at h
  rcases h with rfl | rfl | rfl | rfl | rfl | rfl <;>
    exact ⟨by simp, rfl, by simp, by simp [AuditRecord.reconciles]⟩

/-- an order was finished and the portfolio is still to be refreshed -/
structure ToRefresh (cfg : Config) (c : Trigger) (m₀ m : Memory) : Prop where
  sound : m.Sound cfg
  segment : Segment cfg c m₀ m
  local_ : cfg.repository = false → Free cfg c m₀ m
  next : Next c m₀ (some .loadOpenPositionExposures)

theorem Free.toRefresh (h : Free cfg c m₀ m) : ToRefresh cfg c m₀ m :=
  ⟨h.sound, h.segment, fun _ => h, h.next _⟩

theorem ToRefresh.refreshed (h : ToRefresh cfg c m₀ m) :
    Safe (contract cfg) (RiskManager.refreshPositions cfg) c m₀ m fun _ c m₀ m => Free cfg c m₀ m :=
  safe_refreshPositions h.sound h.segment h.local_ h.next

theorem safe_finishCommand {workerId eventType : String} {command : ExecutionCommand}
    {order : OmsOrder} {errorType : Option String} (hrep : cfg.repository = true)
    (h : Free cfg c m₀ m) (hp : Priced order) :
    Safe (contract cfg) (OmsService.finishCommand workerId command order eventType errorType) c m₀ m
      fun r c m₀ m => match r with
        | .ok _ => ToRefresh cfg c m₀ m ∧
          (eventType = "EXECUTION_ADAPTER_BLOCKED" → Free cfg c m₀ m)
        | .error _ => Free cfg c m₀ m := by
  refine safe_bind.2 (safe_call.2 ⟨h.ask hp, fun r m₁ _ hm => ?_⟩)
  cases r with
  | error e => exact .reply hm rfl rfl fun _ => trivial
  | ok updated =>
    have hs : (OmsService.rememberOrder updated m₁).Sound cfg := hm.congr rfl rfl rfl
    refine ⟨⟨hs, fun _ => ⟨rfl, rfl, rfl⟩, fun hr => ?_, fun _ => rfl⟩, fun he => ?_⟩
    · exact absurd hrep (by simp [hr])
    · exact ⟨hs, fun _ => ⟨rfl, rfl, rfl⟩, fun _ hne => absurd he hne⟩

theorem benign_dispatchBlocked {workerId : String} {command : ExecutionCommand} {order : OmsOrder}
    (hrep : cfg.repository = true) (hp : Priced order) :
    Benign cfg (OmsService.dispatchBlocked cfg workerId command order) := by
  refine .read fun mem => ⟨fun h => safe_bind.2 ((safe_finishCommand hrep h ?_).imp ?_)⟩
  · exact hp
  · intro r c m₀ m hr
    cases r with
    | error e => exact hr
    | ok updated => exact (benign_triggerUnlessActive _ _ _).safe (hr.2 rfl)

theorem benign_dispatchQuarantined {workerId : String} {command : ExecutionCommand}
    {order : OmsOrder} (hrep : cfg.repository = true) (hp : Priced order) :
    Benign cfg (OmsService.dispatchQuarantined cfg workerId command order) := by
  refine .read fun mem => ⟨fun h => safe_bind.2 ((safe_finishCommand hrep h ?_).imp ?_)⟩
  · exact hp
  · intro r c m₀ m hr
    cases r with
    | error e => exact hr
    | ok updated =>
      refine safe_bind.2 (safe_handle.2 (hr.1.refreshed.imp fun r c m₀ m hfree => ?_))
      have hrecord : Safe (contract cfg) ((AuditService.record cfg
          { auditType := "OMS_SUBMISSION_BLOCKED_BY_KILL_SWITCH",
            entityId := some updated.omsOrderId }).handle fun e =>
              if e.kind = .audit then Coro.ret () else Coro.raise e) c m₀ m
          fun _ c m₀ m => Free cfg c m₀ m := by
        refine (Stays.handle (benign_record ⟨rfl, by simp, rfl⟩) fun e => ?_).safe hfree
        split_ifs
        · exact .ret ()
        · exact .raise e
      cases r <;> exact hrecord

theorem benign_afterWrite (outcome : OmsService.WriteOutcome) (updated : OmsOrder)
    (hplain : AuditRecord.plain
      { auditType := "OMS_" ++ outcome.eventType, entityId := some updated.omsOrderId })
    (h : ToRefresh cfg c m₀ m) :
    Safe (contract cfg) (OmsService.dispatchFinished cfg outcome updated) c m₀ m
      fun _ c m₀ m => Free cfg c m₀ m := by
  have hrecord : Benign cfg ((AuditService.record cfg
      { auditType := "OMS_" ++ outcome.eventType, entityId := some updated.omsOrderId }).handle
        fun e => if e.kind = .audit then
          OmsService.triggerUnlessActive cfg "OMS post-write audit persistence failed" "oms-worker"
            (some updated.correlationId)
        else Coro.raise e) := by
    refine (benign_record hplain).handle fun e => ?_
    split_ifs
    · exact benign_triggerUnlessActive _ _ _
    · exact .raise e
  obtain ⟨rest, hrest, heq⟩ : ∃ rest, Benign cfg rest ∧
      OmsService.dispatchFinished cfg outcome updated =
        ((RiskManager.refreshPositions cfg).handle fun e =>
          OmsService.triggerUnlessActive cfg
            ("OMS completed a TESTNET write but portfolio refresh failed: " ++ e.kind.typeName)
            "oms-worker" (some updated.correlationId)).bind fun _ => rest := by
    refine ⟨_, ?_, rfl⟩
    cases outcome.securityViolation with
    | none => exact hrecord
    | some violation => exact (benign_triggerUnlessActive _ _ _).bind fun _ => hrecord
  rw [heq]
  refine safe_bind.2 (safe_handle.2 (h.refreshed.imp fun r c m₀ m hfree => ?_))
  cases r with
  | ok u => exact hrest.safe hfree
  | error e =>
    refine ((benign_triggerUnlessActive _ _ _).safe hfree).imp fun r c m₀ m hfree => ?_
    cases r with
    | ok u => exact hrest.safe hfree
    | error e => exact hfree

/-- how each command type is written -/
theorem benign_dispatchWrite {workerId : String} {command : ExecutionCommand} {order : OmsOrder}
    (hrep : cfg.repository = true) (hp : Priced order) (h : Free cfg c m₀ m)
    (hsubmit : command.commandType = .submit → Ask cfg c m (.submitOrder order)) :
    Safe (contract cfg) (OmsService.dispatchWrite cfg workerId command order) c m₀ m
      fun _ c m₀ m => Free cfg c m₀ m := by
  -- from the answer on, both command types go the same way
  have hanswered : ∀ (answer : Except Error VenueOrderSnapshot) (c : Trigger) (m : Memory),
      (∀ v, answer = .ok v → v.check = .ok v) → Free cfg c m m →
      Safe (contract cfg) (Coro.read.bind fun mem =>
        (OmsService.finishCommand workerId command
          (OmsService.writeOutcome command.commandType order mem.now answer).updated
          (OmsService.writeOutcome command.commandType order mem.now answer).eventType
          (OmsService.writeOutcome command.commandType order mem.now answer).errorType).bind
            fun updated => OmsService.dispatchFinished cfg
              (OmsService.writeOutcome command.commandType order mem.now answer) updated) c m m
        fun _ c m₀ m => Free cfg c m₀ m := by
    intro answer c m hv h
    simp only [read_bind, safe_get]
    refine safe_bind.2 ((safe_finishCommand hrep h (writeOutcome_priced hp hv)).imp ?_)
    intro r c m₀ m hr
    cases r with
    | error e => exact hr
    | ok updated => exact benign_afterWrite _ _ (writeOutcome_plain _ _ _ _ _).2 hr.1
  unfold OmsService.dispatchWrite OmsService.write
  cases hkind : command.commandType with
  | submit =>
    refine safe_bind.2 (safe_attempt.2 (safe_call.2 ⟨h.ask (hsubmit hkind), fun r m₁ hr hm => ?_⟩))
    rw [hkind] at hanswered
    exact hanswered r _ m₁ hr (by cases r <;> exact .reply hm rfl rfl fun _ => trivial)
  | cancel =>
    refine safe_bind.2 (safe_attempt.2 (safe_call.2 ⟨h.ask trivial, fun r m₁ hr hm => ?_⟩))
    rw [hkind] at hanswered
    exact hanswered r _ m₁ hr (by cases r <;> exact .reply hm rfl rfl fun _ => trivial)

theorem benign_dispatchOnce (workerId : String) : Benign cfg (OmsService.dispatchOnce cfg workerId) := by
  unfold OmsService.dispatchOnce
  split_ifs with hrep
  · refine ⟨fun {c m₀ m} h => safe_bind.2 (safe_call.2 ⟨h.ask trivial, fun r m₁ hr hm => ?_⟩)⟩
    have hfree : Free cfg (.reply (.claimExecutionCommand workerId cfg.leaseMicroseconds) r)
        m₁ m₁ := by
      cases r <;> exact .reply hm rfl rfl fun _ => trivial
    rcases r with e | _ | ⟨command, order⟩
    · exact hfree
    · exact hfree
    · have hp : Priced order := priced_of_check (hr command order rfl).1
      have hthen : ∀ {p : Program Unit} {c : Trigger}, Free cfg c m₁ m₁ →
          Safe (contract cfg) p c m₁ m₁ (fun _ c m₀ m => Free cfg c m₀ m) →
          Safe (contract cfg) (p.bind fun _ => Coro.ret true) c m₁ m₁
            fun _ c m₀ m => Free cfg c m₀ m :=
        fun _ hp => safe_bind.2 (hp.imp fun r _ _ _ hf => by cases r <;> exact hf)
      simp only [bind_eq, read_bind, safe_get]
      split_ifs with hadapter hkill
      · exact hthen hfree ((benign_dispatchBlocked hrep hp).safe hfree)
      · exact hthen hfree ((benign_dispatchQuarantined hrep hp).safe hfree)
      · refine hthen hfree (benign_dispatchWrite hrep hp hfree fun hsub => ?_)
        exact ⟨by simpa [hsub] using hkill, _, _, command, rfl, hsub⟩
  · exact .ret false

theorem benign_workerRound {reason actor : String} {round : Program Unit} (h : Benign cfg round) :
    Benign cfg (OmsService.workerRound cfg reason actor round) :=
  h.handle fun _ => (benign_triggerUnlessActive _ _ _).handle fun _ => .ret ()

/-! ## Reconciliation -/

theorem completedRecord_reconciles (run : ReconciliationRun) :
    (ReconciliationService.completedRecord run).reconciles = (run.status != .failed) := by
  cases hs : run.status <;>
    simp [ReconciliationService.completedRecord, AuditRecord.reconciles, hs,
      ReconciliationRunStatus.value]

/-- persisting a run leaves the refresh to be done, or nothing when the run FAILED -/
theorem safe_persist {run : ReconciliationRun} {mismatches : List ReconciliationMismatch}
    {snapshot : VenueStateSnapshot} {orders : List OmsOrder} (h : Free cfg c m₀ m)
    (hask : Ask cfg c m (.persistReconciliation run mismatches snapshot orders)) :
    Safe (contract cfg) (ReconciliationService.persist cfg run mismatches snapshot orders) c m₀ m
      fun r c m₀ m => match r with
        | .ok _ => ToRefresh cfg c m₀ m ∧ (run.status = .failed → Free cfg c m₀ m)
        | .error _ => Free cfg c m₀ m := by
  have hhandler : ∀ e, Benign cfg (if e.kind = .audit then
      OmsService.triggerUnlessActive cfg "OMS reconciliation audit persistence failed"
        "oms-reconciliation" (some run.runId) else Coro.raise e) := by
    intro e
    split_ifs
    · exact benign_triggerUnlessActive _ _ _
    · exact .raise e
  -- a failed audit halts the process and leaves nothing to be done
  have hfail : ∀ {e c m₀ m}, Free cfg c m₀ m → Safe (contract cfg) (if e.kind = .audit then
      OmsService.triggerUnlessActive cfg "OMS reconciliation audit persistence failed"
        "oms-reconciliation" (some run.runId) else Coro.raise e) c m₀ m
      fun r c m₀ m => match r with
        | .ok _ => ToRefresh cfg c m₀ m ∧ (run.status = .failed → Free cfg c m₀ m)
        | .error _ => Free cfg c m₀ m := by
    intro e c m₀ m hf
    refine ((hhandler e).safe hf).imp fun r c m₀ m hf => ?_
    cases r with
    | ok u => exact ⟨hf.toRefresh, fun _ => hf⟩
    | error e => exact hf
  unfold ReconciliationService.persist
  split_ifs with hrep
  · refine safe_bind.2 (safe_call.2 ⟨h.ask hask, fun r m₁ _ hm => ?_⟩)
    cases r with
    | error e => exact .reply hm rfl rfl fun _ => trivial
    | ok u =>
      refine safe_handle.2 (safe_record (fun e hmode => ?_) (fun hr => ?_) (fun hmode _ => ?_)
        (fun _ m₂ hm₂ => ?_) fun _ e e' m₂ hm₂ => ?_)
      · refine hfail ⟨hm, fun _ => ⟨rfl, rfl, rfl⟩, fun next _ hmode' => ?_⟩
        rw [hmode] at hmode'
        cases hmode'
      · exact absurd hrep (by simp [hr])
      · refine ⟨hm, fun _ => ⟨rfl, rfl, rfl⟩, ?_, fun hne _ => ⟨_, rfl, ?_⟩⟩
        · intro q hq
          cases hq
          exact ⟨by simp [ReconciliationService.completedRecord],
            by simp [ReconciliationService.completedRecord]⟩
        · rw [completedRecord_reconciles]
          simpa using hne
      · refine ⟨⟨hm₂, fun _ => ⟨rfl, rfl, rfl⟩, fun hr => ?_, fun _ => rfl⟩, fun hf => ?_⟩
        · exact absurd hrep (by simp [hr])
        · refine .reply hm₂ rfl rfl fun next hrec => ?_
          rw [completedRecord_reconciles, hf] at hrec
          cases hrec
      · exact hfail (.reply hm₂ rfl rfl fun _ => trivial)
  · have hrep : cfg.repository = false := by simpa using hrep
    refine safe_handle.2 (safe_record (fun e _ => hfail h) (fun _ => ?_)
      (fun _ hr => absurd hr (by simp [hrep])) (fun hr => absurd hr (by simp [hrep]))
      fun hr => absurd hr (by simp [hrep]))
    exact ⟨h.toRefresh, fun _ => h⟩

theorem benign_handleCritical (run : ReconciliationRun) :
    Benign cfg (ReconciliationService.handleCritical cfg run) := by
  unfold ReconciliationService.handleCritical
  split_ifs
  · exact benign_triggerUnlessActive _ _ _
  · exact .ret ()

theorem benign_unavailable (runId : String) (orders : List OmsOrder) (startedAt : Time) (e : Error) :
    Benign cfg (ReconciliationService.unavailable cfg runId orders startedAt e) := by
  refine .read fun mem => ⟨fun h => safe_bind.2 ((safe_persist h ?_).imp ?_)⟩
  · exact ⟨by simp, fun _ => ⟨rfl, rfl, rfl, rfl⟩⟩
  · intro r c m₀ m hr
    cases r with
    | error e => exact hr
    | ok u => exact ((benign_handleCritical _).bind fun _ => .ret _).safe (hr.2 rfl)

/-- a correction takes the venue's price, which the snapshot's validators passed -/
theorem corrections_priced {orders : List OmsOrder} {s : VenueStateSnapshot} (hs : s.check = .ok s) :
    ∀ o ∈ (ReconciliationService.compareOrders orders s).2, Priced o := by
  intro o ho
  obtain ⟨order, -, hcorrect⟩ := List.mem_filterMap.1 ho
  unfold ReconciliationService.correct at hcorrect
  split at hcorrect
  · cases hcorrect
  · rename_i venue hvenue
    split_ifs at hcorrect
    cases hcorrect
    have hmem : venue ∈ s.orders := List.mem_reverse.1 (List.mem_of_find?_eq_some hvenue)
    obtain ⟨hf, -, -⟩ := validateModel_ok.1 hs
    simp only [List.forall_mem_cons, List.all_eq_true, decide_eq_true_eq] at hf
    exact (hf.1 venue hmem).2.2.1

theorem benign_compared {runId : String} {orders : List OmsOrder} {startedAt : Time}
    {s : VenueStateSnapshot} (hs : s.check = .ok s) :
    Benign cfg (ReconciliationService.compared cfg runId orders startedAt s) := by
  refine .read fun mem => ⟨fun h => safe_bind.2 ((safe_persist h ?_).imp ?_)⟩
  · refine ⟨corrections_priced hs, fun hf => ?_⟩
    simp only [ReconciliationService.runOf] at hf
    split_ifs at hf
  · intro r c m₀ m hr
    cases r with
    | error e => exact hr
    | ok u =>
      refine safe_bind.2 (hr.1.refreshed.imp fun r c m₀ m hfree => ?_)
      cases r with
      | error e => exact hfree
      | ok u =>
        dsimp only
        split_ifs
        · exact ((benign_handleCritical _).bind fun _ => .ret _).safe hfree
        · exact hfree

theorem benign_reconcileOnce (runId : String) :
    Benign cfg (ReconciliationService.reconcileOnce cfg runId) := by
  refine .read fun mem => .bind ?_ fun orders => ⟨fun {c m₀ m} h => ?_⟩
  · unfold ReconciliationService.localOrders
    split_ifs
    · refine Benign.ask (fun _ _ => trivial) fun r m => ⟨?_, ?_, fun _ => ?_⟩
      · cases r <;> rfl
      · cases r <;> rfl
      · cases r <;> trivial
    · exact .ret _
  · refine safe_bind.2 (safe_attempt.2 (safe_call.2 ⟨h.ask trivial, fun r m₁ hr hm => ?_⟩))
    cases r with
    | error e =>
      exact (benign_unavailable _ _ _ e).safe (.reply hm rfl rfl fun _ => trivial)
    | ok s => exact (benign_compared (hr s rfl)).safe (.reply hm rfl rfl fun _ => trivial)

/-! ## Every call -/

/-- **Every call meets the contract**, in each of its segments and whatever it is replied. -/
theorem benign_program (call : Call) : Benign cfg (call.program cfg) := by
  cases call with
  | initializeRisk => exact benign_initializeRisk
  | check a => exact (benign_check a).forget
  | createOrder a => exact (benign_createOrder a).forget
  | closeOrder a => exact (benign_closeOrder a).forget
  | onCandle candle => exact (benign_onCandle candle).forget
  | submitApproved a => exact (benign_submitApproved a).forget
  | queueCancel i => exact (benign_queueCancel i).forget
  | dispatchOnce w => exact (benign_dispatchOnce w).forget
  | dispatchWorker w => exact benign_workerRound ((benign_dispatchOnce w).bind fun _ => .ret ())
  | reconcileOnce r => exact (benign_reconcileOnce r).forget
  | reconcileWorker r => exact benign_workerRound ((benign_reconcileOnce r).bind fun _ => .ret ())
  | refreshPositions => exact benign_refreshPositions
  | triggerKillSwitch r a c => exact benign_triggerKillSwitch r a c
  | resetKillSwitch r a c => exact benign_resetKillSwitch r a c

end CapitalCipher
