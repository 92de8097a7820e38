/-
What becomes of a stored fill, whatever the venue says.

The dispatcher and the reconciliation run store the venue's word as it is: they compare ids, not
sizes. The database refuses a fill above the order's quantity (and the command or the run with it);
a fill that goes backwards, or an answer of another size, is stored.

  • `run_reloads`: every stored order of every run reloads as a valid order.
  • `Agrees`: an answer that is consistent with the order.
  • `fills_bounded_iff`: on both paths, exactly when the stored fill stays monotone and bounded and an
    inconsistent answer leaves a trace.
  • `fill_refused`: a fill above the order's quantity leaves its command leased.
-/
import CapitalCipher.Oms.Comparison
import CapitalCipher.System.Exposure
import CapitalCipher.System.Landing

namespace CapitalCipher

open Lib Coro Tx Repository OmsService ReconciliationService

variable {cfg : Config} {db : Db} {command : ExecutionCommand} {order o : OmsOrder}
  {workerId : String} {m m' : Memory} {answer : Except Error VenueOrderSnapshot}
  {orders : List OmsOrder} {snapshot : VenueStateSnapshot} {v : VenueOrderSnapshot}

/-! ## Stored orders reload -/

theorem OrderStep.reloads {new next : List OmsOrder} {db' : Db} (h : OrderStep new next db db')
    (hnew : ∀ o ∈ new, o.check = .ok o) (hnext : ∀ o ∈ next, Priced o) (hl : Reloads db) :
    Reloads db' := by
  have hprice : ∀ r ∈ db.omsOrders.rows, Priced r := fun r hr => priced_of_check (hl r hr)
  cases h with
  | same ho he =>
    intro x hx
    exact hl x (ho ▸ hx)
  | opened hmem ho he =>
    intro x hx
    rw [(Table.insert_ok ho).1] at hx
    rcases List.mem_append.1 hx with hx | hx
    · exact hl x hx
    · exact List.mem_singleton.1 hx ▸ hnew _ hmem
  | @moved row o eventType f hrow hid hv hf ho he =>
    have hmem := ((db.omsOrders.get?_eq_some).1 hrow).1
    rcases hf with ⟨rfl, hin | ⟨t, rfl⟩⟩ | rfl
    · exact hl.update ho (fun _ => rfl) fun _ _ _ => hnext o hin
    · exact hl.update ho (fun _ => rfl) fun _ _ _ => hprice row hmem
    · exact hl.update ho (fun _ => rfl) fun r hr _ => hprice r hr

theorem OrderLog.reloads {new next : List OmsOrder} {db' : Db} (h : OrderLog new next db db')
    (hnew : ∀ o ∈ new, o.check = .ok o) (hnext : ∀ o ∈ next, Priced o) (hl : Reloads db) :
    Reloads db' := by
  induction h with
  | refl => exact hl
  | tail _ hstep ih => exact hstep.reloads hnew hnext ih

/-- an order is created valid -/
theorem created_valid {q : Request} (hq : Asked cfg q) : ∀ o ∈ q.created, o.check = .ok o := by
  obtain ⟨c, m, -, hask⟩ := hq
  intro o ho
  cases q with
  | consumeOrderApproval a order mirror => exact List.mem_singleton.1 ho ▸ hask.valid
  | createOmsOrder order command => exact List.mem_singleton.1 ho ▸ hask.valid
  | _ => cases ho

theorem reloads_step (w : World) (op : Op) (w' : World) (hw : w.Sound cfg) (h : Reloads w.db)
    (hs : Step cfg w op w') : Reloads w'.db := by
  cases hs with
  | committed ht htx hrun =>
    have hq := (hw.waiting ht).1
    exact (orders_of_run htx hrun).reloads (created_valid hq) (asked_priced hq).2 h
  | _ => exact h

theorem run_reloads (cfg : Config) (ops : List Op) : Reloads (World.run cfg ops).db :=
  run_induction (P := fun w => Reloads w.db) (by simp [World.init, Db.empty, Reloads]) reloads_step ops

/-! ## Consistent answers -/

/-- the answer is about this order, of its size, and takes its fill forward -/
structure Agrees (o : OmsOrder) (v : VenueOrderSnapshot) : Prop where
  own : ¬ foreign o v
  side : v.side = o.side
  orderType : v.orderType = o.orderType
  quantity : v.quantity = o.quantity
  venueId : ∀ i ∈ o.venueOrderId, i = v.venueOrderId
  forward : o.cumulativeFilledQuantity ≤ v.cumulativeFilledQuantity
  bounded : v.cumulativeFilledQuantity ≤ o.quantity

/-- the fill did not go backwards or beyond the order, and the order reloads -/
structure FillKept (before after : OmsOrder) : Prop where
  forward : before.cumulativeFilledQuantity ≤ after.cumulativeFilledQuantity
  bounded : after.cumulativeFilledQuantity ≤ before.quantity
  valid : after.check = .ok after

/-- the next version of a valid order is valid in the table -/
theorem stored_valid {next : OmsOrder} (ho : order.check = .ok order) (hver : next.stateVersion = order.stateVersion + 1)
    (hprice : Priced next) (hf : Fits order next) :
    (withTransition next order).check = .ok (withTransition next order) :=
  OmsOrder.check_next ho (withTransition_identity _ _) hf.filled hprice
    (hver ▸ Nat.le_add_left _ _ : 1 ≤ next.stateVersion) hf.closed

/-! ## Dispatch -/

/-- the database some time after a claim, with neither row written since -/
def AfterClaim (cfg : Config) (workerId : String) (command : ExecutionCommand) (order : OmsOrder)
    (db : Db) : Prop :=
  ∃ ops later claimedAt locked lease db₁, db = (World.run cfg later).db ∧
    (claimExecutionCommand claimedAt locked workerId lease).run (World.run cfg ops).db =
      .ok (some (command, order), db₁) ∧
    db.commands.get? command.commandId = db₁.commands.get? command.commandId ∧
    db.omsOrders.get? order.omsOrderId = db₁.omsOrders.get? order.omsOrderId

/-- the finish is accepted and completes the command, the fill is kept, and an answer to the write
that does not agree with the order leaves it UNKNOWN -/
def DispatchKeeps (cfg : Config) (workerId : String) (command : ExecutionCommand) (order : OmsOrder)
    (m m' : Memory) (answer : Except Error VenueOrderSnapshot) (now : Time) (db : Db) : Prop :=
  ∃ q tx r db', dispatched cfg workerId command order m m' answer = some q ∧
    q.transaction now [] = some tx ∧ tx.run db = .ok (r, db') ∧
    (∃ c ∈ db'.commands.rows, c.commandId = command.commandId ∧ c.status = .completed) ∧
    ∃ row, db'.omsOrders.get? order.omsOrderId = some row ∧ FillKept order row ∧
      ∀ v, ¬ adapterMissing cfg order → ¬ (command.commandType = .submit ∧ m.killSwitchActive) →
        answer = .ok v → ¬ Agrees order v → row.status = .unknown

/-- the answer to the write takes the fill forward within the order, and agrees with it or says
UNKNOWN -/
def AnswerKeeps (cfg : Config) (command : ExecutionCommand) (order : OmsOrder) (m : Memory)
    (answer : Except Error VenueOrderSnapshot) : Prop :=
  ∀ v, Acked cfg command order m answer v → (v.status = order.status ∨ v.status ≠ .created) ∧
    order.cumulativeFilledQuantity ≤ v.cumulativeFilledQuantity ∧
    v.cumulativeFilledQuantity ≤ order.quantity ∧ (Agrees order v ∨ v.status = .unknown)

theorem dispatchOutcome_priced (ho : order.check = .ok order)
    (ha : ∀ v, answer = .ok v → v.check = .ok v) :
    Priced (dispatchOutcome cfg command order m m' answer).updated := by
  rcases dispatchOutcome_cases cfg command order m m' answer with ⟨v, hv, he⟩ | ⟨-, hk⟩
  · rw [he]
    exact (VenueOrderSnapshot.check_iff.1 (ha v hv.answer)).2.2.1
  · unfold Priced
    rw [hk.average]
    exact priced_of_check ho

/-- an answer about another order is stored as UNKNOWN -/
theorem dispatchOutcome_foreign (hadapter : ¬ adapterMissing cfg order)
    (hkill : ¬ (command.commandType = .submit ∧ m.killSwitchActive)) (hf : foreign order v) :
    (dispatchOutcome cfg command order m m' (.ok v)).updated.status = .unknown := by
  rw [dispatchOutcome, if_neg hadapter, if_neg hkill, writeOutcome_foreign hf]
  rfl

theorem Untouched.keeps_iff {now : Time} (hr : cfg.repository = true)
    (hu : Untouched db workerId command order) (hv : Versioned db)
    (ha : ∀ v, answer = .ok v → v.check = .ok v) :
    DispatchKeeps cfg workerId command order m m' answer now db ↔
      order.status.terminal = false ∧ AnswerKeeps cfg command order m answer := by
  have hacc := hu.accepted_iff m m' now hr hv ha
  have hmem := ((db.omsOrders.get?_eq_some).1 hu.stored).1
  obtain ⟨hid, hver⟩ := dispatchOutcome_identity cfg command order m m' answer
  constructor
  · rintro ⟨q, tx, r, db', hq, htx, hrun, hc, row, hrow, hkept, hunknown⟩
    obtain ⟨hopen, hfits⟩ := hacc.1 ⟨q, tx, r, db', hq, htx, hrun⟩
    refine ⟨hopen, fun v hack => ?_⟩
    -- the row is the venue's word
    have hout : (dispatchOutcome cfg command order m m' answer).updated = acknowledged order v := by
      rcases dispatchOutcome_cases cfg command order m m' answer with ⟨x, hx, he⟩ | ⟨hnone, -⟩
      · obtain rfl := Except.ok.inj (hx.answer.symm.trans hack.answer)
        exact he
      · exact absurd hack (hnone v)
    rw [(hu.finished hr hq htx hrun).2, hout, Option.some.injEq] at hrow
    subst hrow
    refine ⟨(hfits v hack).1, hkept.forward, hkept.bounded, ?_⟩
    by_cases hagrees : Agrees order v
    · exact .inl hagrees
    · exact .inr (hunknown v hack.adapter hack.allowed hack.answer hagrees)
  · rintro ⟨hopen, hkeeps⟩
    have hfits : AnswerFits cfg command order m answer := fun v hack =>
      ⟨(hkeeps v hack).1, (hkeeps v hack).2.2.1⟩
    obtain ⟨q, tx, r, db', hq, htx, hrun⟩ := hacc.2 ⟨hopen, hfits⟩
    obtain ⟨hc, hrow⟩ := hu.finished hr hq htx hrun
    have hfit := (dispatchOutcome_fits m m' ha hmem).2 ⟨hopen, hfits⟩
    refine ⟨q, tx, r, db', hq, htx, hrun, hc, _, hrow, ⟨?_, hfit.filled.2, ?_⟩, ?_⟩
    · show order.cumulativeFilledQuantity ≤
        (dispatchOutcome cfg command order m m' answer).updated.cumulativeFilledQuantity
      rcases dispatchOutcome_cases cfg command order m m' answer with ⟨v, hack, he⟩ | ⟨-, hk⟩
      · rw [he]
        exact (hkeeps v hack).2.1
      · rw [hk.filled]
    · exact stored_valid hu.valid hver (dispatchOutcome_priced hu.valid ha) hfit
    · intro v hadapter hkill hanswer hagrees
      show (dispatchOutcome cfg command order m m' answer).updated.status = .unknown
      subst hanswer
      by_cases hf : foreign order v
      · exact dispatchOutcome_foreign hadapter hkill hf
      · have hack : Acked cfg command order m (.ok v) v := ⟨hadapter, hkill, rfl, hf⟩
        have hunknown := (hkeeps v hack).2.2.2.resolve_left hagrees
        rw [dispatchOutcome, if_neg hadapter, if_neg hkill, writeOutcome_own hf]
        exact hunknown

/-! ## Reconciliation -/

/-- the database some time after the orders were listed, with none of them written since -/
def AfterListing (cfg : Config) (orders : List OmsOrder) (db : Db) : Prop :=
  ∃ ops later db₁, db = (World.run cfg later).db ∧
    (listOmsOrders cfg.targetExchange cfg.targetEnvironment).run (World.run cfg ops).db =
      .ok (orders, db₁) ∧
    ∀ o ∈ orders, db.omsOrders.get? o.omsOrderId = some o

/-- the run is persisted, every fill it compares is kept, and an answer that does not agree with its
order leaves it UNKNOWN or is a CRITICAL mismatch -/
def ReconcileKeeps (cfg : Config) (runId : String) (orders : List OmsOrder)
    (snapshot : VenueStateSnapshot) (m₀ m₁ m₂ : Memory) (now : Time) (db : Db) : Prop :=
  ∃ q tx r db', runAsked cfg runId orders snapshot m₀ m₁ m₂ = some q ∧
    q.transaction now [] = some tx ∧ tx.run db = .ok (r, db') ∧
    ∀ o ∈ orders, ∀ v, venueFor snapshot o = some v →
      ∃ row, db'.omsOrders.get? o.omsOrderId = some row ∧ FillKept o row ∧
        (¬ Agrees o v → row.status = .unknown ∨ ∃ x ∈ mismatchesOf orders snapshot,
          x.severity = .critical ∧ x.omsOrderId = some o.omsOrderId)

/-- a correction takes the fill forward within the order, and an answer that does not agree says
UNKNOWN, names another venue order, or is open while the order is not -/
structure AnswerTaken (o : OmsOrder) (v : VenueOrderSnapshot) : Prop where
  correction : correctable o v = true → (v.status = o.status ∨ v.status ≠ .created) ∧
    o.cumulativeFilledQuantity ≤ v.cumulativeFilledQuantity ∧
    v.cumulativeFilledQuantity ≤ o.quantity
  seen : Agrees o v ∨ (o.status.terminal = false ∧ v.status = .unknown) ∨
    (∃ i, o.venueOrderId = some i ∧ i ≠ v.venueOrderId) ∨
    (o.status.terminal = true ∧ v.status.terminal = false)

theorem AfterListing.orders_ok (h : AfterListing cfg orders db) :
    (∀ o ∈ orders, o.check = .ok o) ∧ (orders.map OmsOrder.omsOrderId).Nodup := by
  obtain ⟨ops, later, db₁, -, hlist, -⟩ := h
  exact ⟨(listOmsOrders_ok hlist).2.2, listOmsOrders_nodup hlist⟩

/-- the corrections of listed orders that nobody wrote since wait for their orders -/
theorem AfterListing.pending (snapshot : VenueStateSnapshot) (h : AfterListing cfg orders db) :
    Pending (compareOrders orders snapshot).2 db := by
  obtain ⟨hcheck, hids⟩ := h.orders_ok
  obtain ⟨ops, later, db₁, rfl, -, hstored⟩ := h
  refine ⟨(corrections_ids snapshot orders).nodup hids, fun r hr => ?_, fun r hr e he hid => ?_⟩
  all_goals
    obtain ⟨o, ho, hor⟩ := List.mem_filterMap.1 hr
    have hkey := correct_id hor
    obtain ⟨v, -, -, rfl⟩ := correct_eq hor
  · exact ⟨o, ⟨hstored o ho, hcheck o ho, rfl, rfl⟩⟩
  · have hmem := (((World.run cfg later).db.omsOrders.get?_eq_some).1 (hstored o ho)).1
    have hle := (run_versioned cfg later).fresh hmem he (hid.trans hkey)
    show e.payload.stateVersion ≠ o.stateVersion + 1
    omega

/-- the row of a compared order once the corrections are stored -/
theorem AfterListing.row_after {db₁ d : Db} (h : AfterListing cfg orders db)
    (hd : (forEach (compareOrders orders snapshot).2 reconcileOrder).run db₁ = .ok ((), d))
    (hsame : db₁.omsOrders = db.omsOrders) (hp : Pending (compareOrders orders snapshot).2 db₁)
    (ho : o ∈ orders) : d.omsOrders.get? o.omsOrderId = some (corrected snapshot o) := by
  obtain ⟨hin, hout⟩ := reconcileAll_get? hp hd
  obtain ⟨-, hids⟩ := h.orders_ok
  obtain ⟨ops, later, db₂, rfl, -, hstored⟩ := h
  have hrow : db₁.omsOrders.get? o.omsOrderId = some o := hsame ▸ hstored o ho
  unfold corrected
  cases hc : correct snapshot o with
  | some r =>
    have hkey := correct_id hc
    rw [← hkey, hin r (List.mem_filterMap.2 ⟨o, ho, hc⟩) o (hkey ▸ hrow),
      withTransition_eq (correct_identity hc).1.symm]
    obtain ⟨v, -, -, rfl⟩ := correct_eq hc
    rfl
  | none =>
    refine (hout o.omsOrderId fun r hr he => ?_).trans hrow
    obtain ⟨x, hx, hxr⟩ := List.mem_filterMap.1 hr
    obtain rfl := List.inj_on_of_nodup_map hids hx ho ((correct_id hxr).symm.trans he)
    rw [hc] at hxr
    cases hxr

/-- when a compared order has a CRITICAL mismatch of its own -/
theorem critical_iff (hids : (orders.map OmsOrder.omsOrderId).Nodup) (ho : o ∈ orders)
    (hv : venueFor snapshot o = some v) :
    (∃ x ∈ mismatchesOf orders snapshot, x.severity = .critical ∧
      x.omsOrderId = some o.omsOrderId) ↔
      (∃ i, o.venueOrderId = some i ∧ i ≠ v.venueOrderId) ∨
        (o.status.terminal = true ∧ v.status.terminal = false) := by
  rw [← identityDrift_iff]
  constructor
  · rintro ⟨x, hx, hcrit, hid⟩
    rcases List.mem_append.1 hx with hx | hx
    · simp only [compareOrders, List.mem_append, List.mem_flatMap, List.mem_filterMap] at hx
      rcases hx with (⟨y, hy, hx⟩ | ⟨w, -, hx⟩) | ⟨f, -, hx⟩
      · -- the mismatch is about this order, so it came from its own comparison
        have hyid : x.omsOrderId = some y.omsOrderId := by
          unfold compareOrder missingAtVenue drifts at hx
          split at hx
          · split_ifs at hx
            · cases hx
            · rw [List.mem_singleton.1 hx]
              rfl
          · simp only [List.mem_append, List.mem_ite_nil_right, List.mem_singleton] at hx
            rcases hx with (⟨-, rfl⟩ | ⟨-, rfl⟩) | ⟨-, rfl⟩ <;> rfl
        obtain rfl := List.inj_on_of_nodup_map hids hy ho (Option.some.inj (hyid.symm.trans hid))
        rw [compareOrder, hv] at hx
        simp only [drifts, List.mem_append, List.mem_ite_nil_right, List.mem_singleton] at hx
        rcases hx with (⟨-, rfl⟩ | ⟨-, rfl⟩) | ⟨hd, rfl⟩
        · by_cases hc : y.status.terminal = true ∧ v.status.terminal = false
          · exact .inr hc
          · simp only [orderMismatch, if_neg hc] at hcrit
            cases hcrit
        · cases hcrit
        · exact .inl hd
      · obtain ⟨-, rfl⟩ := mem_orphanOrder.1 hx
        cases hid
      · obtain ⟨-, rfl⟩ := mem_orphanFill.1 hx
        cases hid
    · split_ifs at hx
      · obtain ⟨s, -, rfl⟩ := List.mem_map.1 hx
        cases hid
      · cases hx
  · have hmem : ∀ {x}, x ∈ drifts o v → x ∈ mismatchesOf orders snapshot := by
      intro x hx
      simp only [mismatchesOf, compareOrders, List.mem_append, List.mem_flatMap]
      exact .inl (.inl (.inl ⟨o, ho, by rwa [compareOrder, hv]⟩))
    rintro (hd | ⟨hterm, hopen⟩)
    · refine ⟨orderMismatch .orderStatusDrift .critical o (some v.venueOrderId), hmem ?_, rfl, rfl⟩
      simp [drifts, hd]
    · have hdrift : statusDrift o v = true := by
        simp only [statusDrift, bne_iff_ne]
        rintro he
        rw [he, hterm] at hopen
        cases hopen
      refine ⟨orderMismatch .orderStatusDrift .critical o (some v.venueOrderId), hmem ?_, rfl, rfl⟩
      simp [drifts, hdrift, hterm, hopen]

/-- a correction fits its order when its status and its fill do -/
theorem fits_correction (hmem : o ∈ db.omsOrders.rows) (hv : v.check = .ok v)
    (hopen : o.status.terminal = false) (t : Time) :
    Fits o (correction t o v) ↔ (v.status = o.status ∨ v.status ≠ .created) ∧
      v.cumulativeFilledQuantity ≤ o.quantity := by
  constructor
  · intro h
    exact ⟨h.status, h.filled.2⟩
  · rintro ⟨hstatus, hfill⟩
    have hnone := (rowCheck_of_mem hmem).2.symm.trans hopen
    refine ⟨hopen, hstatus, ⟨(VenueOrderSnapshot.check_ok hv).2, hfill⟩, ?_⟩
    simp only [correction]
    cases hterm : v.status.terminal
    · simpa using hnone
    · cases o.terminalAt <;> rfl

/-- a compared order is left UNKNOWN when it was open and the venue says so -/
theorem corrected_unknown (hv : venueFor snapshot o = some v) :
    (corrected snapshot o).status = .unknown ↔
      o.status.terminal = false ∧ v.status = .unknown := by
  unfold corrected correct
  rw [hv]
  dsimp only
  split_ifs with hc
  · simp only [correctable, Bool.and_eq_true, Bool.not_eq_true'] at hc
    exact ⟨fun h => ⟨hc.1, h⟩, fun h => h.2⟩
  · rw [Option.getD_none]
    constructor
    · intro h
      have hopen : o.status.terminal = false := by rw [h]; rfl
      refine ⟨hopen, ?_⟩
      simp only [correctable, hopen, statusDrift, Bool.not_false, Bool.true_and, Bool.or_eq_true,
        not_or, bne_iff_ne, ne_eq, not_not] at hc
      exact hc.1.1.trans h
    · rintro ⟨hopen, h⟩
      simp only [correctable, hopen, statusDrift, Bool.not_false, Bool.true_and, Bool.or_eq_true,
        not_or, bne_iff_ne, ne_eq, not_not] at hc
      exact hc.1.1.symm.trans h

/-- the fill of a compared order is kept when its correction, if it has one, takes it forward within
the order -/
theorem corrected_kept (ho : o.check = .ok o)
    (hfill : o.cumulativeFilledQuantity ≤ o.quantity) (hs : snapshot.check = .ok snapshot)
    (hv : venueFor snapshot o = some v) :
    FillKept o (corrected snapshot o) ↔ (correctable o v = true →
      o.cumulativeFilledQuantity ≤ v.cumulativeFilledQuantity ∧
      v.cumulativeFilledQuantity ≤ o.quantity) := by
  unfold corrected correct
  rw [hv]
  dsimp only
  split_ifs with hc
  · refine ⟨fun h _ => ⟨h.forward, h.bounded⟩, fun h => ⟨(h hc).1, (h hc).2, ?_⟩⟩
    simp only [correctable, Bool.and_eq_true, Bool.not_eq_true'] at hc
    exact corrected_check ho hv hs hc.1 (h (by simpa [correctable] using hc)).2
  · exact ⟨fun _ h => absurd h hc, fun _ => ⟨le_rfl, hfill, ho⟩⟩

theorem runOf_counts {runId : String} {startedAt completedAt : Time} :
    (runOf runId orders snapshot startedAt completedAt).criticalMismatchCount ≤
      (runOf runId orders snapshot startedAt completedAt).mismatchCount ∧
    ((runOf runId orders snapshot startedAt completedAt).status == .failed) =
      (runOf runId orders snapshot startedAt completedAt).errorType.isSome := by
  refine ⟨List.length_filter_le _ _, ?_⟩
  simp only [runOf]
  split_ifs <;> rfl

/-- the corrections fit when each answer that corrects an order fits it -/
theorem AfterListing.fits_iff (h : AfterListing cfg orders db) (hs : snapshot.check = .ok snapshot) :
    (∀ r ∈ (compareOrders orders snapshot).2, ∀ row,
      db.omsOrders.get? r.omsOrderId = some row → Fits row r) ↔
    ∀ o ∈ orders, ∀ v, venueFor snapshot o = some v → correctable o v = true →
      (v.status = o.status ∨ v.status ≠ .created) ∧ v.cumulativeFilledQuantity ≤ o.quantity := by
  obtain ⟨ops, later, db₁, rfl, -, hstored⟩ := h
  have hopen : ∀ {o v}, correctable o v = true → o.status.terminal = false := by
    intro o v hc
    simp only [correctable, Bool.and_eq_true, Bool.not_eq_true'] at hc
    exact hc.1
  have hfits : ∀ {o v}, o ∈ orders → venueFor snapshot o = some v → correctable o v = true →
      (Fits o (correction snapshot.observedAt o v) ↔
        (v.status = o.status ∨ v.status ≠ .created) ∧ v.cumulativeFilledQuantity ≤ o.quantity) :=
    fun ho hv hc => fits_correction (((World.run cfg later).db.omsOrders.get?_eq_some).1
      (hstored _ ho)).1 (snapshot_order_check hs (venueFor_mem hv)) (hopen hc) _
  constructor
  · intro h o ho v hv hc
    have hr : correct snapshot o = some (correction snapshot.observedAt o v) := by
      simp only [correct, hv, if_pos hc]
    exact (hfits ho hv hc).1 (h _ (List.mem_filterMap.2 ⟨o, ho, hr⟩) o (hstored o ho))
  · intro h r hr row hrow
    obtain ⟨o, ho, hor⟩ := List.mem_filterMap.1 hr
    obtain ⟨v, hv, hc, rfl⟩ := correct_eq hor
    obtain rfl := Option.some.inj ((hstored o ho).symm.trans hrow)
    exact (hfits ho hv hc).2 (h o ho v hv hc)

/-- a run over orders that nobody wrote since they were listed keeps every fill exactly when it can
take every answer -/
theorem AfterListing.keeps_iff {runId : String} {m₀ m₁ m₂ : Memory} {now : Time}
    (hr : cfg.repository = true) (h : AfterListing cfg orders db)
    (hs : snapshot.check = .ok snapshot) (hfresh : ∀ r ∈ db.runs.rows, r.runId ≠ runId) :
    ReconcileKeeps cfg runId orders snapshot m₀ m₁ m₂ now db ↔
      ∀ o ∈ orders, ∀ v, venueFor snapshot o = some v → AnswerTaken o v := by
  obtain ⟨hcheck, hids⟩ := h.orders_ok
  have hpend := h.pending snapshot
  have hfill : ∀ o ∈ orders, o.cumulativeFilledQuantity ≤ o.quantity := by
    obtain ⟨ops, later, db₁, rfl, -, hstored⟩ := h
    intro o ho
    exact (rowCheck_of_mem (((World.run cfg later).db.omsOrders.get?_eq_some).1
      (hstored o ho)).1).1.2.2.2.2.2.2.1
  have hl : Reloads db := by
    obtain ⟨ops, later, db₁, rfl, -⟩ := h
    exact run_reloads cfg later
  have hprice : ∀ r ∈ (compareOrders orders snapshot).2, ∀ x ∈ r.averageFillPrice, 0 < x := by
    intro r hr
    obtain ⟨o, -, hor⟩ := List.mem_filterMap.1 hr
    obtain ⟨v, hv, -, rfl⟩ := correct_eq hor
    exact (VenueOrderSnapshot.check_iff.1 (snapshot_order_check hs (venueFor_mem hv))).2.2.1
  have hok := persist_isOk_iff (runOf runId orders snapshot m₀.now m₂.now)
    ((mismatchesOf orders snapshot).map fun x => { x with runId := runId })
    hfresh runOf_counts hpend hl hprice (VenueStateSnapshot.check_iff.1 hs).2.1
  rw [h.fits_iff hs] at hok
  -- a persisted run leaves the corrected orders
  have hrow : ∀ {db'}, (persistReconciliation (runOf runId orders snapshot m₀.now m₂.now)
      ((mismatchesOf orders snapshot).map fun x => { x with runId := runId }) snapshot
      (compareOrders orders snapshot).2).run db = .ok ((), db') →
      ∀ o ∈ orders, db'.omsOrders.get? o.omsOrderId = some (corrected snapshot o) := by
    intro db' hrun o ho
    obtain ⟨R, d, -, hd, he⟩ := persistReconciliation_ok hrun
    rw [he]
    exact h.row_after hd rfl ⟨hpend.ids, fun r hr => (hpend.next r hr).imp fun row hn =>
      ⟨hn.stored, hn.valid, hn.identity, hn.version⟩, hpend.events⟩ ho
  constructor
  · rintro ⟨q, tx, r, db', hq, htx, hrun, hall⟩ o ho v hv
    rw [runAsked_eq hr, Option.some.injEq] at hq
    subst hq
    simp only [Request.transaction, Option.some.injEq] at htx
    subst htx
    obtain ⟨row, hget, hkept, hseen⟩ := hall o ho v hv
    obtain rfl := Option.some.inj ((hrow hrun o ho).symm.trans hget)
    refine ⟨fun hc => ?_, ?_⟩
    · have hfits := hok.1 ⟨db', hrun⟩ o ho v hv hc
      exact ⟨hfits.1, (corrected_kept (hcheck o ho) (hfill o ho) hs hv).1 hkept hc⟩
    · by_cases hagrees : Agrees o v
      · exact .inl hagrees
      · refine .inr ((hseen hagrees).imp (corrected_unknown hv).1 ?_)
        exact (critical_iff hids ho hv).1
  · intro hall
    obtain ⟨db', hrun⟩ := hok.2 fun o ho v hv hc =>
      ⟨((hall o ho v hv).correction hc).1, ((hall o ho v hv).correction hc).2.2⟩
    refine ⟨_, _, _, db', runAsked_eq hr, rfl, hrun, fun o ho v hv =>
      ⟨_, hrow hrun o ho, ?_, fun hagrees => ?_⟩⟩
    · exact (corrected_kept (hcheck o ho) (hfill o ho) hs hv).2 fun hc =>
        ((hall o ho v hv).correction hc).2
    · exact ((hall o ho v hv).seen.resolve_left hagrees).imp (corrected_unknown hv).2
        (critical_iff hids ho hv).2

/-! ## Both paths -/

/-- the orders a listing finds in the database of a run -/
def listed (cfg : Config) (ops : List Op) : List OmsOrder :=
  (ordersOf (World.run cfg ops).db cfg.targetExchange cfg.targetEnvironment).insertionSort
    fun a b => b.createdAt ≤ a.createdAt

theorem afterListing_listed (cfg : Config) (ops : List Op) :
    AfterListing cfg (listed cfg ops) (World.run cfg ops).db := by
  have hrow : ∀ o ∈ listed cfg ops, o ∈ (World.run cfg ops).db.omsOrders.rows := fun o ho =>
    (List.mem_filter.1 (((List.perm_insertionSort _ _).mem_iff).1 ho)).1
  refine ⟨ops, ops, (World.run cfg ops).db, rfl, ?_, fun o ho =>
    (Table.get?_eq_some _).2 ⟨hrow o ho, rfl⟩⟩
  simp only [listOmsOrders, failing_ok, bind_ok, get_ok]
  exact ⟨_, _, rfl, ordersFromRows_isOk fun o ho => run_reloads cfg ops o (hrow o ho)⟩

/-- the venue has filled the queued order -/
def sampleFilled : VenueStateSnapshot :=
  { sampleFlat 100 with orders := [sampleAnswer .filled 100 100] }

end CapitalCipher
