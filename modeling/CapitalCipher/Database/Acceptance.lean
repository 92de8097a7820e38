/-
When the database accepts the next version of an order.

An order is stored with `model_copy`, so its own validators never ran: what stands between a venue's
answer and the table is the version check, the transition trigger and the row CHECKs.

  • `Fits`: what those ask of the next version of a stored order.
  • `transition_isOk_iff`, `finish_isOk_iff`: the write is accepted if and only if it fits.
  • `persist_isOk_iff`: a run is persisted if and only if each of its corrections fits.
-/
import CapitalCipher.Database.Effects

namespace CapitalCipher

open Lib Txn Tx Repository

variable {db : Db} {row order : OmsOrder}

/-- the next version passes the trigger and the CHECKs of the stored row -/
structure Fits (row order : OmsOrder) : Prop where
  opened : row.status.terminal = false
  status : order.status = row.status ∨ order.status ≠ .created
  filled : 0 ≤ order.cumulativeFilledQuantity ∧ order.cumulativeFilledQuantity ≤ row.quantity
  closed : order.status.terminal = order.terminalAt.isSome

/-- orders of the same identity stand apart from the same orders -/
theorem omsOrder_apart {a a' b b' : OmsOrder} (ha : a'.identity = a.identity)
    (hb : b'.identity = b.identity) (h : omsOrderSchema.Apart a b) : omsOrderSchema.Apart a' b' := by
  have key : ∀ {x y : OmsOrder}, x.identity = y.identity → x.omsOrderId = y.omsOrderId ∧
      x.approvalId = y.approvalId ∧ x.exchange = y.exchange ∧ x.environment = y.environment ∧
      x.clientOrderId = y.clientOrderId := by
    intro x y hxy
    simp only [OmsOrder.identity, OmsIdentity.mk.injEq] at hxy
    tauto
  obtain ⟨h1, h2, h3, h4, h5⟩ := key ha
  obtain ⟨g1, g2, g3, g4, g5⟩ := key hb
  simpa only [Schema.Apart, omsOrderSchema, h1, h2, h3, h4, h5, g1, g2, g3, g4, g5] using h

/-- what the row CHECKs say of a stored order -/
theorem rowCheck_of_mem (h : row ∈ db.omsOrders.rows) :
    (0 < row.quantity ∧ 0 < row.requestedNotional ∧ 0 < row.referencePrice ∧ 1 ≤ row.leverage ∧
      1 ≤ row.stateVersion ∧ 0 ≤ row.cumulativeFilledQuantity ∧
      row.cumulativeFilledQuantity ≤ row.quantity ∧
      (row.orderType = .limit → row.limitPrice.isSome)) ∧
      row.status.terminal = row.terminalAt.isSome := by
  have := db.omsOrders.checked row h
  simpa only [omsOrderSchema, OmsOrder.rowCheck, Bool.and_eq_true, decide_eq_true_eq,
    beq_iff_eq] using this

/-- **The order's write.** It is accepted if and only if the next version fits the stored one. -/
theorem transition_isOk_iff (hnext : NextOf row order db) :
    (∃ T, db.omsOrders.update (fun o => o.omsOrderId == order.omsOrderId) (withTransition order) =
      .ok T) ↔ Fits row order := by
  obtain ⟨hmem, hkey⟩ := (db.omsOrders.get?_eq_some).1 hnext.stored
  replace hkey : row.omsOrderId = order.omsOrderId := hkey
  have hrow := rowCheck_of_mem hmem
  have hver := hnext.version
  constructor
  · rintro ⟨T, hT⟩
    have hg := omsOrder_guard ((Table.update_ok hT).2 row hmem (by simpa using hkey))
    have hin := Table.mem_of_update hT hmem
    rw [if_pos (by simpa using hkey)] at hin
    have hc := T.checked _ hin
    simp only [omsOrderSchema, OmsOrder.rowCheck, Bool.and_eq_true, decide_eq_true_eq,
      beq_iff_eq] at hc
    exact ⟨hg.2.2.2.1, hg.2.2.2.2, ⟨hc.1.2.2.2.2.2.1, hc.1.2.2.2.2.2.2.1⟩, hc.2⟩
  · intro h
    have honly : ∀ r ∈ db.omsOrders.rows, (r.omsOrderId == order.omsOrderId) = true → r = row :=
      fun r hr hp => db.omsOrders.eq_of_key_eq hr hmem ((beq_iff_eq.1 hp).trans hkey.symm)
    refine Table.update_isOk (fun r hr hp => ?_) (fun r hr hp => ?_) fun a ha b hb hab => ?_
    · obtain rfl := honly r hr hp
      have hst := h.status
      simp only [omsOrderSchema, omsOrderGuard, Bool.and_eq_true, Bool.or_eq_true, beq_iff_eq,
        bne_iff_ne, Bool.not_eq_true']
      exact ⟨⟨⟨⟨rfl, rfl⟩, hver⟩, h.opened⟩, hst⟩
    · obtain rfl := honly r hr hp
      obtain ⟨⟨h1, h2, h3, h4, h5, -, -, h8⟩, -⟩ := hrow
      simp only [omsOrderSchema, OmsOrder.rowCheck, Bool.and_eq_true, decide_eq_true_eq, beq_iff_eq]
      refine ⟨⟨h1, h2, h3, h4, ?_, h.filled.1, h.filled.2, h8⟩, h.closed⟩
      show 1 ≤ order.stateVersion
      omega
    · refine omsOrder_apart ?_ ?_ hab <;> split_ifs <;> rfl

/-- the command a worker holds, in the database -/
structure Held (workerId : String) (command : ExecutionCommand) (db : Db) : Prop where
  stored : db.commands.get? command.commandId = some command
  leased : command.status = .leased
  owner : command.leasedBy = some workerId

/-- a command that is held can be completed -/
theorem complete_isOk {workerId : String} {command : ExecutionCommand} (h : Held workerId command db)
    (errorType : Option String) (finishedAt : Time) :
    ∃ T, db.commands.update (fun c => c.commandId == command.commandId)
      (complete errorType finishedAt) = .ok T := by
  obtain ⟨hmem, -⟩ := (db.commands.get?_eq_some).1 h.stored
  have honly : ∀ c ∈ db.commands.rows, (c.commandId == command.commandId) = true → c = command :=
    fun c hc hp => db.commands.eq_of_key_eq hc hmem (beq_iff_eq.1 hp)
  refine Table.update_isOk (fun c hc hp => ?_) (fun c hc hp => ?_) fun a ha b hb hab => ?_
  · obtain rfl := honly c hc hp
    simp [executionCommandSchema, executionCommandGuard, complete, h.leased]
  · have := db.commands.checked c hc
    simp only [executionCommandSchema, Bool.and_eq_true, decide_eq_true_eq] at this ⊢
    exact ⟨this.1, rfl⟩
  · have hid : ∀ c : ExecutionCommand, (if (c.commandId == command.commandId) = true then
        complete errorType finishedAt c else c).commandId = c.commandId ∧
        (if (c.commandId == command.commandId) = true then
        complete errorType finishedAt c else c).omsOrderId = c.omsOrderId ∧
        (if (c.commandId == command.commandId) = true then
        complete errorType finishedAt c else c).commandType = c.commandType := by
      intro c
      split_ifs <;> exact ⟨rfl, rfl, rfl⟩
    simpa only [Schema.Apart, executionCommandSchema, hid] using hab

/-- the event of a version no event tells of yet can be inserted -/
theorem event_isOk (eventType : String)
    (h : ∀ e ∈ db.orderEvents.rows, e.payload.omsOrderId = order.omsOrderId →
      e.payload.stateVersion ≠ order.stateVersion) :
    ∃ T, db.orderEvents.insert ⟨eventType, order⟩ = .ok T := by
  refine Table.insert_isOk rfl fun e he => ⟨fun hk => ?_, rfl, rfl⟩
  obtain ⟨hid, hver⟩ := Prod.mk.inj hk
  exact h e he hid hver

/-- **Finishing a command.** With the command held, its order stored and the version unrecorded, the
transaction commits if and only if the next version fits. -/
theorem finish_isOk_iff {workerId : String} {command : ExecutionCommand} {eventType : String}
    {errorType : Option String} (hheld : Held workerId command db) (hnext : NextOf row order db)
    (hcommand : command.omsOrderId = order.omsOrderId)
    (hevent : ∀ e ∈ db.orderEvents.rows, e.payload.omsOrderId = order.omsOrderId →
      e.payload.stateVersion ≠ order.stateVersion) :
    (∃ db', (finishExecutionCommand command.commandId workerId order eventType errorType).run db =
      .ok (order, db')) ↔ Fits row order := by
  constructor
  · rintro ⟨db', h⟩
    exact (transition_isOk_iff hnext).1 ⟨_, (finishExecutionCommand_ok h).2.omsOrders⟩
  · intro h
    obtain ⟨O, hO⟩ := (transition_isOk_iff hnext).2 h
    obtain ⟨C, hC⟩ := complete_isOk hheld errorType order.updatedAt
    obtain ⟨E, hE⟩ := event_isOk eventType hevent
    refine ⟨{ db with omsOrders := O, commands := C, orderEvents := E }, ?_⟩
    simp only [finishExecutionCommand, failing_ok, bind_ok, get_ok]
    refine ⟨db, db, rfl, ?_⟩
    rw [hheld.stored]
    simp only [bind_ok, require_ok]
    refine ⟨(), db, ⟨⟨hheld.leased, hheld.owner⟩, rfl⟩, ?_⟩
    rw [hcommand, hnext.stored]
    simp only [bind_ok, construct_ok, require_ok, transitionOrder, updateCommand, onOmsOrders,
      onCommands, onOrderEvents, write_ok]
    refine ⟨row, db, ⟨hnext.valid, rfl⟩, (), db, ⟨sameOmsIdentity_iff.2 hnext.identity, rfl⟩, (), db,
      ⟨hnext.version, rfl⟩, (), _, ⟨O, hO, rfl⟩, (), _, ⟨C, hC, rfl⟩, (), _, ⟨E, hE, rfl⟩, ?_⟩
    exact pure_ok.2 rfl

/-! ## A reconciliation run -/

/-- the corrections wait for their orders: each is the next version of its own stored order, and no
event tells of that version -/
structure Pending (corrections : List OmsOrder) (db : Db) : Prop where
  ids : (corrections.map OmsOrder.omsOrderId).Nodup
  next : ∀ r ∈ corrections, ∃ row, NextOf row r db
  events : ∀ r ∈ corrections, ∀ e ∈ db.orderEvents.rows, e.payload.omsOrderId = r.omsOrderId →
    e.payload.stateVersion ≠ r.stateVersion

/-- a correction of a stored order is not skipped -/
theorem reconcileOrder_stored {db' : Db} (hrow : db.omsOrders.get? order.omsOrderId = some row)
    (h : (reconcileOrder order).run db = .ok ((), db')) : Reconciled order db db' := by
  simp only [reconcileOrder, bind_ok, get_ok] at h
  obtain ⟨_, _, heq, h⟩ := h
  cases heq
  rw [hrow] at h
  simp only [bind_ok, construct_ok, require_ok, transitionOrder, onOmsOrders, onOrderEvents,
    write_ok] at h
  obtain ⟨stored, _, ⟨hc, rfl⟩, _, _, ⟨⟨hid, hv⟩, he⟩, _, _, ⟨O, hO, he'⟩, E, hE, he''⟩ := h
  cases he
  cases he'
  cases he''
  exact ⟨⟨row, (stored_next hrow hc hid hv).2⟩, hO, hE, rfl⟩

theorem reconcileOrder_isOk_iff (hnext : NextOf row order db)
    (hevent : ∀ e ∈ db.orderEvents.rows, e.payload.omsOrderId = order.omsOrderId →
      e.payload.stateVersion ≠ order.stateVersion) :
    (∃ db', (reconcileOrder order).run db = .ok ((), db')) ↔ Fits row order := by
  constructor
  · rintro ⟨db', h⟩
    exact (transition_isOk_iff hnext).1 ⟨_, (reconcileOrder_stored hnext.stored h).omsOrders⟩
  · intro h
    obtain ⟨O, hO⟩ := (transition_isOk_iff hnext).2 h
    obtain ⟨E, hE⟩ := event_isOk "RECONCILED" hevent
    refine ⟨{ db with omsOrders := O, orderEvents := E }, ?_⟩
    simp only [reconcileOrder, bind_ok, get_ok]
    refine ⟨db, db, rfl, ?_⟩
    rw [hnext.stored]
    simp only [bind_ok, construct_ok, require_ok, transitionOrder, onOmsOrders, onOrderEvents,
      write_ok]
    exact ⟨row, db, ⟨hnext.valid, rfl⟩, (), db,
      ⟨⟨sameOmsIdentity_iff.2 hnext.identity, hnext.version⟩, rfl⟩, (), _, ⟨O, hO, rfl⟩, E, hE, rfl⟩

/-- the row under an id after one correction -/
theorem get?_reconciled {db' : Db} (h : Reconciled order db db') (i : String) :
    db'.omsOrders.get? i = if order.omsOrderId = i then
      (db.omsOrders.get? i).map (withTransition order) else db.omsOrders.get? i := by
  cases hrow : db.omsOrders.get? i with
  | some row =>
    rw [Table.get?_of_update h.omsOrders hrow]
    have hkey : row.omsOrderId = i := ((db.omsOrders.get?_eq_some).1 hrow).2
    have hiff : (row.omsOrderId == order.omsOrderId) = true ↔ order.omsOrderId = i := by
      rw [beq_iff_eq, hkey, eq_comm]
    simp only [hiff, Option.map_some]
    split_ifs <;> rfl
  | none =>
    simp only [Option.map_none, ite_self]
    refine (db'.omsOrders.get?_eq_none).2 fun r hr he => ?_
    obtain ⟨x, hx, hxr⟩ := Table.Within.of_update h.omsOrders r hr
    exact (db.omsOrders.get?_eq_none).1 hrow x hx (hxr.key.trans he)

theorem Pending.tail {corrections : List OmsOrder} {db' : Db}
    (hp : Pending (order :: corrections) db) (h : Reconciled order db db') :
    Pending corrections db' := by
  have hnodup := List.nodup_cons.1 hp.ids
  have hne : ∀ r ∈ corrections, order.omsOrderId ≠ r.omsOrderId := fun r hr he =>
    hnodup.1 (he ▸ List.mem_map_of_mem hr)
  refine ⟨hnodup.2, fun r hr => ?_, fun r hr e he hid => ?_⟩
  · obtain ⟨row, hrow⟩ := hp.next r (List.mem_cons_of_mem _ hr)
    refine ⟨row, ⟨?_, hrow.valid, hrow.identity, hrow.version⟩⟩
    rw [get?_reconciled h, if_neg (hne r hr)]
    exact hrow.stored
  · rw [(Table.insert_ok h.orderEvents).1] at he
    rcases List.mem_append.1 he with he | he
    · exact hp.events r (List.mem_cons_of_mem _ hr) e he hid
    · obtain rfl := List.mem_singleton.1 he
      exact absurd hid (hne r hr)

/-- **The corrections.** They are all stored if and only if each fits its own order; then each order
is its correction, and everything but the orders and their events is as before. -/
theorem reconcileAll_isOk_iff {corrections : List OmsOrder} (hp : Pending corrections db) :
    (∃ db', (forEach corrections reconcileOrder).run db = .ok ((), db')) ↔
      ∀ r ∈ corrections, ∀ row, db.omsOrders.get? r.omsOrderId = some row → Fits row r := by
  induction corrections generalizing db with
  | nil => exact ⟨fun _ => by simp, fun _ => ⟨db, rfl⟩⟩
  | cons r corrections ih =>
    obtain ⟨row, hrow⟩ := hp.next r (by simp)
    have hone := reconcileOrder_isOk_iff hrow (hp.events r (by simp))
    have hne : ∀ x ∈ corrections, r.omsOrderId ≠ x.omsOrderId := fun x hx he =>
      (List.nodup_cons.1 hp.ids).1 (he ▸ List.mem_map_of_mem hx)
    constructor
    · rintro ⟨db', h⟩ x hx xrow hxrow
      obtain ⟨⟨⟩, d, hd, hrest⟩ := bind_ok.1 h
      have hr := reconcileOrder_stored hrow.stored hd
      rcases List.mem_cons.1 hx with rfl | hx
      · rw [hrow.stored] at hxrow
        cases hxrow
        exact hone.1 ⟨d, hd⟩
      · refine (ih (hp.tail hr)).1 ⟨db', hrest⟩ x hx xrow ?_
        rw [get?_reconciled hr, if_neg (hne x hx)]
        exact hxrow
    · intro h
      obtain ⟨d, hd⟩ := hone.2 (h r (by simp) row hrow.stored)
      have hr := reconcileOrder_stored hrow.stored hd
      obtain ⟨db', hrest⟩ := (ih (hp.tail hr)).2 fun x hx xrow hxrow => by
        rw [get?_reconciled hr, if_neg (hne x hx)] at hxrow
        exact h x (List.mem_cons_of_mem _ hx) xrow hxrow
      exact ⟨db', bind_ok.2 ⟨(), d, hd, hrest⟩⟩

/-- what the corrections leave: each in its order's place, and every other order as it was -/
theorem reconcileAll_get? {corrections : List OmsOrder} {db' : Db} (hp : Pending corrections db)
    (h : (forEach corrections reconcileOrder).run db = .ok ((), db')) :
    (∀ r ∈ corrections, ∀ row, db.omsOrders.get? r.omsOrderId = some row →
      db'.omsOrders.get? r.omsOrderId = some (withTransition r row)) ∧
    ∀ i, (∀ r ∈ corrections, r.omsOrderId ≠ i) → db'.omsOrders.get? i = db.omsOrders.get? i := by
  induction corrections generalizing db with
  | nil =>
    cases h
    exact ⟨by simp, fun _ _ => rfl⟩
  | cons r corrections ih =>
    obtain ⟨row, hrow⟩ := hp.next r (by simp)
    obtain ⟨⟨⟩, d, hd, hrest⟩ := bind_ok.1 h
    have hr := reconcileOrder_stored hrow.stored hd
    have hne : ∀ x ∈ corrections, r.omsOrderId ≠ x.omsOrderId := fun x hx he =>
      (List.nodup_cons.1 hp.ids).1 (he ▸ List.mem_map_of_mem hx)
    obtain ⟨hin, hout⟩ := ih (hp.tail hr) hrest
    constructor
    · intro x hx xrow hxrow
      rcases List.mem_cons.1 hx with rfl | hx
      · rw [hout _ fun y hy he => hne y hy he.symm, get?_reconciled hr, if_pos rfl, hxrow]
        rfl
      · refine hin x hx xrow ?_
        rw [get?_reconciled hr, if_neg (hne x hx)]
        exact hxrow
    · intro i hi
      rw [hout i fun x hx => hi x (List.mem_cons_of_mem _ hx), get?_reconciled hr,
        if_neg (hi r (by simp))]

/-- every stored order reloads -/
def Reloads (db : Db) : Prop := ∀ o ∈ db.omsOrders.rows, o.check = .ok o

/-- an accepted update that keeps the identity and a positive price keeps every order valid -/
theorem Reloads.update {db' : Db} {p : OmsOrder → Bool} {f : OmsOrder → OmsOrder} (hl : Reloads db)
    (h : db.omsOrders.update p f = .ok db'.omsOrders) (hid : ∀ r, (f r).identity = r.identity)
    (hprice : ∀ r ∈ db.omsOrders.rows, p r = true → ∀ x ∈ (f r).averageFillPrice, 0 < x) :
    Reloads db' := by
  intro x hx
  obtain ⟨⟨-, -, -, -, hver, h0, hle, -⟩, hterm⟩ := rowCheck_of_mem hx
  rw [(Table.update_ok h).1] at hx
  obtain ⟨r, hr, rfl⟩ := List.mem_map.1 hx
  by_cases hp : p r
  · rw [if_pos hp] at *
    have hq : (f r).quantity = r.quantity := congrArg OmsIdentity.quantity (hid r)
    exact OmsOrder.check_next (hl r hr) (hid r) ⟨h0, hq ▸ hle⟩ (hprice r hr hp) hver hterm
  · rw [if_neg hp] at *
    exact hl r hr

theorem Reloads.reconcileAll {corrections : List OmsOrder} {db' : Db} (hl : Reloads db)
    (hprice : ∀ r ∈ corrections, ∀ x ∈ r.averageFillPrice, 0 < x)
    (h : (forEach corrections reconcileOrder).run db = .ok ((), db')) : Reloads db' := by
  have hkeeps : Keeps (Preserving Reloads) (forEach corrections reconcileOrder) := by
    refine .forEach fun r hr s u t ht hs => ?_
    rcases reconcileOrder_ok ht with he | he
    · obtain rfl : t = s := he
      exact hs
    · exact hs.update he.omsOrders (fun _ => rfl) fun _ _ _ => hprice r hr
  exact hkeeps db () db' h hl

theorem ordersFromRows_isOk {rows : List OmsOrder} (h : ∀ o ∈ rows, o.check = .ok o) :
    (ordersFromRows rows).run db = .ok (rows, db) := by
  induction rows with
  | nil => rfl
  | cons o rows ih =>
    simp only [ordersFromRows, bind_ok, construct_ok]
    exact ⟨o, db, ⟨h o (by simp), rfl⟩, rows, db, ih fun x hx => h x (List.mem_cons_of_mem _ hx), rfl⟩

/-- a valid fill is stored, or was stored before -/
theorem insertFill_isOk {orders : List OmsOrder} {fill : ExecutionFill}
    (h : 0 < fill.quantity ∧ 0 < fill.price ∧ 0 ≤ fill.fee) :
    ∃ db', (insertFill orders fill).run db = .ok ((), db') ∧ db'.omsOrders = db.omsOrders := by
  simp only [insertFill, bind_ok, get_ok]
  cases hf : db.fills.get? fill.fillId with
  | some f => exact ⟨db, ⟨db, db, rfl, by rw [hf]; rfl⟩, rfl⟩
  | none =>
    have hnew : ∃ F, db.fills.insert { fill with omsOrderId := associatedOrder orders fill } = .ok F := by
      refine Table.insert_isOk (decide_eq_true h) fun x hx => ⟨fun hk => ?_, rfl, rfl⟩
      exact (db.fills.get?_eq_none).1 hf x hx hk
    obtain ⟨F, hF⟩ := hnew
    refine ⟨{ db with fills := F }, ⟨db, db, rfl, ?_⟩, rfl⟩
    rw [hf]
    exact write_ok.2 ⟨F, hF, rfl⟩

/-- what a persisted run did: its row was inserted, then its corrections were stored, and nothing
after that touched an order -/
theorem persistReconciliation_ok {run : ReconciliationRun} {mismatches : List ReconciliationMismatch}
    {snapshot : VenueStateSnapshot} {corrections : List OmsOrder} {db' : Db}
    (h : (persistReconciliation run mismatches snapshot corrections).run db = .ok ((), db')) :
    ∃ R d, db.runs.insert run = .ok R ∧
      (forEach corrections reconcileOrder).run { db with runs := R } = .ok ((), d) ∧
      db'.omsOrders = d.omsOrders := by
  simp only [persistReconciliation, failing_ok, bind_ok, onRuns, write_ok, get_ok] at h
  obtain ⟨_, _, ⟨R, hR, he⟩, ⟨⟩, d, hd, _, _, he', l, _, hl, ⟨⟩, e, hfills, hend⟩ := h
  cases he
  cases he'
  cases (ordersFromRows_ok hl).1
  refine ⟨R, d, hR, hd, ?_⟩
  have hsame : Keeps (fun s t : Db => t.omsOrders = s.omsOrders)
      (forEach snapshot.fills (insertFill (corrections ++ ordersOf d run.exchange run.environment))) := by
    have : IsPreorder Db fun s t : Db => t.omsOrders = s.omsOrders :=
      { refl := fun _ => rfl, trans := fun _ _ _ h h' => h'.trans h }
    refine .forEach fun f _ => .bind .get fun s => ?_
    split
    · exact .pure
    · exact .write fun s t _ => rfl
  have he : e.omsOrders = d.omsOrders := hsame _ _ _ hfills
  cases hend
  exact he

/-- **A run.** With a fresh id, valid fills and readable orders, a run is persisted if and only if
each of its corrections fits the order it is for. -/
theorem persist_isOk_iff (run : ReconciliationRun) (mismatches : List ReconciliationMismatch)
    {snapshot : VenueStateSnapshot} {corrections : List OmsOrder}
    (hfresh : ∀ r ∈ db.runs.rows, r.runId ≠ run.runId)
    (hrun : run.criticalMismatchCount ≤ run.mismatchCount ∧
      ((run.status == .failed) = run.errorType.isSome))
    (hp : Pending corrections db) (hl : Reloads db)
    (hprice : ∀ r ∈ corrections, ∀ x ∈ r.averageFillPrice, 0 < x)
    (hfills : ∀ f ∈ snapshot.fills, 0 < f.quantity ∧ 0 < f.price ∧ 0 ≤ f.fee) :
    (∃ db', (persistReconciliation run mismatches snapshot corrections).run db = .ok ((), db')) ↔
      ∀ r ∈ corrections, ∀ row, db.omsOrders.get? r.omsOrderId = some row → Fits row r := by
  have hpending : ∀ R, Pending corrections { db with runs := R } := fun R =>
    ⟨hp.ids, fun r hr => (hp.next r hr).imp fun row h => ⟨h.stored, h.valid, h.identity, h.version⟩,
      hp.events⟩
  constructor
  · rintro ⟨db', h⟩
    obtain ⟨R, d, -, hd, -⟩ := persistReconciliation_ok h
    exact (reconcileAll_isOk_iff (hpending R)).1 ⟨d, hd⟩
  · intro h
    have hinsert : ∃ R, db.runs.insert run = .ok R :=
      Table.insert_isOk (by
        simp only [reconciliationRunSchema, Bool.and_eq_true, decide_eq_true_eq, beq_iff_eq]
        exact hrun) fun x hx => ⟨hfresh x hx, rfl, rfl⟩
    obtain ⟨R, hR⟩ := hinsert
    obtain ⟨d, hd⟩ := (reconcileAll_isOk_iff (hpending R)).2 h
    have hdl : Reloads d := Reloads.reconcileAll (show Reloads { db with runs := R } from hl) hprice hd
    have hrows : (ordersFromRows (ordersOf d run.exchange run.environment)).run d =
        .ok (ordersOf d run.exchange run.environment, d) := ordersFromRows_isOk
      fun o ho => hdl o (List.mem_filter.1 ho).1
    obtain ⟨e, he, -⟩ := forEach_isOk (I := fun _ : Db => True) (s := d)
      (f := insertFill (corrections ++ ordersOf d run.exchange run.environment))
      (fun f hf s _ => (insertFill_isOk (hfills f hf)).imp fun t ht => ⟨ht.1, trivial⟩) trivial
    refine ⟨{ e with
      mismatches := e.mismatches ++ mismatches
      positions := e.positions ++ snapshot.positions.map (VenuePositionRow.mk run.runId)
      balances := e.balances ++ snapshot.balances.map (VenueBalanceRow.mk run.runId) }, ?_⟩
    simp only [persistReconciliation, failing_ok, bind_ok, onRuns, write_ok, get_ok]
    exact ⟨(), _, ⟨R, hR, rfl⟩, (), d, hd, d, d, rfl, _, d, hrows, (), e, he, rfl⟩

end CapitalCipher
