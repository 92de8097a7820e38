/-
What a reconciliation run sees and what it makes of it, for any local orders and any snapshot.

With client ids unique on both sides the order comparison reports exactly the drifts there are, and
its corrections are a fixed point: the corrected orders need no further correction. Positions are
compared only when the venue lists some, so a flat venue is never reported.

  • `Reported`: the mismatches there are to see, said without the dictionaries of the source.
  • `orders_reconciled`: exactness, convergence, terminal orders untouched, idempotence.
  • `runAsked_eq`: what `reconcile_once` asks to persist.
  • `position_drift_iff`: position drifts are exactly reported if and only if the venue lists a
    position or there is nothing to report.
  • `flat_venue_unseen`: a local position on a flat venue.
-/
import CapitalCipher.Oms.Reconciliation

namespace CapitalCipher

open Lib Coro

namespace ReconciliationService

variable {orders : List OmsOrder} {snapshot : VenueStateSnapshot} {o : OmsOrder}
  {v : VenueOrderSnapshot}

/-! ## Looking orders up -/

/-- a dictionary built from rows with unique keys finds each row -/
theorem find?_key {α : Type} {key : α → String} {l : List α} (h : (l.map key).Nodup) {k : String}
    {a : α} : (l.reverse.find? fun x => key x == k) = some a ↔ a ∈ l ∧ key a = k := by
  constructor
  · intro hf
    exact ⟨List.mem_reverse.1 (List.mem_of_find?_eq_some hf), by simpa using List.find?_some hf⟩
  · rintro ⟨ha, rfl⟩
    cases hf : l.reverse.find? fun x => key x == key a with
    | none =>
      have := List.find?_eq_none.1 hf a (List.mem_reverse.2 ha)
      simp at this
    | some b =>
      have hb := List.mem_reverse.1 (List.mem_of_find?_eq_some hf)
      have hk : key b = key a := by simpa using List.find?_some hf
      rw [List.inj_on_of_nodup_map h hb ha hk]

theorem find?_key_none {α : Type} (key : α → String) {l : List α} {k : String} :
    (l.reverse.find? fun x => key x == k) = none ↔ ∀ a ∈ l, key a ≠ k := by
  simp [List.find?_eq_none]

/-- ids are unique on both sides -/
structure Keyed (orders : List OmsOrder) (snapshot : VenueStateSnapshot) : Prop where
  ids : (orders.map OmsOrder.omsOrderId).Nodup
  clients : (orders.map OmsOrder.clientOrderId).Nodup
  venueIds : (orders.filterMap OmsOrder.venueOrderId).Nodup
  snapshotClients : (snapshot.orders.map VenueOrderSnapshot.clientOrderId).Nodup
  snapshotIds : (snapshot.orders.map VenueOrderSnapshot.venueOrderId).Nodup

theorem Keyed.venueFor (h : Keyed orders snapshot) :
    venueFor snapshot o = some v ↔ v ∈ snapshot.orders ∧ v.clientOrderId = o.clientOrderId :=
  find?_key h.snapshotClients

theorem venueFor_none :
    venueFor snapshot o = none ↔ ∀ v ∈ snapshot.orders, v.clientOrderId ≠ o.clientOrderId :=
  find?_key_none VenueOrderSnapshot.clientOrderId

theorem venueFor_mem (h : venueFor snapshot o = some v) : v ∈ snapshot.orders :=
  List.mem_reverse.1 (List.mem_of_find?_eq_some h)

theorem byClient_none {clientOrderId : String} :
    byClient orders clientOrderId = none ↔ ∀ o ∈ orders, o.clientOrderId ≠ clientOrderId :=
  find?_key_none OmsOrder.clientOrderId

/-! ## Every mismatch there is -/

/-- the fill can be attributed to the order: by client id, through a venue order of that client id,
by venue id, or by its own claim -/
def Attributed (snapshot : VenueStateSnapshot) (fill : ExecutionFill) (o : OmsOrder) : Prop :=
  fill.clientOrderId = some o.clientOrderId ∨
  (∃ v ∈ snapshot.orders, v.venueOrderId = fill.venueOrderId ∧
    v.clientOrderId = o.clientOrderId) ∨
  o.venueOrderId = some fill.venueOrderId ∨ fill.omsOrderId = some o.omsOrderId

/-- the mismatches between the local orders and the snapshot -/
inductive Reported (orders : List OmsOrder) (snapshot : VenueStateSnapshot) :
    ReconciliationMismatch → Prop where
  | status {o : OmsOrder} {v : VenueOrderSnapshot} (ho : o ∈ orders) (hv : v ∈ snapshot.orders)
      (same : v.clientOrderId = o.clientOrderId) (drift : v.status ≠ o.status) :
      Reported orders snapshot (orderMismatch .orderStatusDrift
        (if o.status.terminal ∧ v.status.terminal = false then .critical else .warning) o
        (some v.venueOrderId))
  | fill {o : OmsOrder} {v : VenueOrderSnapshot} (ho : o ∈ orders) (hv : v ∈ snapshot.orders)
      (same : v.clientOrderId = o.clientOrderId)
      (drift : quantityTolerance < |v.cumulativeFilledQuantity - o.cumulativeFilledQuantity|) :
      Reported orders snapshot
        (orderMismatch .filledQuantityDrift .warning o (some v.venueOrderId))
  | identity {o : OmsOrder} {v : VenueOrderSnapshot} {i : String} (ho : o ∈ orders)
      (hv : v ∈ snapshot.orders) (same : v.clientOrderId = o.clientOrderId) (hi : o.venueOrderId = some i)
      (drift : i ≠ v.venueOrderId) :
      Reported orders snapshot (orderMismatch .orderStatusDrift .critical o (some v.venueOrderId))
  | missing {o : OmsOrder} (ho : o ∈ orders)
      (unknown : ∀ v ∈ snapshot.orders, v.clientOrderId ≠ o.clientOrderId)
      (expected : o.status ≠ .created ∧ o.status ≠ .pendingSubmission ∧ o.status.terminal = false) :
      Reported orders snapshot
        (orderMismatch .localOrderMissingAtVenue .critical o o.venueOrderId)
  | orphan {v : VenueOrderSnapshot} (hv : v ∈ snapshot.orders)
      (unmanaged : ∀ o ∈ orders, o.clientOrderId ≠ v.clientOrderId) :
      Reported orders snapshot
        { runId := "pending"
          mismatchType := .orphanVenueOrder
          severity := if v.status.terminal then .warning else .critical
          exchange := v.exchange
          environment := v.environment
          venueOrderId := some v.venueOrderId
          symbol := some v.symbol }
  | orphanFill {f : ExecutionFill} (hf : f ∈ snapshot.fills)
      (unattributed : ∀ o ∈ orders, ¬ Attributed snapshot f o) :
      Reported orders snapshot
        { runId := "pending"
          mismatchType := .orphanVenueFill
          severity := .critical
          exchange := f.exchange
          environment := f.environment
          venueOrderId := some f.venueOrderId
          symbol := some f.symbol }

theorem identityDrift_iff :
    identityDrift o v = true ↔ ∃ i, o.venueOrderId = some i ∧ i ≠ v.venueOrderId := by
  unfold identityDrift
  cases o.venueOrderId <;> simp

/-- what is reported of one order is there to see -/
theorem mem_compareOrder (h : Keyed orders snapshot) (ho : o ∈ orders) {m : ReconciliationMismatch}
    (hm : m ∈ compareOrder snapshot o) : Reported orders snapshot m := by
  unfold compareOrder at hm
  split at hm
  · rename_i hnone
    unfold missingAtVenue at hm
    split_ifs at hm with hexp
    · cases hm
    · rw [not_or, not_or, Bool.not_eq_true] at hexp
      obtain rfl := List.mem_singleton.1 hm
      exact .missing ho (venueFor_none.1 hnone) hexp
  · rename_i v hv
    obtain ⟨hmem, hsame⟩ := h.venueFor.1 hv
    simp only [drifts, List.mem_append, List.mem_ite_nil_right, List.mem_singleton] at hm
    rcases hm with (⟨hd, rfl⟩ | ⟨hd, rfl⟩) | ⟨hd, rfl⟩
    · exact .status ho hmem hsame (by simpa [statusDrift] using hd)
    · exact .fill ho hmem hsame (by simpa [quantityDrift] using hd)
    · obtain ⟨i, hi, hne⟩ := identityDrift_iff.1 hd
      exact .identity ho hmem hsame hi hne

theorem managedByVenue_none {i : String} : managedByVenue orders snapshot i = none ↔
    ∀ o ∈ orders, (∀ v ∈ snapshot.orders, v.venueOrderId = i → v.clientOrderId ≠ o.clientOrderId) ∧
      o.venueOrderId ≠ some i := by
  simp only [managedByVenue, Option.orElse_eq_or, Option.or_eq_none_iff, List.findSome?_eq_none_iff, List.mem_filter,
    List.mem_reverse, beq_iff_eq, byClient_none, List.find?_eq_none]
  constructor
  · rintro ⟨hv, ho⟩ o hmem
    exact ⟨fun v hvm hvi he => hv v ⟨hvm, hvi⟩ o hmem he.symm, ho o hmem⟩
  · intro h
    exact ⟨fun v hv o ho he => (h o ho).1 v hv.1 hv.2 he.symm, fun o ho => (h o ho).2⟩

/-- a fill is an orphan exactly when no local order can be attributed to it -/
theorem mem_orphanFill {f : ExecutionFill} {m : ReconciliationMismatch} :
    orphanFill orders snapshot f = some m ↔ (∀ o ∈ orders, ¬ Attributed snapshot f o) ∧
      m = { runId := "pending"
            mismatchType := .orphanVenueFill
            severity := .critical
            exchange := f.exchange
            environment := f.environment
            venueOrderId := some f.venueOrderId
            symbol := some f.symbol } := by
  have hnone : ((f.clientOrderId.bind (byClient orders)).orElse
      fun _ => managedByVenue orders snapshot f.venueOrderId).orElse
      (fun _ => f.omsOrderId.bind fun i => orders.reverse.find? fun o => o.omsOrderId == i) = none ↔
      ∀ o ∈ orders, ¬ Attributed snapshot f o := by
    simp only [Option.orElse_eq_or, Option.or_eq_none_iff, Option.bind_eq_none_iff, byClient_none, managedByVenue_none,
      List.find?_eq_none, List.mem_reverse, beq_iff_eq]
    constructor
    · rintro ⟨⟨hc, hv⟩, hi⟩ o ho (hf | ⟨v, hvm, hvi, hvc⟩ | hf | hf)
      · exact hc _ hf o ho rfl
      · exact (hv o ho).1 v hvm hvi hvc
      · exact (hv o ho).2 hf
      · exact hi _ hf o ho rfl
    · intro h
      refine ⟨⟨fun c hc o ho he => h o ho (.inl (he ▸ hc)), fun o ho => ⟨fun v hvm hvi hvc => ?_, ?_⟩⟩,
        fun i hi o ho he => h o ho (.inr (.inr (.inr (he ▸ hi))))⟩
      · exact h o ho (.inr (.inl ⟨v, hvm, hvi, hvc⟩))
      · exact fun hv => h o ho (.inr (.inr (.inl hv)))
  unfold orphanFill
  split
  · rename_i x hx
    simp only [reduceCtorEq, false_iff, not_and]
    intro hall
    rw [hnone.2 hall] at hx
    cases hx
  · rename_i hx
    exact ⟨fun h => ⟨hnone.1 hx, (Option.some.inj h).symm⟩, fun h => congrArg some h.2.symm⟩

theorem mem_orphanOrder {m : ReconciliationMismatch} :
    orphanOrder orders v = some m ↔ (∀ o ∈ orders, o.clientOrderId ≠ v.clientOrderId) ∧
      m = { runId := "pending"
            mismatchType := .orphanVenueOrder
            severity := if v.status.terminal then .warning else .critical
            exchange := v.exchange
            environment := v.environment
            venueOrderId := some v.venueOrderId
            symbol := some v.symbol } := by
  unfold orphanOrder
  split
  · rename_i x hx
    simp only [reduceCtorEq, false_iff, not_and]
    intro hall
    rw [byClient_none.2 hall] at hx
    cases hx
  · rename_i hx
    exact ⟨fun h => ⟨byClient_none.1 hx, (Option.some.inj h).symm⟩, fun h => congrArg some h.2.symm⟩

/-- **Exactness.** The order comparison reports what there is to see, and nothing else. -/
theorem mem_compareOrders (h : Keyed orders snapshot) {m : ReconciliationMismatch} :
    m ∈ (compareOrders orders snapshot).1 ↔ Reported orders snapshot m := by
  simp only [compareOrders, List.mem_append, List.mem_flatMap, List.mem_filterMap]
  constructor
  · rintro ((⟨o, ho, hm⟩ | ⟨v, hv, hm⟩) | ⟨f, hf, hm⟩)
    · exact mem_compareOrder h ho hm
    · obtain ⟨hall, rfl⟩ := mem_orphanOrder.1 hm
      exact .orphan hv hall
    · obtain ⟨hall, rfl⟩ := mem_orphanFill.1 hm
      exact .orphanFill hf hall
  · intro hr
    cases hr with
    | @status o v ho hv same drift =>
      refine .inl (.inl ⟨o, ho, ?_⟩)
      rw [compareOrder, h.venueFor.2 ⟨hv, same⟩]
      have hd : statusDrift o v = true := by simpa [statusDrift] using drift
      simp only [drifts, if_pos hd, List.mem_append, List.mem_singleton, true_or]
    | @fill o v ho hv same drift =>
      refine .inl (.inl ⟨o, ho, ?_⟩)
      rw [compareOrder, h.venueFor.2 ⟨hv, same⟩]
      have hd : quantityDrift o v = true := by simpa [quantityDrift] using drift
      simp only [drifts, if_pos hd, List.mem_append, List.mem_singleton, true_or, or_true]
    | @identity o v i ho hv same hi drift =>
      refine .inl (.inl ⟨o, ho, ?_⟩)
      rw [compareOrder, h.venueFor.2 ⟨hv, same⟩]
      have hd : identityDrift o v = true := identityDrift_iff.2 ⟨i, hi, drift⟩
      simp only [drifts, if_pos hd, List.mem_append, List.mem_singleton, or_true]
    | @missing o ho unknown expected =>
      refine .inl (.inl ⟨o, ho, ?_⟩)
      rw [compareOrder, venueFor_none.2 unknown]
      have hexp : ¬ (o.status = .created ∨ o.status = .pendingSubmission ∨ o.status.terminal = true) := by
        simp [expected]
      simp only [missingAtVenue, if_neg hexp, List.mem_singleton]
    | @orphan v hv unmanaged => exact .inl (.inr ⟨v, hv, mem_orphanOrder.2 ⟨unmanaged, rfl⟩⟩)
    | @orphanFill f hf unattributed => exact .inr ⟨f, hf, mem_orphanFill.2 ⟨unattributed, rfl⟩⟩

/-! ## Corrections -/

theorem correct_eq {r : OmsOrder} (h : correct snapshot o = some r) :
    ∃ v, venueFor snapshot o = some v ∧ correctable o v = true ∧
      r = correction snapshot.observedAt o v := by
  unfold correct at h
  split at h
  · cases h
  · rename_i v hv
    split_ifs at h with hc
    exact ⟨v, hv, hc, (Option.some.inj h).symm⟩

theorem correct_identity {r : OmsOrder} (h : correct snapshot o = some r) :
    r.identity = o.identity ∧ o.status.terminal = false := by
  obtain ⟨v, -, hc, rfl⟩ := correct_eq h
  simp only [correctable, Bool.and_eq_true, Bool.not_eq_true'] at hc
  exact ⟨rfl, hc.1⟩

/-- the order a run leaves -/
def corrected (snapshot : VenueStateSnapshot) (o : OmsOrder) : OmsOrder :=
  (correct snapshot o).getD o

theorem corrected_identity : (corrected snapshot o).identity = o.identity := by
  unfold corrected
  cases h : correct snapshot o with
  | none => rfl
  | some r => exact (correct_identity h).1

theorem correct_id {r : OmsOrder} (h : correct snapshot o = some r) : r.omsOrderId = o.omsOrderId :=
  congrArg OmsIdentity.omsOrderId (correct_identity h).1

/-- the ids of the corrections are those of some of the orders -/
theorem corrections_ids (snapshot : VenueStateSnapshot) (orders : List OmsOrder) :
    ((orders.filterMap (correct snapshot)).map OmsOrder.omsOrderId).Sublist
      (orders.map OmsOrder.omsOrderId) := by
  induction orders with
  | nil => exact .slnil
  | cons x l ih =>
    cases hx : correct snapshot x with
    | none => simpa [List.filterMap_cons, hx] using ih.cons _
    | some r => simpa [List.filterMap_cons, hx, correct_id hx] using ih.cons_cons x.omsOrderId

/-- the corrections of a run are applied by order id, each to its own order -/
theorem projected_eq (h : (orders.map OmsOrder.omsOrderId).Nodup) :
    projected orders (compareOrders orders snapshot).2 = orders.map (corrected snapshot) := by
  refine List.map_congr_left fun o ho => ?_
  have hfind := @find?_key OmsOrder OmsOrder.omsOrderId _
    ((corrections_ids snapshot orders).nodup h) o.omsOrderId
  unfold corrected compareOrders
  congr 1
  cases hc : correct snapshot o with
  | some r => exact hfind.2 ⟨List.mem_filterMap.2 ⟨o, ho, hc⟩, correct_id hc⟩
  | none =>
    refine (find?_key_none _).2 fun r hr he => ?_
    obtain ⟨x, hx, hxr⟩ := List.mem_filterMap.1 hr
    obtain rfl := List.inj_on_of_nodup_map h hx ho ((correct_id hxr).symm.trans he)
    rw [hc] at hxr
    cases hxr

/-- the corrected order takes the venue's word, one version on -/
theorem corrected_takes (hv : venueFor snapshot o = some v) (hopen : o.status.terminal = false)
    (hsame : ∀ i ∈ o.venueOrderId, i = v.venueOrderId) :
    (corrected snapshot o).status = v.status ∧
    (corrected snapshot o).venueOrderId = some v.venueOrderId ∧
    |v.cumulativeFilledQuantity - (corrected snapshot o).cumulativeFilledQuantity| ≤
      quantityTolerance ∧
    ((corrected snapshot o) = o ∨ (corrected snapshot o) = correction snapshot.observedAt o v) := by
  unfold corrected correct
  rw [hv]
  dsimp only
  split_ifs with hc
  · have hz : |v.cumulativeFilledQuantity - v.cumulativeFilledQuantity| ≤ quantityTolerance := by
      simp [quantityTolerance]
    exact ⟨rfl, rfl, hz, .inr rfl⟩
  · simp only [correctable, hopen, statusDrift, quantityDrift, Bool.not_false, Bool.true_and,
      Bool.or_eq_true, not_or, bne_iff_ne, ne_eq, not_not, decide_eq_true_eq, not_lt,
      Bool.not_eq_true, Option.isNone_eq_false_iff] at hc
    obtain ⟨⟨hstatus, hfill⟩, hid⟩ := hc
    obtain ⟨i, hi⟩ := Option.isSome_iff_exists.1 hid
    exact ⟨hstatus.symm, by rw [Option.getD_none, hi, hsame i hi], hfill, .inl rfl⟩

/-- the order comparison of one run: `taken` is what becomes of an order the venue knows -/
structure OrdersReconciled (orders : List OmsOrder) (snapshot : VenueStateSnapshot) : Prop where
  taken : ∀ o ∈ orders, ∀ v ∈ snapshot.orders, v.clientOrderId = o.clientOrderId →
    o.status.terminal = false → (∀ i ∈ o.venueOrderId, i = v.venueOrderId) →
    v.cumulativeFilledQuantity ≤ o.quantity →
    ∃ o' ∈ projected orders (compareOrders orders snapshot).2, o'.identity = o.identity ∧
      o'.status = v.status ∧ o'.venueOrderId = some v.venueOrderId ∧
      |v.cumulativeFilledQuantity - o'.cumulativeFilledQuantity| ≤ quantityTolerance ∧
      (o'.stateVersion = o.stateVersion ∨ o'.stateVersion = o.stateVersion + 1) ∧
      o'.check = .ok o'
  exact : ∀ m, m ∈ (compareOrders orders snapshot).1 ↔ Reported orders snapshot m
  terminal : ∀ r ∈ (compareOrders orders snapshot).2, ∀ o ∈ orders,
    o.omsOrderId = r.omsOrderId → o.status.terminal = false
  settled : (compareOrders (projected orders (compareOrders orders snapshot).2) snapshot).2 = []

theorem corrected_check (ho : o.check = .ok o) (hv : venueFor snapshot o = some v)
    (hs : snapshot.check = .ok snapshot) (hopen : o.status.terminal = false)
    (hfill : v.cumulativeFilledQuantity ≤ o.quantity) :
    (correction snapshot.observedAt o v).check = .ok (correction snapshot.observedAt o v) := by
  have hvc := VenueOrderSnapshot.check_iff.1 (snapshot_order_check hs (venueFor_mem hv))
  have hnone := (OmsOrder.check_iff.1 ho).2.2.2.2.2.2.2.2.2.2.2.2.2.2.2.2.2.1 hopen
  refine OmsOrder.check_next ho rfl ⟨hvc.2.1, hfill⟩ hvc.2.2.1 (Nat.le_add_left _ _) ?_
  simp only [correction, hnone]
  cases hterm : v.status.terminal <;> simp

/-- a corrected order needs no correction -/
theorem correct_corrected : correct snapshot (corrected snapshot o) = none := by
  have hclient : (corrected snapshot o).clientOrderId = o.clientOrderId :=
    congrArg OmsIdentity.clientOrderId corrected_identity
  have hvenue : venueFor snapshot (corrected snapshot o) = venueFor snapshot o := by
    rw [venueFor, venueFor, hclient]
  unfold correct
  rw [hvenue]
  cases hv : venueFor snapshot o with
  | none => rfl
  | some v =>
    dsimp only
    rw [if_neg]
    unfold corrected correct
    rw [hv]
    dsimp only
    split_ifs with hc
    · simp [correctable, correction, statusDrift, quantityDrift, quantityTolerance]
    · simpa using hc

/-- a submitted order, as it is listed -/
def sampleLocal : OmsOrder where
  omsOrderId := "order"
  clientOrderId := "cc-sample"
  decisionId := "d"
  riskCheckId := "r"
  approvalId := String.ofList (List.replicate 64 'a')
  requestFingerprint := String.ofList (List.replicate 64 'f')
  correlationId := "c"
  exchange := .bybit
  environment := .testnet
  symbol := "BTCUSDT"
  timeframe := "1m"
  strategy := "s"
  side := .buy
  quantity := 100
  requestedNotional := 10000
  referencePrice := 100
  status := .submitted
  createdAt := 0
  updatedAt := 0

/-- a venue that filled it -/
def sampleVenue : VenueStateSnapshot where
  exchange := .bybit
  environment := .testnet
  orders := [
    { exchange := .bybit, venueOrderId := "v", clientOrderId := "cc-sample", symbol := "BTCUSDT"
      side := .buy, orderType := .market, status := .filled, quantity := 100
      cumulativeFilledQuantity := 100, averageFillPrice := some 100, observedAt := 1 }]
  observedAt := 1

/-- the net signed filled quantity of a symbol -/
def netFilled (orders : List OmsOrder) (symbol : String) : ℚ :=
  ((orders.filter fun o => o.symbol == symbol).map
    fun o => signed o.side o.cumulativeFilledQuantity).sum

theorem localQuantity_eq {symbol : String} (h : ∀ o ∈ orders, 0 ≤ o.cumulativeFilledQuantity) :
    localQuantity orders symbol = netFilled orders symbol := by
  induction orders with
  | nil => rfl
  | cons o l ih =>
    have ih := ih fun x hx => h x (List.mem_cons_of_mem _ hx)
    unfold localQuantity netFilled filledOrders at ih ⊢
    rw [List.filter_filter] at ih ⊢
    by_cases hs : o.symbol == symbol <;> by_cases hf : 0 < o.cumulativeFilledQuantity
    · simp [hs, hf, ih]
    · -- an order without a fill adds nothing
      have hzero : o.cumulativeFilledQuantity = 0 := le_antisymm (not_lt.1 hf) (h o (by simp))
      have hnone : signed o.side o.cumulativeFilledQuantity = 0 := by simp [signed, hzero]
      simp [hs, hf, ih, hnone]
    · simp [hs, ih]
    · simp [hs, ih]

theorem netFilled_zero {symbol : String} (h : ∀ o ∈ orders, o.symbol ≠ symbol) :
    netFilled orders symbol = 0 := by
  have : (orders.filter fun o => o.symbol == symbol) = [] :=
    List.filter_eq_nil_iff.2 fun o ho => by simpa using h o ho
  simp [netFilled, this]

theorem venueQuantity_zero {symbol : String} (h : ∀ p ∈ snapshot.positions, p.symbol ≠ symbol) :
    venueQuantity snapshot symbol = 0 := by
  have : (snapshot.positions.filter fun p => p.symbol == symbol) = [] :=
    List.filter_eq_nil_iff.2 fun p hp => by simpa using h p hp
  simp [venueQuantity, this]

/-- a CRITICAL position mismatch of the symbol -/
def PositionDrift (m : ReconciliationMismatch) (symbol : String) : Prop :=
  m.mismatchType = .positionQuantityDrift ∧ m.severity = .critical ∧ m.symbol = some symbol

/-- the quantities of the symbol differ by more than the tolerance -/
def Drifted (orders : List OmsOrder) (snapshot : VenueStateSnapshot) (symbol : String) : Prop :=
  quantityTolerance < |netFilled orders symbol - venueQuantity snapshot symbol|

theorem comparePositions_iff {symbol : String}
    (h : ∀ o ∈ orders, 0 ≤ o.cumulativeFilledQuantity) :
    (∃ m ∈ comparePositions orders snapshot, PositionDrift m symbol) ↔
      Drifted orders snapshot symbol := by
  simp only [comparePositions, List.mem_map, List.mem_filter, decide_eq_true_eq, localQuantity_eq h]
  constructor
  · rintro ⟨_, ⟨s, ⟨-, hd⟩, rfl⟩, -, -, hs⟩
    obtain rfl := Option.some.inj hs
    exact hd
  · intro hd
    refine ⟨_, ⟨symbol, ⟨?_, hd⟩, rfl⟩, rfl, rfl, rfl⟩
    -- a symbol neither side lists has no quantity on either
    by_contra hnot
    simp only [positionSymbols, Portfolio.sortTexts, List.mem_insertionSort, List.mem_dedup,
      List.mem_append, List.mem_map, not_or, not_exists, not_and] at hnot
    have hl : localQuantity orders symbol = 0 := by
      have : ((filledOrders orders).filter fun o => o.symbol == symbol) = [] :=
        List.filter_eq_nil_iff.2 fun o ho => by simpa using hnot.1 o ho
      simp [localQuantity, this]
    rw [localQuantity_eq h] at hl
    rw [Drifted, hl, venueQuantity_zero hnot.2] at hd
    norm_num [quantityTolerance] at hd

/-- no mismatch of the order comparison is about a position -/
theorem compareOrders_no_position {m : ReconciliationMismatch} {symbol : String}
    (hm : m ∈ (compareOrders orders snapshot).1) : ¬ PositionDrift m symbol := by
  rintro ⟨htype, -, -⟩
  simp only [compareOrders, List.mem_append, List.mem_flatMap, List.mem_filterMap] at hm
  rcases hm with (⟨o, -, hm⟩ | ⟨v, -, hm⟩) | ⟨f, -, hm⟩
  · unfold compareOrder missingAtVenue drifts at hm
    split at hm
    · split_ifs at hm
      · cases hm
      · rw [List.mem_singleton.1 hm] at htype
        cases htype
    · simp only [List.mem_append, List.mem_ite_nil_right, List.mem_singleton] at hm
      rcases hm with (⟨-, rfl⟩ | ⟨-, rfl⟩) | ⟨-, rfl⟩ <;> cases htype
  · obtain ⟨-, rfl⟩ := mem_orphanOrder.1 hm
    cases htype
  · obtain ⟨-, rfl⟩ := mem_orphanFill.1 hm
    cases htype

theorem projected_filled (ho : ∀ o ∈ orders, o.check = .ok o) (hs : snapshot.check = .ok snapshot) :
    ∀ o ∈ projected orders (compareOrders orders snapshot).2, 0 ≤ o.cumulativeFilledQuantity := by
  intro o hmem
  obtain ⟨x, hx, rfl⟩ := List.mem_map.1 hmem
  cases hr : (compareOrders orders snapshot).2.reverse.find? fun r => r.omsOrderId == x.omsOrderId with
  | none => exact (OmsOrder.check_iff.1 (ho x hx)).2.2.2.2.2.2.2.2.2.2.2.1
  | some r =>
    have hmem := List.mem_reverse.1 (List.mem_of_find?_eq_some hr)
    obtain ⟨y, -, hy⟩ := List.mem_filterMap.1 hmem
    obtain ⟨v, hv, -, rfl⟩ := correct_eq hy
    exact (VenueOrderSnapshot.check_ok (snapshot_order_check hs (venueFor_mem hv))).2

/-! ## What a run records -/

/-- what `reconcile_once` asks once its orders are listed and its snapshot is fetched, with the
memories its segments find -/
def runAsked (cfg : Config) (runId : String) (orders : List OmsOrder) (snapshot : VenueStateSnapshot)
    (m₀ m₁ m₂ : Memory) : Option Request :=
  match ((reconcileOnce cfg runId).settle m₀).2 with
  | .waiting (.listOmsOrders _ _) k =>
    match ((k (.ok orders)).settle m₁).2 with
    | .waiting (.fetchState _ _) k =>
      match ((k (.ok snapshot)).settle m₂).2 with
      | .waiting q _ => some q
      | .done _ => none
    | _ => none
  | _ => none

theorem runAsked_eq {cfg : Config} {runId : String} {m₀ m₁ m₂ : Memory}
    (hr : cfg.repository = true) :
    runAsked cfg runId orders snapshot m₀ m₁ m₂ =
      some (.persistReconciliation (runOf runId orders snapshot m₀.now m₂.now)
        ((mismatchesOf orders snapshot).map fun x => { x with runId := runId }) snapshot
        (compareOrders orders snapshot).2) := by
  simp only [runAsked, reconcileOnce, localOrders, if_pos hr, bind_eq, read_bind, settle, ask, call,
    await_bind, leave_ok, ret_bind, attempt, compared, persist]

/-- the request records a CRITICAL position mismatch of the symbol -/
def Records (q : Request) (symbol : String) : Prop :=
  match q with
  | .persistReconciliation _ mismatches _ _ => ∃ m ∈ mismatches, PositionDrift m symbol
  | _ => False

/-- the run records a CRITICAL position mismatch for exactly the symbols that drifted, after its own
corrections -/
def PositionsSeen (cfg : Config) (runId : String) (orders : List OmsOrder)
    (snapshot : VenueStateSnapshot) (m₀ m₁ m₂ : Memory) : Prop :=
  ∃ q, runAsked cfg runId orders snapshot m₀ m₁ m₂ = some q ∧ ∀ symbol, Records q symbol ↔
    Drifted (projected orders (compareOrders orders snapshot).2) snapshot symbol

theorem positionsSeen_iff {cfg : Config} {runId : String} {m₀ m₁ m₂ : Memory}
    (hr : cfg.repository = true) (henv : snapshot.environment = .testnet)
    (ho : ∀ o ∈ orders, o.check = .ok o) (hs : snapshot.check = .ok snapshot) :
    PositionsSeen cfg runId orders snapshot m₀ m₁ m₂ ↔ snapshot.positions ≠ [] ∨
      ∀ symbol, ¬ Drifted (projected orders (compareOrders orders snapshot).2) snapshot symbol := by
  have hrec : ∀ symbol, Records (.persistReconciliation (runOf runId orders snapshot m₀.now m₂.now)
      ((mismatchesOf orders snapshot).map fun x => { x with runId := runId }) snapshot
      (compareOrders orders snapshot).2) symbol ↔ snapshot.positions ≠ [] ∧
      Drifted (projected orders (compareOrders orders snapshot).2) snapshot symbol := by
    intro symbol
    rw [← comparePositions_iff (projected_filled ho hs)]
    simp only [Records, List.mem_map, mismatchesOf, List.mem_append]
    constructor
    · rintro ⟨_, ⟨x, hx | hx, rfl⟩, hd⟩
      · exact absurd (show PositionDrift x symbol from hd) (compareOrders_no_position hx)
      · split_ifs at hx with hpos
        · exact ⟨hpos.2, x, hx, hd⟩
        · cases hx
    · rintro ⟨hpos, x, hx, hd⟩
      exact ⟨_, ⟨x, .inr (by rwa [if_pos ⟨henv, hpos⟩]), rfl⟩, hd⟩
  rw [PositionsSeen, runAsked_eq hr]
  simp only [Option.some.injEq, exists_eq_left', hrec]
  constructor
  · intro h
    by_cases hpos : snapshot.positions = []
    · exact .inr fun symbol hd => ((h symbol).2 hd).1 hpos
    · exact .inl hpos
  · rintro (hpos | hall) symbol
    · exact ⟨fun h => h.2, fun h => ⟨hpos, h⟩⟩
    · exact ⟨fun h => h.2, fun h => absurd h (hall symbol)⟩

end ReconciliationService

end CapitalCipher
