/-
What the durable portfolio covers, over runs.

The view can always be read: what any operation stores gives valid exposures. Every order that
reserves capacity has its reservation there. A fill has its own entry only while its symbol does not
count as reconciled, and a symbol counts as reconciled by runs that never saw the fill.

  • `Readable`, `durable_readable`: `_durable_position_exposures` never raises.
  • `exposure_covers_iff`: fills newer than their venue's last run are covered exactly while nothing
    masks them.
  • `exposure_lost`: a run in which an order fills and its exposure is gone.
-/
import CapitalCipher.System.Ledger

namespace CapitalCipher

open Lib Coro Tx Repository Exposures

variable {cfg : Config} {now : Time} {locked : List String} {db db' : Db}
  {new next : List OmsOrder}

/-! ## The view can be read -/

/-- open paper orders have a size and a leverage, and average prices are positive -/
structure Readable (db : Db) : Prop where
  paper : ∀ o ∈ db.paperOrders.rows, o.status = .filled → 0 < o.positionSize ∧ 1 ≤ o.leverage
  priced : ∀ o ∈ db.omsOrders.rows, Priced o

theorem fillPrice_pos {o : OmsOrder} (hp : Priced o) (href : 0 < o.referencePrice) :
    0 < orElse o.averageFillPrice o.referencePrice := by
  unfold orElse
  split
  · rename_i x hx
    split_ifs
    · exact href
    · exact hp x hx
  · exact href

theorem Readable.view (h : Readable db) : durablePositionExposures db = .ok (entries db) := by
  have hrow : ∀ o ∈ db.omsOrders.rows, 0 < o.referencePrice ∧ 1 ≤ o.leverage := by
    intro o ho
    have := db.omsOrders.checked o ho
    simp only [omsOrderSchema, OmsOrder.rowCheck, Bool.and_eq_true, decide_eq_true_eq] at this
    exact ⟨this.1.2.2.1, this.1.2.2.2.1⟩
  have hall : checkAll (entries db) = .ok () := by
    refine checkAll_ok.2 fun p hp => ?_
    rcases mem_entries.1 hp with ⟨o, ho, rfl⟩ | ⟨o, ho, hp⟩ | hv | ⟨o, ho, ⟨hpos, -⟩, rfl⟩
    · obtain ⟨hmem, hfilled⟩ := List.mem_filter.1 ho
      exact h.paper o hmem (by simpa using hfilled)
    · obtain ⟨-, hn, hl⟩ := ofReservation_eq hp
      exact ⟨hn, hl ▸ (hrow o (mem_testnetOrders.1 ho).1).2⟩
    · obtain ⟨-, hn, hl⟩ := venueEntries_eq hv
      exact ⟨hn, hl ▸ le_rfl⟩
    · have hmem := (mem_testnetOrders.1 ho).1
      exact ⟨mul_pos hpos (fillPrice_pos (h.priced o hmem) (hrow o hmem).1), (hrow o hmem).2⟩
  rw [durablePositionExposures, hall]

theorem OrderStep.priced (h : OrderStep new next db db') (hnew : ∀ o ∈ new, Priced o)
    (hnext : ∀ o ∈ next, Priced o) (hp : ∀ o ∈ db.omsOrders.rows, Priced o) :
    ∀ o ∈ db'.omsOrders.rows, Priced o := by
  intro x hx
  cases h with
  | same ho he => exact hp x (ho ▸ hx)
  | opened hmem ho he =>
    rw [(Table.insert_ok ho).1] at hx
    rcases List.mem_append.1 hx with hx | hx
    · exact hp x hx
    · exact List.mem_singleton.1 hx ▸ hnew _ hmem
  | @moved row o eventType f hrow hid hv hf ho he =>
    rw [(Table.update_ok ho).1] at hx
    obtain ⟨y, hy, rfl⟩ := List.mem_map.1 hx
    split_ifs
    · -- a transition takes the order's price, a cancellation and an expiry keep the row's
      rcases hf with ⟨rfl, hmem | ⟨t, rfl⟩⟩ | rfl
      · exact hnext o hmem
      · exact hp row ((db.omsOrders.get?_eq_some).1 hrow).1
      · exact hp y hy
    · exact hp y hy

theorem OrderLog.priced (h : OrderLog new next db db') (hnew : ∀ o ∈ new, Priced o)
    (hnext : ∀ o ∈ next, Priced o) (hp : ∀ o ∈ db.omsOrders.rows, Priced o) :
    ∀ o ∈ db'.omsOrders.rows, Priced o := by
  induction h with
  | refl => exact hp
  | tail _ hstep ih => exact hstep.priced hnew hnext ih

/-- what a request writes to orders is priced -/
theorem asked_priced {q : Request} (hq : Asked cfg q) :
    (∀ o ∈ q.created, Priced o) ∧ ∀ o ∈ q.written, Priced o := by
  obtain ⟨c, m, -, hask⟩ := hq
  cases q with
  | consumeOrderApproval a order mirror =>
    exact ⟨by simpa [Request.created] using priced_of_check hask.valid, by simp [Request.written]⟩
  | createOmsOrder order command =>
    exact ⟨by simpa [Request.created] using priced_of_check hask.valid, by simp [Request.written]⟩
  | finishExecutionCommand i w order e err =>
    have hpriced : Priced order := hask
    exact ⟨by simp [Request.created], by simpa [Request.written] using hpriced⟩
  | persistReconciliation r ms s os => exact ⟨by simp [Request.created], hask.1⟩
  | _ => exact ⟨by simp [Request.created], by simp [Request.written]⟩

theorem Effect.paper_sized {q : Request} (h : Effect now q db db') (hq : Asked cfg q)
    (hp : ∀ o ∈ db.paperOrders.rows, o.status = .filled → 0 < o.positionSize ∧ 1 ≤ o.leverage) :
    ∀ o ∈ db'.paperOrders.rows, o.status = .filled → 0 < o.positionSize ∧ 1 ≤ o.leverage := by
  obtain ⟨c, m, -, hask⟩ := hq
  cases h with
  | evaluated _ hv => rw [hv.rest]; exact hp
  | @consumed a o mirror he hv =>
    subst he
    intro x hx hfilled
    rw [(Table.insert_ok hv.paperOrders).1] at hx
    rcases List.mem_append.1 hx with hx | hx
    · exact hp x hx hfilled
    · exact List.mem_singleton.1 hx ▸ hask.sized
  | @saved o he hv =>
    subst he
    -- the close path stores CLOSED orders only
    have hclosed : o.status = .closed := hask.2.1
    intro x hx hfilled
    rcases hv.paperOrders with ⟨row, -, hu⟩ | ⟨-, hi⟩
    · rw [(Table.update_ok hu).1] at hx
      obtain ⟨y, hy, rfl⟩ := List.mem_map.1 hx
      by_cases hid : y.paperOrderId == o.paperOrderId
      · simp only [hid, if_true, hclosed] at hfilled
        cases hfilled
      · simp only [hid] at hfilled ⊢
        exact hp y hy hfilled
    · rw [(Table.insert_ok hi).1] at hx
      rcases List.mem_append.1 hx with hx | hx
      · exact hp x hx hfilled
      · obtain rfl := List.mem_singleton.1 hx
        cases hclosed.symm.trans hfilled
  | created _ hv => rw [hv.rest]; exact hp
  | controlled _ hv => rw [hv.rest]; exact hp
  | frame hv => rw [hv.paperOrders]; exact hp

theorem readable_step (w : World) (op : Op) (w' : World) (hw : w.Sound cfg) (h : Readable w.db)
    (hs : Step cfg w op w') : Readable w'.db := by
  cases hs with
  | committed ht htx hrun =>
    have hq := (hw.waiting ht).1
    obtain ⟨hnew, hnext⟩ := asked_priced hq
    exact ⟨(effect_of_run htx hrun).paper_sized hq h.paper,
      (orders_of_run htx hrun).priced hnew hnext h.priced⟩
  | _ => exact h

theorem run_readable (cfg : Config) (ops : List Op) : Readable (World.run cfg ops).db :=
  run_induction (P := fun w => Readable w.db) ⟨by simp [World.init, Db.empty], by
    simp [World.init, Db.empty]⟩ readable_step ops

/-- **The durable portfolio can always be read.** -/
theorem durable_readable (cfg : Config) (ops : List Op) :
    durablePositionExposures (World.run cfg ops).db = .ok (entries (World.run cfg ops).db) :=
  (run_readable cfg ops).view

/-! ## What the view covers -/

/-- the view has an entry of this id for the order, of its symbol, strategy and side -/
def Covered (db : Db) (o : OmsOrder) (i : ExposureId) (notional : ℚ) : Prop :=
  ∃ ps, durablePositionExposures db = .ok ps ∧ ∃ p ∈ ps, p.paperOrderId = i ∧
    p.symbol = o.symbol ∧ p.strategy = o.strategy ∧ p.side = o.side ∧ p.notional = notional

/-- the fill was recorded after the latest successful run of its venue, if there was one -/
def FillNewer (db : Db) (o : OmsOrder) : Prop :=
  ∀ r ∈ latestRun db o.exchange, ∀ e ∈ db.orderEvents.rows, e.payload.omsOrderId = o.omsOrderId →
    e.payload.cumulativeFilledQuantity = o.cumulativeFilledQuantity →
      r.completedAt < e.payload.updatedAt

structure ExposureCovers (db : Db) : Prop where
  remainder : ∀ o ∈ testnetOrders db, o.status.reserving = true → 0 < remainingQuantity o →
    Covered db o (.reservation o.omsOrderId) (remainingQuantity o * o.referencePrice)
  fill : ∀ o ∈ testnetOrders db, 0 < o.cumulativeFilledQuantity → FillNewer db o →
    Covered db o (.oms o.omsOrderId)
      (o.cumulativeFilledQuantity * orElse o.averageFillPrice o.referencePrice)

/-- the symbol counts as reconciled: by a position row, by any Bybit run, or, for a Binance symbol
with a known quote asset, by a run of any venue -/
def Masked (db : Db) (o : OmsOrder) : Prop :=
  (∃ p ∈ latestPositions db, p.exchange = o.exchange ∧ p.symbol = o.symbol) ∨
  (o.exchange = .bybit ∧ (latestRun db .bybit).isSome) ∨
  (o.exchange = .binance ∧ (spotBaseAsset o.symbol).isSome ∧ ∃ e, (latestRun db e).isSome)

instance (db : Db) (o : OmsOrder) : Decidable (FillNewer db o) := by
  unfold FillNewer; infer_instance

/-- an open remainder always has its reservation -/
theorem remainder_covered (h : Readable db) {o : OmsOrder} (ho : o ∈ testnetOrders db)
    (hres : o.status.reserving = true) (hrem : 0 < remainingQuantity o) :
    Covered db o (.reservation o.omsOrderId) (remainingQuantity o * o.referencePrice) := by
  have hrow := db.omsOrders.checked o (mem_testnetOrders.1 ho).1
  simp only [omsOrderSchema, OmsOrder.rowCheck, Bool.and_eq_true, decide_eq_true_eq] at hrow
  have hpos : 0 < remainingQuantity o * o.referencePrice := mul_pos hrem hrow.1.2.2.1
  refine ⟨_, h.view, _, (mem_reservation.2 ⟨o, ho, rfl, if_pos ⟨hres, hpos⟩⟩).1, ?_⟩
  exact ⟨rfl, rfl, rfl, rfl, rfl⟩

/-- a fill has its entry exactly while its symbol does not count as reconciled -/
theorem fill_covered_iff (h : Readable db) {o : OmsOrder} (ho : o ∈ testnetOrders db)
    (hfill : 0 < o.cumulativeFilledQuantity) :
    Covered db o (.oms o.omsOrderId)
      (o.cumulativeFilledQuantity * orElse o.averageFillPrice o.referencePrice) ↔ ¬ Masked db o := by
  have hmasked : ¬ Masked db o ↔ reconciled db o.exchange o.symbol = false := by
    rw [Masked, ← reconciled_iff ho, Bool.not_eq_true]
  rw [hmasked]
  constructor
  · rintro ⟨ps, hps, p, hp, hid, -⟩
    rw [h.view] at hps
    cases hps
    obtain ⟨x, hx, hxid, ⟨-, hrec⟩, -⟩ := mem_fill.1 ⟨hp, hid⟩
    obtain rfl : x = o := db.omsOrders.eq_of_key_eq (mem_testnetOrders.1 hx).1
      (mem_testnetOrders.1 ho).1 hxid
    exact hrec
  · intro hrec
    exact ⟨_, h.view, _, (mem_fill.2 ⟨o, ho, rfl, ⟨hfill, hrec⟩, rfl⟩).1, rfl, rfl, rfl, rfl, rfl⟩

/-- **What is covered.** In every reachable database, every open remainder and every fill newer than
the last successful run of its venue is covered, if and only if no such fill is masked. -/
theorem exposure_covers_iff (cfg : Config) (ops : List Op) :
    ExposureCovers (World.run cfg ops).db ↔
      ∀ o ∈ testnetOrders (World.run cfg ops).db, 0 < o.cumulativeFilledQuantity →
        FillNewer (World.run cfg ops).db o → ¬ Masked (World.run cfg ops).db o := by
  have hr := run_readable cfg ops
  constructor
  · intro h o ho hfill hnew
    exact (fill_covered_iff hr ho hfill).1 (h.fill o ho hfill hnew)
  · intro h
    exact ⟨fun o ho hres hrem => remainder_covered hr ho hres hrem,
      fun o ho hfill hnew => (fill_covered_iff hr ho hfill).2 (h o ho hfill hnew)⟩

/-- an order is queued, a flat venue is reconciled, and then the order fills -/
def filledAfterRun : List Op :=
  sampleQueued ++ sampleReconcile 2 "run" (sampleFlat 0) ++ [.clock 0 100] ++
  sampleDispatch 3 (sampleAnswer .filled 100 100)

/-- **Exposure is lost.** The order moves from its reservation to FILLED, its venue's run never saw
the fill, and the view has no entry for it. -/
theorem exposure_lost : ¬ ∀ cfg ops, ExposureCovers (World.run cfg ops).db := by
  intro h
  have hrun : ∃ o ∈ testnetOrders (World.run .sample filledAfterRun).db,
      0 < o.cumulativeFilledQuantity ∧ FillNewer (World.run .sample filledAfterRun).db o ∧
      o.exchange = .bybit ∧ (latestRun (World.run .sample filledAfterRun).db .bybit).isSome := by
    decide +kernel
  obtain ⟨o, ho, hfill, hnew, hmasked⟩ := hrun
  have hr := run_readable .sample filledAfterRun
  exact (fill_covered_iff hr ho hfill).1 ((h .sample filledAfterRun).fill o ho hfill hnew) (.inr (.inl hmasked))

end CapitalCipher
