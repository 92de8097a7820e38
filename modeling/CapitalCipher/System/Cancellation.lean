/-
What a successful `queue_cancel` of `oms/service.py` leaves behind.

The transaction stores a CANCEL command only when the order has none, however the one it has ended;
the deterministic id and the unique constraint allow one per order.

  • `queueCancelCommand_cases`: the two ways the transaction commits.
  • `cancel_effective_iff`: among any other tasks, a cancellation that returns has an effect exactly
    when the order had no CANCEL command yet, an open one, or a terminal status.
  • `rejected_cancel_forgotten`: a second request after a rejected one is dropped.
-/
import CapitalCipher.Lib.Interference
import CapitalCipher.System.World

namespace CapitalCipher

open Lib Coro Tx Txn Repository

/-- what the database replies, unless the fault stands in for it -/
def Request.repliedUnder (fault : Fault) (now : Time) (locked : List String) (q : Request) (db : Db) :
    Except Error q.Reply × Db :=
  match q.transaction now locked with
  | none => (.error ⟨.transport, "not a transaction"⟩, db)
  | some tx =>
    match fault with
    | .refused e => (.error e, db)
    | .lost e => (.error e, (tx.commit db).2)
    | .none => tx.commit db

/-- a value in reply is that of a committed transaction -/
theorem Request.repliedUnder_ok {fault : Fault} {now : Time} {locked : List String} {q : Request}
    {db db' : Db} {r : q.Reply} (h : q.repliedUnder fault now locked db = (.ok r, db')) :
    ∃ tx, q.transaction now locked = some tx ∧ tx.run db = .ok (r, db') := by
  unfold Request.repliedUnder at h
  split at h
  · cases h
  · rename_i tx htx
    cases fault with
    | refused e => cases h
    | lost e => cases h
    | none => exact ⟨tx, htx, commit_ok.1 h⟩

namespace Db

/-- the order is terminal, or its cancellation will still reach the venue -/
def CancelEffective (db : Db) (omsOrderId : String) : Prop :=
  ((db.omsOrders.get? omsOrderId).any fun o => o.status.terminal) = true ∨
  ∃ c ∈ db.cancelsOf omsOrderId, c.status = .pending ∨ c.status = .leased

instance (db : Db) (omsOrderId : String) : Decidable (db.CancelEffective omsOrderId) :=
  inferInstanceAs (Decidable (_ ∨ _))

end Db

/-- **Cancellations that take effect.** However the database fails and whatever other tasks do to the
process and to the database meanwhile: when a cancellation returns, what its transaction committed
makes it effective exactly when the order had no CANCEL command, or its cancellation was effective
already. -/
theorem cancel_effective_iff (cfg : Config) (hr : cfg.repository = true) (faults : ℕ → Fault)
    (locked : ℕ → List String) (others : ℕ → Memory → Db → Memory × Db × Memory)
    (omsOrderId : String) (s t : Stand Memory Db) (stored : OmsOrder)
    (h : runBetween (fun n m q db => q.repliedUnder (faults n) m.now (locked n) db) others
      (OmsService.queueCancel cfg omsOrderId) s = (.ok stored, t)) :
    t.after.CancelEffective stored.omsOrderId ↔
      t.before.cancelsOf stored.omsOrderId = [] ∨ t.before.CancelEffective stored.omsOrderId := by
  unfold OmsService.queueCancel at h
  obtain ⟨found, u, -, h⟩ := runBetween_bind h
  cases found with
  | none => cases h
  | some order =>
    dsimp only at h
    split_ifs at h
    · cases h
    · cases h
    · obtain ⟨m, u₁, -, h⟩ := runBetween_bind h
      obtain ⟨-, u₂, -, h⟩ := runBetween_bind h
      obtain ⟨stored', u₃, hstored, h⟩ := runBetween_bind h
      cases h
      rw [OmsService.storeCancel, if_pos hr] at hstored
      obtain ⟨m', hreply⟩ := runBetween_call hstored
      obtain ⟨tx, htx, hrun⟩ := Request.repliedUnder_ok hreply
      cases htx
      obtain ⟨hkey, hcases⟩ := queueCancelCommand_cases hrun
      rw [hkey]
      rcases hcases with ⟨hsome, hsame⟩ | ⟨hnone, hqueued⟩
      · have hsame : u₃.after = u₃.before := hsame
        rw [or_iff_right hsome, ← hsame]
      · refine iff_of_true ?_ (.inl hnone)
        have hstatus : (OmsService.cancelCommand cfg m.now order.omsOrderId).status = .pending := rfl
        have hrows := (Table.insert_ok hqueued.commands).1
        refine .inr ⟨OmsService.cancelCommand cfg m.now order.omsOrderId, ?_, .inl hstatus⟩
        refine List.mem_filter.2 ⟨?_, ?_⟩
        · exact hrows ▸ List.mem_append_right _ List.mem_cons_self
        · simp [OmsService.cancelCommand, OmsService.cancelPending]
    · cases h

/-- the cancellation of the submitted sample order, with no other task at work -/
def sampleCancel : Except Error OmsOrder × Stand Memory Db :=
  let w := World.run .sample (sampleQueued ++ sampleDispatch 2 (sampleAnswer .submitted 0 0))
  runBetween (fun _ m q db => q.repliedUnder .none m.now [] db) (fun _ m db => (m, db, m))
    (OmsService.queueCancel .sample sampleOrderId) ⟨0, w.mem 0, w.db, w.db⟩

/-- a first cancellation is effective -/
theorem cancel_effective_sample : ∃ stored, sampleCancel.1 = .ok stored ∧
    sampleCancel.2.after.CancelEffective stored.omsOrderId := by
  obtain ⟨hok, hfirst⟩ : sampleCancel.1.toBool = true ∧
      ∀ c ∈ sampleCancel.2.before.commands.rows, c.commandType = .submit := by decide +kernel
  cases h : sampleCancel.1 with
  | error e =>
    rw [h] at hok
    cases hok
  | ok stored =>
    refine ⟨stored, rfl, (cancel_effective_iff .sample rfl (fun _ => .none) (fun _ => [])
      (fun _ m db => (m, db, m)) sampleOrderId _ _ stored (Prod.ext h rfl)).2 (.inl ?_)⟩
    refine List.filter_eq_nil_iff.2 fun c hc hcancel => ?_
    simp [hfirst c hc] at hcancel

/-! ## A rejected cancellation -/

/-- the sample order is submitted, its cancellation is rejected by the venue, and requested again -/
def canceledAgain : List Op :=
  sampleQueued ++ sampleDispatch 2 (sampleAnswer .submitted 0 0) ++
  [.start 0 (.queueCancel sampleOrderId)] ++ serve 3 ++ serve 3 ++ serve 3 ++
  [.start 0 (.dispatchOnce "w")] ++ serve 4 ++
  answer 4 (.order (.error ⟨.executionRejected, "Binance TESTNET request rejected"⟩)) ++
  serve 4 ++ serve 4 ++ serve 4 ++
  [.start 0 (.queueCancel sampleOrderId)] ++ serve 5 ++ serve 5 ++ serve 5

/-- the call of a task has returned -/
def Task.returned (t : Task) : Bool :=
  match t.state with
  | .done (.ok _) => true
  | _ => false

/-- the second request returns, and nothing will ever reach the venue -/
theorem rejected_cancel_forgotten :
    ((World.run .sample canceledAgain).tasks[5]?.any Task.returned) = true ∧
    ((World.run .sample canceledAgain).db.omsOrders.get? sampleOrderId).map OmsOrder.status =
      some .unknown ∧
    ¬ (World.run .sample canceledAgain).db.CancelEffective sampleOrderId := by
  decide +kernel

end CapitalCipher
