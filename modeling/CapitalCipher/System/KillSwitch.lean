/-
The two kill-switch commands of `risk/manager.py` against the durable control row.

`set_risk_control` refuses to repeat a state, so a command raises when the row is already where it
would move it. What it leaves in memory differs: a trigger halts the process all the same, a reset
changes nothing.

  • `Revised`: the events tell of no revision beyond the row's, so the next one can be written.
  • `setRiskControl_isOk`, `setRiskControl_repeated`: the durable write on a working database.
  • `kill_switch_commands`: where the commands lead from every reachable pair of memory and row.
-/
import CapitalCipher.System.Steps

namespace CapitalCipher

open Lib Lib.Tx Repository

/-! ## The durable row -/

/-- no event tells of a revision beyond the control row's -/
def Db.Revised (db : Db) : Prop :=
  ∀ e ∈ db.riskControlEvents.rows, e.revision ≤ (controlRow db).revision

theorem Db.Revised.of_eq {db db' : Db} (h : db.Revised) (hrow : db'.riskControl = db.riskControl)
    (hevents : db'.riskControlEvents = db.riskControlEvents) : db'.Revised := by
  intro e he
  rw [hevents] at he
  rw [controlRow, hrow]
  exact h e he

/-- each commit of the control row files its own revision -/
theorem Effect.revised {now : Time} {q : Request} {db db' : Db} (he : Effect now q db db')
    (h : db.Revised) : db'.Revised := by
  cases he with
  | evaluated _ hv => exact h.of_eq (by rw [hv.rest]) (by rw [hv.rest])
  | consumed _ hv => exact h.of_eq (by rw [hv.rest]) (by rw [hv.rest])
  | saved _ hv => exact h.of_eq (by rw [hv.rest]) (by rw [hv.rest])
  | created _ hv => exact h.of_eq (by rw [hv.rest]) (by rw [hv.rest])
  | @controlled active reason actor correlationId row _ hv =>
    have hrow : controlRow db' = row := by rw [controlRow, hv.riskControl, Option.getD_some]
    have hnext : row.revision = (controlRow db).revision + 1 := by rw [hv.row_eq]; rfl
    intro e he
    rw [(Table.insert_ok hv.riskControlEvents).1] at he
    rcases List.mem_append.1 he with hold | hnew
    · have := h e hold
      rw [hrow, hnext]
      omega
    · rw [List.mem_singleton.1 hnew, hrow]
  | frame hv => exact h.of_eq hv.riskControl hv.riskControlEvents

theorem run_revised (cfg : Config) (ops : List Op) : (World.run cfg ops).db.Revised := by
  apply run_induction (P := fun w => w.db.Revised)
  · intro e he
    simp [World.init, Db.empty] at he
  · intro w op w' _ h hs
    cases hs with
    | committed _ htx hrun _ => exact (effect_of_run htx hrun).revised h
    | _ => exact h

/-- a trigger can revoke every active approval -/
theorem revoke_isOk (db : Db) : ∃ A, db.approvals.update (fun a => a.status == .active)
    (fun a => { a with status := .revoked }) = .ok A := by
  apply Table.update_isOk
  · intro a _ ha
    simp only [orderApprovalSchema, ha, Bool.and_true]
    simp [OrderApproval.identity]
  · intro a hmem ha
    have hrow := db.approvals.checked a hmem
    simp only [beq_iff_eq] at ha
    simp only [orderApprovalSchema, OrderApproval.terminalCheck, ha] at hrow ⊢
    simpa using hrow
  · intro a _ b _ hab
    have hkeep : ∀ x : OrderApproval,
        orderApprovalSchema.key (if x.status == .active then { x with status := .revoked } else x) =
          orderApprovalSchema.key x ∧
        (if x.status == .active then { x with status := .revoked } else x).evaluationId =
          x.evaluationId ∧
        (if x.status == .active then { x with status := .revoked } else x).paperOrderId =
          x.paperOrderId ∧
        (if x.status == .active then { x with status := .revoked } else x).omsOrderId =
          x.omsOrderId := by
      intro x
      split_ifs <;> exact ⟨rfl, rfl, rfl, rfl⟩
    obtain ⟨ha1, ha2, ha3, ha4⟩ := hkeep a
    obtain ⟨hb1, hb2, hb3, hb4⟩ := hkeep b
    simp only [Schema.Apart, ha1, hb1]
    simp only [Schema.Apart, orderApprovalSchema] at hab ⊢
    simp only [ha2, ha3, ha4, hb2, hb3, hb4]
    exact hab

variable {now : Time} {active : Bool} {reason actor : String} {correlationId : Option String}
  {db : Db}

theorem revokeIf_isOk (active : Bool) (db : Db) :
    ∃ A, (revokeIf active).run db = .ok ((), { db with approvals := A }) := by
  cases active with
  | true =>
    obtain ⟨A, hA⟩ := revoke_isOk db
    refine ⟨A, ?_⟩
    rw [revokeIf, if_pos rfl]
    exact write_ok.2 ⟨A, hA, rfl⟩
  | false => exact ⟨db.approvals, rfl⟩

/-- after it is ensured, the row is there, and there is no other -/
theorem ensureControlRow_isOk (db : Db) : ∃ R,
    ensureControlRow.run db = .ok ((), { db with riskControl := R }) ∧
      ∀ r ∈ R.rows, r = controlRow db := by
  cases hrow : db.riskControl.get? () with
  | none =>
    have hempty : ∀ r ∈ db.riskControl.rows, False := by
      intro r hr
      exact (Table.get?_eq_none _).1 hrow r hr rfl
    have hdefault : controlRow db = {} := by rw [controlRow, hrow]; rfl
    obtain ⟨R, hR⟩ := Table.insert_isOk (T := db.riskControl) (r := {}) rfl
      fun x hx => (hempty x hx).elim
    refine ⟨R, ?_, ?_⟩
    · simp only [ensureControlRow, bind_ok, get_ok]
      refine ⟨db, db, rfl, ?_⟩
      rw [hrow]
      exact write_ok.2 ⟨R, hR, rfl⟩
    · intro r hr
      rw [(Table.insert_ok hR).1] at hr
      rcases List.mem_append.1 hr with hold | hnew
      · exact (hempty r hold).elim
      · rw [List.mem_singleton.1 hnew, hdefault]
  | some row =>
    refine ⟨db.riskControl, ?_, ?_⟩
    · simp only [ensureControlRow, bind_ok, get_ok]
      refine ⟨db, db, rfl, ?_⟩
      rw [hrow]
      rfl
    · intro r hr
      obtain ⟨hmem, -⟩ := (Table.get?_eq_some _).1 hrow
      rw [controlRow, hrow]
      exact db.riskControl.eq_of_key_eq hr hmem rfl

/-- the write moves the row to the other state -/
theorem setRiskControl_isOk (now : Time) (reason actor : String) (correlationId : Option String)
    (hdb : db.Revised) (hmoves : (controlRow db).active ≠ active) :
    ∃ row db', (setRiskControl now active reason actor correlationId).commit db = (.ok row, db') ∧
      row.active = active ∧ (controlRow db').active = active ∧ db'.Revised := by
  let next := nextControl (controlRow db) now active reason actor
  obtain ⟨R, hensure, honly⟩ := ensureControlRow_isOk db
  obtain ⟨R', hR'⟩ := Table.update_isOk (T := R) (p := fun _ => true) (f := fun _ => next)
    (fun r hr _ => by
      rw [honly r hr]
      simp [riskControlSchema, next, nextControl, Ne.symm hmoves])
    (fun _ _ _ => rfl) fun a _ b _ hab => absurd rfl hab.1
  obtain ⟨A, hA⟩ := revokeIf_isOk active { db with riskControl := R' }
  obtain ⟨E, hE⟩ := Table.insert_isOk (T := db.riskControlEvents)
    (r := ⟨next.revision, active, reason, actor, correlationId, now⟩)
    (by simp [riskControlEventSchema, next, nextControl]) fun e he => by
      have hle := hdb e he
      have hne : e.revision ≠ next.revision := by
        simp only [next, nextControl]
        omega
      exact ⟨hne, rfl, rfl⟩
  have hrun : (setRiskControl now active reason actor correlationId).run db =
      .ok (next, { db with riskControl := R', approvals := A, riskControlEvents := E }) := by
    simp only [setRiskControl, failing_ok, bind_ok, get_ok, require_ok]
    exact ⟨db, db, rfl, (), _, hensure, (), _, ⟨hmoves, rfl⟩, (), _, write_ok.2 ⟨R', hR', rfl⟩, (),
      _, hA, (), _, write_ok.2 ⟨E, hE, rfl⟩, rfl⟩
  have hrow : (controlRow { db with riskControl := R', approvals := A, riskControlEvents := E }) =
      next := by
    rw [controlRow, (setRiskControl_ok hrun).riskControl, Option.getD_some]
  refine ⟨next, _, commit_of_ok hrun, rfl, by rw [hrow]; rfl, ?_⟩
  exact Effect.revised
    (.controlled (q := .setRiskControl active reason actor correlationId) rfl (setRiskControl_ok hrun))
    hdb

/-- the write refuses to repeat the state the row is in -/
theorem setRiskControl_repeated (now : Time) (reason actor : String)
    (correlationId : Option String) (hsame : (controlRow db).active = active) :
    ∃ e, (setRiskControl now active reason actor correlationId).commit db = (.error e, db) := by
  cases hrun : (setRiskControl now active reason actor correlationId).run db with
  | error e => exact ⟨e, by rw [commit, hrun]⟩
  | ok r => exact absurd hsame (setRiskControl_ok hrun).moved

/-! ## The commands -/

/-- what a working database replies, in a process whose clock shows `now` -/
def Request.replied (now : Time) (q : Request) (db : Db) : Except Error q.Reply × Db :=
  match q.transaction now [] with
  | some tx => tx.commit db
  | none => (.error ⟨.transport, "not a transaction"⟩, db)

/-- a command alone, on a working database -/
def commanded (p : Program Unit) (m : Memory) (db : Db) : Except Error Unit × Memory × Db :=
  p.runAlone (Request.replied m.now) m db

/-- the switch is on or off in memory and in the row -/
def switchIs (on : Bool) (r : Except Error Unit × Memory × Db) : Prop :=
  r.2.1.killSwitchActive = on ∧ (controlRow r.2.2).active = on

variable {cfg : Config} {m : Memory}

theorem haltAll_killed (reason : String) (m : Memory) :
    (RiskManager.haltAll reason m).killSwitchActive = true := by
  simp [RiskManager.haltAll, RiskManager.revokeActive, Memory.killSwitchActive]

/-- an audit record is stored, and changes nothing -/
theorem record_commanded (haudit : m.auditFailMode = false) (r : AuditRecord) (now : Time) :
    (AuditService.record cfg r).runAlone (Request.replied now) m db = (.ok (), m, db) := by
  unfold AuditService.record
  simp only [Coro.bind_eq, Coro.read_bind, Coro.runAlone, haudit, Bool.false_eq_true, if_false]
  split_ifs <;> rfl

/-- a trigger that moves the row halts the process and returns -/
theorem trigger_moves (hrepo : cfg.repository = true) (hreason : strip reason ≠ "")
    (haudit : m.auditFailMode = false) (hdb : db.Revised) (hrow : (controlRow db).active = false) :
    ∃ row db', row.active = true ∧ (controlRow db').active = true ∧ db'.Revised ∧
      commanded (RiskManager.triggerKillSwitch cfg reason actor correlationId) m db =
        (.ok (), RiskManager.haltAll (strip reason) { m with controlState := row }, db') := by
  obtain ⟨row, db', hset, hon, hdb', hrevised⟩ := setRiskControl_isOk m.now (strip reason) actor
    correlationId hdb (show (controlRow db).active ≠ true by simp [hrow])
  have hreply : Request.replied m.now (.setRiskControl true (strip reason) actor correlationId) db =
      (.ok row, db') := hset
  refine ⟨row, db', hon, hdb', hrevised, ?_⟩
  unfold commanded RiskManager.triggerKillSwitch RiskManager.writeControl
  simp only [if_neg hreason, hrepo, if_true, Coro.ensure, Coro.bind_eq, ask, Coro.call,
    Coro.await_bind, Coro.attempt, Coro.runAlone]
  rw [hreply]
  simp only [Coro.leave_ok, Coro.ret_bind, Coro.modify, Coro.attempt, Coro.get_bind, Coro.put_bind,
    Coro.runAlone]
  apply record_commanded
  exact haudit

/-- a trigger that finds the row on halts the process and raises -/
theorem trigger_repeats (hrepo : cfg.repository = true) (hreason : strip reason ≠ "")
    (hrow : (controlRow db).active = true) :
    ∃ e, commanded (RiskManager.triggerKillSwitch cfg reason actor correlationId) m db =
      (.error e, RiskManager.haltAll (strip reason) m, db) := by
  obtain ⟨e, hset⟩ := setRiskControl_repeated m.now (strip reason) actor correlationId hrow
  have hreply : Request.replied m.now (.setRiskControl true (strip reason) actor correlationId) db =
      (.error e, db) := hset
  refine ⟨e, ?_⟩
  unfold commanded RiskManager.triggerKillSwitch RiskManager.writeControl
  simp only [if_neg hreason, hrepo, if_true, Coro.ensure, Coro.bind_eq, ask, Coro.call,
    Coro.await_bind, Coro.attempt, Coro.runAlone]
  rw [hreply]
  rfl

/-- the memory a reset leaves -/
def released (row : RiskControlState) (m : Memory) : Memory :=
  { m with
    controlState := row
    sm := { m.sm with killSwitchActive := false, killSwitchReason := none }
    riskState := { m.riskState with killSwitchActive := false } }

/-- a reset that moves the row releases the process and returns -/
theorem reset_moves (hrepo : cfg.repository = true) (hreason : strip reason ≠ "")
    (haudit : m.auditFailMode = false) (hstate : m.sm.state = .maintenance) (hdb : db.Revised)
    (hrow : (controlRow db).active = true) :
    ∃ row db', row.active = false ∧ (controlRow db').active = false ∧
      commanded (RiskManager.resetKillSwitch cfg reason actor correlationId) m db =
        (.ok (), released row m, db') := by
  obtain ⟨row, db', hset, hoff, hdb', -⟩ := setRiskControl_isOk m.now (strip reason) actor
    correlationId hdb (show (controlRow db).active ≠ false by simp [hrow])
  have hreply : Request.replied m.now (.setRiskControl false (strip reason) actor correlationId) db =
      (.ok row, db') := hset
  refine ⟨row, db', hoff, hdb', ?_⟩
  unfold commanded RiskManager.resetKillSwitch RiskManager.writeControl
  simp only [Coro.bind_eq, Coro.read_bind, Coro.runAlone, hstate, ne_eq, not_true_eq_false,
    if_neg hreason, hrepo, if_true, if_false, ask, Coro.call, Coro.await_bind]
  rw [hreply]
  simp only [Coro.leave_ok, Coro.ret_bind, Coro.modify_bind, Coro.runAlone,
    StateMachine.resetKillSwitchAfterMaintenance, hstate, ne_eq, not_true_eq_false, if_false,
    released]
  apply record_commanded
  exact haudit

/-- a reset that finds the row off changes nothing and raises -/
theorem reset_repeats (hrepo : cfg.repository = true) (hreason : strip reason ≠ "")
    (hstate : m.sm.state = .maintenance) (hrow : (controlRow db).active = false) :
    ∃ e, commanded (RiskManager.resetKillSwitch cfg reason actor correlationId) m db =
      (.error e, m, db) := by
  obtain ⟨e, hset⟩ := setRiskControl_repeated m.now (strip reason) actor correlationId hrow
  have hreply : Request.replied m.now (.setRiskControl false (strip reason) actor correlationId) db =
      (.error e, db) := hset
  refine ⟨e, ?_⟩
  unfold commanded RiskManager.resetKillSwitch RiskManager.writeControl
  simp only [Coro.bind_eq, Coro.read_bind, Coro.runAlone, hstate, ne_eq, not_true_eq_false,
    if_neg hreason, hrepo, if_true, if_false, ask, Coro.call, Coro.await_bind]
  rw [hreply]
  rfl

theorem released_off {row : RiskControlState} (h : row.active = false) (m : Memory) :
    (released row m).killSwitchActive = false := by
  simp [released, Memory.killSwitchActive, h]

/-- where the two commands lead from a memory and a database -/
structure KillSwitchCommands (cfg : Config) (reason actor : String) (correlationId : Option String)
    (m : Memory) (db : Db) : Prop where
  trigger : switchIs true (commanded (RiskManager.triggerKillSwitch cfg reason actor correlationId) m db)
  trigger_returns :
    (commanded (RiskManager.triggerKillSwitch cfg reason actor correlationId) m db).1 = .ok () ↔
      (controlRow db).active = false
  reset : m.sm.state = .maintenance → (controlRow db).active = true →
    let r := commanded (RiskManager.resetKillSwitch cfg reason actor correlationId) m db
    r.1 = .ok () ∧ switchIs false r
  reset_refused : m.sm.state = .maintenance → (controlRow db).active = false →
    ∃ e, commanded (RiskManager.resetKillSwitch cfg reason actor correlationId) m db =
      (.error e, m, db)
  /-- a trigger and then a reset repair whatever disagreement there was -/
  repair : m.sm.state = .maintenance →
    let t := commanded (RiskManager.triggerKillSwitch cfg reason actor correlationId) m db
    let r := commanded (RiskManager.resetKillSwitch cfg reason actor correlationId) t.2.1 t.2.2
    r.1 = .ok () ∧ switchIs false r

/-- outside operation a trigger leaves the state where it is -/
theorem haltAll_maintenance (hstate : m.sm.state = .maintenance) (reason : String) :
    (RiskManager.haltAll reason m).sm.state = .maintenance := by
  simp [RiskManager.haltAll, RiskManager.revokeActive, StateMachine.triggerKillSwitch, hstate,
    SystemState.operational]

/-- **Kill-switch commands.** From every reachable memory and control row, with a working database, a
trigger leaves the switch on in both and returns just when the row was off; in MAINTENANCE a reset
switches both off when the row was on, and is refused, changing nothing, when it was off. So a trigger
and then a reset always end with both off. -/
theorem kill_switch_commands {cfg : Config} (hrepo : cfg.repository = true) (ops : List Op) (node : ℕ)
    {reason : String} (hreason : strip reason ≠ "") (actor : String) (correlationId : Option String)
    (haudit : ((World.run cfg ops).mem node).auditFailMode = false) :
    KillSwitchCommands cfg reason actor correlationId ((World.run cfg ops).mem node)
      (World.run cfg ops).db := by
  have hdb := run_revised cfg ops
  generalize (World.run cfg ops).mem node = m at haudit ⊢
  generalize (World.run cfg ops).db = db at hdb ⊢
  -- where a trigger leads: on in both, and to a row that a reset can move
  obtain ⟨m', db', hend, hkilled, hon, hdb', haudit', hstate'⟩ :
      ∃ m' db', (commanded (RiskManager.triggerKillSwitch cfg reason actor correlationId) m db).2 =
        (m', db') ∧ m'.killSwitchActive = true ∧ (controlRow db').active = true ∧ db'.Revised ∧
        m'.auditFailMode = false ∧ (m.sm.state = .maintenance → m'.sm.state = .maintenance) := by
    cases hrow : (controlRow db).active with
    | false =>
      obtain ⟨row, db', -, hon, hdb', he⟩ := trigger_moves hrepo hreason haudit hdb hrow
      exact ⟨_, _, congrArg Prod.snd he, haltAll_killed _ _, hon, hdb', haudit,
        fun hs => haltAll_maintenance hs _⟩
    | true =>
      obtain ⟨e, he⟩ := trigger_repeats hrepo hreason hrow
      exact ⟨_, _, congrArg Prod.snd he, haltAll_killed _ _, hrow, hdb, haudit,
        fun hs => haltAll_maintenance hs _⟩
  constructor
  · rw [switchIs, hend]
    exact ⟨hkilled, hon⟩
  · cases hrow : (controlRow db).active with
    | false =>
      obtain ⟨row, db', -, -, -, he⟩ := trigger_moves hrepo hreason haudit hdb hrow
      rw [he]
      simp
    | true =>
      obtain ⟨e, he⟩ := trigger_repeats hrepo hreason hrow
      rw [he]
      simp
  · intro hs hrow
    obtain ⟨row, db', hoff, hdb', he⟩ := reset_moves hrepo hreason haudit hs hdb hrow
    rw [he]
    exact ⟨rfl, released_off hoff m, hdb'⟩
  · intro hs hrow
    exact reset_repeats hrepo hreason hs hrow
  · intro hs
    obtain ⟨row, db'', hoff, hdb'', he⟩ := reset_moves hrepo hreason haudit' (hstate' hs) hdb' hon
    simp only [hend]
    rw [he]
    exact ⟨rfl, released_off hoff m', hdb''⟩

/-! ## Commands that raise -/

/-- a trigger that ran through -/
def triggered : List Op :=
  boot ++ [.start 0 (.triggerKillSwitch "drill" "operator" none)] ++ serve 0 ++ serve 0

/-- a trigger whose write failed, and the way into maintenance -/
def haltedOnly : List Op :=
  boot ++ [.start 0 (.triggerKillSwitch "drill" "operator" none),
    .exec 0 [] (.refused ⟨.database, "unavailable"⟩), .resume 0, .transition 0 .maintenance]

theorem kill_switch_commands_triggered :
    KillSwitchCommands .sample "drill" "operator" none ((World.run .sample triggered).mem 0)
      (World.run .sample triggered).db :=
  kill_switch_commands rfl triggered 0 (by decide +kernel) "operator" none (by decide +kernel)

/-- a second trigger raises; a reset raises where only the memory is halted, and leaves it halted -/
theorem repeated_command_raises :
    (commanded (RiskManager.triggerKillSwitch .sample "drill" "operator" none)
        ((World.run .sample triggered).mem 0) (World.run .sample triggered).db).1.toOption = none ∧
      ((World.run .sample haltedOnly).mem 0).sm.state = .maintenance ∧
      (commanded (RiskManager.resetKillSwitch .sample "drill" "operator" none)
        ((World.run .sample haltedOnly).mem 0) (World.run .sample haltedOnly).db).1.toOption = none ∧
      (commanded (RiskManager.resetKillSwitch .sample "drill" "operator" none)
        ((World.run .sample haltedOnly).mem 0)
        (World.run .sample haltedOnly).db).2.1.killSwitchActive = true := by
  decide +kernel

end CapitalCipher
