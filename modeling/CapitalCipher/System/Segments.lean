/-
The risk, paper and submission programs meet the contract.

A program is `Benign` when it takes a segment that meets the contract to one that does, whatever it
awaits in between. Benign programs compose; the lemmas below go through the modules of the source in
their order.

  • `safe_record`, `safe_refreshPositions`: the two programs that also discharge an obligation.
  • `safe_gate`, `authorize_granted`: what a consumption looked at, in the segment that asks for it.
  • `evidence_ok`: what `_finalize` records is sized and minted.
-/
import CapitalCipher.System.Contract

namespace CapitalCipher

open Lib Coro

variable {cfg : Config} {c : Trigger} {m₀ m : Memory} {α β : Type}

/-- from a segment that meets the contract to one that does -/
abbrev Benign (cfg : Config) (p : Program α) : Prop := Stays (contract cfg) (Free cfg) p

namespace Benign

theorem modify {f : Memory → Memory} (hs : ∀ m, m.Sound cfg → (f m).Sound cfg)
    (hc : ∀ m, (f m).control = m.control) (hb : ∀ m, (f m).book = m.book)
    (ht : ∀ m, (f m).tally = m.tally := by exact fun _ => rfl) : Benign cfg (.modify f) :=
  ⟨fun h => h.of_eq (hs _ h.sound) (hc _) (hb _) (ht _)⟩

/-- a request whose reply moves nothing -/
theorem ask {q : Request} (hq : ∀ c m, Ask cfg c m q)
    (hr : ∀ r m, controlAfter (.reply q r) m = m.control ∧ bookAfter (.reply q r) m = m.book ∧
      ∀ next, Next (.reply q r) m next)
    (ht : ∀ r m, tallyAfter (.reply q r) m = m.tally := by intros; rfl) : Benign cfg (ask q) := by
  refine ⟨fun {c m₀ m} h => safe_call.2 ⟨h.ask (hq c m), fun r m₁ _ hm => ?_⟩⟩
  obtain ⟨hc, hb, hn⟩ := hr r m₁
  exact .reply hm hc hb hn (ht r m₁)

theorem forget {p : Program α} (hp : Benign cfg p) : Benign cfg (forget p) :=
  hp.bind fun _ => .ret ()

end Benign

/-! ## Audit -/

/-- the audit trail takes the record, refuses it, or is not durable -/
theorem safe_record {r : AuditRecord} {post : Except Error Unit → Trigger → Memory → Memory → Prop}
    (hfail : ∀ e, m.auditFailMode = true → post (.error e) c m₀ m)
    (hlocal : cfg.repository = false → post (.ok ()) c m₀ m)
    (hask : m.auditFailMode = false → cfg.repository = true →
      (contract cfg).inv m ∧ (contract cfg).ends c m₀ m (some (.saveAuditLog r)))
    (hok : cfg.repository = true → ∀ m₁ : Memory, m₁.Sound cfg →
      post (.ok ()) (.reply (.saveAuditLog r) (.ok ())) m₁ m₁)
    (herror : cfg.repository = true → ∀ e e' (m₁ : Memory), m₁.Sound cfg →
      post (.error e) (.reply (.saveAuditLog r) (.error e')) m₁ m₁) :
    Safe (contract cfg) (AuditService.record cfg r) c m₀ m post := by
  simp only [AuditService.record, bind_eq, read_bind, safe_get]
  split_ifs with hmode hrep
  · exact hfail _ hmode
  · refine safe_handle.2 (safe_call.2 ⟨hask (by simpa using hmode) hrep, fun u m₁ _ hm => ?_⟩)
    cases u with
    | ok u => exact hok hrep m₁ hm
    | error e => exact herror hrep _ e m₁ hm
  · exact hlocal (by simpa using hrep)

/-- a record that carries no evidence, closes no order and reports no reconciliation -/
def AuditRecord.plain (r : AuditRecord) : Prop :=
  r.evidence = none ∧ r.auditType ≠ "PAPER_ORDER_CLOSED" ∧ r.reconciles = false

theorem benign_record {r : AuditRecord} (hr : r.plain) : Benign cfg (AuditService.record cfg r) := by
  obtain ⟨hev, hclosed, hrec⟩ := hr
  refine ⟨fun {c m₀ m} h => ?_⟩
  have hask : Ask cfg c m (.saveAuditLog r) :=
    ⟨by simp [hev], fun hc => absurd hc hclosed⟩
  have hreply : ∀ (u : Except Error Unit) (m₁ : Memory), m₁.Sound cfg →
      Free cfg (.reply (.saveAuditLog r) u) m₁ m₁ := by
    intro u m₁ hm
    refine .reply hm rfl rfl fun next => ?_
    cases u with
    | ok u => exact fun hc => by rw [hrec] at hc; cases hc
    | error e => trivial
  exact safe_record (fun _ _ => h) (fun _ => h) (fun _ _ => h.ask hask)
    (fun _ m₁ hm => hreply _ m₁ hm) (fun _ _ e m₁ hm => hreply _ m₁ hm)

/-- without a repository the contract says nothing of the switch and the portfolio -/
theorem Free.local {m' : Memory} (h : Free cfg c m₀ m) (hr : cfg.repository = false)
    (hs : m'.Sound cfg) : Free cfg c m₀ m' :=
  ⟨hs, fun hr' => absurd hr' (by simp [hr]), h.next⟩

/-! ## Positions -/

/-- a refresh may discharge the segment's obligation -/
theorem safe_refreshPositions (hs : m.Sound cfg) (hseg : Segment cfg c m₀ m)
    (hlocal : cfg.repository = false → Free cfg c m₀ m)
    (hnext : Next c m₀ (some .loadOpenPositionExposures)) :
    Safe (contract cfg) (RiskManager.refreshPositions cfg) c m₀ m
      fun _ c m₀ m => Free cfg c m₀ m := by
  unfold RiskManager.refreshPositions
  split_ifs with hrep
  · refine safe_bind.2 (safe_call.2 ⟨⟨hs, hseg, by simp [Ask], hnext⟩, fun r m₁ _ hm => ?_⟩)
    cases r with
    | error e => exact .reply hm rfl rfl fun _ => trivial
    | ok ps => exact ⟨hm.congr rfl rfl rfl, fun _ => ⟨rfl, rfl, rfl⟩, fun _ => trivial⟩
  · exact hlocal (by simpa using hrep)

theorem benign_refreshPositions : Benign cfg (RiskManager.refreshPositions cfg) :=
  ⟨fun h => safe_refreshPositions h.sound h.segment (fun _ => h) (h.next _)⟩

theorem benign_initializeRisk : Benign cfg (RiskManager.initializeRisk cfg) := by
  unfold RiskManager.initializeRisk
  split_ifs with hrep
  · refine ⟨fun {c m₀ m} h => ?_⟩
    refine safe_bind.2 (safe_call.2 ⟨h.ask trivial, fun r m₁ _ hm => ?_⟩)
    cases r with
    | error e => exact .reply hm rfl rfl fun _ => trivial
    | ok control =>
      have hfree : Free cfg (.reply .loadRiskControlState (.ok control)) m₁
          (RiskManager.restoreControl control m₁) := by
        cases control with
        | none => exact .reply hm rfl rfl fun _ => trivial
        | some row =>
          refine ⟨?_, fun _ => ?_, fun _ => trivial⟩
          · simp only [RiskManager.restoreControl]
            split_ifs <;> exact hm.congr rfl rfl rfl
          · simp only [RiskManager.restoreControl, controlAfter, bookAfter]
            split_ifs <;> simp [Memory.control, Memory.book, Memory.tally, tallyAfter]
      refine safe_bind.2 (safe_modify.2 ?_)
      refine safe_bind.2 (safe_call.2 ⟨hfree.ask trivial, fun r m₂ _ hm₂ => ?_⟩)
      cases r with
      | error e => exact .reply hm₂ rfl rfl fun _ => trivial
      | ok ps => exact ⟨hm₂.congr rfl rfl rfl, fun _ => ⟨rfl, rfl, rfl⟩, fun _ => trivial⟩
  · exact .ret ()

/-! ## The kill switch -/

theorem benign_triggerKillSwitch (reason actor : String) (correlationId : Option String) :
    Benign cfg (RiskManager.triggerKillSwitch cfg reason actor correlationId) := by
  unfold RiskManager.triggerKillSwitch
  split_ifs with hreason
  · exact .raise _
  · refine .bind ?_ fun _ => benign_record ⟨rfl, by simp, rfl⟩
    refine ⟨fun {c m₀ m} h => safe_ensure.2 ?_⟩
    unfold RiskManager.writeControl
    split_ifs with hrep
    · refine safe_bind.2 (safe_call.2 ⟨h.ask trivial, fun r m₁ _ hm => ?_⟩)
      cases r with
      | ok row =>
        refine ⟨Memory.Sound.haltAll (m := { m₁ with controlState := row }) (hm.congr rfl rfl rfl) _,
          fun _ => ⟨?_, rfl, rfl⟩, fun _ => trivial⟩
        simp [Memory.control, RiskManager.haltAll, RiskManager.revokeActive, controlAfter]
      | error e =>
        refine ⟨hm.haltAll _, fun _ => ⟨?_, rfl, rfl⟩, fun _ => trivial⟩
        simp [Memory.control, RiskManager.haltAll, RiskManager.revokeActive, controlAfter]
    · exact h.local (by simpa using hrep) (Memory.Sound.haltAll
        (m := { m with controlState := RiskManager.localControl m true (strip reason) actor })
        (h.sound.congr rfl rfl rfl) _)

theorem benign_resetKillSwitch (reason actor : String) (correlationId : Option String) :
    Benign cfg (RiskManager.resetKillSwitch cfg reason actor correlationId) := by
  refine .read fun mem => ?_
  split_ifs with hstate hreason
  · exact .raise _
  · exact .raise _
  · have hrecord : Benign cfg (AuditService.record cfg { auditType := "KILL_SWITCH_RESET" }) :=
      benign_record ⟨rfl, by simp, rfl⟩
    refine ⟨fun {c m₀ m} h => ?_⟩
    unfold RiskManager.writeControl
    split_ifs with hrep
    · refine safe_bind.2 (safe_call.2 ⟨h.ask trivial, fun r m₁ _ hm => ?_⟩)
      cases r with
      | error e => exact .reply hm rfl rfl fun _ => trivial
      | ok row =>
        simp only [bind_eq, modify_bind, read_bind, safe_get, safe_put]
        refine safe_bind.2 (safe_leave.2 ?_)
        cases hsm : m₁.sm.resetKillSwitchAfterMaintenance with
        | error e =>
          -- the state is not MAINTENANCE any more
          have hne : m₁.sm.state ≠ .maintenance := by
            intro he
            simp [StateMachine.resetKillSwitchAfterMaintenance, he] at hsm
          refine ⟨hm.congr rfl rfl rfl, fun _ => ⟨?_, rfl, rfl⟩, fun _ => trivial⟩
          simp only [controlAfter, if_neg hne]
          rfl
        | ok sm =>
          obtain ⟨he, rfl⟩ := StateMachine.reset_ok hsm
          simp only [safe_get, safe_put]
          refine hrecord.safe ⟨hm.congr rfl rfl rfl, fun _ => ⟨?_, rfl, rfl⟩, fun _ => trivial⟩
          simp only [controlAfter, if_pos he]
          rfl
    · have hlocal : ∀ m' : Memory, m'.Sound cfg → Free cfg c m₀ m' :=
        fun m' hm' => h.local (by simpa using hrep) hm'
      simp only [bind_eq, read_bind, get_bind, ret_bind, modify_bind, safe_get, safe_put]
      refine safe_bind.2 (safe_leave.2 ?_)
      cases m.sm.resetKillSwitchAfterMaintenance with
      | error e => exact hlocal _ (h.sound.congr rfl rfl rfl)
      | ok sm => exact hrecord.safe (hlocal _ (h.sound.congr rfl rfl rfl))

theorem benign_triggerUnlessActive (reason actor : String) (correlationId : Option String) :
    Benign cfg (OmsService.triggerUnlessActive cfg reason actor correlationId) := by
  refine .read fun mem => ?_
  split_ifs
  · exact .ret ()
  · exact benign_triggerKillSwitch reason actor correlationId

/-! ## check -/

/-- a check asks for its stored evidence first -/
example : (match ((RiskManager.check .sample { decision := sampleDecision, entryPrice := 100 }).settle
    (Memory.fresh .sample 0)).2 with
    | .waiting (.loadCentralRiskEvaluationByKey key) _ => key == "d"
    | _ => false) = true := by
  decide +kernel

/-- what `_finalize` constructs is sized, and its approval minted -/
theorem evidence_ok {mem : Memory} {a : CheckArgs} {f : Finding} {k : RiskCheck}
    {approval : Option OrderApproval} (hf : RiskManager.assess cfg mem a = .ok f)
    (h : RiskManager.evidence cfg mem a f = .ok (k, approval)) :
    Sized k ∧ ∀ x ∈ approval, Minted cfg x := by
  have hminted : ∀ x ∈ approval, Minted cfg x := by
    rintro x rfl
    exact ⟨mem, a, f, k, x, hf, h, rfl⟩
  refine ⟨fun hk => ?_, hminted⟩
  unfold RiskManager.evidence at h
  split at h
  · -- without an approval the check cannot be approved
    rename_i hnone
    split at h
    · rename_i k' hc
      cases h
      obtain ⟨-, hr, rfl⟩ := validateModel_ok.1 hc
      simp only [List.forall_mem_cons, decide_eq_true_eq] at hr
      have := (hr.2.1 hk).1
      simp [RiskManager.riskCheckOf] at this
    · cases h
  · -- the size of the check is the notional of the approval
    rename_i x hx
    split at h
    · cases h
    · rename_i x' hx'
      split at h
      · rename_i k' hc
        cases h
        obtain ⟨-, -, rfl⟩ := validateModel_ok.1 hc
        unfold RiskManager.approvalOf at hx
        split at hx
        · rename_i size hterms hsize
          cases hx
          exact ⟨size, hsize, (OrderApproval.check_ok hx').2.1⟩
        · cases hx
      · cases h

theorem failedCheck_sized (k : RiskCheck) (e : Error) : Sized (RiskManager.failedCheck k e) := by
  intro h
  simp [RiskManager.failedCheck, RiskStatus.isApproved] at h

theorem benign_finalizeEvidence {k : RiskCheck} {approval : Option OrderApproval} (hk : Sized k)
    (ha : ∀ x ∈ approval, Minted cfg x) :
    Benign cfg (RiskManager.finalizeEvidence cfg k approval) := by
  have hrecorded : Benign cfg (RiskManager.recordEvidence cfg k approval) := by
    refine ⟨fun {c m₀ m} h => safe_bind.2 ?_⟩
    refine safe_record (fun _ _ => h) (fun hr => ?_) (fun _ _ => h.ask ⟨?_, by simp⟩)
      (fun hr m₁ hm => ?_) (fun _ _ e m₁ hm => .reply hm rfl rfl fun _ => trivial)
    · simp only [hr, Bool.false_eq_true, if_false]
      exact h
    · rintro k' x hx
      cases hx
      exact ha x rfl
    · simp only [hr, if_true]
      have hfree : Free cfg (.reply (.saveAuditLog
          { auditType := "RISK_CHECK", entityId := some k.riskCheckId,
            evidence := some (k, approval) }) (.ok ())) m₁ m₁ :=
        .reply hm rfl rfl fun _ hc => by cases hc
      refine safe_call.2 ⟨hfree.ask ⟨hk, ha, _, _, rfl, rfl⟩, fun r m₂ _ hm₂ => ?_⟩
      cases r <;> exact .reply hm₂ rfl rfl fun _ => trivial
  refine hrecorded.attempt.bind fun r => ?_
  cases r with
  | error e =>
    refine .bind (Benign.modify (fun m h => ?_) (fun _ => rfl) fun _ => rfl) fun _ => .ret _
    exact (h.rememberCheck (failedCheck_sized k e)).congr rfl rfl rfl
  | ok u =>
    refine .bind (Benign.modify (fun m h => ?_) (fun _ => ?_) (fun _ => ?_) fun _ => ?_) fun _ => .ret _
    · cases approval with
      | none => exact h.rememberCheck hk
      | some x => exact (h.rememberCheck hk).rememberApproval (ha x rfl)
    all_goals cases approval <;> rfl

theorem benign_evaluate (a : CheckArgs) : Benign cfg (RiskManager.evaluate cfg a) := by
  refine .read fun mem => ?_
  cases hf : RiskManager.assess cfg mem a with
  | error e => exact .raise e
  | ok f =>
    simp only [bind_eq, leave_ok, ret_bind]
    refine .bind (Benign.modify (fun m h => ?_) (fun m => ?_) (fun m => ?_) fun m => ?_) fun _ => ?_
    · split_ifs
      · exact h.congr rfl rfl rfl
      · exact h
    · split_ifs <;> rfl
    · split_ifs <;> rfl
    · split_ifs <;> rfl
    · cases hev : RiskManager.evidence cfg mem a f with
      | error e => exact .raise e
      | ok p =>
        obtain ⟨hk, ha⟩ := evidence_ok hf hev
        exact benign_finalizeEvidence hk ha

theorem benign_check (a : CheckArgs) : Benign cfg (RiskManager.check cfg a) := by
  unfold RiskManager.check
  split_ifs with hpositive hcap hrep
  · exact .raise _
  · exact .raise _
  · refine .read fun mem => ?_
    split
    · split_ifs
      · exact .raise _
      · exact .ret _
    · refine ⟨fun {c m₀ m} h => safe_bind.2 (safe_call.2 ⟨h.ask trivial, fun r m₁ hr hm => ?_⟩)⟩
      have hfree : Free cfg (.reply (.loadCentralRiskEvaluationByKey (RiskManager.checkKey a)) r)
          m₁ m₁ := by
        cases r <;> exact .reply hm rfl rfl fun _ => trivial
      rcases r with e | _ | ⟨k, approval⟩
      · exact hfree
      · exact (benign_evaluate a).safe hfree
      · obtain ⟨hk, ha⟩ := hr k approval rfl
        dsimp only
        split_ifs
        · exact hfree
        · refine hfree.of_eq ?_ ?_ ?_ ?_
          · cases approval with
            | none => exact hm.insertCheck hk
            | some x => exact (hm.insertCheck hk).rememberApproval (ha x rfl)
          all_goals cases approval <;> rfl
  · refine .read fun mem => ?_
    split
    · split_ifs
      · exact .raise _
      · exact .ret _
    · exact benign_evaluate a

/-! ## Paper orders -/

/-- what the gate looked at when it granted an approval -/
theorem authorize_granted {d : Decision} {rc : RiskCheck} {t : RiskManager.Terms} {msg : String}
    {approval : OrderApproval} (h : RiskManager.authorize m d rc t msg = .granted approval) :
    m.approvals.lookup (rc.approvalId.getD "") = some approval ∧
      m.checksByKey.lookup rc.idempotencyKey = some rc ∧ approval.status = .active ∧
      approval.positionSnapshotHash = positionSnapshotHash (RiskManager.positionList m) ∧
      m.now < approval.expiresAt ∧ RiskManager.covers approval d rc t ∧ m.killGate = false := by
  unfold RiskManager.authorize at h
  split at h
  · cases h
  · rename_i a ha
    split_ifs at h with hcheck hactive hhash hexp hcov hkill
    cases h
    exact ⟨ha, not_not.1 hcheck, not_not.1 hactive, not_not.1 hhash, not_le.1 hexp,
      hcov, by simpa using hkill⟩

theorem authorize_expired {d : Decision} {rc : RiskCheck} {t : RiskManager.Terms} {msg : String}
    {approval : OrderApproval} (h : RiskManager.authorize m d rc t msg = .expired approval) :
    m.approvals.lookup (rc.approvalId.getD "") = some approval := by
  unfold RiskManager.authorize at h
  split at h
  · cases h
  · rename_i a ha
    split_ifs at h
    cases h
    exact ha

/-- the gate runs on the memory it reads and awaits nothing -/
theorem safe_gate {d : Decision} {rc : RiskCheck} {t : RiskManager.Terms} {msg : String}
    {post : Except Error OrderApproval → Trigger → Memory → Memory → Prop}
    (h : Free cfg c m₀ m) (herror : ∀ e m', Free cfg c m₀ m' → post (.error e) c m₀ m')
    (hgranted : ∀ approval, RiskManager.authorize m d rc t msg = .granted approval →
      post (.ok approval) c m₀ m) :
    Safe (contract cfg) (RiskManager.gate d rc t msg) c m₀ m post := by
  simp only [RiskManager.gate, bind_eq, read_bind, safe_get]
  split
  · exact herror _ _ h
  · rename_i approval happ
    refine herror _ _ (h.of_eq (h.sound.rememberApproval ?_) rfl rfl)
    exact (h.sound.minted (authorize_expired happ)).congr rfl
  · rename_i approval happ
    exact hgranted approval happ

/-- the approval is consumed and the order is still to be booked -/
structure Consumed (cfg : Config) (order : PaperOrder) (c : Trigger) (m₀ m : Memory) : Prop where
  sound : m.Sound cfg
  local_ : cfg.repository = false → Free cfg c m₀ m
  durable : cfg.repository = true → ∃ a mirror,
    c = .reply (.consumeOrderApproval a order mirror) (.ok ()) ∧ m.control = m₀.control ∧
    m.book = m₀.book ∧ m.tally = m₀.tally

theorem safe_consumeApproval {d : Decision} {rc : RiskCheck} {order : PaperOrder} {price : ℚ}
    (h : Free cfg c m₀ m) (hid : order.approvalId = rc.approvalId) (hfilled : order.status = .filled)
    (happ : rc.riskStatus.isApproved = true) (hsize : order.positionSize = rc.positionSize.getD 0)
    (hlev : 1 ≤ order.leverage) :
    Safe (contract cfg) (RiskManager.consumeApproval cfg d rc order price) c m₀ m
      fun r c m₀ m => match r with
        | .ok _ => Consumed cfg order c m₀ m ∧ 0 < order.positionSize
        | .error _ => Free cfg c m₀ m := by
  refine safe_bind.2 (safe_gate h (fun _ _ hf => hf) fun approval hg => ?_)
  have hgranted := authorize_granted hg
  have hlookup := hgranted.1
  have hcheck := hgranted.2.1
  have hpos : 0 < order.positionSize := by
    obtain ⟨s, hs, hs0⟩ := h.sound.sized hcheck happ
    rw [hsize, Option.mem_def.1 hs]
    exact hs0
  have hminted := h.sound.minted hlookup
  simp only [bind_eq, read_bind, safe_get]
  rw [safe_bind, safe_leave]
  cases hmirror : (RiskManager.omsMirror order approval.approvalId).check with
  | error e => exact h
  | ok mirror =>
    obtain rfl := (OmsOrder.check_ok hmirror).1
    dsimp only
    split_ifs with hrep
    · refine safe_bind.2 (safe_call.2 ⟨h.ask ?_, fun r m₁ _ hm => ?_⟩)
      · exact ⟨⟨d, rc, _, _, approval, hg, rfl, hid, rfl⟩, rfl, hmirror, hfilled, hpos, hlev⟩
      · cases r with
        | error e => exact .reply hm rfl rfl fun _ => trivial
        | ok u =>
          refine ⟨⟨hm.rememberApproval (hminted.congr rfl), fun hr => ?_, fun _ => ?_⟩, hpos⟩
          · exact absurd hrep (by simp [hr])
          · exact ⟨_, _, rfl, rfl, rfl, rfl⟩
    · have hfree : Free cfg c m₀ (RiskManager.rememberApproval
          { approval with status := .consumed, consumedAt := some m.now,
                          paperOrderId := some order.paperOrderId, omsOrderId := none } m) :=
        h.of_eq (h.sound.rememberApproval (hminted.congr rfl)) rfl rfl
      exact ⟨⟨hfree.sound, fun _ => hfree, fun hr => absurd hr hrep⟩, hpos⟩

/-- booking the order completes the segment its consumption began -/
theorem Consumed.registered {order : PaperOrder} (h : Consumed cfg order c m₀ m)
    (hpos : 0 < order.positionSize) (hlev : 1 ≤ order.leverage)
    (a : PaperTradingEngine.CreateArgs) (ledger : ExecutionCostLedger) (openedAt : Time) :
    Safe (contract cfg) (RiskManager.registerPosition order) c m₀
      (PaperTradingEngine.book cfg a ledger openedAt order m) fun _ c m₀ m => Free cfg c m₀ m := by
  have hvalid : (Exposures.ofPaper order).check = .ok (Exposures.ofPaper order) := by
    refine validateModel_ok.2 ⟨?_, by simp, rfl⟩
    simpa [Exposures.ofPaper] using ⟨hpos, hlev⟩
  have hsound : (RiskManager.putPosition (Exposures.ofPaper order)
      (PaperTradingEngine.book cfg a ledger openedAt order m)).Sound cfg :=
    (h.sound.book a ledger openedAt order).congr rfl rfl rfl
  simp only [RiskManager.registerPosition, hvalid, bind_eq, leave_ok, ret_bind, safe_modify]
  by_cases hrep : cfg.repository = true
  · obtain ⟨ap, mirror, rfl, hc, hb, ht⟩ := h.durable hrep
    refine ⟨hsound, fun _ => ⟨hc, ?_, ?_⟩, fun _ => trivial⟩
    · simp only [Memory.book, Book.mk.injEq] at hb
      simp only [Memory.book, bookAfter, RiskManager.putPosition, PaperTradingEngine.book, hb.1, hb.2]
      rfl
    · rw [show (RiskManager.putPosition (Exposures.ofPaper order)
        (PaperTradingEngine.book cfg a ledger openedAt order m)).tally = _ from
          book_tally cfg a ledger openedAt order m, ht]
      rfl
  · have hrep : cfg.repository = false := by simpa using hrep
    exact (h.local_ hrep).local hrep hsound

theorem benign_createOrder (a : PaperTradingEngine.CreateArgs) :
    Benign cfg (PaperTradingEngine.createOrder cfg a) := by
  unfold PaperTradingEngine.createOrder
  split_ifs with happ hdecision
  · exact .raise _
  · exact .raise _
  · refine .read fun mem => ?_
    split_ifs
    · exact .raise _
    · cases OrderSide.ofAction a.decision.candidateAction with
      | error e => exact .raise e
      | ok side =>
        simp only [bind_eq, leave_ok, ret_bind]
        refine .bind (.leave _) fun fill => ?_
        cases horder : (PaperTradingEngine.orderOf cfg mem.now a side fill).check with
        | error e => exact .raise e
        | ok order =>
          obtain ⟨hf, -, rfl⟩ := validateModel_ok.1 horder
          simp only [List.forall_mem_cons, decide_eq_true_eq] at hf
          have hlev := hf.2.2.1
          simp only [leave_ok, ret_bind]
          refine .bind (benign_record ⟨rfl, by simp, rfl⟩) fun _ => ⟨fun {c m₀ m} h => ?_⟩
          refine safe_bind.2 ((safe_consumeApproval h rfl rfl (by simpa using happ) rfl hlev).imp ?_)
          intro r c m₀ m hr
          cases r with
          | error e => exact hr
          | ok u =>
            refine safe_bind.2 (safe_modify.2 (safe_bind.2 ?_))
            refine (hr.1.registered hr.2 hlev a fill.ledger _).imp fun r c m₀ m hfree => ?_
            cases r <;> exact hfree

theorem updateEquity_control (balance : ℚ) (m : Memory) :
    (RiskManager.updateEquity balance m).control = m.control := by
  by_cases h : 0 < max m.peakEquity balance <;>
    simp only [RiskManager.updateEquity, Memory.control, h, if_true, if_false]

theorem settle_control (cfg : Config) (closing : PaperTradingEngine.Closing) (m : Memory) :
    (PaperTradingEngine.settle cfg closing m).control = m.control := updateEquity_control _ _

/-- funding moves the cost ledgers only -/
theorem accrued_frame {order : PaperOrder} {endAt : Time} {m m' : Memory}
    (h : PaperTradingEngine.accrued cfg order endAt m = .ok m') :
    ∃ costs at_, m' = { m with paper :=
      { m.paper with executionCosts := costs, lastFundingAt := at_ } } := by
  unfold PaperTradingEngine.accrued at h
  split at h
  · split_ifs at h
    · exact ⟨_, _, (Except.ok.inj h).symm⟩
    · split at h
      · cases h
      · cases hcost : RealisticExecutionModel.fundingCost _ order _ endAt with
        | error e => rw [hcost] at h; cases h
        | ok cost =>
          rw [hcost] at h
          exact ⟨_, _, (Except.ok.inj h).symm⟩
  · exact ⟨_, _, (Except.ok.inj h).symm⟩

/-- accruing funding leaves the book open -/
theorem safe_accrueFunding (h : Free cfg c m₀ m) (order : PaperOrder) (endAt : Time) :
    Safe (contract cfg) (PaperTradingEngine.accrueFunding cfg order endAt) c m₀ m
      fun _ c m₀ m' => Free cfg c m₀ m' ∧ m'.paper.openOrders = m.paper.openOrders := by
  simp only [PaperTradingEngine.accrueFunding, bind_eq, read_bind, safe_get]
  cases hm : PaperTradingEngine.accrued cfg order endAt m with
  | error e => exact ⟨h, rfl⟩
  | ok m' =>
    obtain ⟨costs, at_, rfl⟩ := accrued_frame hm
    simp only [leave_ok, ret_bind]
    exact safe_modify.2 ⟨h.of_eq (h.sound.congr rfl rfl rfl) rfl rfl, rfl⟩

theorem closing_id {a : PaperTradingEngine.CloseArgs} {order : PaperOrder} {m : Memory}
    {closing : PaperTradingEngine.Closing}
    (h : PaperTradingEngine.closing cfg a order m = .ok closing) :
    closing.closed.paperOrderId = order.paperOrderId ∧ closing.closed.status = .closed ∧
      closing.closed.pnl = some (Decimal.round closing.netPnl 4) := by
  unfold PaperTradingEngine.closing at h
  cases hfill : PaperTradingEngine.closeFill cfg a order
      ((m.paper.executionCosts.lookup order.paperOrderId).getD {}) with
  | error e => rw [hfill] at h; cases h
  | ok fill =>
    rw [hfill] at h
    obtain rfl := Except.ok.inj h
    exact ⟨rfl, rfl, rfl⟩

theorem keepCosts_frame (cfg : Config) (closing : PaperTradingEngine.Closing) (m : Memory) :
    ∃ costs at_, PaperTradingEngine.keepCosts cfg closing m = { m with paper :=
      { m.paper with executionCosts := costs, lastFundingAt := at_ } } := by
  unfold PaperTradingEngine.keepCosts
  split_ifs <;> exact ⟨_, _, rfl⟩

theorem safe_fundClosing (h : Free cfg c m₀ m) (a : PaperTradingEngine.CloseArgs)
    (order : PaperOrder) :
    Safe (contract cfg) (PaperTradingEngine.fundClosing cfg a order) c m₀ m
      fun _ c m₀ m' => Free cfg c m₀ m' ∧ m'.paper.openOrders = m.paper.openOrders := by
  unfold PaperTradingEngine.fundClosing
  split
  · exact safe_accrueFunding h _ _
  · exact ⟨h, rfl⟩

/-- what follows the awaits of a close -/
theorem safe_settle {a : PaperTradingEngine.CloseArgs} {closing : PaperTradingEngine.Closing}
    (hm : m.Sound cfg) (hclosed : closing.closed.paperOrderId = a.paperOrderId)
    (hpnl : closing.closed.pnl = some (Decimal.round closing.netPnl 4))
    (hnext : ∀ next, Next c m₀ next)
    (hnone : m.paper.openOrders.lookup a.paperOrderId = none → Segment cfg c m₀ m)
    (hsome : ∀ o, m.paper.openOrders.lookup a.paperOrderId = some o → ∀ m' : Memory,
      m'.control = m.control → m'.book = ⟨AList.erase (.paper a.paperOrderId) m.positions,
        AList.erase a.paperOrderId m.paper.openOrders⟩ →
      m'.tally = { m.tally with closed := m.tally.closed ++ [closing.closed] } →
      Segment cfg c m₀ m') :
    Safe (contract cfg) (do
      Coro.modify (PaperTradingEngine.keepCosts cfg closing)
      let m ← Coro.read
      match m.paper.openOrders.lookup a.paperOrderId with
      | none => Coro.raise ⟨.transport, "KeyError"⟩
      | some _ => do
        Coro.modify (PaperTradingEngine.settle cfg closing)
        Coro.ret closing.closed) c m₀ m fun _ c m₀ m => Free cfg c m₀ m := by
  obtain ⟨costs, at_, hcosts⟩ := keepCosts_frame cfg closing m
  simp only [bind_eq, modify_bind, read_bind, safe_get, safe_put, hcosts]
  split
  · rename_i h
    refine ⟨hm.congr rfl rfl rfl, fun hr => ?_, hnext⟩
    exact hnone h hr
  · rename_i o h
    simp only [safe_get, safe_put, safe_ret]
    have hkept : ({ m with paper := { m.paper with executionCosts := costs,
                                                   lastFundingAt := at_ } } : Memory).Sound cfg :=
      hm.congr rfl rfl rfl
    refine ⟨hkept.settle hpnl, ?_, hnext⟩
    refine hsome o h _ (settle_control _ _ _) ?_ ?_
    · rw [settle_book, hclosed]
    · exact settle_tally _ _ _

/-- a close of an order that is open now -/
theorem safe_closeOpen {a : PaperTradingEngine.CloseArgs} {order : PaperOrder}
    (h : Free cfg c m₀ m) (hopen : m.paper.openOrders.lookup a.paperOrderId = some order) :
    Safe (contract cfg) (PaperTradingEngine.closeOpen cfg a order) c m₀ m
      fun _ c m₀ m => Free cfg c m₀ m := by
  have hid : order.paperOrderId = a.paperOrderId := h.sound.booked hopen
  unfold PaperTradingEngine.closeOpen
  refine safe_bind.2 ((safe_fundClosing h a order).imp fun r c m₀ m' ⟨h, hbook⟩ => ?_)
  rw [← hbook] at hopen
  cases r with
  | error e => exact h
  | ok u =>
    simp only [bind_eq, read_bind, safe_get]
    cases hclosing : PaperTradingEngine.closing cfg a order m' with
    | error e => exact h
    | ok closing =>
      obtain ⟨hclosed, hstatus, hpnl⟩ := closing_id hclosing
      rw [hid] at hclosed
      simp only [leave_ok, ret_bind]
      refine safe_bind.2 (safe_record (fun _ _ => h) (fun hrep => ?_)
        (fun _ _ => h.ask ⟨by simp, ?_⟩) (fun hrep m₁ hm => ?_)
        fun _ _ _ m₁ hm => .reply hm rfl rfl fun _ => trivial)
      · have hfalse : ¬ (cfg.repository = true) := by simp [hrep]
        rw [if_neg hfalse]
        refine safe_settle h.sound hclosed hpnl h.next (fun _ hr => absurd hr hfalse) ?_
        exact fun _ _ _ _ _ _ hr => absurd hr hfalse
      · exact fun _ => ⟨_, rfl, by rw [hid, hopen]; rfl⟩
      · have hfree : Free cfg (.reply (.saveAuditLog
            { auditType := "PAPER_ORDER_CLOSED", entityId := some order.paperOrderId })
            (.ok ())) m₁ m₁ := .reply hm rfl rfl fun _ hc => by cases hc
        rw [if_pos hrep]
        refine safe_bind.2 (safe_call.2 ⟨hfree.ask ⟨hrep, hstatus, _, _, rfl, rfl, ?_⟩,
          fun r m₂ _ hm₂ => ?_⟩)
        · rw [hclosed, hid]
        · cases r with
          | error e => exact .reply hm₂ rfl rfl fun _ => trivial
          | ok u =>
            refine safe_settle hm₂ hclosed hpnl (fun _ => trivial) (fun hnone hr => ?_)
              fun o hsome m' hc hb ht hr => ⟨hc, ?_, ?_⟩
            · rw [← hclosed] at hnone
              exact ⟨rfl, by simp [bookAfter, hnone], by simp [tallyAfter, hnone]⟩
            · rw [← hclosed] at hsome
              rw [hb, ← hclosed]
              simp only [bookAfter, hsome, Option.isSome_some, if_true]
            · rw [← hclosed] at hsome
              rw [ht]
              simp only [tallyAfter, hsome, Option.isSome_some, if_true]

theorem benign_closeOrder (a : PaperTradingEngine.CloseArgs) :
    Benign cfg (PaperTradingEngine.closeOrder cfg a) := by
  unfold PaperTradingEngine.closeOrder
  split_ifs with hprice
  · exact .raise _
  · refine ⟨fun {c m₀ m} h => ?_⟩
    simp only [bind_eq, read_bind, safe_get]
    split
    · exact h
    · rename_i order horder
      split_ifs with hzero
      · exact h
      · exact safe_closeOpen h horder

theorem benign_monitor (candle : Candle) (orders : List PaperOrder) :
    Benign cfg (PaperTradingEngine.monitor cfg candle orders) := by
  induction orders with
  | nil => exact .ret _
  | cons order rest ih =>
    unfold PaperTradingEngine.monitor
    split_ifs
    · exact ih
    · have hfund : Benign cfg (PaperTradingEngine.accrueFunding cfg order candle.closedAt) :=
        ⟨fun h => (safe_accrueFunding h _ _).imp fun _ _ _ _ hr => hr.1⟩
      refine .bind hfund fun _ => .bind (Benign.modify (fun _ hm => hm.tested _ _)
        (fun _ => rfl) (fun _ => rfl) fun m => ?_) fun _ => ?_
      · simp [Memory.tally, openings, closings]
      split
      · exact ih
      · exact .bind (benign_closeOrder _) fun _ => .bind ih fun _ => .ret _

theorem benign_onCandle (candle : Candle) : Benign cfg (PaperTradingEngine.onCandle cfg candle) :=
  .read fun _ => benign_monitor candle _

/-! ## Submission -/

/-- a TESTNET order as `submit_approved` builds it, with its command -/
structure Prepared (cfg : Config) (order : OmsOrder) (command : ExecutionCommand) : Prop where
  fresh : order.environment = .testnet ∧ order.status = .pendingSubmission ∧
    order.stateVersion = 1 ∧ order.cumulativeFilledQuantity = 0 ∧ order.averageFillPrice = none
  valid : order.check = .ok order
  command : ∃ t, command = OmsService.submitCommand cfg t order.omsOrderId

theorem reservation_check {order created : OmsOrder} (hvalid : order.check = .ok order)
    (hid : created.identity = order.identity) (hpos : 0 < Exposures.remainingQuantity created) :
    (RiskManager.reservation created).check = .ok (RiskManager.reservation created) := by
  obtain ⟨-, -, href, hlev, -⟩ := OmsOrder.check_ok hvalid
  have href' : created.referencePrice = order.referencePrice :=
    congrArg OmsIdentity.referencePrice hid
  have hlev' : created.leverage = order.leverage := congrArg OmsIdentity.leverage hid
  refine validateModel_ok.2 ⟨?_, by simp, rfl⟩
  simp only [RiskManager.reservation, List.forall_mem_cons, decide_eq_true_eq, href', hlev']
  exact ⟨mul_pos hpos href, hlev, by simp⟩

theorem safe_consumeOmsApproval {d : Decision} {rc : RiskCheck} {order : OmsOrder}
    {command : ExecutionCommand} (h : Free cfg c m₀ m) (hp : Prepared cfg order command) :
    Safe (contract cfg) (RiskManager.consumeOmsApproval cfg d rc order command) c m₀ m
      fun _ c m₀ m => Free cfg c m₀ m := by
  unfold RiskManager.consumeOmsApproval
  split_ifs with henv hrep
  · exact h
  · refine safe_bind.2 (safe_gate h (fun _ _ hf => hf) fun approval hg => ?_)
    have hminted := h.sound.minted (authorize_granted hg).1
    simp only [bind_eq, read_bind, safe_get]
    refine safe_bind.2 (safe_call.2 ⟨h.ask ?_, fun r m₁ hr hm => ?_⟩)
    · exact ⟨⟨d, rc, _, _, approval, hg, rfl⟩, hp.fresh, hp.valid, hp.command⟩
    · cases r with
      | error e => exact .reply hm rfl rfl fun _ => trivial
      | ok created =>
        dsimp only
        split_ifs with hpos
        · rw [reservation_check hp.valid (hr created rfl) hpos]
          refine ⟨(hm.congr rfl rfl rfl : Memory.Sound cfg (RiskManager.putPosition
            (RiskManager.reservation created) m₁)).rememberApproval (hminted.congr rfl),
            fun _ => ⟨rfl, ?_, rfl⟩, fun _ => trivial⟩
          simp only [bookAfter, reserved, if_pos hpos]
          rfl
        · refine ⟨hm.rememberApproval (hminted.congr rfl), fun _ => ⟨rfl, ?_, rfl⟩, fun _ => trivial⟩
          simp only [bookAfter, reserved, if_neg hpos]
          rfl
  · have hrep : cfg.repository = false := by simpa using hrep
    refine safe_bind.2 (safe_gate h (fun _ _ hf => hf) fun approval hg => ?_)
    have hminted := h.sound.minted (authorize_granted hg).1
    simp only [bind_eq, read_bind, ret_bind, safe_get]
    split_ifs with hpos
    · rw [reservation_check hp.valid rfl hpos]
      exact h.local hrep ((h.sound.congr rfl rfl rfl : Memory.Sound cfg (RiskManager.putPosition
        (RiskManager.reservation order) m)).rememberApproval (hminted.congr rfl))
    · exact h.local hrep (h.sound.rememberApproval (hminted.congr rfl))

theorem benign_rememberOrder (o : OmsOrder) : Benign cfg (Coro.modify (OmsService.rememberOrder o)) :=
  Benign.modify (fun _ h => h.congr rfl rfl rfl) (fun _ => rfl) fun _ => rfl

theorem benign_getOrder (i : String) : Benign cfg (OmsService.getOrder cfg i) := by
  unfold OmsService.getOrder
  split_ifs
  · refine .bind (Benign.ask (fun _ _ => trivial) fun r m => ⟨?_, ?_, fun _ => ?_⟩) fun found => ?_
    · cases r <;> rfl
    · cases r <;> rfl
    · cases r <;> trivial
    · cases found with
      | none => exact .read fun _ => .ret _
      | some o => exact .bind (benign_rememberOrder o) fun _ => .ret _
  · exact .read fun _ => .ret _

theorem benign_storedMirror (o : OmsOrder) : Benign cfg (OmsService.storedMirror cfg o) := by
  unfold OmsService.storedMirror
  split_ifs
  · refine .bind (Benign.ask (fun _ _ => trivial) fun r m => ⟨?_, ?_, fun _ => ?_⟩) fun found => ?_
    · cases r <;> rfl
    · cases r <;> rfl
    · cases r <;> trivial
    · cases found with
      | none => exact .raise _
      | some o => exact .ret o
  · exact .ret _

theorem benign_submitPaper (a : OmsService.SubmitArgs) :
    Benign cfg (OmsService.submitPaper cfg a) :=
  .bind (benign_createOrder _) fun _ => .bind (.leave _) fun mirrored =>
    .bind (benign_storedMirror mirrored) fun stored => .bind (benign_rememberOrder stored) fun _ =>
      .ret _

theorem normalize_ok {r : QuantityRules} {o o' : OmsOrder} (h : r.normalize o = .ok o') :
    o'.check = .ok o' ∧ ∃ q n, o' = { o with quantity := q, requestedNotional := n } := by
  unfold QuantityRules.normalize at h
  dsimp only at h
  split_ifs at h
  obtain rfl := (OmsOrder.check_ok h).1
  exact ⟨h, _, _, rfl⟩

theorem benign_submitTestnet (a : OmsService.SubmitArgs) (approvalId : String) :
    Benign cfg (OmsService.submitTestnet cfg a approvalId) := by
  refine .read fun mem => .bind (.leave _) fun side => ?_
  cases hbuilt : (OmsService.testnetOrder cfg mem.now a approvalId side).check with
  | error e => exact .raise e
  | ok built =>
    obtain rfl := (OmsOrder.check_ok hbuilt).1
    simp only [bind_eq, leave_ok, ret_bind]
    refine ⟨fun {c m₀ m} h => safe_bind.2 (safe_bind.2 (safe_call.2 ⟨h.ask trivial, ?_⟩))⟩
    intro r m₁ _ hm
    -- what follows once the order is prepared
    have hrest : ∀ order, (∀ command, (∃ t, command = OmsService.submitCommand cfg t
        order.omsOrderId) → Prepared cfg order command) →
        Safe (contract cfg) (Coro.read.bind fun m =>
          (AuditService.record cfg { auditType := "OMS_TESTNET_ORDER_REQUESTED",
                                     entityId := some order.omsOrderId }).bind fun _ =>
            (RiskManager.consumeOmsApproval cfg a.decision a.riskCheck order
              (OmsService.submitCommand cfg m.now order.omsOrderId)).bind fun created =>
              (Coro.modify (OmsService.rememberOrder created)).bind fun _ => Coro.ret created)
          (.reply (.instrumentRules (OmsService.testnetOrder cfg mem.now a approvalId side).exchange
            (OmsService.testnetOrder cfg mem.now a approvalId side).symbol) r) m₁ m₁
          fun _ c m₀ m => Free cfg c m₀ m := by
      intro order hp
      refine Stays.safe (.read fun mem' => .bind (benign_record ⟨rfl, by simp, rfl⟩) fun _ =>
        .bind ⟨fun h => safe_consumeOmsApproval h (hp _ ⟨_, rfl⟩)⟩ fun created =>
          .bind (benign_rememberOrder created) fun _ => .ret _) ?_
      cases r <;> exact .reply hm rfl rfl fun _ => trivial
    rcases r with e | _ | rules
    · exact .reply hm rfl rfl fun _ => trivial
    · exact hrest _ fun command hc => ⟨⟨rfl, rfl, rfl, rfl, rfl⟩, hbuilt, hc⟩
    · refine safe_leave.2 ?_
      cases hn : rules.normalize (OmsService.testnetOrder cfg mem.now a approvalId side) with
      | error e => exact .reply hm rfl rfl fun _ => trivial
      | ok order =>
        obtain ⟨hv, q, n, rfl⟩ := normalize_ok hn
        exact hrest _ fun command hc => ⟨⟨rfl, rfl, rfl, rfl, rfl⟩, hv, hc⟩

theorem benign_submitApproved (a : OmsService.SubmitArgs) :
    Benign cfg (OmsService.submitApproved cfg a) := by
  unfold OmsService.submitApproved
  split
  · exact .raise _
  · split
    · exact .raise _
    · refine .bind (benign_getOrder _) fun existing => ?_
      cases existing with
      | some o => exact .ret o
      | none =>
        dsimp only
        split
        · exact benign_submitPaper a
        · exact benign_submitTestnet a _

theorem benign_queueCancel (i : String) : Benign cfg (OmsService.queueCancel cfg i) := by
  refine .bind (benign_getOrder i) fun found => ?_
  cases found with
  | none => exact .raise _
  | some order =>
    dsimp only
    split
    · exact .raise _
    split
    · exact .raise _
    split
    · exact .raise _
    · refine .read fun mem => .bind (benign_record ⟨rfl, by simp, rfl⟩) fun _ => .bind ?_
        fun stored => .bind (benign_rememberOrder stored) fun _ => .ret _
      unfold OmsService.storeCancel
      split
      · refine Benign.ask (fun _ _ => ⟨rfl, _, rfl⟩) fun r m => ⟨?_, ?_, fun _ => ?_⟩
        · cases r <;> rfl
        · cases r <;> rfl
        · cases r <;> trivial
      · exact .ret _

end CapitalCipher
