/-
The paper account of a process without a repository.

Nothing is awaited there, so every trade is one segment. That an order is opened once is then owed to
the ids alone: an approval is filed under a digest of its request, it is consumed in the segment that
opens its order, and the id of the order is a digest of the id of the approval.

  • `Digest.CollisionFree`: distinct requests and approvals have distinct digests.
  • `Memory.Local`: what the process keeps; `tame_check`, `tame_createOrder`, `tame_closeOrder`,
    `tame_onCandle`: evaluations, opens, closes and candles keep it.
-/
import CapitalCipher.System.Conservation

namespace CapitalCipher

open Lib Coro

/-- no two evaluations share an approval id, and no two texts a `uuid5` -/
structure Digest.CollisionFree (d : Digest) : Prop where
  evaluationId : ∀ {k k' f f'}, d.evaluationId k f = d.evaluationId k' f' → k = k'
  approvalId : ∀ {e e' r r' f f'}, d.approvalId e r f = d.approvalId e' r' f' → e = e'
  uuid5 : Function.Injective d.uuid5

variable {cfg : Config} {c : Trigger} {m₀ m m' : Memory} {α : Type}

/-- the id of a paper order, from the id of its approval -/
def paperIdOf (cfg : Config) (approvalId : String) : String :=
  cfg.digest.uuid5 ("paper-order:" ++ approvalId)

/-- trades square, approvals are filed under the requests they answer, and the approvals of the
orders that were opened are spent -/
structure Memory.Local (cfg : Config) (m : Memory) : Prop where
  sound : m.Sound cfg
  squares : m.tally.Squares m.book
  filed : ∀ {i a}, m.approvals.lookup i = some a → i ≠ "" ∧ ∃ k f r,
    i = cfg.digest.approvalId (cfg.digest.evaluationId k f) r f ∧ (m.checksByKey.lookup k).isSome
  spent : ∀ o ∈ m.tally.opened, ∃ i a, o.paperOrderId = paperIdOf cfg i ∧
    m.approvals.lookup i = some a ∧ a.status ≠ .active

namespace Memory.Local

theorem fresh (cfg : Config) (now : Time) : (Memory.fresh cfg now).Local cfg where
  sound := .fresh cfg now
  squares := .fresh cfg now
  filed h := by simp [Memory.fresh] at h
  spent := by simp [Memory.fresh, Memory.tally, openings]

/-- only the approvals, the checks, the account, its tape and the positions matter -/
theorem congr (h : m.Local cfg) (ha : m'.approvals = m.approvals)
    (hk : m'.checksByKey = m.checksByKey) (hp : m'.account = m.account)
    (ht : m'.tape = m.tape := by rfl) (hpos : m'.positions = m.positions := by rfl) :
    m'.Local cfg where
  sound := h.sound.congr ha hk hp ht
  squares := by
    have htally : m'.tally = m.tally := by rw [Memory.tally, Memory.tally, ht]
    have hbook : m'.book = m.book := by
      rw [Memory.book, Memory.book, hpos]
      exact congrArg (Book.mk m.positions) (congrArg Account.openOrders hp)
    rw [htally, hbook]
    exact h.squares
  filed := by
    rw [ha, hk]
    exact h.filed
  spent := by
    have htally : m'.tally = m.tally := by rw [Memory.tally, Memory.tally, ht]
    rw [ha, htally]
    exact h.spent

theorem rememberCheck (h : m.Local cfg) {k : RiskCheck} (hk : Sized k) :
    (RiskManager.rememberCheck k m).Local cfg where
  sound := h.sound.rememberCheck hk
  squares := h.squares
  filed h' := by
    obtain ⟨hne, k', f, r, hi, hsome⟩ := h.filed h'
    refine ⟨hne, k', f, r, hi, ?_⟩
    simp only [RiskManager.rememberCheck, Dict.lookup_insert_eq]
    split_ifs
    · rfl
    · exact hsome
  spent := h.spent

/-- an approval that is filed already is decided -/
theorem decide (h : m.Local cfg) {a b : OrderApproval} {i : String}
    (hb : m.approvals.lookup i = some b) (hid : a.identity = b.identity) (hs : a.status ≠ .active) :
    (RiskManager.rememberApproval a m).Local cfg := by
  have hkey : a.approvalId = i := by
    have hsame : a.identity.approvalId = b.identity.approvalId := by rw [hid]
    exact Eq.trans (b := b.approvalId) hsame (h.sound.keyed hb)
  refine ⟨h.sound.rememberApproval ((h.sound.minted hb).congr hid.symm), h.squares,
    fun {j x} hx => ?_, fun o ho => ?_⟩
  · rw [RiskManager.rememberApproval, Dict.lookup_insert_eq] at hx
    split_ifs at hx with hj
    · rw [hj, hkey]
      exact h.filed hb
    · exact h.filed hx
  · obtain ⟨j, x, hid, hx, hns⟩ := h.spent o ho
    by_cases hj : j = a.approvalId
    · exact ⟨j, a, hid, by rw [RiskManager.rememberApproval, hj, AList.lookup_insert], hs⟩
    · exact ⟨j, x, hid, by rw [RiskManager.rememberApproval, AList.lookup_insert_ne hj, hx], hns⟩

/-- the approval of a request that was not filed is minted -/
theorem mint (h : m.Local cfg) (hd : cfg.digest.CollisionFree) {a : OrderApproval} {args : CheckArgs}
    {k : RiskCheck} (hk : k.idempotencyKey = RiskManager.checkKey args) (hsized : Sized k)
    (hminted : Minted cfg a) (hnone : m.checksByKey.lookup (RiskManager.checkKey args) = none)
    (ha : a.approvalId = RiskManager.approvalId cfg args) (hne : a.approvalId ≠ "") :
    (RiskManager.rememberApproval a (RiskManager.rememberCheck k m)).Local cfg where
  sound := (h.sound.rememberCheck hsized).rememberApproval hminted
  squares := h.squares
  filed {i x} hx := by
    rw [RiskManager.rememberApproval, Dict.lookup_insert_eq] at hx
    split_ifs at hx with hi
    · refine ⟨hi ▸ hne, RiskManager.checkKey args, _, _, hi.trans ha, ?_⟩
      simp [RiskManager.rememberApproval, RiskManager.rememberCheck, hk]
    · exact (h.rememberCheck hsized).filed hx
  spent o ho := by
    obtain ⟨i, x, hid, hx, hns⟩ := h.spent o ho
    refine ⟨i, x, hid, ?_, hns⟩
    have hi : i ≠ a.approvalId := by
      intro he
      obtain ⟨-, k', f, r, hk', hsome⟩ := h.filed hx
      have hkey := hd.evaluationId (hd.approvalId ((hk'.symm.trans he).trans ha))
      rw [hkey, hnone] at hsome
      cases hsome
    rw [RiskManager.rememberApproval, AList.lookup_insert_ne hi]
    exact hx

theorem revokeActive (h : m.Local cfg) : (RiskManager.revokeActive m).Local cfg where
  sound := h.sound.revokeActive
  squares := h.squares
  filed {i x} hx := by
    rw [RiskManager.revokeActive, Dict.lookup_mapValues, Option.map_eq_some_iff] at hx
    obtain ⟨a, ha, -⟩ := hx
    exact h.filed ha
  spent o ho := by
    obtain ⟨i, x, hid, hx, hns⟩ := h.spent o ho
    refine ⟨i, x, hid, ?_, hns⟩
    rw [RiskManager.revokeActive, Dict.lookup_mapValues, hx, Option.map_some, if_neg hns]

/-- an order is opened with the approval that was just consumed for it -/
theorem opened (h : m.Local cfg) (hd : cfg.digest.CollisionFree) {approval : OrderApproval}
    {i : String} (hlookup : m.approvals.lookup i = some approval) (hactive : approval.status = .active)
    {o : PaperOrder} (hid : o.paperOrderId = paperIdOf cfg i) (now : Time)
    (a : PaperTradingEngine.CreateArgs) (ledger : ExecutionCostLedger) (openedAt : Time) :
    (RiskManager.putPosition (Exposures.ofPaper o) (PaperTradingEngine.book cfg a ledger openedAt o
      (RiskManager.rememberApproval
        { approval with status := .consumed, consumedAt := some now,
                        paperOrderId := some o.paperOrderId, omsOrderId := none } m))).Local cfg := by
  have hconsumed := h.decide (a := { approval with
    status := .consumed, consumedAt := some now, paperOrderId := some o.paperOrderId,
    omsOrderId := none }) hlookup rfl (by simp)
  -- an order of the same id would have spent the approval
  have hnew : o.paperOrderId ∉ m.tally.opened.map PaperOrder.paperOrderId := by
    intro hin
    obtain ⟨x, hx, hxid⟩ := List.mem_map.1 hin
    obtain ⟨j, b, hj, hb, hns⟩ := h.spent x hx
    have htext := hd.uuid5 ((hj.symm.trans hxid).trans hid)
    obtain rfl : j = i := by simpa using htext
    rw [hlookup] at hb
    cases hb
    exact hns hactive
  have htally := book_tally cfg a ledger openedAt o m
  refine ⟨(hconsumed.sound.book a ledger openedAt o).congr rfl rfl rfl,
    (congrArg (Tally.Squares · _) htally).mpr (h.squares.opening hnew), hconsumed.filed,
    fun x hx => ?_⟩
  have hx' : x ∈ m.tally.opened ++ [o] := (congrArg (fun t : Tally => x ∈ t.opened) htally).mp hx
  rcases List.mem_append.1 hx' with hx | hx
  · exact hconsumed.spent x hx
  · rw [List.mem_singleton.1 hx]
    refine ⟨i, { approval with status := .consumed, consumedAt := some now,
                               paperOrderId := some o.paperOrderId, omsOrderId := none }, hid, ?_,
      by simp⟩
    show (AList.insert approval.approvalId _ m.approvals).lookup i = _
    rw [h.sound.keyed hlookup, AList.lookup_insert]

/-- an open order is settled -/
theorem settle (h : m.Local cfg) {closing : PaperTradingEngine.Closing}
    (hpnl : closing.closed.pnl = some (Decimal.round closing.netPnl 4))
    (hopen : (m.paper.openOrders.lookup closing.closed.paperOrderId).isSome) :
    (PaperTradingEngine.settle cfg closing m).Local cfg where
  sound := h.sound.settle hpnl
  squares := by
    rw [settle_tally, settle_book]
    exact h.squares.closing hopen
  filed := h.filed
  spent o ho := h.spent o
    ((congrArg (fun t : Tally => o ∈ t.opened) (settle_tally cfg closing m)).mp ho)

/-- an order was tested against a closed candle -/
theorem tested (h : m.Local cfg) (i : String) (candle : Candle) :
    ({ m with tape := m.tape ++ [.tested i candle] } : Memory).Local cfg := by
  have htally : ({ m with tape := m.tape ++ [.tested i candle] } : Memory).tally = m.tally := by
    simp [Memory.tally, openings, closings]
  exact ⟨h.sound.tested i candle, htally ▸ h.squares, h.filed, htally ▸ h.spent⟩

end Memory.Local

/-! ## Programs -/

/-- a program that awaits nothing and keeps the account of the process -/
abbrev Tame (cfg : Config) (p : Program α) : Prop :=
  Stays sealed (fun _ _ m => m.Local cfg) p

namespace Tame

theorem modify {f : Memory → Memory} (hf : ∀ m, m.Local cfg → (f m).Local cfg) :
    Tame cfg (.modify f) := ⟨fun h => hf _ h⟩

theorem forget {p : Program α} (hp : Tame cfg p) : Tame cfg (forget p) := hp.bind fun _ => .ret ()

end Tame

variable (hr : cfg.repository = false)

include hr

/-- a record is refused or dropped -/
theorem safe_recordLocal (r : AuditRecord)
    {post : Except Error Unit → Trigger → Memory → Memory → Prop} (hpost : ∀ u, post u c m₀ m) :
    Safe sealed (AuditService.record cfg r) c m₀ m post := by
  simp only [AuditService.record, bind_eq, read_bind, safe_get]
  rw [if_neg (by simp [hr] : ¬ cfg.repository = true)]
  split_ifs
  · exact hpost _
  · exact hpost _

theorem tame_record (r : AuditRecord) : Tame cfg (AuditService.record cfg r) :=
  ⟨fun h => safe_recordLocal hr r fun _ => h⟩

theorem tame_trigger (reason actor : String) (correlationId : Option String) :
    Tame cfg (RiskManager.triggerKillSwitch cfg reason actor correlationId) := by
  unfold RiskManager.triggerKillSwitch RiskManager.writeControl
  rw [if_neg (by simp [hr] : ¬ cfg.repository = true)]
  split_ifs
  · exact .raise _
  · refine .bind ⟨fun {c m₀ m} h => safe_ensure.2 ?_⟩ fun _ => tame_record hr _
    exact Memory.Local.revokeActive (h.congr rfl rfl rfl)

theorem tame_reset (reason actor : String) (correlationId : Option String) :
    Tame cfg (RiskManager.resetKillSwitch cfg reason actor correlationId) := by
  refine .read fun mem => ?_
  unfold RiskManager.writeControl
  rw [if_neg (by simp [hr] : ¬ cfg.repository = true)]
  split_ifs
  · exact .raise _
  · exact .raise _
  · refine .bind (.read fun _ => .ret _) fun control => .bind (Tame.modify fun m h => ?_) fun _ => ?_
    · exact h.congr rfl rfl rfl
    · refine .read fun m => .bind (.leave _) fun sm => .bind (Tame.modify fun m h => ?_) fun _ => ?_
      · exact h.congr rfl rfl rfl
      · exact tame_record hr _

omit hr in
/-- what `_finalize` files, and under which ids -/
theorem evidence_ids {a : CheckArgs} {f : Finding} {k : RiskCheck} {approval : Option OrderApproval}
    (h : RiskManager.evidence cfg m a f = .ok (k, approval)) :
    k.idempotencyKey = RiskManager.checkKey a ∧ ∀ x ∈ approval,
      x.approvalId = RiskManager.approvalId cfg a ∧ x.approvalId ≠ "" := by
  unfold RiskManager.evidence at h
  split at h
  · split at h
    · rename_i k' hk
      cases h
      obtain ⟨rfl, -⟩ := RiskCheck.check_ok hk
      exact ⟨rfl, by simp⟩
    · cases h
  · rename_i x hx
    split at h
    · cases h
    · rename_i x' hx'
      split at h
      · rename_i k' hk
        cases h
        obtain ⟨rfl, -⟩ := RiskCheck.check_ok hk
        refine ⟨rfl, ?_⟩
        rintro y ⟨⟩
        obtain ⟨hf, -, rfl⟩ := validateModel_ok.1 hx'
        simp only [List.forall_mem_cons, decide_eq_true_eq] at hf
        have hlen : x'.approvalId.toList.length = 64 := hf.1
        constructor
        · unfold RiskManager.approvalOf at hx
          split at hx
          · cases hx
            rfl
          · cases hx
        · intro hempty
          rw [hempty] at hlen
          cases hlen
      · cases h

/-- an evaluation of a request that is not filed -/
theorem safe_evaluate (hd : cfg.digest.CollisionFree) (a : CheckArgs) (h : m.Local cfg)
    (hnone : m.checksByKey.lookup (RiskManager.checkKey a) = none) :
    Safe sealed (RiskManager.evaluate cfg a) c m₀ m fun _ _ _ m => m.Local cfg := by
  unfold RiskManager.evaluate
  refine safe_bind.2 (safe_read.2 (safe_bind.2 (safe_leave.2 ?_)))
  cases hf : RiskManager.assess cfg m a with
  | error e => exact h
  | ok f =>
    refine safe_bind.2 (safe_modify.2 ?_)
    -- counting a blocked operation moves nothing
    have hcount : ∃ n, (if f.status = .blocked then RiskManager.countBlocked m else m) =
        { m with riskState := { m.riskState with blockedOperations := n } } := by
      split_ifs
      · exact ⟨_, rfl⟩
      · exact ⟨_, rfl⟩
    obtain ⟨n, hn⟩ := hcount
    rw [hn]
    have h' : ({ m with riskState := { m.riskState with blockedOperations := n } } : Memory).Local cfg :=
      h.congr rfl rfl rfl
    have hnone' : ({ m with riskState := { m.riskState with blockedOperations := n } } :
        Memory).checksByKey.lookup (RiskManager.checkKey a) = none := hnone
    generalize ({ m with riskState := { m.riskState with blockedOperations := n } } : Memory) = m'
      at h' hnone'
    refine safe_bind.2 (safe_leave.2 ?_)
    cases hev : RiskManager.evidence cfg m a f with
    | error e => exact h'
    | ok p =>
      obtain ⟨k, approval⟩ := p
      obtain ⟨hkey, hids⟩ := evidence_ids hev
      obtain ⟨hsized, hminted⟩ := evidence_ok hf hev
      refine safe_bind.2 (safe_attempt.2 (safe_bind.2 (safe_recordLocal hr _ fun r => ?_)))
      cases r with
      | error e => exact (h'.rememberCheck (failedCheck_sized k e)).congr rfl rfl rfl
      | ok u =>
        rw [if_neg (by simp [hr] : ¬ cfg.repository = true)]
        cases approval with
        | none => exact h'.rememberCheck hsized
        | some x =>
          exact h'.mint hd hkey hsized (hminted x rfl) hnone' (hids x rfl).1 (hids x rfl).2

theorem tame_check (hd : cfg.digest.CollisionFree) (a : CheckArgs) :
    Tame cfg (RiskManager.check cfg a) := by
  unfold RiskManager.check
  split_ifs with hpositive hcap hrep
  · exact .raise _
  · exact .raise _
  · rw [hr] at hrep
    cases hrep
  · refine ⟨fun {c m₀ m} h => safe_bind.2 (safe_read.2 ?_)⟩
    dsimp only
    split
    · split_ifs
      · exact h
      · exact h
    · rename_i hnone
      exact safe_evaluate hr hd a h hnone

/-! ## Paper orders -/

omit hr in
/-- the gate marks an expired approval, or grants one -/
theorem safe_gateLocal {d : Decision} {k : RiskCheck} {t : RiskManager.Terms} {msg : String}
    {post : Except Error OrderApproval → Trigger → Memory → Memory → Prop} (h : m.Local cfg)
    (herror : ∀ e m', m'.Local cfg → post (.error e) c m₀ m')
    (hgranted : ∀ approval, RiskManager.authorize m d k t msg = .granted approval →
      post (.ok approval) c m₀ m) :
    Safe sealed (RiskManager.gate d k t msg) c m₀ m post := by
  simp only [RiskManager.gate, bind_eq, read_bind, safe_get]
  split
  · exact herror _ _ h
  · rename_i approval hexp
    exact herror _ _ (h.decide (authorize_expired hexp) rfl (by simp))
  · rename_i approval hg
    exact hgranted approval hg

/-- a consumption decides the approval that was looked up -/
theorem safe_consumeLocal {d : Decision} {k : RiskCheck} {order : PaperOrder} {price : ℚ}
    (h : m.Local cfg) : Safe sealed (RiskManager.consumeApproval cfg d k order price) c m₀ m
      fun r _ _ m' => match r with
        | .error _ => m'.Local cfg
        | .ok _ => ∃ approval, m.approvals.lookup (k.approvalId.getD "") = some approval ∧
          m.checksByKey.lookup k.idempotencyKey = some k ∧
          approval.status = .active ∧ m' = RiskManager.rememberApproval
            { approval with status := .consumed, consumedAt := some m.now,
                            paperOrderId := some order.paperOrderId, omsOrderId := none } m := by
  refine safe_bind.2 (safe_gateLocal h (fun _ _ hf => hf) fun approval hg => ?_)
  have hgranted := authorize_granted hg
  simp only [bind_eq, read_bind, safe_get]
  rw [safe_bind, safe_leave]
  cases (RiskManager.omsMirror order approval.approvalId).check with
  | error e => exact h
  | ok mirror =>
    dsimp only
    rw [if_neg (by simp [hr] : ¬ cfg.repository = true)]
    exact ⟨approval, hgranted.1, hgranted.2.1, hgranted.2.2.1, rfl⟩

theorem tame_createOrder (hd : cfg.digest.CollisionFree) (a : PaperTradingEngine.CreateArgs) :
    Tame cfg (PaperTradingEngine.createOrder cfg a) := by
  unfold PaperTradingEngine.createOrder
  split_ifs with happ hdecision
  · exact .raise _
  · exact .raise _
  · refine .read fun mem => ?_
    split_ifs
    · exact .raise _
    · refine .bind (.leave _) fun side => .bind (.leave _) fun fill => ?_
      cases horder : (PaperTradingEngine.orderOf cfg mem.now a side fill).check with
      | error e => exact .raise e
      | ok order =>
        obtain ⟨hf, -, rfl⟩ := validateModel_ok.1 horder
        simp only [List.forall_mem_cons, decide_eq_true_eq] at hf
        simp only [bind_eq, leave_ok, ret_bind]
        refine .bind (tame_record hr _) fun _ => ⟨fun {c m₀ m} h => ?_⟩
        refine safe_bind.2 ((safe_consumeLocal hr h).imp ?_)
        intro r c m₀ m' hm
        cases r with
        | error e => exact hm
        | ok u =>
          obtain ⟨approval, hlookup, hcheck, hactive, rfl⟩ := hm
          have hid : (PaperTradingEngine.orderOf cfg mem.now a side fill).paperOrderId =
              paperIdOf cfg (a.riskCheck.approvalId.getD "") := by
            cases hid : a.riskCheck.approvalId with
            | none =>
              rw [hid] at hlookup
              exact absurd rfl (h.filed hlookup).1
            | some i => simp [PaperTradingEngine.orderOf, paperIdOf, hid]
          -- the order is valid and its check is sized, so its position is valid too
          have hpos : 0 < (PaperTradingEngine.orderOf cfg mem.now a side fill).positionSize := by
            obtain ⟨size, hsize, hpos⟩ := h.sound.sized hcheck (by simpa using happ)
            simp only [PaperTradingEngine.orderOf, Option.mem_def.1 hsize, Option.getD_some]
            exact hpos
          have hvalid : (Exposures.ofPaper (PaperTradingEngine.orderOf cfg mem.now a side fill)).check =
              .ok (Exposures.ofPaper (PaperTradingEngine.orderOf cfg mem.now a side fill)) := by
            refine validateModel_ok.2 ⟨?_, by simp, rfl⟩
            simpa [Exposures.ofPaper] using ⟨hpos, hf.2.2.1⟩
          refine safe_bind.2 (safe_modify.2 (safe_bind.2 ?_))
          unfold RiskManager.registerPosition
          rw [hvalid]
          exact h.opened hd hlookup hactive hid m.now a fill.ledger (a.occurredAt.getD mem.now)

omit hr in
/-- funding moves the cost ledgers only -/
theorem safe_accrueLocal (h : m.Local cfg) (order : PaperOrder) (endAt : Time) :
    Safe sealed (PaperTradingEngine.accrueFunding cfg order endAt) c m₀ m fun _ _ _ m' =>
      m'.Local cfg ∧ m'.paper.openOrders = m.paper.openOrders := by
  refine safe_bind.2 (safe_read.2 (safe_bind.2 (safe_leave.2 ?_)))
  cases hm : PaperTradingEngine.accrued cfg order endAt m with
  | error e => exact ⟨h, rfl⟩
  | ok m' =>
    obtain ⟨costs, at_, rfl⟩ := accrued_frame hm
    exact ⟨h.congr rfl rfl rfl, rfl⟩

theorem tame_closeOrder (a : PaperTradingEngine.CloseArgs) :
    Tame cfg (PaperTradingEngine.closeOrder cfg a) := by
  unfold PaperTradingEngine.closeOrder
  split_ifs
  · exact .raise _
  · refine ⟨fun {c m₀ m} h => safe_bind.2 (safe_read.2 ?_)⟩
    dsimp only
    split
    · exact h
    · rename_i order hopen
      split_ifs
      · exact h
      · have hid : order.paperOrderId = a.paperOrderId := h.sound.booked hopen
        have hfund : Safe sealed (PaperTradingEngine.fundClosing cfg a order) c m₀ m
            fun _ _ _ m' => m'.Local cfg ∧ m'.paper.openOrders = m.paper.openOrders := by
          unfold PaperTradingEngine.fundClosing
          split
          · exact safe_accrueLocal h _ _
          · exact ⟨h, rfl⟩
        refine safe_bind.2 (hfund.imp fun r c m₀ m' hm => ?_)
        obtain ⟨h', hbook⟩ := hm
        cases r with
        | error e => exact h'
        | ok u =>
          refine safe_bind.2 (safe_read.2 (safe_bind.2 (safe_leave.2 ?_)))
          cases hclosing : PaperTradingEngine.closing cfg a order m' with
          | error e => exact h'
          | ok closing =>
            obtain ⟨hclosed, -, hpnl⟩ := closing_id hclosing
            refine safe_bind.2 (safe_recordLocal hr _ fun u => ?_)
            cases u with
            | error e => exact h'
            | ok u =>
              dsimp only
              rw [if_neg (by simp [hr] : ¬ cfg.repository = true)]
              obtain ⟨costs, at_, hcosts⟩ := keepCosts_frame cfg closing m'
              simp only [bind_eq, ret_bind, modify_bind, read_bind, safe_get, safe_put, hcosts]
              have hkept : ({ m' with paper := { m'.paper with
                  executionCosts := costs, lastFundingAt := at_ } } : Memory).Local cfg :=
                h'.congr rfl rfl rfl
              split
              · exact hkept
              · exact hkept.settle hpnl (by rw [hclosed, hid, hbook, hopen]; rfl)

theorem tame_onCandle (candle : Candle) : Tame cfg (PaperTradingEngine.onCandle cfg candle) := by
  have hmonitor : ∀ orders, Tame cfg (PaperTradingEngine.monitor cfg candle orders) := by
    intro orders
    induction orders with
    | nil => exact .ret _
    | cons order rest ih =>
      unfold PaperTradingEngine.monitor
      split_ifs
      · exact ih
      · refine .bind ⟨fun h => (safe_accrueLocal h _ _).imp fun _ _ _ _ hm => hm.1⟩ fun _ => ?_
        refine .bind (Tame.modify fun m h => h.tested _ _) fun _ => ?_
        split
        · exact ih
        · exact .bind (tame_closeOrder hr _) fun _ => .bind ih fun _ => .ret _
  exact .read fun m => hmonitor _

/-- the calls of the paper account, without a repository -/
theorem tame_program (hd : cfg.digest.CollisionFree) {call : Call} (h : call.trades = true) :
    Tame cfg (call.program cfg) := by
  cases call
  case check a => exact (tame_check hr hd a).forget
  case createOrder a => exact (tame_createOrder hr hd a).forget
  case closeOrder a => exact (tame_closeOrder hr a).forget
  case onCandle candle => exact (tame_onCandle hr candle).forget
  case triggerKillSwitch r w k => exact tame_trigger hr r w k
  case resetKillSwitch r w k => exact tame_reset hr r w k
  all_goals cases h

/-! ## Runs -/

open World

/-- no task of the run waits for anything -/
structure LocalAccounts (cfg : Config) (w : World) : Prop where
  memory : ∀ n, (w.mem n).Local cfg
  done : ∀ t ∈ w.tasks, ∃ r, t.state = .done r

omit hr in
theorem local_setMem {w : World} {node : ℕ} (h : ∀ n, (w.mem n).Local cfg) (hm : m.Local cfg) (n : ℕ) :
    ((w.setMem node m).mem n).Local cfg := by
  simp only [World.setMem]
  split_ifs
  · exact hm
  · exact h n

theorem localAccounts_step (hd : cfg.digest.CollisionFree) {w : World} {op : Op}
    (hop : tradesOnly op = true) (h : LocalAccounts cfg w) :
    LocalAccounts cfg (World.step cfg w op) := by
  cases op with
  | start node call =>
    obtain ⟨r, m', hsettle, hm⟩ :=
      (@Stays.safe _ _ _ _ _ _ _ _ (tame_program hr hd hop) .start (w.mem node) _
        (h.memory node)).ended
    simp only [World.step, World.segment, hsettle]
    refine ⟨local_setMem h.memory hm, fun t ht => ?_⟩
    rcases List.mem_append.1 ht with ht | ht
    · exact h.done t ht
    · rw [List.mem_singleton.1 ht]
      exact ⟨r, rfl⟩
  | exec i locked fault =>
    simp only [World.step, World.execute]
    split
    · rename_i node q k g hi
      obtain ⟨r, hdone⟩ := h.done _ (List.mem_of_getElem? hi)
      cases hdone
    · exact h
  | answer i a =>
    simp only [World.step, World.answered]
    split
    · rename_i node q k g hi
      obtain ⟨r, hdone⟩ := h.done _ (List.mem_of_getElem? hi)
      cases hdone
    · exact h
  | resume i =>
    simp only [World.step]
    split
    · rename_i node q r k g hi
      obtain ⟨r, hdone⟩ := h.done _ (List.mem_of_getElem? hi)
      cases hdone
    · exact h
  | crash node =>
    refine ⟨local_setMem h.memory (.fresh cfg _), fun t ht => ?_⟩
    obtain ⟨u, hu, rfl⟩ := List.mem_map.1 ht
    obtain ⟨r, hdone⟩ := h.done u hu
    exact ⟨r, by simp [Task.killed, hdone]⟩
  | clock node now => exact ⟨local_setMem h.memory ((h.memory node).congr rfl rfl rfl), h.done⟩
  | auditFailMode node on =>
    exact ⟨local_setMem h.memory ((h.memory node).congr rfl rfl rfl), h.done⟩
  | transition node newState =>
    simp only [World.step]
    split
    · exact ⟨local_setMem h.memory ((h.memory node).congr rfl rfl rfl), h.done⟩
    · exact h

omit hr

/-- the account of every process is conserved -/
structure Conserved (cfg : Config) (w : World) : Prop where
  opened_once : ∀ n, ((openings (w.mem n).tape).map PaperOrder.paperOrderId).Nodup
  closed_once : ∀ n, ((closings (w.mem n).tape).map fun p => p.1.paperOrderId).Nodup
  closedOrders : ∀ n, (w.mem n).paper.closedOrders = (closings (w.mem n).tape).map Prod.fst
  balance : ∀ n, (w.mem n).paper.balance =
    cfg.initialBalance + ((closings (w.mem n).tape).map Prod.snd).sum
  rounded : ∀ n, ∀ p ∈ closings (w.mem n).tape, p.1.pnl = some (Decimal.round p.2 4)
  registered : ∀ n i, (w.mem n).positions.lookup (.paper i) =
    ((w.mem n).paper.openOrders.lookup i).map Exposures.ofPaper
  durable : cfg.repository = true → ∀ n, ∀ o ∈ (w.mem n).paper.closedOrders,
    w.db.settled o.settlement

theorem conserved_of_squares {w : World} (hw : w.Sound cfg)
    (hs : ∀ n, (w.mem n).tally.Squares (w.mem n).book)
    (hd : cfg.repository = true → ∀ n, ∀ o ∈ (w.mem n).tally.closed, w.db.settled o.settlement) :
    Conserved cfg w := by
  have hposted : ∀ n, (w.mem n).account.closedOrders = (closings (w.mem n).tape).map Prod.fst ∧
      (w.mem n).account.balance =
        cfg.initialBalance + ((closings (w.mem n).tape).map Prod.snd).sum := by
    intro n
    rw [(hw.memory n).posted]
    exact post_closings cfg (.fresh cfg) (w.mem n).tape
  refine ⟨fun n => (hs n).opened_once, fun n => ?_, fun n => (hposted n).1, fun n => (hposted n).2,
    fun n => (hw.memory n).rounded, fun n i => (hs n).registered i, fun hr n o ho => ?_⟩
  · have honce := (hs n).closed_once
    rwa [Memory.tally, List.map_map] at honce
  · rw [show (w.mem n).paper.closedOrders = _ from (hposted n).1] at ho
    exact hd hr n o ho

/-- **The paper account is conserved.** In every run of paper trades, evaluations and kill-switch
commands in which a close is stored over no other close of its order, whatever was interleaved and
whatever failed: orders are opened once and closed once, the balance is the initial balance and the
result of every close, the open orders are the registered positions, and the durable row of a closed
order settles what its process settled. Without a repository the ids must not collide. -/
theorem paper_account_conserved (cfg : Config)
    (hd : cfg.repository = false → cfg.digest.CollisionFree) (ops : List Op)
    (h : Along (World.step cfg) (fun w op => tradesOnly op = true ∧ closesAlone w op = true)
      (World.init cfg) ops) : Conserved cfg (World.run cfg ops) := by
  by_cases hr : cfg.repository = true
  · have haccounts : Accounts (World.run cfg ops) := by
      refine along_induction_only (P := Trades) ⟨?_, ?_, ?_, ?_, ?_, ?_⟩
        (fun w node call hc => trades_program hc.1) (accounts_step hr) h
      · exact fun n => .fresh cfg 0
      all_goals simp [World.init, opens, closes, flight, Memory.tally, Memory.fresh, openings, closings]
    refine conserved_of_squares (run_sound ops) haccounts.squares fun _ n o ho => ?_
    exact haccounts.settled n o (List.mem_append_left _ ho)
  · have hr' : cfg.repository = false := by simpa using hr
    have hlocal : LocalAccounts cfg (World.run cfg ops) :=
      along_inv (fun w op hc hl => localAccounts_step hr' (hd hr') hc.1 hl)
        ⟨fun n => .fresh cfg 0, by simp [World.init]⟩ h
    exact conserved_of_squares (run_sound ops) (fun n => (hlocal.memory n).squares)
      fun hr'' => absurd hr'' hr

/-! ## A close that is overwritten -/

/-- task 0 checks `sampleDecision`, task 1 opens a paper order at 100 with it -/
def sampleOpened : List Op :=
  withCheck (boot ++ [.start 0 (.check { decision := sampleDecision, entryPrice := 100 })] ++
    serve 0 ++ serve 0 ++ serve 0) fun check =>
    [.start 0 (.createOrder ⟨sampleDecision, check, 100, none, none⟩)] ++ serve 1 ++ serve 1

def samplePaperId : String := "paper-order:" ++ sampleApprovalId

theorem paper_account_conserved_closed : Conserved .sample (World.run .sample (sampleOpened ++
    [.start 0 (.closeOrder { paperOrderId := samplePaperId, exitPrice := 110 })] ++
    serve 2 ++ serve 2)) :=
  paper_account_conserved .sample (fun h => nomatch h) _ (by decide +kernel)

/-- two closes of the order, at 110 and at 120: both pass the gate, the first is performed, and the
second is stored -/
def closedTwice : List Op :=
  sampleOpened ++ [.start 0 (.closeOrder { paperOrderId := samplePaperId, exitPrice := 110 }),
    .start 0 (.closeOrder { paperOrderId := samplePaperId, exitPrice := 120 })] ++
    serve 2 ++ serve 3 ++ serve 2 ++ serve 3

/-- **A close is overwritten.** The row carries the result of the close that was not performed. -/
theorem close_overwritten : ¬ ∀ cfg ops, (cfg.repository = false → cfg.digest.CollisionFree) →
    (∀ op ∈ ops, tradesOnly op = true) → Conserved cfg (World.run cfg ops) := by
  intro h
  have hconserved := h .sample closedTwice (fun h => nomatch h) (by decide +kernel)
  have hrows : ¬ ∀ o ∈ ((World.run .sample closedTwice).mem 0).paper.closedOrders,
      ∃ row ∈ (World.run .sample closedTwice).db.paperOrders.rows,
        row.settlement = o.settlement := by
    decide +kernel
  exact hrows fun o ho => hconserved.durable rfl 0 o ho

end CapitalCipher
