/-
The contract every task of a process meets, segment by segment.

  • `Admissible`: what replies may be. The transactions and the adapters deliver it.
  • `Memory.Sound`: what holds of the memory at every await: approvals are filed under their ids and
    were minted by an evaluation, approved checks have a positive size, the paper book is keyed and
    the paper account is its tape, posted.
  • `controlAfter`, `bookAfter`, `tallyAfter`: the in-memory kill switch, the in-memory portfolio and
    the trades after a segment, as functions of what the task was replied and of the memory it found.
  • `Ask`: what must hold for a request to be issued; `Next`: the requests a segment must issue.
-/
import CapitalCipher.Paper.Account
import CapitalCipher.System.World

namespace CapitalCipher

open Lib

abbrev Trigger := Cause Error Request.Reply

/-- the approval's fixed columns were minted by an evaluation of the gates and the sizing -/
def Minted (cfg : Config) (a : OrderApproval) : Prop :=
  ∃ m args f c x, RiskManager.assess cfg m args = .ok f ∧
    RiskManager.evidence cfg m args f = .ok (c, some x) ∧ x.identity = a.identity

theorem Minted.congr {cfg : Config} {a b : OrderApproval} (h : Minted cfg a)
    (he : a.identity = b.identity) : Minted cfg b := by
  obtain ⟨m, args, f, c, x, hf, hev, hx⟩ := h
  exact ⟨m, args, f, c, x, hf, hev, hx.trans he⟩

/-- an approved check has a positive size -/
def Sized (c : RiskCheck) : Prop := c.riskStatus.isApproved = true → ∃ s ∈ c.positionSize, 0 < s

/-- average prices are positive -/
def Priced (o : OmsOrder) : Prop := ∀ x ∈ o.averageFillPrice, 0 < x

/-- what a reply to a request may be -/
def Admissible (cfg : Config) : (q : Request) → Except Error q.Reply → Prop
  | .loadCentralRiskEvaluationByKey _ => fun r =>
    ∀ c a, r = .ok (some (c, a)) → Sized c ∧ ∀ x ∈ a, Minted cfg x
  | .claimExecutionCommand _ _ => fun r => ∀ command order, r = .ok (some (command, order)) →
    order.check = .ok order ∧ order.omsOrderId = command.omsOrderId
  | .createOmsOrder o _ => fun r => ∀ created, r = .ok created → created.identity = o.identity
  | .listOmsOrders _ _ => fun r => ∀ os : List OmsOrder, r = .ok os → ∀ o ∈ os, o.check = .ok o
  | .submitOrder _ => fun r => ∀ v : VenueOrderSnapshot, r = .ok v → v.check = .ok v
  | .cancelOrder _ => fun r => ∀ v : VenueOrderSnapshot, r = .ok v → v.check = .ok v
  | .fetchState _ _ => fun r => ∀ s : VenueStateSnapshot, r = .ok s → s.check = .ok s
  | _ => fun _ => True

/-- what tasks find in the memory of their process, and leave there -/
structure Memory.Sound (cfg : Config) (m : Memory) : Prop where
  keyed : ∀ {i a}, m.approvals.lookup i = some a → a.approvalId = i
  minted : ∀ {i a}, m.approvals.lookup i = some a → Minted cfg a
  sized : ∀ {k c}, m.checksByKey.lookup k = some c → Sized c
  booked : ∀ {i o}, m.paper.openOrders.lookup i = some o → o.paperOrderId = i
  posted : m.Posted cfg
  rounded : ∀ p ∈ closings m.tape, p.1.pnl = some (Decimal.round p.2 4)

/-! ## What a segment does to the memory -/

/-- the three sources of the in-memory kill switch -/
structure Control where
  state : RiskControlState
  risk : Bool
  sm : Bool
  deriving DecidableEq

def Memory.control (m : Memory) : Control :=
  ⟨m.controlState, m.riskState.killSwitchActive, m.sm.killSwitchActive⟩

/-- the in-memory switch after a segment -/
def controlAfter (c : Trigger) (m : Memory) : Control :=
  match c with
  | .reply (.setRiskControl true _ _ _) (.ok row) => ⟨row, true, true⟩
  | .reply (.setRiskControl true _ _ _) (.error _) => ⟨m.controlState, true, true⟩
  | .reply (.setRiskControl false _ _ _) (.ok row) =>
    if m.sm.state = .maintenance then ⟨row, false, false⟩ else { m.control with state := row }
  | .reply .loadRiskControlState (.ok (some (row : RiskControlState))) =>
    if row.active then ⟨row, true, true⟩ else { m.control with state := row }
  | _ => m.control

/-- the in-memory portfolio and the paper book -/
structure Book where
  positions : Dict ExposureId PositionExposure
  openOrders : Dict String PaperOrder

def Memory.book (m : Memory) : Book := ⟨m.positions, m.paper.openOrders⟩

/-- the portfolio after a created order was reserved -/
def reserved (created : OmsOrder) (positions : Dict ExposureId PositionExposure) :
    Dict ExposureId PositionExposure :=
  if 0 < Exposures.remainingQuantity created then
    AList.insert (.reservation created.omsOrderId) (RiskManager.reservation created) positions
  else positions

/-- the in-memory portfolio after a segment -/
def bookAfter (c : Trigger) (m : Memory) : Book :=
  match c with
  | .reply .loadOpenPositionExposures (.ok (ps : List PositionExposure)) =>
    { m.book with positions := Dict.fromList PositionExposure.paperOrderId ps }
  | .reply (.consumeOrderApproval _ order _) (.ok _) =>
    ⟨AList.insert (.paper order.paperOrderId) (Exposures.ofPaper order) m.positions,
      AList.insert order.paperOrderId order m.paper.openOrders⟩
  | .reply (.createOmsOrder _ _) (.ok (created : OmsOrder)) =>
    { m.book with positions := reserved created m.positions }
  | .reply (.savePaperOrder order) (.ok _) =>
    if (m.paper.openOrders.lookup order.paperOrderId).isSome then
      ⟨AList.erase (.paper order.paperOrderId) m.positions,
        AList.erase order.paperOrderId m.paper.openOrders⟩
    else m.book
  | _ => m.book

/-- the trades of the tape -/
structure Tally where
  opened : List PaperOrder
  closed : List PaperOrder

def Memory.tally (m : Memory) : Tally := ⟨openings m.tape, (closings m.tape).map Prod.fst⟩

section

open PaperTradingEngine

theorem book_tally (cfg : Config) (a : CreateArgs) (ledger : ExecutionCostLedger) (openedAt : Time)
    (o : PaperOrder) (m : Memory) :
    (book cfg a ledger openedAt o m).tally = { m.tally with opened := m.tally.opened ++ [o] } := by
  simp [Memory.tally, book, openings, closings]

theorem settle_tally (cfg : Config) (c : Closing) (m : Memory) :
    (settle cfg c m).tally = { m.tally with closed := m.tally.closed ++ [c.closed] } := by
  simp [Memory.tally, settle_tape, openings, closings]

theorem settle_book (cfg : Config) (c : Closing) (m : Memory) :
    (settle cfg c m).book = ⟨AList.erase (.paper c.closed.paperOrderId) m.positions,
      AList.erase c.closed.paperOrderId m.paper.openOrders⟩ := rfl

end

/-- the trades after a segment -/
def tallyAfter (c : Trigger) (m : Memory) : Tally :=
  match c with
  | .reply (.consumeOrderApproval _ order _) (.ok _) =>
    { m.tally with opened := m.tally.opened ++ [order] }
  | .reply (.savePaperOrder order) (.ok _) =>
    if (m.paper.openOrders.lookup order.paperOrderId).isSome then
      { m.tally with closed := m.tally.closed ++ [order] }
    else m.tally
  | _ => m.tally

/-- with a repository, a segment moves the switch, the portfolio and the trades by what it was
replied only -/
def Segment (cfg : Config) (c : Trigger) (m₀ m : Memory) : Prop :=
  cfg.repository = true →
    m.control = controlAfter c m₀ ∧ m.book = bookAfter c m₀ ∧ m.tally = tallyAfter c m₀

/-! ## What a segment asks -/

/-- the record of a reconciliation run that was not FAILED -/
def AuditRecord.reconciles (r : AuditRecord) : Bool :=
  r.auditType == "OMS_RECONCILIATION_COMPLETED" && !r.payload.contains ("status", "FAILED")

/-- a paper order as `consume_approval` asks to store it -/
structure PaperAsked (m : Memory) (a : OrderApproval) (o : PaperOrder) (mirror : OmsOrder) : Prop where
  granted : ∃ d rc t msg approval, RiskManager.authorize m d rc t msg = .granted approval ∧
    a = { approval with status := .consumed, consumedAt := some m.now,
                        paperOrderId := some o.paperOrderId, omsOrderId := none } ∧
    o.approvalId = rc.approvalId ∧ t.notional = o.positionSize
  mirrored : mirror = RiskManager.omsMirror o a.approvalId
  valid : mirror.check = .ok mirror
  filled : o.status = .filled
  sized : 0 < o.positionSize ∧ 1 ≤ o.leverage

/-- a TESTNET order as `consume_oms_approval` asks to create it -/
structure OmsAsked (cfg : Config) (m : Memory) (o : OmsOrder) (command : ExecutionCommand) :
    Prop where
  granted : ∃ d rc t msg approval, RiskManager.authorize m d rc t msg = .granted approval ∧
    t.notional = o.requestedNotional
  fresh : o.environment = .testnet ∧ o.status = .pendingSubmission ∧ o.stateVersion = 1 ∧
    o.cumulativeFilledQuantity = 0 ∧ o.averageFillPrice = none
  valid : o.check = .ok o
  command : ∃ t, command = OmsService.submitCommand cfg t o.omsOrderId

/-- what must hold for a request to be issued at the end of a segment -/
def Ask (cfg : Config) (c : Trigger) (m : Memory) : Request → Prop
  | .saveAuditLog r =>
    (∀ k a, r.evidence = some (k, some a) → Minted cfg a) ∧
    (r.auditType = "PAPER_ORDER_CLOSED" →
      ∃ i ∈ r.entityId, (m.paper.openOrders.lookup i).isSome)
  | .saveCentralRiskEvaluation k a => Sized k ∧ (∀ x ∈ a, Minted cfg x) ∧
    ∃ r reply, c = .reply (.saveAuditLog r) reply ∧ r.evidence = some (k, a)
  | .consumeOrderApproval a o mirror => PaperAsked m a o mirror
  | .savePaperOrder o => cfg.repository = true ∧ o.status = .closed ∧
    ∃ r reply, c = .reply (.saveAuditLog r) reply ∧ r.auditType = "PAPER_ORDER_CLOSED" ∧ r.entityId = some o.paperOrderId
  | .createOmsOrder o command => OmsAsked cfg m o command
  | .submitOrder o => m.killSwitchActive = false ∧ ∃ w l command,
    c = .reply (.claimExecutionCommand w l) (.ok (some (command, o))) ∧
    command.commandType = .submit
  | .queueCancelCommand o command => o.status = .cancelPending ∧
    ∃ t, command = OmsService.cancelCommand cfg t o.omsOrderId
  | .finishExecutionCommand _ _ o _ _ => Priced o
  | .persistReconciliation run _ s os => (∀ o ∈ os, Priced o) ∧
    (run.status = .failed → s.positions = [] ∧ s.balances = [] ∧ s.fills = [] ∧ os = [])
  | _ => True

/-- after these replies the portfolio is refreshed, at once or after the run is audited -/
def Next (c : Trigger) (m : Memory) (next : Option Request) : Prop :=
  match c with
  | .reply (.finishExecutionCommand _ _ _ eventType _) (.ok _) =>
    eventType ≠ "EXECUTION_ADAPTER_BLOCKED" → next = some .loadOpenPositionExposures
  | .reply (.persistReconciliation run _ _ _) (.ok _) =>
    run.status ≠ .failed → m.auditFailMode = false →
      ∃ r, next = some (.saveAuditLog r) ∧ r.reconciles = true
  | .reply (.saveAuditLog r) (.ok _) =>
    r.reconciles = true → next = some .loadOpenPositionExposures
  | _ => True

/-- the contract of every task -/
def contract (cfg : Config) : Coro.Contract Memory Error Request.Reply where
  rely := Admissible cfg
  inv := Memory.Sound cfg
  ends c m₀ m next := Segment cfg c m₀ m ∧ (∀ q ∈ next, Ask cfg c m q) ∧ Next c m₀ next

/-- the segment so far meets the contract, and may end here or ask anything -/
structure Free (cfg : Config) (c : Trigger) (m₀ m : Memory) : Prop where
  sound : m.Sound cfg
  segment : Segment cfg c m₀ m
  next : ∀ next, Next c m₀ next

theorem Free.ask {cfg : Config} {c : Trigger} {m₀ m : Memory} (h : Free cfg c m₀ m) {q : Request}
    (hq : Ask cfg c m q) : (contract cfg).inv m ∧ (contract cfg).ends c m₀ m (some q) :=
  ⟨h.sound, h.segment, by simpa using hq, h.next _⟩

/-- the memory changed, but neither the switch nor the portfolio nor the trades -/
theorem Free.of_eq {cfg : Config} {c : Trigger} {m₀ m m' : Memory} (h : Free cfg c m₀ m)
    (hs : m'.Sound cfg) (hc : m'.control = m.control) (hb : m'.book = m.book)
    (ht : m'.tally = m.tally := by rfl) : Free cfg c m₀ m' :=
  ⟨hs, fun hr => by rw [hc, hb, ht]; exact h.segment hr, h.next⟩

theorem Free.start {cfg : Config} {m : Memory} (h : m.Sound cfg) : Free cfg .start m m :=
  ⟨h, fun _ => ⟨rfl, rfl, rfl⟩, fun _ => trivial⟩

/-- a segment that begins with a reply that moves nothing -/
theorem Free.reply {cfg : Config} {q : Request} {r : Except Error q.Reply} {m : Memory}
    (h : m.Sound cfg) (hc : controlAfter (.reply q r) m = m.control)
    (hb : bookAfter (.reply q r) m = m.book) (hn : ∀ next, Next (.reply q r) m next)
    (ht : tallyAfter (.reply q r) m = m.tally := by rfl) : Free cfg (.reply q r) m m :=
  ⟨h, fun _ => ⟨hc.symm, hb.symm, ht.symm⟩, hn⟩

/-- how a whole task ends -/
def Ends (cfg : Config) : Except Error Unit → Trigger → Memory → Memory → Prop :=
  fun _ c m₀ m => m.Sound cfg ∧ Segment cfg c m₀ m ∧ Next c m₀ none

theorem Free.ends {cfg : Config} {c : Trigger} {m₀ m : Memory} {r : Except Error Unit}
    (h : Free cfg c m₀ m) : Ends cfg r c m₀ m := ⟨h.sound, h.segment, h.next _⟩

/-! ## Sound memories -/

namespace Memory.Sound

variable {cfg : Config} {m : Memory}

theorem fresh (cfg : Config) (now : Time) : (Memory.fresh cfg now).Sound cfg :=
  ⟨fun h => by simp [Memory.fresh] at h, fun h => by simp [Memory.fresh] at h,
    fun h => by simp [Memory.fresh] at h, fun h => by simp [Memory.fresh] at h, .fresh now,
    by simp [Memory.fresh, closings]⟩

/-- only the approvals, the checks, the account and its tape matter -/
theorem congr {m' : Memory} (h : m.Sound cfg) (ha : m'.approvals = m.approvals)
    (hc : m'.checksByKey = m.checksByKey) (hp : m'.account = m.account)
    (ht : m'.tape = m.tape := by rfl) : m'.Sound cfg :=
  ⟨fun h' => h.keyed (ha ▸ h'), fun h' => h.minted (ha ▸ h'), fun h' => h.sized (hc ▸ h'),
    fun h' => h.booked ((show m'.paper.openOrders = m.paper.openOrders from
      congrArg Account.openOrders hp) ▸ h'), h.posted.congr hp ht, ht ▸ h.rounded⟩

theorem rememberApproval {a : OrderApproval} (h : m.Sound cfg) (ha : Minted cfg a) :
    (RiskManager.rememberApproval a m).Sound cfg where
  keyed {i b} hb := by
    rw [RiskManager.rememberApproval, Dict.lookup_insert_eq] at hb
    split_ifs at hb with hi
    · cases hb
      exact hi.symm
    · exact h.keyed hb
  minted {i b} hb := by
    rw [RiskManager.rememberApproval, Dict.lookup_insert_eq] at hb
    split_ifs at hb with hi
    · cases hb
      exact ha
    · exact h.minted hb
  sized := h.sized
  booked := h.booked
  posted := h.posted
  rounded := h.rounded

theorem insertCheck {k : String} {c : RiskCheck} (h : m.Sound cfg) (hc : Sized c) :
    ({ m with checksByKey := AList.insert k c m.checksByKey } : Memory).Sound cfg where
  keyed := h.keyed
  minted := h.minted
  sized {k' b} hb := by
    rw [Dict.lookup_insert_eq] at hb
    split_ifs at hb with hi
    · cases hb
      exact hc
    · exact h.sized hb
  booked := h.booked
  posted := h.posted
  rounded := h.rounded

theorem rememberCheck {c : RiskCheck} (h : m.Sound cfg) (hc : Sized c) :
    (RiskManager.rememberCheck c m).Sound cfg := h.insertCheck hc

theorem revokeActive (h : m.Sound cfg) : (RiskManager.revokeActive m).Sound cfg where
  keyed {i b} hb := by
    rw [RiskManager.revokeActive, Dict.lookup_mapValues, Option.map_eq_some_iff] at hb
    obtain ⟨a, ha, rfl⟩ := hb
    have hk := h.keyed ha
    split_ifs <;> exact hk
  minted {i b} hb := by
    rw [RiskManager.revokeActive, Dict.lookup_mapValues, Option.map_eq_some_iff] at hb
    obtain ⟨a, ha, rfl⟩ := hb
    refine (h.minted ha).congr ?_
    split_ifs <;> rfl
  sized := h.sized
  booked := h.booked
  posted := h.posted
  rounded := h.rounded

theorem haltAll (h : m.Sound cfg) (reason : String) : (RiskManager.haltAll reason m).Sound cfg :=
  revokeActive (h.congr rfl rfl rfl)

theorem book (h : m.Sound cfg) (a : PaperTradingEngine.CreateArgs) (ledger : ExecutionCostLedger)
    (openedAt : Time) (o : PaperOrder) :
    (PaperTradingEngine.book cfg a ledger openedAt o m).Sound cfg where
  keyed := h.keyed
  minted := h.minted
  sized := h.sized
  booked {i b} hb := by
    have hb' : (AList.insert o.paperOrderId o m.paper.openOrders).lookup i = some b := hb
    rw [Dict.lookup_insert_eq] at hb'
    split_ifs at hb' with hi
    · cases hb'
      exact hi.symm
    · exact h.booked hb'
  posted := h.posted.tick rfl rfl
  rounded := by simpa [PaperTradingEngine.book, closings] using h.rounded

/-- a close settles -/
theorem settle (h : m.Sound cfg) {closing : PaperTradingEngine.Closing}
    (hpnl : closing.closed.pnl = some (Decimal.round closing.netPnl 4)) :
    (PaperTradingEngine.settle cfg closing m).Sound cfg where
  keyed := h.keyed
  minted := h.minted
  sized := h.sized
  booked {j b} hb := by
    have hb' : (AList.erase closing.closed.paperOrderId m.paper.openOrders).lookup j = some b := hb
    rw [Dict.lookup_erase_eq] at hb'
    split_ifs at hb'
    exact h.booked hb'
  posted := h.posted.tick (PaperTradingEngine.settle_account _ _) rfl
  rounded p hp := by
    rw [PaperTradingEngine.settle_tape, closings_append] at hp
    rcases List.mem_append.1 hp with hp | hp
    · exact h.rounded p hp
    · obtain rfl := List.mem_singleton.1 hp
      exact hpnl

/-- an order was tested against a closed candle -/
theorem tested (h : m.Sound cfg) (i : String) (candle : Candle) :
    ({ m with tape := m.tape ++ [.tested i candle] } : Memory).Sound cfg where
  keyed := h.keyed
  minted := h.minted
  sized := h.sized
  booked := h.booked
  posted := h.posted.tick rfl rfl
  rounded := by simpa [closings] using h.rounded

end Memory.Sound

end CapitalCipher
