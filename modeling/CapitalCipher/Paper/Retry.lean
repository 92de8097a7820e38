/-
A close of `paper_trading/engine.py` that raises, and the close that is tried again.

Before its first await a close may fund its order up to the closing time; everything else it changes
comes after its last one. So a close that raises leaves at most that funding behind, and the retry,
which finds it done, does not charge it again. Others may be at work on other orders throughout.

  • `Agree`: memories that differ in the ledgers and funding times of some orders only.
  • `Elsewhere`: what others do to the rest of the memory.
  • `Ahead`: a memory in which the funding of one order has run ahead.
  • `failed_close_retryable`: a failed close leaves the account intact, and the retry makes of it what
    it would have made without the failure.
-/
import CapitalCipher.Lib.Interference
import CapitalCipher.Paper.Adverse
import CapitalCipher.Paper.Performance

namespace CapitalCipher

open Lib

/-- the memory without its ledgers and funding times -/
def Memory.bare (m : Memory) : Memory :=
  { m with paper := { m.paper with executionCosts := ∅, lastFundingAt := ∅ } }

namespace PaperTradingEngine

/-! ## Memories that differ in ledgers only -/

/-- equal but for the ledgers and funding times of the orders outside `P` -/
structure Agree (P : String → Prop) (m n : Memory) : Prop where
  bare : m.bare = n.bare
  costs : ∀ i, P i → m.paper.executionCosts.lookup i = n.paper.executionCosts.lookup i
  funding : ∀ i, P i → m.paper.lastFundingAt.lookup i = n.paper.lastFundingAt.lookup i

/-- equal in every entry -/
abbrev Same : Memory → Memory → Prop := Agree fun _ => True

namespace Agree

variable {P : String → Prop} {m n : Memory}

theorem refl (P : String → Prop) (m : Memory) : Agree P m m := ⟨rfl, fun _ _ => rfl, fun _ _ => rfl⟩

theorem now (h : Agree P m n) : m.now = n.now :=
  show m.bare.now = n.bare.now by rw [h.bare]

theorem auditFailMode (h : Agree P m n) : m.auditFailMode = n.auditFailMode :=
  show m.bare.auditFailMode = n.bare.auditFailMode by rw [h.bare]

theorem openOrders (h : Agree P m n) : m.paper.openOrders = n.paper.openOrders :=
  show m.bare.paper.openOrders = n.bare.paper.openOrders by rw [h.bare]

/-- an order whose entries agree too -/
theorem same {i : String} (h : Agree (· ≠ i) m n)
    (hc : m.paper.executionCosts.lookup i = n.paper.executionCosts.lookup i)
    (hf : m.paper.lastFundingAt.lookup i = n.paper.lastFundingAt.lookup i) : Same m n := by
  refine ⟨h.bare, fun j _ => ?_, fun j _ => ?_⟩
  · by_cases hj : j = i
    · rw [hj, hc]
    · exact h.costs j hj
  · by_cases hj : j = i
    · rw [hj, hf]
    · exact h.funding j hj

theorem weaken (h : Same m n) (P : String → Prop) : Agree P m n :=
  ⟨h.bare, fun i _ => h.costs i trivial, fun i _ => h.funding i trivial⟩

end Agree

/-- what others do to the rest of the memory: they leave the order and its entries alone, and never
read them -/
structure Elsewhere (i : String) (f : Memory → Memory) : Prop where
  respects : ∀ m n, Agree (· ≠ i) m n → Agree (· ≠ i) (f m) (f n)
  openOrder : ∀ m, (f m).paper.openOrders.lookup i = m.paper.openOrders.lookup i
  costs : ∀ m, (f m).paper.executionCosts.lookup i = m.paper.executionCosts.lookup i
  funding : ∀ m, (f m).paper.lastFundingAt.lookup i = m.paper.lastFundingAt.lookup i

theorem Elsewhere.same {i : String} {f : Memory → Memory} (h : Elsewhere i f) (m n : Memory)
    (hs : Same m n) : Same (f m) (f n) := by
  apply (h.respects m n (hs.weaken _)).same
  · rw [h.costs, h.costs]
    exact hs.costs i trivial
  · rw [h.funding, h.funding]
    exact hs.funding i trivial

variable {cfg : Config} {m n m' : Memory} {order : PaperOrder} {a : CloseArgs}

/-! ## An order that was funded ahead -/

/-- the funding of the order up to the closing time, entered in one memory and due in the other -/
structure FundedAhead (cfg : Config) (a : CloseArgs) (order : PaperOrder) (m n : Memory) : Prop where
  due : ∃ model startAt endAt ledger cost, cfg.executionModel = some model ∧
    a.occurredAt = some endAt ∧ startAt < endAt ∧
    n.paper.lastFundingAt.lookup order.paperOrderId = some startAt ∧
    n.paper.executionCosts.lookup order.paperOrderId = some ledger ∧
    model.fundingCost order startAt endAt = .ok cost ∧
    m.paper.lastFundingAt.lookup order.paperOrderId = some endAt ∧
    m.paper.executionCosts.lookup order.paperOrderId =
      some { ledger with funding := ledger.funding + cost }

/-- the order is open in both memories, which agree but for its funding, and there the first may be
ahead -/
structure Ahead (cfg : Config) (a : CloseArgs) (order : PaperOrder) (m n : Memory) : Prop where
  agree : Agree (· ≠ order.paperOrderId) m n
  isOpen : n.paper.openOrders.lookup order.paperOrderId = some order
  entries : Same m n ∨ FundedAhead cfg a order m n

namespace Ahead

theorem refl (ho : m.paper.openOrders.lookup order.paperOrderId = some order) :
    Ahead cfg a order m m :=
  ⟨Agree.refl _ m, ho, .inl (Agree.refl _ m)⟩

theorem isOpen_left (h : Ahead cfg a order m n) :
    m.paper.openOrders.lookup order.paperOrderId = some order := by
  rw [h.agree.openOrders, h.isOpen]

/-- others leave it at that -/
theorem elsewhere (h : Ahead cfg a order m n) {f : Memory → Memory}
    (hf : Elsewhere order.paperOrderId f) : Ahead cfg a order (f m) (f n) where
  agree := hf.respects m n h.agree
  isOpen := by rw [hf.openOrder, h.isOpen]
  entries := by
    rcases h.entries with hs | ⟨model, startAt, endAt, ledger, cost, h1, h2, h3, h4, h5, h6, h7, h8⟩
    · exact .inl (hf.same m n hs)
    · refine .inr ⟨model, startAt, endAt, ledger, cost, h1, h2, h3, ?_, ?_, h6, ?_, ?_⟩
      · rw [hf.funding, h4]
      · rw [hf.costs, h5]
      · rw [hf.funding, h7]
      · rw [hf.costs, h8]

end Ahead

/-- funding an order changes its own entries only -/
theorem accrued_ok {endAt : Time} (h : accrued cfg order endAt m = .ok m') :
    m' = m ∨ ∃ model startAt ledger cost, cfg.executionModel = some model ∧ startAt < endAt ∧
      m.paper.lastFundingAt.lookup order.paperOrderId = some startAt ∧
      m.paper.executionCosts.lookup order.paperOrderId = some ledger ∧
      model.fundingCost order startAt endAt = .ok cost ∧
      m' = { m with paper :=
        { m.paper with
          executionCosts := AList.insert order.paperOrderId
            { ledger with funding := ledger.funding + cost } m.paper.executionCosts
          lastFundingAt := AList.insert order.paperOrderId endAt m.paper.lastFundingAt } } := by
  unfold accrued at h
  split at h
  · rename_i model startAt hmodel hstart
    split_ifs at h with hle
    · cases h
      exact .inl rfl
    · split at h
      · cases h
      · rename_i ledger hledger
        obtain ⟨cost, hcost, h⟩ := Result.bind_ok.1 h
        cases h
        exact .inr ⟨model, startAt, ledger, cost, hmodel, not_le.1 hle, hstart, hledger, hcost, rfl⟩
  · cases h
    exact .inl rfl

/-- memories that agree on the order's entries fund it alike -/
theorem accrued_same (cfg : Config) (order : PaperOrder) (h : Same m n) (endAt : Time) :
    (∃ e, accrued cfg order endAt m = .error e ∧ accrued cfg order endAt n = .error e) ∨
      ∃ m' n', accrued cfg order endAt m = .ok m' ∧ accrued cfg order endAt n = .ok n' ∧
        Same m' n' := by
  have hf := h.funding order.paperOrderId trivial
  have hc := h.costs order.paperOrderId trivial
  unfold accrued
  rw [hf, hc]
  split
  · split_ifs with hle
    · exact .inr ⟨m, n, rfl, rfl, h⟩
    · split
      · exact .inl ⟨_, rfl, rfl⟩
      · rename_i model startAt _ _ _ ledger _
        cases hcost : model.fundingCost order startAt endAt with
        | error e => exact .inl ⟨e, rfl, rfl⟩
        | ok cost =>
          refine .inr ⟨_, _, rfl, rfl, h.bare, fun i _ => ?_, fun i _ => ?_⟩
          · rw [Dict.lookup_insert_eq, Dict.lookup_insert_eq, h.costs i trivial]
          · rw [Dict.lookup_insert_eq, Dict.lookup_insert_eq, h.funding i trivial]
  · exact .inr ⟨m, n, rfl, rfl, h⟩

/-- a memory that is ahead has nothing to fund, and the other catches up -/
theorem accrued_ahead {endAt : Time} (hagree : Agree (· ≠ order.paperOrderId) m n)
    (h : FundedAhead cfg a order m n) (ha : a.occurredAt = some endAt) :
    accrued cfg order endAt m = .ok m ∧
      ∃ n', accrued cfg order endAt n = .ok n' ∧ Same m n' := by
  obtain ⟨model, startAt, time, ledger, cost, hmodel, htime, hlt, hstart, hledger, hcost, hended,
    hfunded⟩ := h.due
  rw [ha] at htime
  cases htime
  constructor
  · simp only [accrued, hmodel, hended, le_refl, if_true]
  · refine ⟨{ n with paper :=
      { n.paper with
        executionCosts := AList.insert order.paperOrderId
          { ledger with funding := ledger.funding + cost } n.paper.executionCosts
        lastFundingAt := AList.insert order.paperOrderId endAt n.paper.lastFundingAt } }, ?_, ?_⟩
    · simp only [accrued, hmodel, hstart, hledger, if_neg (not_le.2 hlt), hcost]
      rfl
    · refine ⟨hagree.bare, fun i _ => ?_, fun i _ => ?_⟩
      · rw [Dict.lookup_insert_eq]
        split_ifs with hi
        · rw [hi, hfunded]
        · exact hagree.costs i hi
      · rw [Dict.lookup_insert_eq]
        split_ifs with hi
        · rw [hi, hended]
        · exact hagree.funding i hi

/-! ## What a failed close leaves -/

open Coro (Beside Alike)

theorem beside_accrueFunding {endAt : Time} (h : Ahead cfg a order m n)
    (ha : a.occurredAt = some endAt) :
    Beside (Elsewhere order.paperOrderId) (accrueFunding cfg order endAt) m n
      fun _ m n => Ahead cfg a order m n := by
  unfold accrueFunding
  simp only [Coro.bind_eq, Coro.read_bind, Coro.beside_get]
  cases hm : accrued cfg order endAt m with
  | error e => exact h
  | ok m' =>
    show Ahead cfg a order m' n
    rcases h.entries with hs | hahead
    · rcases accrued_ok hm with rfl | ⟨model, startAt, ledger, cost, hmodel, hlt, hstart, hledger,
        hcost, rfl⟩
      · exact h
      · refine ⟨⟨hs.bare, fun i hi => ?_, fun i hi => ?_⟩, h.isOpen, .inr ⟨model, startAt, endAt,
          ledger, cost, hmodel, ha, hlt, ?_, ?_, hcost, ?_, ?_⟩⟩
        · exact (AList.lookup_insert_ne hi).trans (hs.costs i trivial)
        · exact (AList.lookup_insert_ne hi).trans (hs.funding i trivial)
        · rw [← hs.funding _ trivial, hstart]
        · rw [← hs.costs _ trivial, hledger]
        · exact AList.lookup_insert _
        · exact AList.lookup_insert _
    · rw [(accrued_ahead h.agree hahead ha).1] at hm
      cases hm
      exact h

theorem beside_fundClosing (h : Ahead cfg a order m n) :
    Beside (Elsewhere order.paperOrderId) (fundClosing cfg a order) m n
      fun _ m n => Ahead cfg a order m n := by
  unfold fundClosing
  split
  · rename_i ha
    exact beside_accrueFunding h ha
  · exact h

/-- an audit record changes nothing itself -/
theorem beside_record (r : AuditRecord) (h : Ahead cfg a order m n) :
    Beside (Elsewhere order.paperOrderId) (AuditService.record cfg r) m n
      fun _ m n => Ahead cfg a order m n := by
  unfold AuditService.record
  simp only [Coro.bind_eq, Coro.read_bind, Coro.beside_get]
  split_ifs
  · exact h
  · intro reply f hf
    cases reply with
    | ok _ => exact h.elsewhere hf
    | error e => exact h.elsewhere hf
  · exact h

theorem keepCosts_bare (cfg : Config) (c : Closing) (m : Memory) : (keepCosts cfg c m).bare = m.bare := by
  unfold keepCosts
  split_ifs <;> rfl

/-- a close that raises leaves at most the funding of its order -/
theorem beside_closeOrder (h : Ahead cfg a order m n) (hid : a.paperOrderId = order.paperOrderId) :
    Beside (Elsewhere order.paperOrderId) (closeOrder cfg a) m n
      fun r m n => ∀ e, r = .error e → Ahead cfg a order m n := by
  have hraise : ∀ e m n, Ahead cfg a order m n → Beside (Elsewhere order.paperOrderId)
      (Coro.raise e : Program PaperOrder) m n
      fun r m n => ∀ e, r = .error e → Ahead cfg a order m n :=
    fun e m n h _ _ => h
  unfold closeOrder
  split_ifs
  · exact hraise _ m n h
  have ho : m.paper.openOrders.lookup a.paperOrderId = some order := by
    rw [hid]
    exact h.isOpen_left
  simp only [Coro.bind_eq, Coro.read_bind, Coro.beside_get, ho]
  split_ifs
  · exact hraise _ m n h
  unfold closeOpen
  apply (beside_fundClosing h).bind
  · intro _ m₁ n₁ h₁
    simp only [Coro.bind_eq, Coro.read_bind, Coro.beside_get]
    cases closing cfg a order m₁ with
    | error e => exact hraise e m₁ n₁ h₁
    | ok c =>
      -- the close ends well once it is recorded and stored
      have hends : ∀ m₂ n₂, Ahead cfg a order m₂ n₂ → ∀ m₃, m₃ = keepCosts cfg c m₂ →
          m₃.paper.openOrders.lookup a.paperOrderId = some order := by
        intro m₂ n₂ h₂ m₃ hm₃
        have hopen : m₃.paper.openOrders = m₂.paper.openOrders := by
          have := congrArg (fun m => m.paper.openOrders) (keepCosts_bare cfg c m₂)
          rw [hm₃]
          exact this
        rw [hopen, hid]
        exact h₂.isOpen_left
      apply (beside_record _ h₁).bind
      · intro _ m₂ n₂ h₂
        split_ifs
        · intro reply f hf
          have h₃ := h₂.elsewhere hf
          cases reply with
          | error e => exact hraise e _ _ h₃
          | ok _ =>
            have ho := hends _ _ h₃ _ rfl
            simp only [Coro.leave_ok, Coro.ret_bind, Coro.modify_bind, Coro.beside_get,
              Coro.beside_put, ho]
            exact fun e he => by cases he
        · have ho := hends _ _ h₂ _ rfl
          simp only [Coro.ret_bind, Coro.modify_bind, Coro.beside_get, Coro.beside_put, ho]
          exact fun e he => by cases he
      · exact fun e m₂ n₂ h₂ e' _ => h₂
  · exact fun e m₁ n₁ h₁ e' _ => h₁

/-! ## The retry -/

theorem alike_accrueFunding {endAt : Time} (h : Ahead cfg a order m n)
    (ha : a.occurredAt = some endAt) :
    Alike Same (Elsewhere order.paperOrderId) (accrueFunding cfg order endAt) m
      (accrueFunding cfg order endAt) n := by
  unfold accrueFunding
  simp only [Coro.bind_eq]
  apply Alike.read
  rcases h.entries with hs | hahead
  · rcases accrued_same cfg order hs endAt with
      ⟨e, hm, hn⟩ | ⟨m', n', hm, hn, hs'⟩
    · rw [hm, hn]
      exact .raise e hs
    · rw [hm, hn]
      exact .modify hs'
  · obtain ⟨hm, n', hn, hs'⟩ := accrued_ahead h.agree hahead ha
    rw [hm, hn]
    exact .modify hs'

theorem alike_fundClosing (h : Ahead cfg a order m n) :
    Alike Same (Elsewhere order.paperOrderId) (fundClosing cfg a order) m
      (fundClosing cfg a order) n := by
  unfold fundClosing
  split
  · rename_i ha
    exact alike_accrueFunding h ha
  · rename_i hnone
    rcases h.entries with hs | hahead
    · exact .ret () hs
    · obtain ⟨model, startAt, endAt, ledger, cost, hmodel, htime, -⟩ := hahead.due
      exact absurd htime (hnone model endAt hmodel)

theorem alike_record (r : AuditRecord) (h : Same m n) (i : String) :
    Alike Same (Elsewhere i) (AuditService.record cfg r) m (AuditService.record cfg r) n := by
  unfold AuditService.record
  simp only [Coro.bind_eq]
  apply Alike.read
  rw [h.auditFailMode]
  split_ifs
  · exact .raise _ h
  · apply Alike.handle
    · exact .call _ h fun f hf m n hs => hf.same m n hs
    · exact fun e m n hs => .raise _ hs
  · exact .ret () h

theorem closing_same (h : Same m n) : closing cfg a order m = closing cfg a order n := by
  unfold closing
  rw [h.costs _ trivial, h.now]

theorem keepCosts_same (h : Same m n) (c : Closing) : Same (keepCosts cfg c m) (keepCosts cfg c n) := by
  refine ⟨by rw [keepCosts_bare, keepCosts_bare, h.bare], fun i _ => ?_, fun i _ => ?_⟩
  · unfold keepCosts
    split_ifs
    · rw [Dict.lookup_insert_eq, Dict.lookup_insert_eq, h.costs i trivial]
    · exact h.costs i trivial
  · unfold keepCosts
    split_ifs
    · rw [Dict.lookup_erase_eq, Dict.lookup_erase_eq, h.funding i trivial]
    · exact h.funding i trivial

theorem settle_same (h : Same m n) (c : Closing) : Same (settle cfg c m) (settle cfg c n) := by
  have hbare : ∀ m : Memory, (settle cfg c m).bare = (settle cfg c m.bare).bare := fun _ => rfl
  have hentries : ∀ m : Memory,
      (settle cfg c m).paper.executionCosts = m.paper.executionCosts ∧
      (settle cfg c m).paper.lastFundingAt = m.paper.lastFundingAt := by
    intro m
    rw [settle_paper]
    exact ⟨rfl, rfl⟩
  refine ⟨by rw [hbare m, hbare n, h.bare], fun i _ => ?_, fun i _ => ?_⟩
  · rw [(hentries m).1, (hentries n).1, h.costs i trivial]
  · rw [(hentries m).2, (hentries n).2, h.funding i trivial]

/-- a close that passes its guards goes the same way whether its order was funded before -/
theorem alike_closeOrder (h : Ahead cfg a order m n) (hid : a.paperOrderId = order.paperOrderId)
    (hprice : ¬ a.exitPrice ≤ 0) (hentry : order.entryPrice ≠ 0) :
    Alike Same (Elsewhere order.paperOrderId) (closeOrder cfg a) m (closeOrder cfg a) n := by
  unfold closeOrder
  simp only [Coro.bind_eq, if_neg hprice]
  apply Alike.read
  have ho : n.paper.openOrders.lookup a.paperOrderId = some order := by
    rw [hid]
    exact h.isOpen
  rw [h.agree.openOrders]
  simp only [ho, if_neg hentry]
  unfold closeOpen
  simp only [Coro.bind_eq]
  apply (alike_fundClosing h).bind
  intro _ m₁ n₁ h₁
  apply Alike.read
  rw [closing_same h₁]
  apply (Alike.leave _ h₁).bind
  intro c m₂ n₂ h₂
  apply (alike_record _ h₂ _).bind
  intro _ m₃ n₃ h₃
  have hothers : ∀ f, Elsewhere order.paperOrderId f → ∀ m n, Same m n → Same (f m) (f n) :=
    fun f hf m n hs => hf.same m n hs
  split_ifs
  on_goal 1 => apply (Alike.call _ h₃ hothers).bind
  on_goal 2 => apply (Alike.ret () h₃).bind
  all_goals
    intro _ m₄ n₄ h₄
    apply (Alike.modify (keepCosts_same h₄ c)).bind
    intro _ m₅ n₅ h₅
    apply Alike.read
    rw [h₅.openOrders]
    split
    · exact .raise _ h₅
    · apply (Alike.modify (settle_same h₅ c)).bind
      exact fun _ m₆ n₆ h₆ => .ret _ h₆

/-- what a close that returns has passed -/
theorem Ahead.guards (h : Ahead cfg a order m n) (hid : a.paperOrderId = order.paperOrderId)
    {D : Type} {answer : (q : Request) → D → Except Error q.Reply × D}
    {others : D → Memory → Memory} {d d' : D} {closed : PaperOrder}
    (hrun : (closeOrder cfg a).runAmid answer others m d = (.ok closed, m', d')) :
    ¬ a.exitPrice ≤ 0 ∧ order.entryPrice ≠ 0 := by
  have ho : m.paper.openOrders.lookup a.paperOrderId = some order := by
    rw [hid]
    exact h.isOpen_left
  unfold closeOrder at hrun
  split_ifs at hrun with hprice
  · cases hrun
  · refine ⟨hprice, fun hentry => ?_⟩
    simp only [Coro.bind_eq, Coro.read_bind, Coro.runAmid, ho, hentry, if_true] at hrun
    cases hrun

/-- the report is a matter of the entries -/
theorem performance_same (h : Same m n) : performance cfg m = performance cfg n := by
  have hcosts : ∀ o, m.paper.costsOf o = n.paper.costsOf o := by
    intro o
    rw [PaperAccount.costsOf, PaperAccount.costsOf, h.costs _ trivial]
  have hfees : feesOf cfg m.paper = feesOf cfg n.paper := by
    funext o
    rw [feesOf, feesOf, hcosts]
  have hgross : grossOf cfg m.paper = grossOf cfg n.paper := by
    funext o
    rw [grossOf, grossOf, hcosts, hfees]
  have hbare := h.bare
  have hclosed : m.paper.closedOrders = n.paper.closedOrders :=
    congrArg (fun b => b.paper.closedOrders) hbare
  have hbalance : m.paper.balance = n.paper.balance := congrArg (fun b => b.paper.balance) hbare
  have hdrawdown : m.paper.maxDrawdownPercent = n.paper.maxDrawdownPercent :=
    congrArg (fun b => b.paper.maxDrawdownPercent) hbare
  have hrisk : m.riskState = n.riskState := congrArg (fun b => b.riskState) hbare
  simp only [performance, PaperAccount.total, hclosed, hbalance, hdrawdown, hrisk, h.openOrders,
    hfees, hgross, hcosts]

/-! ## A close that is tried again -/

/-- a failed close leaves `m₁` where there would be `n₁` without it: the account is the same, and a
retry that succeeds does there what it would have done here -/
structure Retryable (cfg : Config) (a : CloseArgs) (m₁ n₁ : Memory) : Prop where
  balance : m₁.paper.balance = n₁.paper.balance
  openOrders : m₁.paper.openOrders = n₁.paper.openOrders
  closedOrders : m₁.paper.closedOrders = n₁.paper.closedOrders
  equityCurve : m₁.paper.equityCurve = n₁.paper.equityCurve
  drawdown : m₁.paper.peakEquity = n₁.paper.peakEquity ∧
    m₁.paper.maxDrawdownPercent = n₁.paper.maxDrawdownPercent ∧ m₁.peakEquity = n₁.peakEquity
  positions : m₁.positions = n₁.positions
  riskState : m₁.riskState = n₁.riskState
  retry : ∀ {D : Type} (between : Memory → Memory) (answer : (q : Request) → D → Except Error q.Reply × D)
    (others : D → Memory → Memory) (d d₂ : D) (closed : PaperOrder) (m₂ : Memory),
    Elsewhere a.paperOrderId between → (∀ d, Elsewhere a.paperOrderId (others d)) →
    (closeOrder cfg a).runAmid answer others (between m₁) d = (.ok closed, m₂, d₂) →
    ∃ n₂, (closeOrder cfg a).runAmid answer others (between n₁) d = (.ok closed, n₂, d₂) ∧
      Same m₂ n₂ ∧ performance cfg m₂ = performance cfg n₂

/-- **A failed close is retryable.** Wherever a close of an open order raises, whatever it was replied
and whatever others did meanwhile, the account is what the others alone made of it, and a retry that
succeeds closes the order as it would have without the failure, with no cost charged twice. -/
theorem failed_close_retryable (ho : m.paper.openOrders.lookup order.paperOrderId = some order)
    (hid : a.paperOrderId = order.paperOrderId) {D : Type}
    {answer : (q : Request) → D → Except Error q.Reply × D} {others : D → Memory → Memory}
    (hothers : ∀ d, Elsewhere order.paperOrderId (others d)) {d : D} {e : Error}
    (hfail : ((closeOrder cfg a).runAmid answer others m d).1 = .error e) :
    Retryable cfg a ((closeOrder cfg a).runAmid answer others m d).2.1
      ((closeOrder cfg a).besideRun answer others m d m) := by
  have hahead := (beside_closeOrder (Ahead.refl ho) hid).runAmid answer hothers d e hfail
  have hbare := hahead.agree.bare
  refine
    { balance := congrArg (fun b => b.paper.balance) hbare
      openOrders := hahead.agree.openOrders
      closedOrders := congrArg (fun b => b.paper.closedOrders) hbare
      equityCurve := congrArg (fun b => b.paper.equityCurve) hbare
      drawdown := ⟨congrArg (fun b => b.paper.peakEquity) hbare,
        congrArg (fun b => b.paper.maxDrawdownPercent) hbare, congrArg (fun b => b.peakEquity) hbare⟩
      positions := congrArg (fun b => b.positions) hbare
      riskState := congrArg (fun b => b.riskState) hbare
      retry := ?_ }
  intro D' between answer' others' d' d₂ closed m₂ hbetween hothers' hretry
  rw [hid] at hbetween hothers'
  have hnow := hahead.elsewhere hbetween
  obtain ⟨hprice, hentry⟩ := hnow.guards hid hretry
  obtain ⟨r, m', n', d'', hm, hn, hs⟩ :=
    (alike_closeOrder hnow hid hprice hentry).runAmid answer' hothers' d'
  rw [hretry] at hm
  cases hm
  exact ⟨n', hn, hs, performance_same hs⟩

/-! ## An audit trail that is away for a while -/

/-- time passes elsewhere -/
theorem elsewhere_tick (i : String) : Elsewhere i fun m => { m with now := m.now + 1 } where
  respects m n h := by
    have hnow : ∀ m : Memory, Memory.bare { m with now := m.now + 1 } =
        { m.bare with now := m.bare.now + 1 } := fun _ => rfl
    exact ⟨by rw [hnow, hnow, h.bare], h.costs, h.funding⟩
  openOrder _ := rfl
  costs _ := rfl
  funding _ := rfl

/-- the close of another order is elsewhere -/
theorem elsewhere_close {i : String} {c : Closing} (hne : i ≠ c.closed.paperOrderId) :
    Elsewhere i fun m => settle cfg c (keepCosts cfg c m) where
  respects m n h := by
    have hbare : ∀ m : Memory, (settle cfg c m).bare = (settle cfg c m.bare).bare := fun _ => rfl
    refine ⟨?_, fun j hj => ?_, fun j hj => ?_⟩
    · rw [hbare, hbare (keepCosts cfg c n), keepCosts_bare, keepCosts_bare, h.bare]
    · simp only [settle_paper, keepCosts]
      split_ifs
      · simp only [Dict.lookup_insert_eq, h.costs j hj]
      · exact h.costs j hj
    · simp only [settle_paper, keepCosts]
      split_ifs
      · simp only [Dict.lookup_erase_eq, h.funding j hj]
      · exact h.funding j hj
  openOrder m := by
    have hopen : (keepCosts cfg c m).paper.openOrders = m.paper.openOrders :=
      congrArg (fun b => b.paper.openOrders) (keepCosts_bare cfg c m)
    rw [settle_paper, hopen]
    exact AList.lookup_erase_ne hne
  costs m := by
    simp only [settle_paper, keepCosts]
    split_ifs
    · exact AList.lookup_insert_ne hne
    · rfl
  funding m := by
    simp only [settle_paper, keepCosts]
    split_ifs
    · exact AList.lookup_erase_ne hne
    · rfl

/-- the order of `funded_round_trip`, open since time 0 -/
def fundedAccount : Memory :=
  { Memory.fresh (trading funded) 0 with
    paper :=
      { openOrders := AList.insert "p" fundedOrder ∅
        executionCosts := AList.insert "p" {} ∅
        lastFundingAt := AList.insert "p" 0 ∅ } }

/-- closed at its entry price, eight hours later -/
def fundedClose : CloseArgs where
  paperOrderId := "p"
  exitPrice := 100
  occurredAt := some (8 * 3600 * 1000000)

def refusing (q : Request) (d : Unit) : Except Error q.Reply × Unit :=
  (.error ⟨.database, "unavailable"⟩, d)

def storing (q : Request) (d : Unit) : Except Error q.Reply × Unit :=
  match q with
  | .saveAuditLog _ => (.ok (), d)
  | .savePaperOrder _ => (.ok (), d)
  | _ => (.error ⟨.database, "unavailable"⟩, d)

/-- what the close leaves whose audit record is refused -/
def unclosedAccount : Memory :=
  ((closeOrder (trading funded) fundedClose).runAmid refusing
    (fun _ m => { m with now := m.now + 1 }) fundedAccount ()).2.1

theorem fundedClose_refused :
    ((closeOrder (trading funded) fundedClose).runAmid refusing
      (fun _ m => { m with now := m.now + 1 }) fundedAccount ()).1 =
      .error ⟨.audit, "Audit persistence failed: unavailable"⟩ := by
  decide +kernel

theorem fundedAccount_open :
    fundedAccount.paper.openOrders.lookup fundedOrder.paperOrderId = some fundedOrder := by
  decide +kernel

/-- the retry pays the order the 100 of funding it is due, once -/
theorem failed_close_retryable_audit :
    (((closeOrder (trading funded) fundedClose).runAmid storing (fun _ m => m) unclosedAccount ()).1
        |>.toOption.bind PaperOrder.pnl) = some 100 ∧
      Retryable (trading funded) fundedClose unclosedAccount
        ((closeOrder (trading funded) fundedClose).besideRun refusing
          (fun _ m => { m with now := m.now + 1 }) fundedAccount () fundedAccount) :=
  ⟨by decide +kernel,
    failed_close_retryable fundedAccount_open rfl (fun _ => elsewhere_tick _) fundedClose_refused⟩

end PaperTradingEngine

end CapitalCipher
