/-
What the tape of a process accounts for: the book, the closed orders, the balance, the equity peaks
and the loss counters are the tape's ticks posted one by one.

  • `Account.post`: what one tick does to the account.
  • `Memory.Posted`: the account is the whole tape posted to a fresh one.
  • `post_closings`: the closed orders and the balance, read off the tape.
  • `settle_account`, `Posted.tick`: a close posts its tick, and posting keeps an account posted.
-/
import CapitalCipher.Paper.Engine

namespace CapitalCipher

open Lib

/-- the part of a memory that trades move -/
structure Account where
  openOrders : Dict String PaperOrder := ∅
  closedOrders : List PaperOrder := []
  balance : ℚ
  peakEquity : ℚ
  totalDrawdownPercent : ℚ := 0
  dailyPnlPercent : ℚ := 0
  consecutiveLosses : ℕ := 0
  currentDay : Option ℤ := none

def Memory.account (m : Memory) : Account where
  openOrders := m.paper.openOrders
  closedOrders := m.paper.closedOrders
  balance := m.paper.balance
  peakEquity := m.peakEquity
  totalDrawdownPercent := m.riskState.totalDrawdownPercent
  dailyPnlPercent := m.riskState.dailyPnlPercent
  consecutiveLosses := m.riskState.consecutiveLosses
  currentDay := m.currentDay

namespace Account

def fresh (cfg : Config) : Account where
  balance := cfg.initialBalance
  peakEquity := cfg.initialBalance

def close (cfg : Config) (a : Account) (order : PaperOrder) (pnl : ℚ) : Account :=
  let balance := a.balance + pnl
  let peak := max a.peakEquity balance
  { a with
    openOrders := AList.erase order.paperOrderId a.openOrders
    closedOrders := a.closedOrders ++ [order]
    balance
    peakEquity := peak
    totalDrawdownPercent :=
      if 0 < peak then (peak - balance) / peak * 100 else a.totalDrawdownPercent
    dailyPnlPercent := a.dailyPnlPercent + pnl / cfg.initialBalance * 100
    consecutiveLosses := if pnl < 0 then a.consecutiveLosses + 1 else 0 }

/-- a new day zeroes the counters, the first day does not -/
def newDay (a : Account) (day : ℤ) : Account :=
  match a.currentDay with
  | none => { a with currentDay := some day }
  | some d =>
    if day = d then a
    else { a with currentDay := some day, dailyPnlPercent := 0, consecutiveLosses := 0 }

/-- what one tick does to the account -/
def post (cfg : Config) (a : Account) : Tick → Account
  | .opened order => { a with openOrders := AList.insert order.paperOrderId order a.openOrders }
  | .accepted candle => a.newDay candle.date
  | .tested _ _ => a
  | .closed order pnl => a.close cfg order pnl

end Account

/-- the account is the tape, posted tick by tick -/
def Memory.Posted (cfg : Config) (m : Memory) : Prop :=
  m.account = m.tape.foldl (Account.post cfg) (.fresh cfg)

namespace Memory.Posted

variable {cfg : Config} {m m' : Memory}

theorem fresh (now : Time) : (Memory.fresh cfg now).Posted cfg := rfl

theorem congr (h : m.Posted cfg) (ha : m'.account = m.account) (ht : m'.tape = m.tape) :
    m'.Posted cfg := by
  rw [Memory.Posted, ha, ht]
  exact h

theorem tick (h : m.Posted cfg) {t : Tick} (ha : m'.account = m.account.post cfg t)
    (ht : m'.tape = m.tape ++ [t]) : m'.Posted cfg := by
  rw [Memory.Posted, ha, ht, List.foldl_append, ← h]
  rfl

end Memory.Posted

/-! ## Ticks by kind -/

/-- the orders the tape opened, in order -/
def openings (tape : List Tick) : List PaperOrder :=
  tape.filterMap fun
    | .opened order => some order
    | _ => none

/-- the closes the tape performed, each with its result before rounding -/
def closings (tape : List Tick) : List (PaperOrder × ℚ) :=
  tape.filterMap fun
    | .closed order pnl => some (order, pnl)
    | _ => none

@[simp] theorem openings_append (s t : List Tick) : openings (s ++ t) = openings s ++ openings t :=
  List.filterMap_append

@[simp] theorem closings_append (s t : List Tick) : closings (s ++ t) = closings s ++ closings t :=
  List.filterMap_append

/-- the closes of the tape are the closed orders, and move the balance by their results -/
theorem post_closings (cfg : Config) (a : Account) (tape : List Tick) :
    (tape.foldl (Account.post cfg) a).closedOrders = a.closedOrders ++ (closings tape).map Prod.fst ∧
      (tape.foldl (Account.post cfg) a).balance = a.balance + ((closings tape).map Prod.snd).sum := by
  induction tape generalizing a with
  | nil => simp [closings]
  | cons t tape ih =>
    rw [List.foldl_cons, (ih _).1, (ih _).2]
    cases t with
    | opened order => exact ⟨rfl, rfl⟩
    | accepted candle =>
      have hday : (a.newDay candle.date).closedOrders = a.closedOrders ∧
          (a.newDay candle.date).balance = a.balance := by
        unfold Account.newDay
        split
        · exact ⟨rfl, rfl⟩
        · split_ifs <;> exact ⟨rfl, rfl⟩
      exact ⟨congrArg (· ++ _) hday.1, congrArg (· + _) hday.2⟩
    | tested i candle => exact ⟨rfl, rfl⟩
    | closed order pnl =>
      constructor
      · simp [Account.post, Account.close, closings]
      · simp only [Account.post, Account.close, closings, List.filterMap_cons, List.map_cons,
          List.sum_cons]
        ring

namespace PaperTradingEngine

variable {cfg : Config}

theorem settle_account (c : Closing) (m : Memory) :
    (settle cfg c m).account = m.account.close cfg c.closed c.netPnl := by
  by_cases h : 0 < max m.peakEquity (m.paper.balance + c.netPnl) <;>
    simp only [settle, RiskManager.updateEquity, RiskManager.registerTradeResult,
      RiskManager.unregisterPosition, Memory.account, Account.close, h, if_true, if_false]

theorem settle_tape (c : Closing) (m : Memory) :
    (settle cfg c m).tape = m.tape ++ [.closed c.closed c.netPnl] := rfl

theorem book_account (a : CreateArgs) (ledger : ExecutionCostLedger) (openedAt : Time)
    (order : PaperOrder) (m : Memory) :
    (book cfg a ledger openedAt order m).account = m.account.post cfg (.opened order) := rfl

end PaperTradingEngine

end CapitalCipher
