/-
What the calls of the paper account ask: evaluations, opens, candles, closes and kill-switch commands
never await a view of the portfolio, an adapter or the order ledger.

  • `Request.trades`, `Call.trades`: their requests and the calls.
  • `trades_program`: the calls issue no other requests, whatever they are replied.
-/
import CapitalCipher.System.Steps

namespace CapitalCipher

open Lib Coro

/-- what evaluations, paper trades and kill-switch commands ask -/
def Request.trades : Request → Bool
  | .loadCentralRiskEvaluationByKey _ | .saveCentralRiskEvaluation _ _ => true
  | .consumeOrderApproval _ _ _ | .savePaperOrder _ => true
  | .setRiskControl _ _ _ _ | .saveAuditLog _ => true
  | _ => false

/-- an evaluation, a call into the paper engine, or a kill-switch command -/
def Call.trades : Call → Bool
  | .check _ | .createOrder _ | .closeOrder _ | .onCandle _ => true
  | .triggerKillSwitch _ _ _ | .resetKillSwitch _ _ _ => true
  | _ => false

/-- only such calls are started -/
def tradesOnly : Op → Bool
  | .start _ call => call.trades
  | _ => true

abbrev Trades (q : Request) : Prop := q.trades = true

variable {cfg : Config}

theorem record_trades (r : AuditRecord) : (AuditService.record cfg r).Only Trades := by
  refine .read fun m => ?_
  split_ifs
  · trivial
  · exact .handle (only_call.2 rfl) fun e => trivial
  · trivial

/-! ## The kill switch -/

theorem writeControl_trades (active : Bool) (reason actor : String) (correlationId : Option String) :
    (RiskManager.writeControl cfg active reason actor correlationId).Only Trades := by
  unfold RiskManager.writeControl
  split_ifs
  · exact only_call.2 rfl
  · exact .read fun m => trivial

theorem trigger_trades (reason actor : String) (correlationId : Option String) :
    (RiskManager.triggerKillSwitch cfg reason actor correlationId).Only Trades := by
  unfold RiskManager.triggerKillSwitch
  split_ifs
  · trivial
  · refine .bind (.ensure (.bind (writeControl_trades _ _ _ _) fun row => ?_) ?_) fun _ =>
      record_trades _
    · exact only_modify.2 trivial
    · exact only_modify.2 trivial

theorem reset_trades (reason actor : String) (correlationId : Option String) :
    (RiskManager.resetKillSwitch cfg reason actor correlationId).Only Trades := by
  refine .read fun m => ?_
  split_ifs
  · trivial
  · trivial
  · exact .bind (writeControl_trades _ _ _ _) fun row => .modify <| .read fun m =>
      .leave fun sm => .modify <| record_trades _

/-! ## Evaluations -/

theorem finalizeEvidence_trades (k : RiskCheck) (approval : Option OrderApproval) :
    (RiskManager.finalizeEvidence cfg k approval).Only Trades := by
  have hrecord : (RiskManager.recordEvidence cfg k approval).Only Trades := by
    refine .bind (record_trades _) fun _ => ?_
    split_ifs
    · exact only_call.2 rfl
    · trivial
  refine hrecord.attempt.bind fun r => ?_
  cases r with
  | error e => exact .modify trivial
  | ok u => exact .modify trivial

theorem evaluate_trades (a : CheckArgs) : (RiskManager.evaluate cfg a).Only Trades :=
  .read fun _ => .leave fun _ => .modify <| .leave fun _ => finalizeEvidence_trades _ _

theorem check_trades (a : CheckArgs) : (RiskManager.check cfg a).Only Trades := by
  unfold RiskManager.check
  split_ifs with hpositive hcap hrep
  · trivial
  · trivial
  · refine .read fun m => ?_
    split
    · split_ifs <;> trivial
    · refine .call rfl fun durable => ?_
      rcases durable with _ | ⟨k, approval⟩
      · exact evaluate_trades a
      · dsimp only
        split_ifs
        · trivial
        · exact .modify trivial
  · refine .read fun m => ?_
    split
    · split_ifs <;> trivial
    · exact evaluate_trades a

/-! ## Paper orders -/

theorem consumeApproval_trades (d : Decision) (k : RiskCheck) (order : PaperOrder) (price : ℚ) :
    (RiskManager.consumeApproval cfg d k order price).Only Trades := by
  have hgate : ∀ t msg, (RiskManager.gate d k t msg).Only Trades := by
    intro t msg
    refine .read fun m => ?_
    split
    · trivial
    · exact .modify trivial
    · trivial
  refine .bind (hgate _ _) fun approval => .read fun m => .leave fun mirror => ?_
  dsimp only
  split_ifs
  · exact .call rfl fun _ => only_modify.2 trivial
  · exact fun m => trivial

theorem createOrder_trades (a : PaperTradingEngine.CreateArgs) :
    (PaperTradingEngine.createOrder cfg a).Only Trades := by
  unfold PaperTradingEngine.createOrder
  split_ifs
  · trivial
  · trivial
  · refine .read fun m => ?_
    split_ifs
    · trivial
    · refine .leave fun side => .leave fun fill => .leave fun order => ?_
      refine .bind (record_trades _) fun _ => .bind (consumeApproval_trades _ _ _ _) fun _ => ?_
      exact .modify <| .bind (.leave fun _ => only_modify.2 trivial) fun _ => trivial

theorem accrueFunding_trades (order : PaperOrder) (endAt : Time) :
    (PaperTradingEngine.accrueFunding cfg order endAt).Only Trades :=
  .read fun _ => .leave fun _ => only_modify.2 trivial

theorem closeOrder_trades (a : PaperTradingEngine.CloseArgs) :
    (PaperTradingEngine.closeOrder cfg a).Only Trades := by
  unfold PaperTradingEngine.closeOrder
  split_ifs
  · trivial
  · refine .read fun m => ?_
    split
    · trivial
    · split_ifs
      · trivial
      · refine .bind ?_ fun _ => .read fun m => .leave fun closing => ?_
        · unfold PaperTradingEngine.fundClosing
          split
          · exact accrueFunding_trades _ _
          · trivial
        · refine .bind (record_trades _) fun _ => ?_
          dsimp only
          split_ifs
          · refine .call rfl fun _ => .modify <| .read fun m => ?_
            split
            · trivial
            · exact .modify trivial
          · refine .modify <| .read fun m => ?_
            split
            · trivial
            · exact .modify trivial

theorem onCandle_trades (candle : Candle) :
    (PaperTradingEngine.onCandle cfg candle).Only Trades := by
  have hmonitor : ∀ orders, (PaperTradingEngine.monitor cfg candle orders).Only Trades := by
    intro orders
    induction orders with
    | nil => trivial
    | cons order rest ih =>
      unfold PaperTradingEngine.monitor
      split_ifs
      · exact ih
      · refine .bind (accrueFunding_trades _ _) fun _ => .modify ?_
        split
        · exact ih
        · exact .bind (closeOrder_trades _) fun _ => .bind ih fun _ => trivial
  exact .read fun m => hmonitor _

/-- **What trades ask.** -/
theorem trades_program {call : Call} (h : call.trades = true) :
    (call.program cfg).Only Trades := by
  cases call
  case check a => exact .bind (check_trades a) fun _ => trivial
  case createOrder a => exact .bind (createOrder_trades a) fun _ => trivial
  case closeOrder a => exact .bind (closeOrder_trades a) fun _ => trivial
  case onCandle c => exact .bind (onCandle_trades c) fun _ => trivial
  case triggerKillSwitch r w c => exact trigger_trades r w c
  case resetKillSwitch r w c => exact reset_trades r w c
  all_goals cases h

end CapitalCipher
