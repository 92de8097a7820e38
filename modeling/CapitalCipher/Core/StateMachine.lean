/-
The system state machine of `core/state_machine.py`, with the kill switch it holds.

No module of the repository registers a transition listener, so a transition is one synchronous
step. The history of transitions is not read by any modelled function and is left out.

  • `transition_ok`: an accepted transition is an edge of `allowedTransitions` and never enters a
    LIVE state.
  • `triggerKillSwitch_state`, `reset_ok`: what the two kill-switch commands leave behind.
-/
import CapitalCipher.Schemas.Common

namespace CapitalCipher

inductive SystemState where
  | offline | initializing | paper | liveLocked | live | degraded | error | maintenance
  deriving DecidableEq, Repr

def SystemState.value : SystemState → String
  | .offline => "OFFLINE"
  | .initializing => "INITIALIZING"
  | .paper => "PAPER"
  | .liveLocked => "LIVE_LOCKED"
  | .live => "LIVE"
  | .degraded => "DEGRADED"
  | .error => "ERROR"
  | .maintenance => "MAINTENANCE"

/-- `ALLOWED_TRANSITIONS` -/
def allowedTransitions : SystemState → List SystemState
  | .offline => [.initializing]
  | .initializing => [.paper, .error]
  | .paper => [.degraded, .error, .offline]
  | .degraded => [.paper, .error]
  | .error => [.maintenance]
  | .maintenance => [.offline]
  | .liveLocked => []
  | .live => []

/-- `PHASE_1_FORBIDDEN_TARGETS` -/
def SystemState.forbidden (s : SystemState) : Bool := s == .live || s == .liveLocked

/-- `OPERATIONAL_STATES` -/
def SystemState.operational (s : SystemState) : Bool := s == .paper || s == .degraded

structure StateMachine where
  state : SystemState := .offline
  killSwitchActive : Bool := false
  killSwitchReason : Option String := none
  deriving DecidableEq

namespace StateMachine

def canOperate (sm : StateMachine) : Bool := sm.state.operational && !sm.killSwitchActive

def transition (sm : StateMachine) (newState : SystemState) : Except Error StateMachine :=
  if newState.forbidden then
    .error ⟨.security, "Transition to " ++ newState.value ++ " is prohibited in Phase 1."⟩
  else if newState = sm.state then
    .error ⟨.systemState, "System already in state " ++ newState.value ++ "."⟩
  else if newState ∈ allowedTransitions sm.state then .ok { sm with state := newState }
  else .error ⟨.systemState,
    "Transition " ++ sm.state.value ++ " -> " ++ newState.value ++ " is not allowed."⟩

/-- the kill switch forces operational states into ERROR -/
def triggerKillSwitch (sm : StateMachine) (reason : String) : StateMachine :=
  let on := { sm with killSwitchActive := true, killSwitchReason := some reason }
  if sm.state.operational then
    match on.transition .error with
    | .ok sm' => sm'
    | .error _ => on      -- unreachable: both operational states have the edge to ERROR
  else on

/-- the kill switch is cleared in an explicit maintenance window only -/
def resetKillSwitchAfterMaintenance (sm : StateMachine) : Except Error StateMachine :=
  if sm.state ≠ .maintenance then
    .error ⟨.systemState, "Kill switch reset requires MAINTENANCE state."⟩
  else .ok { sm with killSwitchActive := false, killSwitchReason := none }

theorem transition_ok {sm sm' : StateMachine} {s : SystemState} (h : sm.transition s = .ok sm') :
    s ∈ allowedTransitions sm.state ∧ s.forbidden = false ∧ sm' = { sm with state := s } := by
  unfold transition at h
  split_ifs at h with hf hs ha
  cases h
  exact ⟨ha, by simpa using hf, rfl⟩

@[simp] theorem triggerKillSwitch_active (sm : StateMachine) (reason : String) :
    (sm.triggerKillSwitch reason).killSwitchActive = true := by
  unfold triggerKillSwitch
  dsimp only
  split_ifs
  · split
    · rename_i h
      rw [(transition_ok h).2.2]
    · rfl
  · rfl

theorem triggerKillSwitch_state (sm : StateMachine) (reason : String) :
    (sm.triggerKillSwitch reason).state = if sm.state.operational then .error else sm.state := by
  rcases sm with ⟨s, k, r⟩
  cases s <;> rfl

theorem reset_ok {sm sm' : StateMachine} (h : sm.resetKillSwitchAfterMaintenance = .ok sm') :
    sm.state = .maintenance ∧ sm' = { sm with killSwitchActive := false, killSwitchReason := none } := by
  unfold resetKillSwitchAfterMaintenance at h
  split_ifs at h with hs
  cases h
  exact ⟨not_not.1 hs, rfl⟩

end StateMachine

end CapitalCipher
