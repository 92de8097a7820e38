/-
`BaseAgent` and `AgentRegistry` of `agents/base.py` and `agents/registry.py`.

What an agent's own analysis does is an input of the model: it returns a contract-valid output, runs
out of time, or raises. `run` enforces the contract around it.

  • `BaseAgent.run_name`: whatever the analysis does, the output carries the agent's own name.
  • `AgentRegistry.get_ok`: a looked-up agent has the name and the version that were asked for.
-/
import CapitalCipher.Lib.Dict
import CapitalCipher.Schemas.Agents

namespace CapitalCipher

open Lib

structure BaseAgent where
  name : String
  version : String
  description : String
  requiredInputs : List String
  capabilities : List String
  decisionRole : AgentDecisionRole
  critical : Bool
  timeoutMs : ℕ
  maxAttempts : ℕ
  enabled : Bool

/-- what `_analyze` did within the agent's timeout -/
inductive Analysis where
  | returned (output : AgentOutput)
  | timedOut
  | raised (typeName : String)

namespace BaseAgent

/-- `_definition_hash` -/
def definitionHash (a : BaseAgent) : AgentDefinition where
  agentName := a.name
  version := a.version
  description := a.description
  requiredInputs := a.requiredInputs.insertionSort (· ≤ ·)
  capabilities := a.capabilities.insertionSort (· ≤ ·)
  decisionRole := a.decisionRole
  critical := a.critical
  timeoutMs := a.timeoutMs
  maxAttempts := a.maxAttempts

def registration (a : BaseAgent) : Except Error AgentRegistration :=
  AgentRegistration.check
    { agentName := a.name, version := a.version, description := a.description,
      requiredInputs := a.requiredInputs, capabilities := a.capabilities,
      decisionRole := a.decisionRole, critical := a.critical, timeoutMs := a.timeoutMs,
      maxAttempts := a.maxAttempts, enabled := a.enabled, definitionHash := a.definitionHash }

/-- `_output` -/
def output (a : BaseAgent) (status : AgentStatus) (signal : Signal) (confidence : ℕ)
    (reason : String) (latencyMs : ℕ) (createdAt : Time) : Except Error AgentOutput :=
  AgentOutput.construct a.name status signal confidence reason [] latencyMs createdAt

/-- the signal of an agent that did not deliver -/
def failureSignal (critical : Bool) : Signal := if critical then .block else .neutral

/-- the handler of `run`: the failure is an output -/
def failed (a : BaseAgent) (typeName : String) (latencyMs : ℕ) (createdAt : Time) :
    Except Error AgentOutput :=
  a.output .failed (failureSignal a.critical) 0 (a.name ++ " failed with " ++ typeName) latencyMs
    createdAt

/-- `run`: the analysis under the agent's timeout and contract -/
def run (a : BaseAgent) (analysis : Analysis) (latencyMs : ℕ) (createdAt : Time) :
    Except Error AgentOutput :=
  if !a.enabled then a.output .skipped .neutral 0 "Agent disabled" 0 createdAt
  else match analysis with
  | .returned o =>
    if o.agentName ≠ a.name then a.failed "ValueError" latencyMs createdAt
    else .ok { o with latencyMs := latencyMs }
  | .timedOut =>
    a.output .timeout (failureSignal a.critical) 0
      (a.name ++ " exceeded timeout of " ++ toString a.timeoutMs ++ "ms") latencyMs createdAt
  | .raised typeName => a.failed typeName latencyMs createdAt

/-- an agent answers under its own name -/
theorem run_name {a : BaseAgent} {analysis : Analysis} {latencyMs : ℕ} {createdAt : Time}
    {o : AgentOutput} (h : a.run analysis latencyMs createdAt = .ok o) : o.agentName = a.name := by
  unfold run at h
  split_ifs at h with he
  · exact (AgentOutput.construct_ok h).1
  · cases analysis with
    | returned o' =>
      dsimp only at h
      split_ifs at h with hn
      · exact (AgentOutput.construct_ok h).1
      · cases h
        exact not_not.1 hn
    | timedOut => exact (AgentOutput.construct_ok h).1
    | raised typeName => exact (AgentOutput.construct_ok h).1

end BaseAgent

/-- the active agents, each under its own name -/
structure AgentRegistry where
  agents : Dict String BaseAgent
  keyed : Dict.Keyed BaseAgent.name agents

namespace AgentRegistry

/-- `get` with a version -/
def get (r : AgentRegistry) (agentName version : String) : Except Error BaseAgent :=
  match r.agents.lookup agentName with
  | none => .error ⟨.validation, "Agent " ++ agentName ++ " is not registered"⟩
  | some agent =>
    if agent.version ≠ version then
      .error ⟨.validation, "Agent " ++ agentName ++ " version " ++ version ++ " is not active"⟩
    else .ok agent

theorem get_ok {r : AgentRegistry} {agentName version : String} {a : BaseAgent}
    (h : r.get agentName version = .ok a) : a.name = agentName ∧ a.version = version := by
  unfold get at h
  cases hl : r.agents.lookup agentName with
  | none =>
    rw [hl] at h
    cases h
  | some agent =>
    rw [hl] at h
    dsimp only at h
    split_ifs at h with hv
    cases h
    exact ⟨r.keyed hl, not_not.1 hv⟩

/-- a refused lookup raises a `ValidationError` -/
theorem get_error {r : AgentRegistry} {agentName version : String} {e : Error}
    (h : r.get agentName version = .error e) : e.kind = .validation := by
  unfold get at h
  split at h
  · cases h
    rfl
  · split_ifs at h
    cases h
    rfl

end AgentRegistry

end CapitalCipher
