/-
What every schema shares: the enumerations of `schemas/common.py`, the error taxonomy of
`core/errors.py`, and the way a pydantic model accepts or refuses its fields.

Floats are exact rationals, datetimes are microsecond counts, ids are strings, and an enumeration
is an inductive type whose `value` is the source's text.

  • `validateModel_ok`: a model is accepted, unchanged, exactly when every field constraint and
    every model rule holds.
  • `validateModel_error`: a refusal names a field or a rule that fails.
-/
import CapitalCipher.Lib.Decimal

namespace CapitalCipher

/-- microseconds since the epoch -/
abbrev Time := ℕ

/-- `statistics.fmean` -/
def fmean (values : List ℚ) : ℚ := values.sum / values.length

/-- the exceptions of `core/errors.py`, plus the two that libraries raise -/
inductive ErrorKind where
  | validation | dataQuality | risk | audit | database | security | systemState
  | externalService | ambiguousExecution | executionRejected
  | schema       -- pydantic refused a model
  | integrity    -- the database refused a write
  | transport    -- any other exception
  deriving DecidableEq, Repr

/-- `type(exc).__name__` -/
def ErrorKind.typeName : ErrorKind → String
  | .validation => "ValidationError"
  | .dataQuality => "DataQualityError"
  | .risk => "RiskError"
  | .audit => "AuditError"
  | .database => "DatabaseError"
  | .security => "SecurityError"
  | .systemState => "SystemStateError"
  | .externalService => "ExternalServiceError"
  | .ambiguousExecution => "AmbiguousExecutionError"
  | .executionRejected => "ExecutionRejectedError"
  | .schema => "ValidationError"
  | .integrity => "IntegrityError"
  | .transport => "Exception"

structure Error where
  kind : ErrorKind
  message : String
  deriving DecidableEq, Repr

inductive Exchange where
  | binance | bybit
  deriving DecidableEq, Repr

def Exchange.value : Exchange → String
  | .binance => "BINANCE"
  | .bybit => "BYBIT"

/-- declared in `schemas/oms.py`; exposure ids name it too -/
inductive ExecutionEnvironment where
  | paper | testnet
  deriving DecidableEq, Repr

def ExecutionEnvironment.value : ExecutionEnvironment → String
  | .paper => "PAPER"
  | .testnet => "TESTNET"

inductive CandidateAction where
  | buy | sell | hold | wait | block
  deriving DecidableEq, Repr

def CandidateAction.value : CandidateAction → String
  | .buy => "BUY"
  | .sell => "SELL"
  | .hold => "HOLD"
  | .wait => "WAIT"
  | .block => "BLOCK"

inductive RiskStatus where
  | pending | approved | reduced | blocked | killSwitch
  deriving DecidableEq, Repr

def RiskStatus.value : RiskStatus → String
  | .pending => "PENDING"
  | .approved => "APPROVED"
  | .reduced => "REDUCED"
  | .blocked => "BLOCKED"
  | .killSwitch => "KILL_SWITCH"

inductive PaperOrderStatus where
  | created | filled | partiallyFilled | cancelled | closed | expired | failed
  deriving DecidableEq, Repr

inductive OrderSide where
  | buy | sell
  deriving DecidableEq, Repr

/-- `OrderSide(decision.candidate_action.value)` -/
def OrderSide.ofAction : CandidateAction → Except Error OrderSide
  | .buy => .ok .buy
  | .sell => .ok .sell
  | a => .error ⟨.schema, a.value ++ " is not a valid OrderSide"⟩

/-- the fields of a `Decision` the modelled code reads -/
structure Decision where
  decisionId : String
  correlationId : String
  symbol : String
  timeframe : String
  candidateAction : CandidateAction
  strategy : String
  deriving DecidableEq, Repr

/-- field constraints are reported together; the model rules run only when they all hold -/
def validateModel {α : Type} (fields rules : List (String × Bool)) (a : α) : Except Error α :=
  match fields.filter fun f => !f.2 with
  | [] =>
    match rules.find? fun r => !r.2 with
    | none => .ok a
    | some r => .error ⟨.schema, r.1⟩
  | bad => .error ⟨.schema, ", ".intercalate (bad.map Prod.fst)⟩

theorem validateModel_ok {α : Type} {fields rules : List (String × Bool)} {a b : α} :
    validateModel fields rules a = .ok b ↔
      (∀ f ∈ fields, f.2 = true) ∧ (∀ r ∈ rules, r.2 = true) ∧ b = a := by
  unfold validateModel
  constructor
  · intro h
    split at h
    · rename_i hf
      split at h
      · rename_i hr
        cases h
        refine ⟨fun f hm => ?_, fun r hm => ?_, rfl⟩
        · by_contra hne
          have : f ∈ fields.filter fun f => !f.2 := List.mem_filter.2 ⟨hm, by simp [hne]⟩
          rw [hf] at this
          cases this
        · simpa using List.find?_eq_none.1 hr r hm
      · cases h
    · cases h
  · rintro ⟨hf, hr, rfl⟩
    have h1 : (fields.filter fun f => !f.2) = [] := by
      rw [List.filter_eq_nil_iff]
      intro f hm
      simp [hf f hm]
    have h2 : (rules.find? fun r => !r.2) = none := by
      rw [List.find?_eq_none]
      intro r hm
      simp [hr r hm]
    rw [h1, h2]

/-- a refusal lists exactly the fields that fail, or names a rule that fails -/
theorem validateModel_error {α : Type} {fields rules : List (String × Bool)} {a : α} {e : Error}
    (h : validateModel fields rules a = .error e) :
    e.kind = .schema ∧
      (e.message = ", ".intercalate ((fields.filter fun f => !f.2).map Prod.fst) ∨
        ∃ r ∈ rules, r.2 = false ∧ e.message = r.1) := by
  unfold validateModel at h
  split at h
  · split at h
    · cases h
    · rename_i r hr
      cases h
      refine ⟨rfl, .inr ⟨r, List.mem_of_find?_eq_some hr, ?_, rfl⟩⟩
      simpa using List.find?_some hr
  · cases h
    exact ⟨rfl, .inl rfl⟩

end CapitalCipher
