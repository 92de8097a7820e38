/-
The alert and cost contracts of `schemas/operations.py`: an SLO evaluation as far as its alert reads
it, one event of an alert's lifecycle, a usage record with the offset its time is written with, and
the status of a day's budget.

  • `OperationalAlertEvent.check_eq`: a check returns the event it was given.
  • `CostUsage.cost_nonneg`: an accepted record costs at least nothing.
-/
import CapitalCipher.Schemas.Json
import CapitalCipher.Schemas.Market

namespace CapitalCipher

inductive SLOStatus where
  | noData | healthy | warning | breached
  deriving DecidableEq, Repr

/-- what `_sync_slo_alert` reads of an evaluation -/
structure SLOEvaluation where
  evaluationId : String
  sloName : String
  measured : Option ℚ
  target : ℚ
  status : SLOStatus
  deriving DecidableEq

inductive AlertEventType where
  | opened | resolved
  deriving DecidableEq, Repr

inductive AlertSeverity where
  | warning | error | critical
  deriving DecidableEq, Repr

/-- the arguments of `_record_alert` -/
structure AlertRecord where
  alertKey : String
  eventType : AlertEventType
  severity : AlertSeverity
  source : String
  correlationId : Option String
  reason : String
  metadata : Json
  deriving DecidableEq

structure OperationalAlertEvent extends AlertRecord where
  alertEventId : String
  lifecycleSequence : ℕ
  occurredAt : Time
  deriving DecidableEq

/-- `^[a-z][a-z0-9:_.-]+$`, of 3 to 160 characters -/
def validAlertKey (s : String) : Bool :=
  decide (3 ≤ s.length ∧ s.length ≤ 160) &&
  match s.toList with
  | first :: rest =>
    first.isLower && rest.all fun c => c.isLower || c.isDigit || c ∈ [':', '_', '.', '-']
  | [] => false

def OperationalAlertEvent.check (e : OperationalAlertEvent) : Except Error OperationalAlertEvent :=
  validateModel
    [("alert_key", validAlertKey e.alertKey),
     ("lifecycle_sequence", decide (1 ≤ e.lifecycleSequence)),
     ("source", decide (2 ≤ e.source.length ∧ e.source.length ≤ 128)),
     ("correlation_id", e.correlationId.all fun c => decide (c.length ≤ 64)),
     ("reason", decide (1 ≤ e.reason.length ∧ e.reason.length ≤ 1000))] [] e

theorem OperationalAlertEvent.check_eq {e e' : OperationalAlertEvent} (h : e.check = .ok e') :
    e' = e :=
  (validateModel_ok.1 h).2.2

/-! ## costs -/

inductive CostCenter where
  | agentRuntime | externalData | storage | observability
  deriving DecidableEq, Repr

structure CostUsageRecord where
  usageId : String
  costCenter : CostCenter
  resource : String
  quantity : ℚ
  unit : String
  unitCostUsd : ℚ
  estimatedCostUsd : ℚ
  correlationId : Option String
  observedAt : Time
  /-- microseconds east of UTC -/
  utcOffset : ℤ := 0
  deriving DecidableEq

namespace CostUsageRecord

/-- `observed_at.date()` -/
def date (r : CostUsageRecord) : ℤ := (r.observedAt + r.utcOffset) / dayMicroseconds

/-- the UTC day of the usage -/
def utcDay (r : CostUsageRecord) : ℤ := r.observedAt / dayMicroseconds

/-- `^[A-Za-z0-9][A-Za-z0-9._:-]+$`, of 2 to 128 characters -/
def validResource (s : String) : Bool :=
  decide (2 ≤ s.length ∧ s.length ≤ 128) &&
  match s.toList with
  | first :: rest =>
    first.isAlphanum && rest.all fun c => c.isAlphanum || c ∈ ['.', '_', ':', '-']
  | [] => false

/-- `^[A-Za-z][A-Za-z0-9_-]*$`, of 1 to 32 characters -/
def validUnit (s : String) : Bool :=
  decide (1 ≤ s.length ∧ s.length ≤ 32) &&
  match s.toList with
  | first :: rest => first.isAlpha && rest.all fun c => c.isAlphanum || c ∈ ['_', '-']
  | [] => false

def check (r : CostUsageRecord) : Except Error CostUsageRecord :=
  let expected := r.quantity * r.unitCostUsd
  let tolerance := max (1 / 10 ^ 9) (|expected| / 10 ^ 6)
  validateModel
    [("resource", validResource r.resource),
     ("quantity", decide (0 < r.quantity)),
     ("unit", validUnit r.unit),
     ("unit_cost_usd", decide (0 ≤ r.unitCostUsd)),
     ("estimated_cost_usd", decide (0 ≤ r.estimatedCostUsd)),
     ("correlation_id", r.correlationId.all fun c => decide (c.length ≤ 64)),
     ("observed_at", decide (|r.utcOffset| < dayMicroseconds))]
    [("estimated_cost_usd must equal quantity * unit cost",
       decide (|r.estimatedCostUsd - expected| ≤ tolerance))]
    r

end CostUsageRecord

/-- an accepted usage record -/
abbrev CostUsage := {r : CostUsageRecord // r.check = .ok r}

theorem CostUsage.cost_nonneg (r : CostUsage) : 0 ≤ r.1.estimatedCostUsd := by
  have hfields := (validateModel_ok.1 r.2).1
  exact of_decide_eq_true
    (hfields ("estimated_cost_usd", decide (0 ≤ r.1.estimatedCostUsd)) (by simp))

inductive BudgetStatus where
  | healthy | warning | hardLimit
  deriving DecidableEq, Repr

structure CostBudgetStatus where
  dailyBudgetUsd : ℚ
  spentUsd : ℚ
  remainingUsd : ℚ
  utilizationPercent : ℚ
  warningPercent : ℚ
  status : BudgetStatus
  shadowAdmissionAllowed : Bool
  deriving DecidableEq

def CostBudgetStatus.check (s : CostBudgetStatus) : Except Error CostBudgetStatus :=
  validateModel
    [("daily_budget_usd", decide (0 < s.dailyBudgetUsd)),
     ("spent_usd", decide (0 ≤ s.spentUsd)),
     ("remaining_usd", decide (0 ≤ s.remainingUsd)),
     ("utilization_percent", decide (0 ≤ s.utilizationPercent)),
     ("warning_percent", decide (0 < s.warningPercent ∧ s.warningPercent < 100))]
    [("remaining_usd is inconsistent",
       decide (|s.remainingUsd - max 0 (s.dailyBudgetUsd - s.spentUsd)| ≤ 1 / 10 ^ 6)),
     ("Hard limit must suspend SHADOW admission",
       !(s.status == .hardLimit && s.shadowAdmissionAllowed)),
     ("Only the hard limit may suspend SHADOW admission",
       s.status == .hardLimit || s.shadowAdmissionAllowed)]
    s

end CapitalCipher
