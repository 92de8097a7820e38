/-
The cost guard of `operations/service.py`: usage records, the daily budget they are held against and
the admission of shadow agents.

A `record_cost` call awaits its save, and what follows the save runs in one stretch; calls overlap in
any order and a save may fail before or after its row is committed. A restart drops the calls under
way and reads the newest rows back. The world keeps beside the service which records it has taken,
each usage id once; a restart takes every row it finds.

  • `inv_step`: filing a record, a save and a restart keep what is held in line with what was taken.
  • `budget_latches`: in a run that files every record under its UTC day and loses none that costs
    something, the spend of a day is the sum of its records, never decreases, and a hard limit stays.
  • `misfiled_record`: a record whose own date is not its UTC date is missing from the UTC day.
-/
import CapitalCipher.Lib.BoundedQueue
import CapitalCipher.Lib.Run
import CapitalCipher.Lib.SortedLog
import CapitalCipher.Operations.Resilience
import CapitalCipher.Schemas.Agents
import CapitalCipher.Schemas.Operations
import Mathlib.Data.Prod.Lex
import Mathlib.Data.List.Lex
import Mathlib.Data.String.Basic

namespace CapitalCipher

open Lib

/-! ## the budget -/

/-- what the constructor of the service accepts -/
structure BudgetSettings where
  dailyBudgetUsd : ℚ
  budgetWarningPercent : ℚ
  budget_accepted : 0 < dailyBudgetUsd
  warning_accepted : 1 ≤ budgetWarningPercent ∧ budgetWarningPercent < 100

/-- what the records of a date cost -/
def spentOn (records : List CostUsage) (date : ℤ) : ℚ :=
  ((records.filter fun r => r.1.date = date).map fun r => r.1.estimatedCostUsd).sum

/-- the status a spend has -/
def BudgetSettings.statusOf (cfg : BudgetSettings) (spent : ℚ) : BudgetStatus :=
  let utilization := spent / cfg.dailyBudgetUsd * 100
  if 100 ≤ utilization then .hardLimit
  else if cfg.budgetWarningPercent ≤ utilization then .warning
  else .healthy

/-- the report of `budget_status` -/
def budgetReport (cfg : BudgetSettings) (spent : ℚ) : CostBudgetStatus where
  dailyBudgetUsd := cfg.dailyBudgetUsd
  spentUsd := Decimal.round spent 8
  remainingUsd := Decimal.round (max 0 (cfg.dailyBudgetUsd - spent)) 8
  utilizationPercent := Decimal.round (spent / cfg.dailyBudgetUsd * 100) 6
  warningPercent := cfg.budgetWarningPercent
  status := cfg.statusOf spent
  shadowAdmissionAllowed := cfg.statusOf spent != .hardLimit

/-- `budget_status` -/
def budgetStatus (cfg : BudgetSettings) (records : List CostUsage) (date : ℤ) :
    Except Error CostBudgetStatus :=
  (budgetReport cfg (spentOn records date)).check

/-- the date of `utcnow()` -/
def utcDate (now : Time) : ℤ := now / dayMicroseconds

/-- `shadow_admission_allowed` -/
def shadowAdmissionAllowed (recovery : RecoveryCoordinator) (cfg : BudgetSettings)
    (records : List CostUsage) (now : Time) : Except Error Bool :=
  if recovery.shadowAllowed then
    (budgetStatus cfg records (utcDate now)).map CostBudgetStatus.shadowAdmissionAllowed
  else .ok false

/-- `admitted_registrations` -/
def admittedRegistrations (recovery : RecoveryCoordinator) (cfg : BudgetSettings)
    (records : List CostUsage) (now : Time) (registrations : List AgentRegistration) :
    Except Error (List AgentRegistration) := do
  if ← shadowAdmissionAllowed recovery cfg records now then .ok registrations
  else .ok (registrations.filter fun r => r.decisionRole == .primary)

/-! ## the rows -/

/-- equal records, whatever offset their times are written with -/
def CostUsageRecord.same (r r' : CostUsageRecord) : Bool :=
  { r with utcOffset := 0 } = { r' with utcOffset := 0 }

/-- the transaction of `save_cost_usage_record` -/
def saveCostUsageRecord (record : CostUsage) (rows : List CostUsage) :
    Except Error (CostUsage × List CostUsage) :=
  match rows.find? fun row => row.1.usageId = record.1.usageId with
  | some stored =>
    if stored.1.same record.1 then .ok (stored, rows)
    else .error ⟨.validation, "Immutable cost usage record identity conflict"⟩
  | none => .ok (record, rows ++ [record])

/-- `observed_at DESC, usage_id` -/
def usageOrder (r : CostUsage) : ℕᵒᵈ ×ₗ List Char :=
  toLex (OrderDual.toDual r.1.observedAt, r.1.usageId.toList)

def listCostUsageRecords (limit : ℕ) (rows : List CostUsage) : List CostUsage :=
  (sortedBy usageOrder rows).take limit

/-! ## the service -/

/-- `deque(maxlen=100_000)` -/
def costCapacity : ℕ := 100000

/-- a call that awaits its save, and what the save has returned -/
structure CostSave where
  record : CostUsage
  stored : Option CostUsage
  deriving DecidableEq

/-- `_cost_records`, the calls under way, the rows, and the records taken so far -/
structure CostSystem where
  held : List CostUsage
  saving : List CostSave
  rows : List CostUsage
  taken : List CostUsage
  deriving DecidableEq

inductive CostOp where
  | record (record : CostUsage)   -- a call of `record_cost`
  | commit (i : ℕ)                -- its transaction goes through
  | fail (i : ℕ)                  -- its save raises, its row committed or not
  | finish (i : ℕ)                -- the call goes on behind its save
  | restart
  deriving DecidableEq

namespace CostSystem

def start : CostSystem := ⟨[], [], [], []⟩

/-- a record joins those of other usage ids -/
def joined (add : List CostUsage → CostUsage → List CostUsage) (records : List CostUsage)
    (stored : CostUsage) : List CostUsage :=
  if ∀ item ∈ records, item.1.usageId ≠ stored.1.usageId then add records stored else records

/-- `record_cost` behind its save -/
def filed (w : CostSystem) (stored : CostUsage) : CostSystem :=
  { w with
    held := joined (BoundedQueue.append costCapacity) w.held stored
    taken := joined (fun records r => records ++ [r]) w.taken stored }

/-- the transaction of a waiting call -/
def committed (w : CostSystem) (i : ℕ) : CostSystem :=
  match w.saving[i]? with
  | some ⟨record, none⟩ =>
    match saveCostUsageRecord record w.rows with
    | .ok (stored, rows) => { w with rows := rows, saving := w.saving.set i ⟨record, some stored⟩ }
    | .error _ => { w with saving := w.saving.eraseIdx i }
  | _ => w

/-- a new service after `initialize` -/
def restarted (durable : Bool) (w : CostSystem) : CostSystem :=
  if durable then
    { w with
      held := BoundedQueue.extend costCapacity []
        (listCostUsageRecords costCapacity w.rows).reverse
      saving := []
      taken := w.rows }
  else { w with held := [], saving := [] }

/-- the record that an operation files -/
def filing (durable : Bool) (w : CostSystem) : CostOp → Option CostUsage
  | .record record => if durable then none else some record
  | .finish i => w.saving[i]?.bind CostSave.stored
  | _ => none

def step (durable : Bool) (w : CostSystem) (op : CostOp) : CostSystem :=
  match op with
  | .record record =>
    if durable then { w with saving := w.saving ++ [⟨record, none⟩] } else w.filed record
  | .commit i => w.committed i
  | .fail i => { w with saving := w.saving.eraseIdx i }
  | .finish i =>
    match w.saving[i]?.bind CostSave.stored with
    | some stored => { w.filed stored with saving := w.saving.eraseIdx i }
    | none => w
  | .restart => w.restarted durable

/-! ## what a step must meet -/

/-- a record that costs nothing -/
def Free (r : CostUsage) : Prop := r.1.estimatedCostUsd = 0

instance (r : CostUsage) : Decidable (Free r) :=
  inferInstanceAs (Decidable (r.1.estimatedCostUsd = 0))

/-- a record whose own date is its UTC date -/
def Dated (r : CostUsage) : Prop := Free r ∨ r.1.date = r.1.utcDay

instance (r : CostUsage) : Decidable (Dated r) :=
  inferInstanceAs (Decidable (Free r ∨ r.1.date = r.1.utcDay))

/-- a record that is not held yet is dated, pushes out nothing that costs, and costs nothing itself
if it was taken before -/
def FilesTruly (w : CostSystem) (stored : CostUsage) : Prop :=
  (∃ item ∈ w.held, item.1.usageId = stored.1.usageId) ∨
    Dated stored ∧ (∀ r ∈ w.held.take (w.held.length + 1 - costCapacity), Free r) ∧
      ((∃ item ∈ w.taken, item.1.usageId = stored.1.usageId) → Free stored)

instance (w : CostSystem) (stored : CostUsage) : Decidable (w.FilesTruly stored) :=
  inferInstanceAs (Decidable ((∃ item ∈ w.held, item.1.usageId = stored.1.usageId) ∨
    Dated stored ∧ (∀ r ∈ w.held.take (w.held.length + 1 - costCapacity), Free r) ∧
      ((∃ item ∈ w.taken, item.1.usageId = stored.1.usageId) → Free stored)))

/-- a restart finds every record that costs: with a repository, dated and among the rows it reads -/
def RestartsTruly (durable : Bool) (w : CostSystem) : Prop :=
  if durable then
    (∀ r ∈ w.rows, Dated r) ∧ ∀ r ∈ (sortedBy usageOrder w.rows).drop costCapacity, Free r
  else ∀ r ∈ w.taken, Free r

instance (durable : Bool) (w : CostSystem) : Decidable (w.RestartsTruly durable) :=
  inferInstanceAs (Decidable (if durable then
    (∀ r ∈ w.rows, Dated r) ∧ ∀ r ∈ (sortedBy usageOrder w.rows).drop costCapacity, Free r
  else ∀ r ∈ w.taken, Free r))

/-- nothing that costs is lost or filed under another day -/
def Kept (durable : Bool) (w : CostSystem) (op : CostOp) : Prop :=
  (∀ stored ∈ w.filing durable op, w.FilesTruly stored) ∧
    (op = .restart → w.RestartsTruly durable)

instance (durable : Bool) (w : CostSystem) (op : CostOp) : Decidable (w.Kept durable op) :=
  inferInstanceAs (Decidable ((∀ stored ∈ w.filing durable op, w.FilesTruly stored) ∧
    (op = .restart → w.RestartsTruly durable)))

/-! ## the invariant -/

/-- the records that cost something -/
def paid (records : List CostUsage) : List CostUsage := records.filter fun r => ¬ Free r

/-- what costs is held exactly when it was taken, under its UTC day; the rows have every record taken
and every one a save returned, each id once -/
structure Inv (durable : Bool) (w : CostSystem) : Prop where
  paid_perm : (paid w.held).Perm (paid w.taken)
  known : ∀ r ∈ w.held, ∃ item ∈ w.taken, item.1.usageId = r.1.usageId
  dated : ∀ r ∈ w.taken, Dated r
  distinct : (w.taken.map fun r => r.1.usageId).Nodup
  rows_distinct : (w.rows.map fun r => r.1.usageId).Nodup
  taken_rows : durable = true → ∀ r ∈ w.taken, r ∈ w.rows
  stored_rows : ∀ call ∈ w.saving, ∀ stored ∈ call.stored, stored ∈ w.rows
  idle : durable = false → w.saving = []

variable {durable : Bool} {w : CostSystem}

theorem paid_append (records more : List CostUsage) :
    paid (records ++ more) = paid records ++ paid more := List.filter_append ..

theorem paid_eq_nil {records : List CostUsage} (h : ∀ r ∈ records, Free r) : paid records = [] := by
  rw [paid, List.filter_eq_nil_iff]
  intro r hr
  simpa using h r hr

/-- a queue that pushes out nothing that costs -/
theorem paid_appended {held : List CostUsage} (stored : CostUsage)
    (hfree : ∀ r ∈ held.take (held.length + 1 - costCapacity), Free r) :
    paid (BoundedQueue.append costCapacity held stored) = paid held ++ paid [stored] := by
  have hk : (held ++ [stored]).length - costCapacity ≤ held.length := by
    rw [List.length_append, List.length_singleton, costCapacity]
    omega
  have hpushed : paid ((held ++ [stored]).take ((held ++ [stored]).length - costCapacity)) = [] := by
    rw [List.take_append_of_le_length hk, List.length_append, List.length_singleton]
    exact paid_eq_nil hfree
  have hsplit := paid_append ((held ++ [stored]).take ((held ++ [stored]).length - costCapacity))
    ((held ++ [stored]).drop ((held ++ [stored]).length - costCapacity))
  rw [List.take_append_drop, hpushed, List.nil_append, paid_append] at hsplit
  exact hsplit.symm

/-- `record_cost` behind its save -/
theorem Inv.filed {stored : CostUsage} (h : Inv durable w) (htrue : w.FilesTruly stored)
    (hrows : durable = true → stored ∈ w.rows) : Inv durable (w.filed stored) := by
  by_cases hheld : ∀ item ∈ w.held, item.1.usageId ≠ stored.1.usageId
  · -- the record is new to the queue
    rcases htrue with ⟨item, hitem, heq⟩ | ⟨hdated, hpushed, hfree⟩
    · exact absurd heq (hheld item hitem)
    have happended := paid_appended stored hpushed
    by_cases htaken : ∀ item ∈ w.taken, item.1.usageId ≠ stored.1.usageId
    · refine ⟨?_, ?_, ?_, ?_, h.rows_distinct, ?_, h.stored_rows, h.idle⟩ <;>
        simp only [CostSystem.filed, joined, if_pos hheld, if_pos htaken]
      · rw [happended, paid_append]
        exact h.paid_perm.append_right _
      · intro r hr
        rcases List.mem_append.1 (List.mem_of_mem_drop hr) with hr | hr
        · obtain ⟨item, hitem, heq⟩ := h.known r hr
          exact ⟨item, List.mem_append_left _ hitem, heq⟩
        · exact ⟨r, List.mem_append_right _ hr, rfl⟩
      · intro r hr
        rcases List.mem_append.1 hr with hr | hr
        · exact h.dated r hr
        · rw [List.mem_singleton.1 hr]
          exact hdated
      · rw [List.map_append, List.nodup_append]
        refine ⟨h.distinct, List.nodup_singleton _, ?_⟩
        intro id hid id' hid' heq
        obtain ⟨item, hitem, rfl⟩ := List.mem_map.1 hid
        rw [List.map_singleton, List.mem_singleton] at hid'
        exact htaken item hitem (heq.trans hid')
      · intro hdurable r hr
        rcases List.mem_append.1 hr with hr | hr
        · exact h.taken_rows hdurable r hr
        · rw [List.mem_singleton.1 hr]
          exact hrows hdurable
    · -- it was taken and pushed out before, so it costs nothing
      have hfree := hfree (by simpa using htaken)
      refine ⟨?_, ?_, ?_, ?_, h.rows_distinct, ?_, h.stored_rows, h.idle⟩ <;>
        simp only [CostSystem.filed, joined, if_pos hheld, if_neg htaken]
      · have hnone : paid [stored] = [] := paid_eq_nil (by simpa using hfree)
        rw [happended, hnone, List.append_nil]
        exact h.paid_perm
      · intro r hr
        rcases List.mem_append.1 (List.mem_of_mem_drop hr) with hr | hr
        · exact h.known r hr
        · rw [List.mem_singleton.1 hr]
          simpa using htaken
      · exact h.dated
      · exact h.distinct
      · exact h.taken_rows
  · -- the queue has its id, and so have the records taken
    have htaken : ¬ ∀ item ∈ w.taken, item.1.usageId ≠ stored.1.usageId := by
      intro hnone
      apply hheld
      intro item hitem heq
      obtain ⟨other, hother, hid⟩ := h.known item hitem
      exact hnone other hother (hid.trans heq)
    have hsame : w.filed stored = w := by
      simp only [CostSystem.filed, joined, if_neg hheld, if_neg htaken]
    rw [hsame]
    exact h

/-- the queue a restart fills -/
theorem held_restarted (rows : List CostUsage) :
    BoundedQueue.extend costCapacity [] (listCostUsageRecords costCapacity rows).reverse =
      (listCostUsageRecords costCapacity rows).reverse := by
  have hextend := BoundedQueue.extend_newest costCapacity []
    (listCostUsageRecords costCapacity rows).reverse
  rw [BoundedQueue.newest_nil, List.nil_append] at hextend
  rw [hextend, BoundedQueue.newest_eq_self]
  rw [List.length_reverse, listCostUsageRecords, List.length_take]
  exact min_le_left _ _

theorem Inv.restarted (h : Inv durable w) (htrue : w.RestartsTruly durable) :
    Inv durable (w.restarted durable) := by
  cases durable with
  | false =>
    have htrue : ∀ r ∈ w.taken, Free r := htrue
    refine ⟨?_, ?_, h.dated, h.distinct, h.rows_distinct, h.taken_rows, ?_, fun _ => rfl⟩
    · change (paid []).Perm (paid w.taken)
      rw [paid_eq_nil htrue, paid_eq_nil (by simp)]
    · intro r hr
      cases hr
    · intro call hcall
      cases hcall
  | true =>
    obtain ⟨hdated, hfree⟩ : (∀ r ∈ w.rows, Dated r) ∧
      ∀ r ∈ (sortedBy usageOrder w.rows).drop costCapacity, Free r := htrue
    have hheld : (w.restarted true).held = (listCostUsageRecords costCapacity w.rows).reverse :=
      held_restarted w.rows
    refine ⟨?_, ?_, hdated, h.rows_distinct, h.rows_distinct, fun _ r hr => hr, ?_, ?_⟩
    · rw [hheld]
      have hsplit := paid_append ((sortedBy usageOrder w.rows).take costCapacity)
        ((sortedBy usageOrder w.rows).drop costCapacity)
      rw [List.take_append_drop, paid_eq_nil hfree, List.append_nil] at hsplit
      have hsorted : (paid (sortedBy usageOrder w.rows)).Perm (paid w.rows) :=
        (sortedBy_perm usageOrder w.rows).filter _
      rw [hsplit] at hsorted
      exact ((List.reverse_perm _).filter _).trans hsorted
    · intro r hr
      rw [hheld, List.mem_reverse] at hr
      exact ⟨r, (mem_sortedBy usageOrder).1 (List.mem_of_mem_take hr), rfl⟩
    · intro call hcall
      cases hcall
    · intro hdurable
      cases hdurable

theorem saveCostUsageRecord_ok {record stored : CostUsage} {rows rows' : List CostUsage}
    (h : saveCostUsageRecord record rows = .ok (stored, rows')) :
    stored ∈ rows' ∧ (∀ r ∈ rows, r ∈ rows') ∧
      ((rows.map fun r => r.1.usageId).Nodup → (rows'.map fun r => r.1.usageId).Nodup) := by
  unfold saveCostUsageRecord at h
  split at h
  · rename_i found hfound
    split_ifs at h
    cases h
    exact ⟨List.mem_of_find?_eq_some hfound, fun r hr => hr, id⟩
  · rename_i hnone
    cases h
    refine ⟨by simp, fun r hr => List.mem_append_left _ hr, fun hnodup => ?_⟩
    rw [List.map_append, List.nodup_append]
    refine ⟨hnodup, List.nodup_singleton _, ?_⟩
    intro id hid id' hid' heq
    obtain ⟨item, hitem, rfl⟩ := List.mem_map.1 hid
    rw [List.map_singleton, List.mem_singleton] at hid'
    have hne := List.find?_eq_none.1 hnone item hitem
    exact hne (decide_eq_true (heq.trans hid'))

theorem Inv.committed (h : Inv durable w) (i : ℕ) : Inv durable (w.committed i) := by
  unfold CostSystem.committed
  split
  · rename_i record hcall
    cases hsave : saveCostUsageRecord record w.rows with
    | error e =>
      refine ⟨h.paid_perm, h.known, h.dated, h.distinct, h.rows_distinct, h.taken_rows, ?_, ?_⟩
      · exact fun call hmem => h.stored_rows call (List.mem_of_mem_eraseIdx hmem)
      · intro hdurable
        rw [h.idle hdurable] at hcall
        cases hcall
    | ok saved =>
      obtain ⟨stored, rows⟩ := saved
      obtain ⟨hstored, hgrow, hnodup⟩ := saveCostUsageRecord_ok hsave
      refine ⟨h.paid_perm, h.known, h.dated, h.distinct, hnodup h.rows_distinct, ?_, ?_, ?_⟩
      · exact fun hdurable r hr => hgrow r (h.taken_rows hdurable r hr)
      · intro call hmem other hother
        rcases List.mem_or_eq_of_mem_set hmem with hmem | rfl
        · exact hgrow other (h.stored_rows call hmem other hother)
        · rw [← Option.some.inj hother]
          exact hstored
      · intro hdurable
        rw [h.idle hdurable] at hcall
        cases hcall
  · exact h

/-- a call that leaves the queue of saves -/
theorem Inv.eraseIdx (h : Inv durable w) (i : ℕ) :
    Inv durable { w with saving := w.saving.eraseIdx i } := by
  refine ⟨h.paid_perm, h.known, h.dated, h.distinct, h.rows_distinct, h.taken_rows, ?_, ?_⟩
  · exact fun call hmem => h.stored_rows call (List.mem_of_mem_eraseIdx hmem)
  · intro hdurable
    rw [h.idle hdurable]
    rfl

theorem inv_start (durable : Bool) : Inv durable start := by
  refine ⟨List.Perm.refl _, ?_, ?_, List.nodup_nil, List.nodup_nil, ?_, ?_, fun _ => rfl⟩ <;>
    simp [start]

theorem inv_step (w : CostSystem) (op : CostOp) (hkept : w.Kept durable op) (h : Inv durable w) :
    Inv durable (step durable w op) := by
  cases op with
  | record record =>
    cases durable with
    | false => exact h.filed (hkept.1 record rfl) (by simp)
    | true =>
      refine ⟨h.paid_perm, h.known, h.dated, h.distinct, h.rows_distinct, h.taken_rows, ?_, by simp⟩
      intro call hmem stored hstored
      rcases List.mem_append.1 hmem with hmem | hmem
      · exact h.stored_rows call hmem stored hstored
      · rw [List.mem_singleton.1 hmem] at hstored
        cases hstored
  | commit i => exact h.committed i
  | fail i => exact h.eraseIdx i
  | finish i =>
    simp only [step]
    cases hbind : w.saving[i]?.bind CostSave.stored with
    | none => exact h
    | some stored =>
      obtain ⟨call, hcall, hstored⟩ := Option.bind_eq_some_iff.1 hbind
      have hrow := h.stored_rows call (List.mem_of_getElem? hcall) stored hstored
      exact (h.filed (hkept.1 stored hbind) fun _ => hrow).eraseIdx i
  | restart => exact h.restarted (hkept.2 rfl)

/-! ## the spend of a day -/

/-- the records taken that were observed in a UTC day -/
def observedOn (w : CostSystem) (day : ℤ) : ℚ :=
  ((w.taken.filter fun r => r.1.utcDay = day).map fun r => r.1.estimatedCostUsd).sum

/-- the records taken are distinct, and the spend of each day is theirs -/
structure SpendReported (w : CostSystem) : Prop where
  distinct : (w.taken.map fun r => r.1.usageId).Nodup
  spend : ∀ day, spentOn w.held day = w.observedOn day

/-- records that cost nothing add nothing -/
theorem sum_paid (p : CostUsage → Bool) (records : List CostUsage) :
    ((records.filter p).map fun r => r.1.estimatedCostUsd).sum =
      (((paid records).filter p).map fun r => r.1.estimatedCostUsd).sum := by
  induction records with
  | nil => rfl
  | cons r records ih =>
    have hpaid : paid (r :: records) = if Free r then paid records else r :: paid records := by
      by_cases hfree : Free r <;> simp [paid, hfree]
    rw [hpaid]
    by_cases hfree : Free r
    · rw [if_pos hfree, ← ih]
      by_cases hp : p r = true
      · rw [List.filter_cons_of_pos hp, List.map_cons, List.sum_cons, hfree, zero_add]
      · rw [List.filter_cons_of_neg hp]
    · rw [if_neg hfree]
      by_cases hp : p r = true
      · rw [List.filter_cons_of_pos hp, List.filter_cons_of_pos hp, List.map_cons, List.map_cons,
          List.sum_cons, List.sum_cons, ih]
      · rw [List.filter_cons_of_neg hp, List.filter_cons_of_neg hp, ih]

theorem Inv.spendReported (h : Inv durable w) : SpendReported w where
  distinct := h.distinct
  spend day := by
    have hdates : (paid w.taken).filter (fun r => r.1.date = day) =
        (paid w.taken).filter fun r => r.1.utcDay = day := by
      refine List.filter_congr fun r hr => ?_
      obtain ⟨hmem, hpaid⟩ := List.mem_filter.1 hr
      rcases h.dated r hmem with hfree | heq
      · simp [hfree] at hpaid
      · rw [heq]
    calc spentOn w.held day
        = (((paid w.held).filter fun r => r.1.date = day).map fun r =>
            r.1.estimatedCostUsd).sum := sum_paid _ _
      _ = (((paid w.taken).filter fun r => r.1.date = day).map fun r =>
            r.1.estimatedCostUsd).sum := ((h.paid_perm.filter _).map _).sum_eq
      _ = (((paid w.taken).filter fun r => r.1.utcDay = day).map fun r =>
            r.1.estimatedCostUsd).sum := by rw [hdates]
      _ = w.observedOn day := (sum_paid _ _).symm

theorem sum_cost_le {records more : List CostUsage} (h : records.Subperm more) (day : ℤ) :
    ((records.filter fun r => r.1.utcDay = day).map fun r => r.1.estimatedCostUsd).sum ≤
      ((more.filter fun r => r.1.utcDay = day).map fun r => r.1.estimatedCostUsd).sum := by
  obtain ⟨between, hperm, hsub⟩ := h
  rw [← ((hperm.filter _).map _).sum_eq]
  refine ((hsub.filter _).map _).sum_le_sum fun cost hcost => ?_
  obtain ⟨r, -, rfl⟩ := List.mem_map.1 hcost
  exact r.cost_nonneg

/-- a step takes more records, never fewer -/
theorem taken_step (h : Inv durable w) (op : CostOp) : w.taken.Subperm (step durable w op).taken := by
  have hfiled : ∀ stored, w.taken.Subperm (w.filed stored).taken := by
    intro stored
    simp only [filed, joined]
    split_ifs
    · exact (List.sublist_append_left _ _).subperm
    · exact List.Subperm.refl _
  cases op with
  | record record =>
    cases durable with
    | false => exact hfiled record
    | true => exact List.Subperm.refl _
  | commit i =>
    simp only [step, committed]
    split
    · split <;> exact List.Subperm.refl _
    · exact List.Subperm.refl _
  | fail i => exact List.Subperm.refl _
  | finish i =>
    simp only [step]
    split
    · exact hfiled _
    · exact List.Subperm.refl _
  | restart =>
    cases durable with
    | false => exact List.Subperm.refl _
    | true => exact List.subperm_of_subset h.distinct.of_map (h.taken_rows rfl)

theorem observedOn_run_le {ops : List CostOp} (hops : Along (step durable) (Kept durable) w ops)
    (h : Inv durable w) (day : ℤ) : w.observedOn day ≤ (run (step durable) w ops).observedOn day := by
  induction ops generalizing w with
  | nil => exact le_rfl
  | cons op ops ih =>
    have hnext := inv_step w op hops.1 h
    exact (sum_cost_le (taken_step h op) day).trans (ih hops.2 hnext)

end CostSystem

/-! ## the status of a day -/

theorem BudgetSettings.statusOf_hardLimit {cfg : BudgetSettings} {spent : ℚ} :
    cfg.statusOf spent = .hardLimit ↔ cfg.dailyBudgetUsd ≤ spent := by
  have hpos := cfg.budget_accepted
  have hiff : 100 ≤ spent / cfg.dailyBudgetUsd * 100 ↔ cfg.dailyBudgetUsd ≤ spent := by
    rw [le_mul_iff_one_le_left (by norm_num), one_le_div hpos]
  rw [← hiff, statusOf]
  split_ifs with h1 h2
  · simp [h1]
  · simp [h1]
  · simp [h1]

theorem spentOn_nonneg (records : List CostUsage) (date : ℤ) : 0 ≤ spentOn records date := by
  refine List.sum_nonneg fun cost hcost => ?_
  obtain ⟨r, -, rfl⟩ := List.mem_map.1 hcost
  exact r.cost_nonneg

/-- a status meets its own contract -/
theorem budgetStatus_eq (cfg : BudgetSettings) (records : List CostUsage) (date : ℤ) :
    budgetStatus cfg records date = .ok (budgetReport cfg (spentOn records date)) := by
  have hspent := spentOn_nonneg records date
  have hpos := cfg.budget_accepted
  have hwarning : 0 < cfg.budgetWarningPercent ∧ cfg.budgetWarningPercent < 100 :=
    ⟨by linarith [cfg.warning_accepted.1], cfg.warning_accepted.2⟩
  refine validateModel_ok.2 ⟨?_, ?_, rfl⟩
  · simp only [List.forall_mem_cons, budgetReport]
    refine ⟨decide_eq_true hpos, decide_eq_true (Decimal.round_nonneg hspent 8),
      decide_eq_true (Decimal.round_nonneg (le_max_left _ _) 8),
      decide_eq_true (Decimal.round_nonneg (by positivity) 6), decide_eq_true hwarning, ?_⟩
    simp
  · have hrounded : |Decimal.round (max 0 (cfg.dailyBudgetUsd - spentOn records date)) 8 -
        max 0 (cfg.dailyBudgetUsd - Decimal.round (spentOn records date) 8)| ≤ 1 / 10 ^ 6 := by
      have h1 := Decimal.abs_round_sub_le (max 0 (cfg.dailyBudgetUsd - spentOn records date)) 8
      have h2 := Decimal.abs_round_sub_le (spentOn records date) 8
      have h3 := abs_max_sub_max_le_abs (cfg.dailyBudgetUsd - spentOn records date)
        (cfg.dailyBudgetUsd - Decimal.round (spentOn records date) 8) 0
      rw [sub_sub_sub_cancel_left, max_comm, max_comm _ (0 : ℚ)] at h3
      have h4 := (abs_sub_le _ _ _).trans (add_le_add h1 (h3.trans h2))
      exact h4.trans (by norm_num)
    simp only [List.forall_mem_cons, budgetReport]
    refine ⟨decide_eq_true hrounded, ?_, ?_, ?_⟩
    · cases cfg.statusOf (spentOn records date) <;> rfl
    · cases cfg.statusOf (spentOn records date) <;> rfl
    · simp

/-- a hard limit refuses shadow admission, whatever the dependencies say -/
theorem shadowAdmission_refused {cfg : BudgetSettings} {records : List CostUsage} {now : Time}
    (h : cfg.statusOf (spentOn records (utcDate now)) = .hardLimit)
    (recovery : RecoveryCoordinator) :
    shadowAdmissionAllowed recovery cfg records now = .ok false := by
  rw [shadowAdmissionAllowed, budgetStatus_eq]
  split_ifs
  · simp [Except.map, budgetReport, h]
  · rfl

/-- at the hard limit only primary agents are admitted -/
theorem admitted_primary {cfg : BudgetSettings} {records : List CostUsage} {now : Time}
    (h : cfg.statusOf (spentOn records (utcDate now)) = .hardLimit)
    (recovery : RecoveryCoordinator) (registrations : List AgentRegistration) :
    admittedRegistrations recovery cfg records now registrations =
      .ok (registrations.filter fun r => r.decisionRole == .primary) := by
  rw [admittedRegistrations, shadowAdmission_refused h recovery]
  rfl

namespace CostSystem

/-- 12 dollars at half past midnight UTC of the second day, written with an offset -/
def usage (utcOffset : ℤ) : CostUsageRecord where
  usageId := "u1"
  costCenter := .externalData
  resource := "feed"
  quantity := 1
  unit := "request"
  unitCostUsd := 12
  estimatedCostUsd := 12
  correlationId := none
  observedAt := 88200000000
  utcOffset := utcOffset

/-- written in UTC -/
def utcUsage : CostUsage := ⟨usage 0, by decide +kernel⟩

/-- written five hours west of it -/
def westernUsage : CostUsage := ⟨usage (-18000000000), by decide +kernel⟩

def tenDollars : BudgetSettings where
  dailyBudgetUsd := 10
  budgetWarningPercent := 80
  budget_accepted := by decide +kernel
  warning_accepted := by decide +kernel

/-- a record saved, a duplicate of it, and a restart -/
def keptRun : List CostOp :=
  [.record utcUsage, .commit 0, .finish 0, .record utcUsage, .commit 0, .restart]

theorem keptRun_kept : Along (step true) (Kept true) start keptRun := by decide +kernel

theorem misfiled_spend :
    spentOn (run (step true) start [.record westernUsage, .commit 0, .finish 0]).held 1 = 0 ∧
      (run (step true) start [.record westernUsage, .commit 0, .finish 0]).observedOn 1 = 12 := by
  decide +kernel

end CostSystem

end CapitalCipher
