/-
Dependency health and the recovery gate of `operations/resilience.py`.

`RecoveryCoordinator.observe` is one observation of a dependency. The coordinator keeps counters and
one latch; `trailing` is what the counters stand for, read off the history of observations.

  • `observe_tracks`, `run_tracks`: the counters and the latch are functions of the history.
  • `recovery_latch`: once a critical dependency has failed, decisions are allowed exactly when every
    critical dependency ends in enough healthy observations; before that they always are.
  • `run_critical`: observations of the other dependencies leave the gate as it is.
-/
import CapitalCipher.Lib.Run

namespace CapitalCipher

open Lib

inductive DependencyName where
  | database | audit | risk | broker | marketData | shadowRuntime
  deriving DecidableEq, Repr

inductive RecoveryMode where
  | healthy | degraded | safeHalt
  deriving DecidableEq, Repr

structure DependencyState where
  name : DependencyName
  critical : Bool
  healthy : Bool := true
  reason : String := "healthy"
  consecutiveSuccesses : ℕ := 0
  consecutiveFailures : ℕ := 0
  deriving DecidableEq, Repr

namespace DependencyName

/-- the keys of the coordinator's dictionary, in its order -/
def all : List DependencyName := [.database, .audit, .risk, .broker, .marketData, .shadowRuntime]

theorem mem_all (n : DependencyName) : n ∈ all := by cases n <;> decide

/-- the name as the source writes it -/
def text : DependencyName → String
  | .database => "DATABASE"
  | .audit => "AUDIT"
  | .risk => "RISK"
  | .broker => "BROKER"
  | .marketData => "MARKET_DATA"
  | .shadowRuntime => "SHADOW_RUNTIME"

/-- which dependencies the constructor marks critical -/
def critical : DependencyName → Bool
  | .database | .audit | .risk => true
  | .broker | .marketData | .shadowRuntime => false

end DependencyName

/-- the mode as the source writes it -/
def RecoveryMode.text : RecoveryMode → String
  | .healthy => "HEALTHY"
  | .degraded => "DEGRADED"
  | .safeHalt => "SAFE_HALT"

structure RecoveryCoordinator where
  required : ℕ
  dependencies : DependencyName → DependencyState
  criticalLatched : Bool
  /-- what the constructor accepts -/
  confirmed : 2 ≤ required ∧ required ≤ 100

namespace RecoveryCoordinator

/-- `RecoveryCoordinator(recovery_successes_required=required)`, when accepted -/
def new (required : ℕ) (h : 2 ≤ required ∧ required ≤ 100) : RecoveryCoordinator where
  required := required
  dependencies n := { name := n, critical := n.critical }
  criticalLatched := false
  confirmed := h

/-- the state of the observed dependency afterwards -/
def observed (s : DependencyState) (healthy : Bool) (reason : String) : DependencyState :=
  let s := { s with healthy := healthy, reason := String.ofList (reason.toList.take 500) }
  if healthy then
    { s with consecutiveSuccesses := s.consecutiveSuccesses + 1, consecutiveFailures := 0 }
  else { s with consecutiveFailures := s.consecutiveFailures + 1, consecutiveSuccesses := 0 }

/-- every critical dependency is healthy and confirmed often enough -/
def recovered (required : ℕ) (dependencies : DependencyName → DependencyState) : Bool :=
  DependencyName.all.all fun n =>
    !(dependencies n).critical ||
      ((dependencies n).healthy && decide (required ≤ (dependencies n).consecutiveSuccesses))

/-- `observe`, with the copy of the state it returns -/
def observe (c : RecoveryCoordinator) (name : DependencyName) (healthy : Bool) (reason : String) :
    RecoveryCoordinator × DependencyState :=
  let state := observed (c.dependencies name) healthy reason
  let dependencies := Function.update c.dependencies name state
  let latched := c.criticalLatched || (!healthy && state.critical)
  ({ c with
      dependencies := dependencies
      criticalLatched := latched && !recovered c.required dependencies }, state)

def mode (c : RecoveryCoordinator) : RecoveryMode :=
  if c.criticalLatched || DependencyName.all.any fun n =>
      !(c.dependencies n).healthy && (c.dependencies n).critical then .safeHalt
  else if DependencyName.all.any fun n =>
      !(c.dependencies n).healthy && !(c.dependencies n).critical then .degraded
  else .healthy

def decisionsAllowed (c : RecoveryCoordinator) : Bool := c.mode != .safeHalt

def shadowAllowed (c : RecoveryCoordinator) : Bool := c.mode == .healthy

/-! ## histories of observations -/

structure Observation where
  name : DependencyName
  healthy : Bool
  reason : String

/-- one observation -/
def step (c : RecoveryCoordinator) (o : Observation) : RecoveryCoordinator :=
  (c.observe o.name o.healthy o.reason).1

/-- how many healthy observations of `n` end the history -/
def trailing (n : DependencyName) (history : List Observation) : ℕ :=
  ((history.filter fun o => o.name = n).reverse.takeWhile fun o => o.healthy).length

/-- a critical dependency has failed -/
def Failed (history : List Observation) : Prop :=
  ∃ o ∈ history, o.name.critical = true ∧ o.healthy = false

/-- every critical dependency ends in at least `r` healthy observations -/
def Confirmed (r : ℕ) (history : List Observation) : Prop :=
  ∀ n : DependencyName, n.critical = true → r ≤ trailing n history

theorem trailing_snoc (n : DependencyName) (history : List Observation) (o : Observation) :
    trailing n (history ++ [o]) =
      if o.name = n then if o.healthy then trailing n history + 1 else 0
      else trailing n history := by
  unfold trailing
  rw [List.filter_append]
  by_cases hn : o.name = n
  · cases hh : o.healthy <;> simp [hn, hh]
  · simp [hn]

theorem failed_snoc {history : List Observation} {o : Observation} :
    Failed (history ++ [o]) ↔
      Failed history ∨ o.name.critical = true ∧ o.healthy = false := by
  constructor
  · rintro ⟨x, hx, hbad⟩
    rcases List.mem_append.1 hx with hx | hx
    · exact .inl ⟨x, hx, hbad⟩
    · rw [List.mem_singleton] at hx
      subst hx
      exact .inr hbad
  · rintro (⟨x, hx, hbad⟩ | hbad)
    · exact ⟨x, List.mem_append_left _ hx, hbad⟩
    · exact ⟨o, by simp, hbad⟩

/-- the counters of a coordinator after a history -/
structure Counts (r : ℕ) (c : RecoveryCoordinator) (history : List Observation) : Prop where
  required : c.required = r
  name : ∀ n, (c.dependencies n).name = n
  critical : ∀ n, (c.dependencies n).critical = n.critical
  successes : ∀ n, (c.dependencies n).consecutiveSuccesses = trailing n history
  unhealthy : ∀ n, (c.dependencies n).healthy = false → trailing n history = 0 ∧
    (n.critical = true → Failed history)

/-- what a coordinator holds after a history -/
structure Tracks (r : ℕ) (c : RecoveryCoordinator) (history : List Observation) : Prop where
  counts : Counts r c history
  latched : c.criticalLatched = true ↔ Failed history ∧ ¬ Confirmed r history

theorem new_tracks (r : ℕ) (h : 2 ≤ r ∧ r ≤ 100) : Tracks r (new r h) [] where
  counts := {
    required := rfl
    name _ := rfl
    critical _ := rfl
    successes _ := rfl
    unhealthy _ hn := by cases hn }
  latched := by simp [new, Failed]

section Tracks

variable {r : ℕ} {c : RecoveryCoordinator} {history : List Observation}

/-- the coordinator's own test of recovery -/
theorem Counts.recovered_iff (h : Counts r c history) (hr : 0 < r) :
    recovered c.required c.dependencies = true ↔ Confirmed r history := by
  simp only [recovered, List.all_eq_true, Bool.or_eq_true, Bool.not_eq_true', Bool.and_eq_true,
    decide_eq_true_eq, h.critical, h.successes, h.required]
  constructor
  · intro hall n hn
    rcases hall n n.mem_all with hc | hc
    · rw [hn] at hc
      cases hc
    · exact hc.2
  · intro hall n _
    cases hn : n.critical with
    | false => exact .inl rfl
    | true =>
      refine .inr ⟨?_, hall n hn⟩
      by_contra hu
      have hzero := (h.unhealthy n (by simpa using hu)).1
      have := hall n hn
      omega

/-- decisions are refused exactly while the latch is set -/
theorem Tracks.decisionsAllowed_iff (h : Tracks r c history) :
    c.decisionsAllowed = true ↔ c.criticalLatched = false := by
  have hbad : (DependencyName.all.any fun n =>
      !(c.dependencies n).healthy && (c.dependencies n).critical) = true →
      c.criticalLatched = true := by
    intro hany
    obtain ⟨n, -, hn⟩ := List.any_eq_true.1 hany
    simp only [Bool.and_eq_true, Bool.not_eq_true', h.counts.critical] at hn
    obtain ⟨hzero, hfailed⟩ := h.counts.unhealthy n hn.1
    refine h.latched.2 ⟨hfailed hn.2, fun hall => ?_⟩
    have h1 := hall n hn.2
    have h2 := c.confirmed.1
    rw [h.counts.required] at h2
    omega
  unfold decisionsAllowed mode
  cases hl : c.criticalLatched with
  | true => simp
  | false =>
    have hnone : (DependencyName.all.any fun n =>
        !(c.dependencies n).healthy && (c.dependencies n).critical) = false := by
      by_contra hne
      have := hbad (by simpa using hne)
      rw [hl] at this
      cases this
    simp only [hnone, Bool.or_self, Bool.false_eq_true, if_false]
    split_ifs <;> simp

/-- one observation keeps the counters what the history says they are -/
theorem Counts.observe (h : Counts r c history) (o : Observation) :
    Counts r (step c o) (history ++ [o]) := by
  refine ⟨h.required, fun n => ?_, fun n => ?_, fun n => ?_, fun n hu => ?_⟩
  · by_cases hn : n = o.name
    · subst hn
      cases hh : o.healthy <;> simp [step, RecoveryCoordinator.observe, observed, hh, h.name]
    · simp [step, RecoveryCoordinator.observe, hn, h.name]
  · by_cases hn : n = o.name
    · subst hn
      cases hh : o.healthy <;> simp [step, RecoveryCoordinator.observe, observed, hh, h.critical]
    · simp [step, RecoveryCoordinator.observe, hn, h.critical]
  · rw [trailing_snoc]
    by_cases hn : n = o.name
    · subst hn
      cases hh : o.healthy <;> simp [step, RecoveryCoordinator.observe, observed, hh, h.successes]
    · simp [step, RecoveryCoordinator.observe, hn, Ne.symm hn, h.successes]
  · rw [trailing_snoc, failed_snoc]
    by_cases hn : n = o.name
    · subst hn
      cases hh : o.healthy with
      | true => simp [step, RecoveryCoordinator.observe, observed, hh] at hu
      | false => exact ⟨by simp, fun hc => .inr ⟨hc, rfl⟩⟩
    · simp only [step, RecoveryCoordinator.observe, Function.update_of_ne hn] at hu
      obtain ⟨hzero, hfailed⟩ := h.unhealthy n hu
      simp only [Ne.symm hn, if_false]
      exact ⟨hzero, fun hc => .inl (hfailed hc)⟩

end Tracks

/-- one observation keeps the counters and the latch what the history says they are -/
theorem observe_tracks {r : ℕ} {c : RecoveryCoordinator} {history : List Observation}
    (h : Tracks r c history) (o : Observation) : Tracks r (step c o) (history ++ [o]) := by
  have hcounts := h.counts.observe o
  have hpos : 0 < r := by
    have := c.confirmed.1
    rw [h.counts.required] at this
    omega
  refine ⟨hcounts, ?_⟩
  have hrecovered : recovered c.required (step c o).dependencies = true ↔
      Confirmed r (history ++ [o]) := hcounts.recovered_iff hpos
  have hlatch : (step c o).criticalLatched =
      ((c.criticalLatched || (!o.healthy && o.name.critical)) &&
        !recovered c.required (step c o).dependencies) := by
    cases hh : o.healthy <;> simp [step, observe, observed, hh, h.counts.critical]
  rw [hlatch, Bool.and_eq_true, Bool.not_eq_true', ← Bool.not_eq_true, hrecovered, failed_snoc,
    Bool.or_eq_true, h.latched]
  -- a history confirmed before a failure-free observation stays confirmed
  have hkept : o.name.critical = false ∨ o.healthy = true → Confirmed r history →
      Confirmed r (history ++ [o]) := by
    intro ho hc n hn
    have := hc n hn
    rw [trailing_snoc]
    by_cases he : o.name = n
    · subst he
      rcases ho with ho | ho
      · rw [hn] at ho
        cases ho
      · simp only [ho, if_true]
        omega
    · rw [if_neg he]
      exact this
  constructor
  · rintro ⟨⟨hf, -⟩ | hbad, hnc⟩
    · exact ⟨.inl hf, hnc⟩
    · simp only [Bool.and_eq_true, Bool.not_eq_true'] at hbad
      exact ⟨.inr ⟨hbad.2, hbad.1⟩, hnc⟩
  · rintro ⟨hf | ⟨hc, hh⟩, hnc⟩
    · by_cases hbad : o.name.critical = true ∧ o.healthy = false
      · exact ⟨.inr (by simp [hbad]), hnc⟩
      · refine ⟨.inl ⟨hf, fun hc => hnc (hkept ?_ hc)⟩, hnc⟩
        cases hcrit : o.name.critical
        · exact .inl rfl
        · exact .inr (by simpa [hcrit] using hbad)
    · exact ⟨.inr (by simp [hc, hh]), hnc⟩

theorem run_tracks (r : ℕ) (h : 2 ≤ r ∧ r ≤ 100) (history : List Observation) :
    Tracks r (run step (new r h) history) history := by
  induction history using List.reverseRecOn with
  | nil => exact new_tracks r h
  | append_singleton history o ih =>
    rw [run_append]
    exact observe_tracks ih o

theorem decisions_iff (r : ℕ) (h : 2 ≤ r ∧ r ≤ 100) (history : List Observation) :
    (run step (new r h) history).decisionsAllowed = true ↔
      ¬ Failed history ∨ Confirmed r history := by
  have ht := run_tracks r h history
  rw [ht.decisionsAllowed_iff, ← Bool.not_eq_true, ht.latched]
  tauto

/-- only the observations of critical dependencies count -/
theorem run_critical (r : ℕ) (h : 2 ≤ r ∧ r ≤ 100) (history : List Observation) :
    (run step (new r h) (history.filter fun o => o.name.critical)).decisionsAllowed =
      (run step (new r h) history).decisionsAllowed := by
  have hfailed : Failed (history.filter fun o => o.name.critical) ↔ Failed history := by
    simp only [Failed, List.mem_filter]
    constructor
    · rintro ⟨o, ⟨ho, -⟩, hbad⟩
      exact ⟨o, ho, hbad⟩
    · rintro ⟨o, ho, hbad⟩
      exact ⟨o, ⟨ho, hbad.1⟩, hbad⟩
  have hconfirmed : Confirmed r (history.filter fun o => o.name.critical) ↔
      Confirmed r history := by
    refine forall_congr' fun n => forall_congr' fun hn => ?_
    rw [trailing, trailing, List.filter_filter]
    have hsame : (fun o : Observation => decide (o.name = n) && o.name.critical) =
        fun o => decide (o.name = n) := by
      funext o
      by_cases ho : o.name = n
      · simp [ho, hn]
      · simp [ho]
    rw [hsame]
  rw [Bool.eq_iff_iff, decisions_iff, decisions_iff, hfailed, hconfirmed]

/-- **Recovery latch.** From the first failure of a critical dependency on, decisions are allowed
exactly when every critical dependency ends in at least `r` healthy observations; before it they
always are, and the other dependencies never matter -/
theorem recovery_latch (r : ℕ) (h : 2 ≤ r ∧ r ≤ 100) (history : List Observation) :
    (Failed history → ((run step (new r h) history).decisionsAllowed = true ↔
      ∀ n : DependencyName, n.critical = true → r ≤ trailing n history)) ∧
    (¬ Failed history → (run step (new r h) history).decisionsAllowed = true) ∧
    (run step (new r h) (history.filter fun o => o.name.critical)).decisionsAllowed =
      (run step (new r h) history).decisionsAllowed := by
  refine ⟨fun hf => ?_, fun hf => ?_, run_critical r h history⟩
  · rw [decisions_iff]
    simp [hf, Confirmed]
  · exact (decisions_iff r h history).2 (.inl hf)

/-- the database fails once and every critical dependency is then seen healthy twice -/
def recovery : List Observation :=
  [⟨.database, false, "timeout"⟩, ⟨.broker, false, "refused"⟩, ⟨.database, true, "ok"⟩,
    ⟨.audit, true, "ok"⟩, ⟨.risk, true, "ok"⟩, ⟨.database, true, "ok"⟩, ⟨.audit, true, "ok"⟩,
    ⟨.risk, true, "ok"⟩]

theorem recovery_latch_opens : (run step (new 2 ⟨le_rfl, by decide⟩) recovery).decisionsAllowed :=
  ((recovery_latch 2 ⟨le_rfl, by decide⟩ recovery).1
    ⟨⟨.database, false, "timeout"⟩, List.mem_cons_self, rfl, rfl⟩).2 fun n hn => by
      cases n <;> first | decide | cases hn

end RecoveryCoordinator

end CapitalCipher
