/-
The experiment registry of `orchestrator/portfolio_consensus.py` and the rows it is rebuilt from.

A call names the clock it reads and whether the store answers; a refused save leaves nothing. The two
bounded queries return the newest rows first.

  • `activatedExperimentId_record`: what an accepted lifecycle event does to the activation, unless a
    row of the same time sorts after it.
  • `Mirrors.rebuild`: a service rebuilt from rows that mirror this one reports what it reports.
  • `activation_event_sourced`: in every run without such ties, with the default experiment left in
    place and within the bounded queries, activation is the accepted events applied in order.
  • `retired_stays_active`: an accepted retirement that leaves the experiment active.
-/
import Mathlib.Data.Prod.Lex
import Mathlib.Data.List.Lex
import Mathlib.Data.String.Basic
import CapitalCipher.Lib.Dict
import CapitalCipher.Lib.Result
import CapitalCipher.Lib.Run
import CapitalCipher.Lib.SortedLog
import CapitalCipher.Schemas.PortfolioConsensus

namespace CapitalCipher

open Lib

/-- `consensus_experiments` and `consensus_experiment_events` -/
structure ConsensusRows where
  experiments : Dict String ConsensusExperiment
  events : Dict String ConsensusExperimentEvent

structure ConsensusExperimentService where
  defaultId : String
  experiments : Dict String ConsensusExperiment
  events : Dict String ConsensusExperimentEvent

/-- one event applied to the activated experiment's id -/
def ConsensusExperimentEvent.apply (active : Option String) (e : ConsensusExperimentEvent) :
    Option String :=
  match e.eventType with
  | .activated => some e.experimentId
  | .retired => if active = some e.experimentId then none else active
  | .created => active

/-- `abs(now - created_at) <= 300` seconds -/
def withinServerWindow (now createdAt : Time) : Prop :=
  now ≤ createdAt + 300000000 ∧ createdAt ≤ now + 300000000

instance (now createdAt : Time) : Decidable (withinServerWindow now createdAt) :=
  inferInstanceAs (Decidable (_ ∧ _))

/-- `ValueError` -/
def governanceError (message : String) : Error := ⟨.transport, message⟩

def experimentLimit : ℕ := 10000
def eventLimit : ℕ := 100000

namespace ConsensusRows

variable (h : Digests)

/-- the experiment's row in `save_consensus_experiment_definition` -/
def addExperiment (rows : ConsensusRows) (e : ConsensusExperiment) :
    Except Error (Dict String ConsensusExperiment) :=
  match rows.experiments.lookup (h.experimentId e.policy) with
  | some row =>
    if row = e then .ok rows.experiments
    else .error ⟨.validation, "Immutable consensus experiment identity conflict"⟩
  | none =>
    -- `uq_consensus_experiment_name_version`
    if rows.experiments.values.any fun x =>
        x.policy.name = e.policy.name ∧ x.policy.version = e.policy.version then
      .error ⟨.database, "Failed to persist experiment definition"⟩
    else .ok (rows.experiments.insert (h.experimentId e.policy) e)

/-- an event's row, which may be there already -/
def addEvent (rows : ConsensusRows) (e : ConsensusExperimentEvent) (message : String) :
    Except Error (Dict String ConsensusExperimentEvent) :=
  match rows.events.lookup (h.eventId e) with
  | some row => if row = e then .ok rows.events else .error ⟨.validation, message⟩
  | none => .ok (rows.events.insert (h.eventId e) e)

def saveConsensusExperimentDefinition (answers : Bool) (e : ConsensusExperiment)
    (created : ConsensusExperimentEvent) (rows : ConsensusRows) : Except Error ConsensusRows := do
  if created.experimentId ≠ h.experimentId e.policy ∨ created.eventType ≠ .created then
    .error ⟨.validation, "Experiment definition requires its matching CREATED event"⟩
  else if answers = false then
    .error ⟨.database, "Failed to persist experiment definition"⟩
  else
    let experiments ← rows.addExperiment h e
    let events ← rows.addEvent h created "Immutable consensus experiment event conflict"
    pure ⟨experiments, events⟩

def saveConsensusExperimentEvent (answers : Bool) (e : ConsensusExperimentEvent)
    (rows : ConsensusRows) : Except Error ConsensusRows := do
  if answers = false then .error ⟨.database, "Failed to persist consensus experiment event"⟩
  else
    let events ← rows.addEvent h e "Immutable consensus experiment event identity conflict"
    pure { rows with events := events }

/-- newest first, then by id -/
def listConsensusExperiments (rows : ConsensusRows) : List ConsensusExperiment :=
  (sortedBy (fun e => toLex (OrderDual.toDual e.createdAt, (h.experimentId e.policy).toList))
    rows.experiments.values).take experimentLimit

def listConsensusExperimentEvents (rows : ConsensusRows) : List ConsensusExperimentEvent :=
  (sortedBy (fun e => toLex (OrderDual.toDual e.createdAt, (h.eventId e).toList))
    rows.events.values).take eventLimit

end ConsensusRows

namespace ConsensusExperimentService

variable (h : Digests)

/-- `__init__` at a time -/
def new (now : Time) : ConsensusExperimentService where
  defaultId := h.experimentId defaultPolicy
  experiments := AList.singleton (h.experimentId defaultPolicy) (defaultExperiment now)
  events := AList.singleton (h.eventId (defaultCreated h now)) (defaultCreated h now)

/-- `(item.created_at, item.event_id)` -/
def eventKey (e : ConsensusExperimentEvent) : ℕ ×ₗ List Char :=
  toLex (e.createdAt, (h.eventId e).toList)

def activatedExperimentId (s : ConsensusExperimentService) : Option String :=
  (sortedBy (eventKey h) s.events.values).foldl ConsensusExperimentEvent.apply none

def active (s : ConsensusExperimentService) : Except Error ConsensusExperiment :=
  match s.experiments.lookup s.defaultId with
  | none => .error ⟨.transport, s.defaultId⟩   -- `KeyError`
  | some fallback =>
    .ok ((s.experiments.lookup ((s.activatedExperimentId h).getD s.defaultId)).getD fallback)

/-- a service rebuilt at a time from the rows, saving its default experiment if it is not listed -/
def initialized (answers : Bool) (now : Time) (rows : ConsensusRows) :
    Except Error (ConsensusExperimentService × ConsensusRows) :=
  if answers = false then .error ⟨.transport, "store unreachable"⟩
  else do
  let experiments := rows.listConsensusExperiments h
  let events := rows.listConsensusExperimentEvents h
  let build (experiments : List ConsensusExperiment) (events : List ConsensusExperimentEvent) :
      ConsensusExperimentService :=
    { defaultId := h.experimentId defaultPolicy
      experiments := Dict.fromList (fun e => h.experimentId e.policy) experiments
      events := Dict.fromList h.eventId events }
  if h.experimentId defaultPolicy ∈ experiments.map fun e => h.experimentId e.policy then
    pure (build experiments events, rows)
  else
    let rows ← rows.saveConsensusExperimentDefinition h answers (defaultExperiment now)
      (defaultCreated h now)
    pure (build (experiments ++ [defaultExperiment now]) (events ++ [defaultCreated h now]), rows)

/-- the checks of `register`: `none` for a definition it knows, else the event to emit -/
def admitExperiment (now : Time) (s : ConsensusExperimentService) (e : ConsensusExperiment) :
    Except Error (Option ConsensusExperimentEvent) :=
  match s.experiments.lookup (h.experimentId e.policy) with
  | some existing =>
    if existing ≠ e then .error (governanceError "Immutable experiment identity conflict")
    else .ok none
  | none =>
    if s.experiments.values.any fun x =>
        x.policy.name = e.policy.name ∧ x.policy.version = e.policy.version then
      .error (governanceError "Experiment name and version already exist")
    else if ¬ withinServerWindow now e.createdAt then
      .error (governanceError "Experiment created_at must be within the server time window")
    else .ok (some (e.created h))

/-- the checks of `record_event`: `none` for an event it knows, else the event to append -/
def admitEvent (now : Time) (s : ConsensusExperimentService) (e : ConsensusExperimentEvent) :
    Except Error (Option ConsensusExperimentEvent) :=
  if s.experiments.lookup e.experimentId = none then
    .error (governanceError "Experiment does not exist")
  else if e.eventType = .created then
    .error (governanceError "CREATED is emitted only during registration")
  else match s.events.lookup (h.eventId e) with
    | some existing =>
      if existing ≠ e then .error (governanceError "Immutable experiment event conflict")
      else .ok none
    | none =>
      if ¬ withinServerWindow now e.createdAt then
        .error (governanceError
          "Experiment event created_at must be within the server time window")
      -- `event.created_at < max(item.created_at …)`
      else if s.events.values.any fun x => e.createdAt < x.createdAt then
        .error (governanceError "Experiment lifecycle events must be monotonic")
      else if e.eventType = .activated ∧ s.activatedExperimentId h = some e.experimentId then
        .error (governanceError "Experiment is already active")
      else if e.eventType = .retired ∧ s.activatedExperimentId h ≠ some e.experimentId then
        .error (governanceError "Only the active experiment may be retired")
      else .ok (some e)

end ConsensusExperimentService

/-- a service with its store, and every event it accepted so far, in the order it did -/
structure ExperimentRegistry where
  service : ConsensusExperimentService
  repository : Option ConsensusRows
  accepted : List ConsensusExperimentEvent

inductive ExperimentCall where
  | register (e : ConsensusExperiment) (now : Time) (answers : Bool)
  | recordEvent (e : ConsensusExperimentEvent) (now : Time) (answers : Bool)
  /-- the process ends and another one starts from the rows -/
  | restart (now : Time) (answers : Bool)

namespace ExperimentRegistry

variable (h : Digests)

/-- the registry of a first start -/
def start (now : Time) (durable : Bool) : ExperimentRegistry where
  service := .new h now
  repository :=
    if durable then some ⟨(ConsensusExperimentService.new h now).experiments,
      (ConsensusExperimentService.new h now).events⟩
    else none
  accepted := [defaultCreated h now]

/-- the rows after a save, without a repository nothing is saved -/
def persist (save : ConsensusRows → Except Error ConsensusRows) (repository : Option ConsensusRows) :
    Except Error (Option ConsensusRows) :=
  match repository with
  | none => .ok none
  | some rows => (save rows).map some

def register (now : Time) (answers : Bool) (w : ExperimentRegistry) (e : ConsensusExperiment) :
    Except Error ExperimentRegistry := do
  match ← w.service.admitExperiment h now e with
  | none => pure w
  | some event =>
    let repository ←
      persist (·.saveConsensusExperimentDefinition h answers e event) w.repository
    pure { service := { w.service with
             experiments := w.service.experiments.insert (h.experimentId e.policy) e
             events := w.service.events.insert (h.eventId event) event }
           repository := repository
           accepted := w.accepted ++ [event] }

def recordEvent (now : Time) (answers : Bool) (w : ExperimentRegistry)
    (e : ConsensusExperimentEvent) : Except Error ExperimentRegistry := do
  match ← w.service.admitEvent h now e with
  | none => pure w
  | some event =>
    let repository ← persist (·.saveConsensusExperimentEvent h answers event) w.repository
    pure { service := { w.service with
             events := w.service.events.insert (h.eventId event) event }
           repository := repository
           accepted := w.accepted ++ [event] }

def restart (now : Time) (answers : Bool) (w : ExperimentRegistry) :
    Except Error ExperimentRegistry := do
  match w.repository with
  | none => pure (start h now false)
  | some rows =>
    let (service, rows) ← ConsensusExperimentService.initialized h answers now rows
    pure { w with service := service, repository := some rows }

/-- a call that raises leaves everything as it was -/
def step (w : ExperimentRegistry) (call : ExperimentCall) : ExperimentRegistry :=
  let outcome := match call with
    | .register e now answers => w.register h now answers e
    | .recordEvent e now answers => w.recordEvent h now answers e
    | .restart now answers => w.restart h now answers
  match outcome with
  | .ok w' => w'
  | .error _ => w

end ExperimentRegistry

/-! ## applying events -/

namespace ConsensusExperimentEvent

theorem foldl_apply_mem {events : List ConsensusExperimentEvent} {active : Option String}
    {id : String} (h : events.foldl apply active = some id) :
    active = some id ∨ ∃ e ∈ events, e.experimentId = id := by
  induction events generalizing active with
  | nil => exact Or.inl h
  | cons e rest ih =>
    rcases ih h with hactive | ⟨x, hx, hid⟩
    · unfold apply at hactive
      split at hactive
      · exact Or.inr ⟨e, List.mem_cons_self, Option.some.inj hactive⟩
      · split_ifs at hactive
        exact Or.inl hactive
      · exact Or.inl hactive
    · exact Or.inr ⟨x, List.mem_cons_of_mem e hx, hid⟩

/-- without an activation the fold keeps the experiment or retires it -/
theorem foldl_apply_of_not_activated {events : List ConsensusExperimentEvent}
    (h : ∀ e ∈ events, e.eventType ≠ .activated) (active : Option String) :
    events.foldl apply active = none ∨ events.foldl apply active = active := by
  induction events generalizing active with
  | nil => exact Or.inr rfl
  | cons e rest ih =>
    have hrest := ih fun x hx => h x (List.mem_cons_of_mem e hx)
    rw [List.foldl_cons]
    have happly : e.apply active = none ∨ e.apply active = active := by
      unfold apply
      split
      · exact absurd (by assumption) (h e List.mem_cons_self)
      · split_ifs
        · exact Or.inl rfl
        · exact Or.inr rfl
      · exact Or.inr rfl
    rcases happly with ha | ha
    · rw [ha]
      exact Or.inl ((hrest none).elim id id)
    · rw [ha]
      exact hrest active

theorem foldl_apply_some {events : List ConsensusExperimentEvent} {id : String}
    (h : ∀ e ∈ events, e.eventType ≠ .activated)
    (hret : ∀ e ∈ events, e.eventType = .retired → e.experimentId ≠ id) :
    events.foldl apply (some id) = some id := by
  induction events with
  | nil => rfl
  | cons e rest ih =>
    have happly : e.apply (some id) = some id := by
      unfold apply
      split
      · exact absurd (by assumption) (h e List.mem_cons_self)
      · have hne := hret e List.mem_cons_self (by assumption)
        exact if_neg fun heq => hne (Option.some.inj heq).symm
      · rfl
    rw [List.foldl_cons, happly]
    exact ih (fun x hx => h x (List.mem_cons_of_mem e hx))
      fun x hx => hret x (List.mem_cons_of_mem e hx)

end ConsensusExperimentEvent

namespace ConsensusExperimentService

variable {h : Digests} {s : ConsensusExperimentService} {e : ConsensusExperimentEvent}

/-- an event of the same time that is read after a new event and undoes what it does -/
def Overtaken (h : Digests) (s : ConsensusExperimentService) (e : ConsensusExperimentEvent) : Prop :=
  ∃ x ∈ s.events.values, x.createdAt = e.createdAt ∧
    (h.eventId e).toList ≤ (h.eventId x).toList ∧
    (x.eventType = .activated ∨
      e.eventType = .activated ∧ x.eventType = .retired ∧ x.experimentId = e.experimentId)

instance (h : Digests) (s : ConsensusExperimentService) (e : ConsensusExperimentEvent) :
    Decidable (Overtaken h s e) := inferInstanceAs (Decidable (∃ x ∈ s.events.values, _))

/-- the service with one more event -/
def appended (h : Digests) (s : ConsensusExperimentService) (e : ConsensusExperimentEvent) :
    ConsensusExperimentService :=
  { s with events := s.events.insert (h.eventId e) e }

theorem values_appended (hnew : s.events.lookup (h.eventId e) = none) :
    (s.appended h e).events.values = e :: s.events.values :=
  Dict.values_insert_of_lookup s.events hnew

theorem activatedExperimentId_created (hnew : s.events.lookup (h.eventId e) = none)
    (he : e.eventType = .created) :
    (s.appended h e).activatedExperimentId h = s.activatedExperimentId h := by
  obtain ⟨before, after, heq, hins, -⟩ := sortedBy_cons (eventKey h) e s.events.values
  have happly : ∀ active, e.apply active = active := fun active => by
    simp only [ConsensusExperimentEvent.apply, he]
  rw [activatedExperimentId, activatedExperimentId, values_appended hnew, hins, heq,
    List.foldl_append, List.foldl_append, List.foldl_cons, happly]

/-- **An accepted lifecycle event.** Appended to a log that holds nothing later and nothing of the
same time that overtakes it, an event does to the activation what it says. -/
theorem activatedExperimentId_record (hnew : s.events.lookup (h.eventId e) = none)
    (hlate : ∀ x ∈ s.events.values, x.createdAt ≤ e.createdAt) (hover : ¬ s.Overtaken h e)
    (htype : e.eventType ≠ .created)
    (hret : e.eventType = .retired → s.activatedExperimentId h = some e.experimentId) :
    (s.appended h e).activatedExperimentId h = e.apply (s.activatedExperimentId h) := by
  obtain ⟨before, after, heq, hins, hafter⟩ := sortedBy_cons (eventKey h) e s.events.values
  have hmem : ∀ x ∈ after, x ∈ s.events.values := fun x hx => by
    rw [← mem_sortedBy (eventKey h), heq]
    exact List.mem_append_right before hx
  -- what is read after the new event has its time and a larger id
  have htie : ∀ x ∈ after, x.createdAt = e.createdAt ∧
      (h.eventId e).toList ≤ (h.eventId x).toList := by
    intro x hx
    have hle := hlate x (hmem x hx)
    rcases (Prod.Lex.le_iff.1 (hafter x hx)) with hlt | ⟨hteq, hid⟩
    · exact absurd hlt (Nat.not_lt.2 hle)
    · exact ⟨hteq.symm, hid⟩
  have hact : ∀ x ∈ after, x.eventType ≠ .activated := fun x hx hx' =>
    hover ⟨x, hmem x hx, (htie x hx).1, (htie x hx).2, Or.inl hx'⟩
  have hold : s.activatedExperimentId h =
      after.foldl ConsensusExperimentEvent.apply (before.foldl ConsensusExperimentEvent.apply none) := by
    rw [activatedExperimentId, heq, List.foldl_append]
  rw [activatedExperimentId, values_appended hnew, hins, List.foldl_append, List.foldl_cons]
  cases he : e.eventType with
  | created => exact absurd he htype
  | activated =>
    have happly : ∀ active, e.apply active = some e.experimentId := fun active => by
      simp only [ConsensusExperimentEvent.apply, he]
    rw [happly, happly]
    refine ConsensusExperimentEvent.foldl_apply_some hact fun x hx hx' hid => hover ?_
    exact ⟨x, hmem x hx, (htie x hx).1, (htie x hx).2, Or.inr ⟨he, hx', hid⟩⟩
  | retired =>
    have hactive := hret he
    have hbefore : before.foldl ConsensusExperimentEvent.apply none = some e.experimentId := by
      rw [hold] at hactive
      rcases ConsensusExperimentEvent.foldl_apply_of_not_activated hact
        (before.foldl ConsensusExperimentEvent.apply none) with hn | hk
      · rw [hn] at hactive
        exact absurd hactive (by simp)
      · rw [← hk, hactive]
    have happly : e.apply (some e.experimentId) = none := by
      simp only [ConsensusExperimentEvent.apply, he, if_true]
    rw [hbefore, hactive, happly]
    exact (ConsensusExperimentEvent.foldl_apply_of_not_activated hact none).elim id id

/-! ## what the checks admit -/

theorem admitExperiment_some {now : Time} {x : ConsensusExperiment}
    (hadmitted : s.admitExperiment h now x = .ok (some e)) :
    e = x.created h ∧ s.experiments.lookup (h.experimentId x.policy) = none := by
  unfold admitExperiment at hadmitted
  split at hadmitted
  · split_ifs at hadmitted
    simp at hadmitted
  · split_ifs at hadmitted
    have he : x.created h = e := by simpa using hadmitted
    exact ⟨he.symm, by assumption⟩

/-- what `record_event` knows of an event it appends -/
structure Admitted (h : Digests) (s : ConsensusExperimentService) (e : ConsensusExperimentEvent) :
    Prop where
  known : s.experiments.lookup e.experimentId ≠ none
  lifecycle : e.eventType ≠ .created
  fresh : s.events.lookup (h.eventId e) = none
  latest : ∀ x ∈ s.events.values, x.createdAt ≤ e.createdAt
  retires : e.eventType = .retired → s.activatedExperimentId h = some e.experimentId

theorem admitEvent_some {now : Time} {x : ConsensusExperimentEvent}
    (hadmitted : s.admitEvent h now x = .ok (some e)) : e = x ∧ s.Admitted h e := by
  unfold admitEvent at hadmitted
  cases hfresh : s.events.lookup (h.eventId x) with
  | some existing =>
    simp only [hfresh] at hadmitted
    split_ifs at hadmitted
    simp at hadmitted
  | none =>
    simp only [hfresh] at hadmitted
    split_ifs at hadmitted with hknown hcreated hwindow hlate hact hret
    have he : x = e := by simpa using hadmitted
    subst he
    refine ⟨rfl, hknown, hcreated, hfresh, fun y hy => ?_, fun hx => ?_⟩
    · refine Nat.le_of_not_lt fun hlt => hlate ?_
      rw [List.any_eq_true]
      exact ⟨y, hy, decide_eq_true hlt⟩
    · by_contra hne
      exact hret ⟨hx, hne⟩

/-! ## rows that mirror a service -/

/-- the rows hold what the service holds, and the two queries list all of it -/
structure Mirrors (h : Digests) (rows : ConsensusRows) (s : ConsensusExperimentService) : Prop where
  experiments : ∀ k, rows.experiments.lookup k = s.experiments.lookup k
  events : ∀ k, rows.events.lookup k = s.events.lookup k
  experimentsFit : s.experiments.values.length ≤ experimentLimit
  eventsFit : s.events.values.length ≤ eventLimit

/-- what every service in a run is -/
structure Consistent (h : Digests) (s : ConsensusExperimentService) : Prop where
  fallback : s.defaultId = h.experimentId defaultPolicy
  known : s.experiments.lookup s.defaultId ≠ none
  filed : Dict.Keyed (fun x => h.experimentId x.policy) s.experiments
  keyed : Dict.Keyed h.eventId s.events
  named : ∀ x ∈ s.events.values, s.experiments.lookup x.experimentId ≠ none

theorem nodup_eventKey (hkey : Dict.Keyed h.eventId s.events) :
    (s.events.values.map (eventKey h)).Nodup := by
  have hnd := List.Nodup.map (fun _ _ => String.toList_inj.1) hkey.nodup_map
  rw [List.map_map] at hnd
  refine List.Nodup.of_map (fun k : ℕ ×ₗ List Char => (ofLex k).2) ?_
  rw [List.map_map]
  exact hnd

/-- the activation depends on what is held alone -/
theorem activatedExperimentId_congr {s' : ConsensusExperimentService}
    (hkey : Dict.Keyed h.eventId s.events) (heq : ∀ k, s'.events.lookup k = s.events.lookup k) :
    s'.activatedExperimentId h = s.activatedExperimentId h := by
  have hperm := Dict.values_perm_of_lookup fun k => (heq k).symm
  rw [activatedExperimentId, activatedExperimentId, sortedBy_congr (nodup_eventKey hkey) hperm]

theorem active_congr {s' : ConsensusExperimentService} (hdef : s'.defaultId = s.defaultId)
    (hexp : ∀ k, s'.experiments.lookup k = s.experiments.lookup k)
    (hact : s'.activatedExperimentId h = s.activatedExperimentId h) :
    s'.active h = s.active h := by
  unfold active
  rw [hdef, hact]
  simp only [hexp]

/-- what is active is the activated experiment, or the default one -/
theorem Consistent.active_eq (hs : s.Consistent h) :
    ∃ x, s.active h = .ok x ∧
      h.experimentId x.policy = (s.activatedExperimentId h).getD s.defaultId := by
  have hknown : ∃ x, s.experiments.lookup ((s.activatedExperimentId h).getD s.defaultId) = some x := by
    rw [← Option.ne_none_iff_exists']
    cases hact : s.activatedExperimentId h with
    | none => exact hs.known
    | some id =>
      rcases ConsensusExperimentEvent.foldl_apply_mem hact with hnone | ⟨e, he, rfl⟩
      · simp at hnone
      · exact hs.named e ((mem_sortedBy (eventKey h)).1 he)
  obtain ⟨x, hx⟩ := hknown
  obtain ⟨fallback, hfallback⟩ := Option.ne_none_iff_exists'.1 hs.known
  refine ⟨x, ?_, hs.filed hx⟩
  rw [active, hfallback, hx]
  rfl

section Listing

variable {rows : ConsensusRows}

theorem Mirrors.listed_experiments (hm : Mirrors h rows s) :
    (rows.listConsensusExperiments h).Perm rows.experiments.values := by
  have hlen := (Dict.values_perm_of_lookup hm.experiments).length_eq
  have hperm := sortedBy_perm (fun e : ConsensusExperiment =>
    toLex (OrderDual.toDual e.createdAt, (h.experimentId e.policy).toList)) rows.experiments.values
  rw [ConsensusRows.listConsensusExperiments, List.take_of_length_le]
  · exact hperm
  · rw [hperm.length_eq, hlen]
    exact hm.experimentsFit

theorem Mirrors.listed_events (hm : Mirrors h rows s) :
    (rows.listConsensusExperimentEvents h).Perm rows.events.values := by
  have hlen := (Dict.values_perm_of_lookup hm.events).length_eq
  have hperm := sortedBy_perm (fun e : ConsensusExperimentEvent =>
    toLex (OrderDual.toDual e.createdAt, (h.eventId e).toList)) rows.events.values
  rw [ConsensusRows.listConsensusExperimentEvents, List.take_of_length_le]
  · exact hperm
  · rw [hperm.length_eq, hlen]
    exact hm.eventsFit

/-- **A rebuilt service.** From rows that mirror a service, a new process holds what it holds. -/
theorem Mirrors.rebuild (hm : Mirrors h rows s) (hs : s.Consistent h) (now : Time) :
    ∃ s', initialized h true now rows = .ok (s', rows) ∧ s'.defaultId = s.defaultId ∧
      (∀ k, s'.experiments.lookup k = s.experiments.lookup k) ∧
      ∀ k, s'.events.lookup k = s.events.lookup k := by
  have hfiled : Dict.Keyed (fun x => h.experimentId x.policy) rows.experiments :=
    Dict.Keyed.congr hs.filed hm.experiments
  have hkeyed : Dict.Keyed h.eventId rows.events := Dict.Keyed.congr hs.keyed hm.events
  have hlisted : h.experimentId defaultPolicy ∈
      (rows.listConsensusExperiments h).map fun e => h.experimentId e.policy := by
    obtain ⟨x, hx⟩ := Option.ne_none_iff_exists'.1 hs.known
    rw [hs.fallback, ← hm.experiments] at hx
    refine List.mem_map.2 ⟨x, hm.listed_experiments.mem_iff.2 ?_, hfiled hx⟩
    exact (Dict.mem_values _).2 ⟨_, hx⟩
  refine ⟨_, by rw [initialized, if_neg (by simp)]; exact if_pos hlisted, hs.fallback.symm, ?_, ?_⟩
  · intro k
    rw [← hm.experiments k]
    exact Dict.lookup_fromList_values hfiled hm.listed_experiments k
  · intro k
    rw [← hm.events k]
    exact Dict.lookup_fromList_values hkeyed hm.listed_events k

end Listing

end ConsensusExperimentService

/-! ## saving a new row -/

namespace ConsensusRows

variable {h : Digests} {rows rows' : ConsensusRows} {answers : Bool}

theorem addExperiment_new {e : ConsensusExperiment} {d : Dict String ConsensusExperiment}
    (hnew : rows.experiments.lookup (h.experimentId e.policy) = none)
    (hadd : rows.addExperiment h e = .ok d) :
    d = rows.experiments.insert (h.experimentId e.policy) e := by
  rw [addExperiment, hnew] at hadd
  simp only at hadd
  split_ifs at hadd
  exact (Except.ok.inj hadd).symm

theorem addEvent_new {e : ConsensusExperimentEvent} {message : String}
    {d : Dict String ConsensusExperimentEvent}
    (hnew : rows.events.lookup (h.eventId e) = none)
    (hadd : rows.addEvent h e message = .ok d) :
    d = rows.events.insert (h.eventId e) e := by
  rw [addEvent, hnew] at hadd
  exact (Except.ok.inj hadd).symm

theorem saveDefinition_new {e : ConsensusExperiment} {created : ConsensusExperimentEvent}
    (hexp : rows.experiments.lookup (h.experimentId e.policy) = none)
    (hevent : rows.events.lookup (h.eventId created) = none)
    (hsave : rows.saveConsensusExperimentDefinition h answers e created = .ok rows') :
    rows' = ⟨rows.experiments.insert (h.experimentId e.policy) e,
      rows.events.insert (h.eventId created) created⟩ := by
  unfold saveConsensusExperimentDefinition at hsave
  split_ifs at hsave
  obtain ⟨experiments, hadd, hrest⟩ := Result.bind_ok.1 hsave
  obtain ⟨events, hadd', hrows⟩ := Result.bind_ok.1 hrest
  rw [← Result.pure_ok.1 hrows, addExperiment_new hexp hadd, addEvent_new hevent hadd']

theorem saveEvent_new {e : ConsensusExperimentEvent}
    (hnew : rows.events.lookup (h.eventId e) = none)
    (hsave : rows.saveConsensusExperimentEvent h answers e = .ok rows') :
    rows' = { rows with events := rows.events.insert (h.eventId e) e } := by
  unfold saveConsensusExperimentEvent at hsave
  split_ifs at hsave
  obtain ⟨events, hadd, hrows⟩ := Result.bind_ok.1 hsave
  rw [← Result.pure_ok.1 hrows, addEvent_new hnew hadd]

end ConsensusRows

/-! ## runs -/

namespace ExperimentRegistry

open ConsensusExperimentService

variable {h : Digests} {w w' : ExperimentRegistry}

/-- the accepted events applied one by one, in the order they were accepted -/
def applied (w : ExperimentRegistry) : Option String :=
  w.accepted.foldl ConsensusExperimentEvent.apply none

/-- activation is event-sourced: it is what the accepted events say, in memory and in the rows -/
structure EventSourced (h : Digests) (w : ExperimentRegistry) : Prop where
  current : ∃ x, w.service.active h = .ok x ∧
    h.experimentId x.policy = w.applied.getD (h.experimentId defaultPolicy)
  retired : ∀ e, w.accepted.getLast? = some e → e.eventType = .retired →
    ∀ x, w.service.active h = .ok x → h.experimentId x.policy ≠ e.experimentId
  activated : ∀ e, w.accepted.getLast? = some e → e.eventType = .activated →
    ∀ x, w.service.active h = .ok x → h.experimentId x.policy = e.experimentId
  rebuilt : ∀ rows now, w.repository = some rows →
    ∃ s rows', initialized h true now rows = .ok (s, rows') ∧ s.active h = w.service.active h

/-- a definition or an event that a call appends fits the two bounded queries -/
def Fits (w : ExperimentRegistry) : Prop :=
  w.repository.isSome → w.service.experiments.values.length < experimentLimit ∧
    w.service.events.values.length < eventLimit

/-- the condition under which activation stays event-sourced -/
def Meets (h : Digests) (w : ExperimentRegistry) : ExperimentCall → Prop
  | .register e now _ => w.service.admitExperiment h now e = .ok (some (e.created h)) →
      w.Fits ∧ w.service.events.lookup (h.eventId (e.created h)) = none
  | .recordEvent e now _ => w.service.admitEvent h now e = .ok (some e) →
      w.Fits ∧ ¬ w.service.Overtaken h e ∧
        ¬ (e.eventType = .retired ∧ e.experimentId = h.experimentId defaultPolicy)
  | .restart _ _ => True

instance (w : ExperimentRegistry) : Decidable w.Fits := inferInstanceAs (Decidable (_ → _))

instance Meets.decidable (h : Digests) (w : ExperimentRegistry) :
    (call : ExperimentCall) → Decidable (Meets h w call)
  | .register _ _ _ => inferInstanceAs (Decidable (_ → _))
  | .recordEvent _ _ _ => inferInstanceAs (Decidable (_ → _))
  | .restart _ _ => inferInstanceAs (Decidable True)

/-- what every call keeps -/
structure Tracks (h : Digests) (w : ExperimentRegistry) : Prop where
  consistent : w.service.Consistent h
  replays : w.service.activatedExperimentId h = w.applied
  retired : ∀ e, w.accepted.getLast? = some e → e.eventType = .retired →
    w.applied = none ∧ e.experimentId ≠ h.experimentId defaultPolicy
  stored : ∀ rows, w.repository = some rows → Mirrors h rows w.service

theorem applied_append (e : ConsensusExperimentEvent) (s : ConsensusExperimentService)
    (repository : Option ConsensusRows) :
    (ExperimentRegistry.mk s repository (w.accepted ++ [e])).applied = e.apply w.applied := by
  rw [applied, applied, List.foldl_append]
  rfl

theorem Tracks.eventSourced (ht : Tracks h w) : EventSourced h w := by
  obtain ⟨x, hx, hid⟩ := ht.consistent.active_eq
  rw [ht.replays, ht.consistent.fallback] at hid
  refine ⟨⟨x, hx, hid⟩, ?_, ?_, ?_⟩
  · intro e hlast hret y hy
    obtain ⟨hnone, hne⟩ := ht.retired e hlast hret
    have hxy : x = y := Except.ok.inj (hx.symm.trans hy)
    rw [← hxy, hid, hnone]
    exact hne.symm
  · intro e hlast hact y hy
    have hxy : x = y := Except.ok.inj (hx.symm.trans hy)
    obtain ⟨before, hbefore⟩ := List.getLast?_eq_some_iff.1 hlast
    have happlied : w.applied = some e.experimentId := by
      rw [applied, hbefore, List.foldl_append]
      simp only [List.foldl_cons, List.foldl_nil, ConsensusExperimentEvent.apply, hact]
    rw [← hxy, hid, happlied]
    rfl
  · intro rows now hrows
    obtain ⟨s, hs, hdef, hexp, hevents⟩ := (ht.stored rows hrows).rebuild ht.consistent now
    exact ⟨s, rows, hs, active_congr hdef hexp
      (activatedExperimentId_congr ht.consistent.keyed hevents)⟩

theorem persist_ok {save : ConsensusRows → Except Error ConsensusRows}
    {repository repository' : Option ConsensusRows}
    (hsave : persist save repository = .ok repository') {rows' : ConsensusRows}
    (hrows : repository' = some rows') :
    ∃ rows, repository = some rows ∧ save rows = .ok rows' := by
  unfold persist at hsave
  split at hsave
  · rw [← Except.ok.inj hsave] at hrows
    exact absurd hrows (by simp)
  · next rows =>
    refine ⟨rows, rfl, ?_⟩
    cases hs : save rows with
    | error err =>
      rw [hs] at hsave
      exact absurd hsave (by simp [Except.map])
    | ok r =>
      rw [hs, hrows] at hsave
      have hr : some r = some rows' := Except.ok.inj hsave
      rw [Option.some.inj hr]

theorem register_tracks {now : Time} {answers : Bool} {e : ConsensusExperiment} (ht : Tracks h w)
    (hm : Meets h w (.register e now answers)) (hok : w.register h now answers e = .ok w') :
    Tracks h w' := by
  obtain ⟨admitted, hadmitted, hrest⟩ := Result.bind_ok.1 hok
  cases admitted with
  | none =>
    rw [← Result.pure_ok.1 hrest]
    exact ht
  | some event =>
    obtain ⟨repository, hpersist, hw'⟩ := Result.bind_ok.1 hrest
    obtain ⟨rfl, hnew⟩ := admitExperiment_some hadmitted
    obtain ⟨hfits, hfresh⟩ := hm hadmitted
    have hs := ht.consistent
    -- the definition first, then its event
    let s : ConsensusExperimentService :=
      { w.service with experiments := w.service.experiments.insert (h.experimentId e.policy) e }
    have hservice : w'.service = s.appended h (e.created h) := by
      rw [← Result.pure_ok.1 hw']
      rfl
    have hkeeps : ∀ k, w.service.experiments.lookup k ≠ none → s.experiments.lookup k ≠ none := by
      intro k hk
      rw [Dict.lookup_insert_eq]
      split_ifs
      · simp
      · exact hk
    have hvalues : s.experiments.values = e :: w.service.experiments.values :=
      Dict.values_insert_of_lookup _ hnew
    refine ⟨?_, ?_, ?_, ?_⟩
    · rw [hservice]
      refine ⟨hs.fallback, hkeeps _ hs.known, Dict.Keyed.insert hs.filed e,
        Dict.Keyed.insert hs.keyed (e.created h), fun x hx => ?_⟩
      rw [values_appended (s := s) hfresh] at hx
      rcases List.mem_cons.1 hx with rfl | hx
      · exact (Dict.lookup_insert_eq _ _ _ _).trans_ne (by simp [ConsensusExperiment.created])
      · exact hkeeps _ (hs.named x hx)
    · have hact : w'.service.activatedExperimentId h = w.service.activatedExperimentId h := by
        rw [hservice]
        exact activatedExperimentId_created (s := s) hfresh rfl
      rw [hact, ht.replays, ← Result.pure_ok.1 hw', applied_append]
      rfl
    · intro x hlast hret
      rw [← Result.pure_ok.1 hw', List.getLast?_concat] at hlast
      rw [← Option.some.inj hlast] at hret
      exact absurd hret (by simp [ConsensusExperiment.created])
    · intro rows' hrows'
      have hrepo : repository = some rows' := by
        rw [← hrows', ← Result.pure_ok.1 hw']
      obtain ⟨rows, hrows, hsave⟩ := persist_ok hpersist hrepo
      have hmirror := ht.stored rows hrows
      have hsaved := ConsensusRows.saveDefinition_new ((hmirror.experiments _).trans hnew)
        ((hmirror.events _).trans hfresh) hsave
      obtain ⟨hroom, hroom'⟩ := hfits (by rw [hrows]; rfl)
      rw [hservice, hsaved]
      refine ⟨fun k => ?_, fun k => ?_, ?_, ?_⟩
      · rw [Dict.lookup_insert_eq, hmirror.experiments]
        exact (Dict.lookup_insert_eq _ _ _ _).symm
      · rw [Dict.lookup_insert_eq, hmirror.events]
        exact (Dict.lookup_insert_eq _ _ _ _).symm
      · exact (congrArg List.length hvalues).trans_le hroom
      · rw [values_appended (s := s) hfresh]
        exact hroom'

theorem recordEvent_tracks {now : Time} {answers : Bool} {e : ConsensusExperimentEvent}
    (ht : Tracks h w) (hm : Meets h w (.recordEvent e now answers))
    (hok : w.recordEvent h now answers e = .ok w') : Tracks h w' := by
  obtain ⟨admitted, hadmitted, hrest⟩ := Result.bind_ok.1 hok
  cases admitted with
  | none =>
    rw [← Result.pure_ok.1 hrest]
    exact ht
  | some event =>
    obtain ⟨repository, hpersist, hw'⟩ := Result.bind_ok.1 hrest
    obtain ⟨rfl, ha⟩ := admitEvent_some hadmitted
    obtain ⟨hfits, hover, hdefault⟩ := hm hadmitted
    have hs := ht.consistent
    have hservice : w'.service = w.service.appended h event := by
      rw [← Result.pure_ok.1 hw']
      rfl
    have happlied : w'.applied = event.apply w.applied := by
      rw [← Result.pure_ok.1 hw', applied_append]
    refine ⟨?_, ?_, ?_, ?_⟩
    · rw [hservice]
      refine ⟨hs.fallback, hs.known, hs.filed, Dict.Keyed.insert hs.keyed event, fun x hx => ?_⟩
      rw [values_appended ha.fresh] at hx
      rcases List.mem_cons.1 hx with rfl | hx
      · exact ha.known
      · exact hs.named x hx
    · rw [hservice, happlied, ← ht.replays]
      exact activatedExperimentId_record ha.fresh ha.latest hover ha.lifecycle ha.retires
    · intro x hlast hret
      rw [← Result.pure_ok.1 hw', List.getLast?_concat] at hlast
      rw [← Option.some.inj hlast] at hret ⊢
      refine ⟨?_, fun hid => hdefault ⟨hret, hid⟩⟩
      rw [happlied, ← ht.replays, ha.retires hret]
      simp only [ConsensusExperimentEvent.apply, hret, if_true]
    · intro rows' hrows'
      have hrepo : repository = some rows' := by
        rw [← hrows', ← Result.pure_ok.1 hw']
      obtain ⟨rows, hrows, hsave⟩ := persist_ok hpersist hrepo
      have hmirror := ht.stored rows hrows
      have hsaved := ConsensusRows.saveEvent_new ((hmirror.events _).trans ha.fresh) hsave
      obtain ⟨-, hroom'⟩ := hfits (by rw [hrows]; rfl)
      rw [hservice, hsaved]
      refine ⟨hmirror.experiments, fun k => ?_, hmirror.experimentsFit, ?_⟩
      · rw [Dict.lookup_insert_eq, hmirror.events]
        exact (Dict.lookup_insert_eq _ _ _ _).symm
      · rw [values_appended ha.fresh]
        exact hroom'

theorem start_tracks (now : Time) (durable : Bool) : Tracks h (start h now durable) := by
  have hlookup : (ConsensusExperimentService.new h now).experiments.lookup
      (h.experimentId defaultPolicy) = some (defaultExperiment now) :=
    List.dlookup_cons_eq _ _ _
  refine ⟨⟨rfl, ?_, ?_, ?_, ?_⟩, ?_, ?_, ?_⟩
  · exact ne_of_eq_of_ne hlookup (by simp)
  · exact @Dict.Keyed.insert _ _ _ (fun x => h.experimentId x.policy) ∅
      (fun hk => absurd hk (by simp)) (defaultExperiment now)
  · exact @Dict.Keyed.insert _ _ _ h.eventId ∅
      (fun hk => absurd hk (by simp)) (defaultCreated h now)
  · intro x hx
    have hxd : x = defaultCreated h now := List.mem_singleton.1 hx
    rw [hxd]
    exact ne_of_eq_of_ne hlookup (by simp)
  · rfl
  · intro e hlast hret
    have he : defaultCreated h now = e := Option.some.inj hlast
    rw [← he] at hret
    exact absurd hret (by simp [defaultCreated])
  · intro rows hrows
    unfold start at hrows
    cases durable with
    | false => exact absurd hrows (by simp)
    | true =>
      have hr := Option.some.inj hrows
      rw [← hr]
      refine ⟨fun _ => rfl, fun _ => rfl, ?_, ?_⟩
      · exact (by decide : 1 ≤ experimentLimit)
      · exact (by decide : 1 ≤ eventLimit)

theorem restart_tracks {now : Time} {answers : Bool} (ht : Tracks h w)
    (hok : w.restart h now answers = .ok w') : Tracks h w' := by
  unfold restart at hok
  cases hrows : w.repository with
  | none =>
    rw [hrows] at hok
    rw [← Result.pure_ok.1 hok]
    exact start_tracks now false
  | some rows =>
    rw [hrows] at hok
    obtain ⟨⟨s, rows'⟩, hinit, hw'⟩ := Result.bind_ok.1 hok
    have hmirror := ht.stored rows hrows
    obtain ⟨s', hs', hdef, hexp, hevents⟩ := hmirror.rebuild ht.consistent now
    have hanswers : answers = true := by
      by_contra hne
      rw [initialized, if_pos (Bool.eq_false_iff.2 hne)] at hinit
      exact absurd hinit (by simp)
    rw [hanswers, hs'] at hinit
    obtain ⟨hs, hr⟩ := Prod.mk.inj (Except.ok.inj hinit)
    have hs0 := ht.consistent
    rw [← Result.pure_ok.1 hw', ← hs, ← hr]
    refine ⟨⟨hdef.trans hs0.fallback, ?_, ?_, ?_, ?_⟩, ?_, ht.retired, ?_⟩
    · rw [hexp, hdef]
      exact hs0.known
    · exact Dict.Keyed.congr hs0.filed hexp
    · exact Dict.Keyed.congr hs0.keyed hevents
    · intro x hx
      rw [hexp]
      exact hs0.named x ((Dict.values_perm_of_lookup hevents).mem_iff.1 hx)
    · exact (activatedExperimentId_congr hs0.keyed hevents).trans ht.replays
    · intro rows'' hrows''
      rw [← Option.some.inj hrows'']
      refine ⟨fun k => (hmirror.experiments k).trans (hexp k).symm,
        fun k => (hmirror.events k).trans (hevents k).symm, ?_, ?_⟩
      · exact (Dict.values_perm_of_lookup hexp).length_eq.trans_le hmirror.experimentsFit
      · exact (Dict.values_perm_of_lookup hevents).length_eq.trans_le hmirror.eventsFit

theorem step_tracks (call : ExperimentCall) (hm : Meets h w call) (ht : Tracks h w) :
    Tracks h (w.step h call) := by
  cases call with
  | register e now answers =>
    cases hok : w.register h now answers e with
    | ok w' => simpa only [step, hok] using register_tracks ht hm hok
    | error err => simpa only [step, hok] using ht
  | recordEvent e now answers =>
    cases hok : w.recordEvent h now answers e with
    | ok w' => simpa only [step, hok] using recordEvent_tracks ht hm hok
    | error err => simpa only [step, hok] using ht
  | restart now answers =>
    cases hok : w.restart h now answers with
    | ok w' => simpa only [step, hok] using restart_tracks ht hok
    | error err => simpa only [step, hok] using ht

/-- **Event-sourced activation.** In a run in which no event of a time reads back after a new one of
that time and undoes it, the default experiment is never retired, and definitions and events fit the
two bounded queries, activation is in every state the accepted events applied in order. -/
theorem activation_event_sourced (h : Digests) (now : Time) (durable : Bool)
    (calls : List ExperimentCall) (hm : Along (step h) (Meets h) (start h now durable) calls) :
    EventSourced h (run (step h) (start h now durable) calls) :=
  (along_inv (fun _ call hmeets ht => step_tracks call hmeets ht) (start_tracks now durable)
    hm).eventSourced

/-! ## a sample registry -/

def tightCapId : String := "811c1e72199bd9f37063f998eee93b0b770e3706485d4f26ac60fd3ed31c6fb8"

/-- 2026-01-01T00:00:00+00:00 -/
def sampleStart : Time := 1767225600000000

def tightCap : ConsensusExperiment :=
  ⟨{ defaultPolicy with name := "tight_cap", createdBy := "research" }, sampleStart + 60000000,
    by decide +kernel⟩

def goLive : ConsensusExperimentEvent :=
  ⟨tightCapId, .activated, "operator", "go live", sampleStart + 90000000, by decide⟩

/-- the retirement of the sample at a second after its start -/
def rollBack (second : ℕ) : ConsensusExperimentEvent :=
  ⟨tightCapId, .retired, "operator", "roll back", sampleStart + second * 1000000, by decide⟩

/-- SHA-256 at the definitions and events of the sample -/
def sampleDigests : Digests where
  experimentId p :=
    if p.name = "tight_cap" then tightCapId
    else "45526cc12ae915a9661bb6775996eea1287a0ef2cd03bcbf253bef3d36702a25"
  eventId e :=
    match e.eventType with
    | .created =>
      if e.experimentId = tightCapId then
        "b140bcee741f77b472b5f171eb4983c109f0a674cf52c1b3580fecac1c0c606f"
      else "0814f0ef413b06579e4acd9a21c2a6e093df34938c4b311d852320c32dfebee0"
    | .activated => "620dff09f0e10187c537f56f454490382d4e976936a6fbf71213fa8b8c18a368"
    | .retired =>
      if e.createdAt = goLive.createdAt then
        "3eca30eeaa2709f68b6ab7291e34e47de03cea04e0881ac3549953fb4e37d357"
      else "2c338d58200f38d2389f70c44e98a0f61e21d1b189b842fb48c50c79ec77053d"

/-- registered, activated and rolled back at a second, on a new store -/
def rolledBack (second : ℕ) : List ExperimentCall :=
  [.register tightCap (sampleStart + 60000000) true,
    .recordEvent goLive (sampleStart + 90000000) true,
    .restart (sampleStart + 90000000) true,
    .recordEvent (rollBack second) (sampleStart + second * 1000000) true]

/-- a retirement with the time of the activation and a smaller id is read back before it -/
theorem retired_stays_active :
    let w := run (step sampleDigests) (start sampleDigests sampleStart true) (rolledBack 90)
    w.accepted.getLast? = some (rollBack 90) ∧ w.service.active sampleDigests = .ok tightCap ∧
      ¬ EventSourced sampleDigests w := by
  have hrun : (run (step sampleDigests) (start sampleDigests sampleStart true)
        (rolledBack 90)).accepted.getLast? = some (rollBack 90) ∧
      (run (step sampleDigests) (start sampleDigests sampleStart true)
        (rolledBack 90)).service.active sampleDigests = .ok tightCap := by
    decide +kernel
  exact ⟨hrun.1, hrun.2, fun hsourced => hsourced.retired _ hrun.1 rfl _ hrun.2 rfl⟩

theorem activation_event_sourced_sample :
    EventSourced sampleDigests
      (run (step sampleDigests) (start sampleDigests sampleStart true) (rolledBack 91)) :=
  activation_event_sourced sampleDigests sampleStart true (rolledBack 91) (by decide +kernel)

end ExperimentRegistry

end CapitalCipher
