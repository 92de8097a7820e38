/-
The alert lifecycle of `operations/service.py` over its durable log.

A `_record_alert` call waits for the lock, decides under it and holds it until its save returns. An
operation of the world is one stretch of a task between two awaits, a save with its acknowledgement,
or a restart of the service, which may come after the save and before the acknowledgement. Metrics are
left out; the text of a number is a parameter.

  • `finish_inv`, `enter_inv`, `restart_inv`: what each operation does to the log and the memory.
  • `alert_lifecycle`: in a run whose saves are acknowledged, never store an event that an older one of
    its key outranks, and leave the last event of every key among the newest 5,000, every key's events
    alternate from 1 on without gap, the active alerts are the keys left open, and a restart finds them.
  • `equal_timestamps`: an alert resolved within the clock's resolution comes back active.
-/
import CapitalCipher.Lib.AppendOnly
import CapitalCipher.Lib.Journal
import CapitalCipher.Operations.Resilience
import CapitalCipher.Schemas.Operations
import Mathlib.Data.Prod.Lex
import Mathlib.Data.List.Lex
import Mathlib.Data.String.Basic

namespace CapitalCipher

open Lib

abbrev AlertLog := List OperationalAlertEvent

/-- the events of a key, in the order they were stored -/
def AlertLog.of (log : AlertLog) (key : String) : List OperationalAlertEvent :=
  log.filter fun e => e.alertKey = key

/-- the last event of a key opened it -/
def AlertLog.openEvent (log : AlertLog) (key : String) : Option OperationalAlertEvent :=
  (log.of key).getLast?.filter fun e => e.eventType = .opened

/-! ## the rows -/

/-- the transaction of `save_operational_alert_event` -/
def saveOperationalAlertEvent (event : OperationalAlertEvent) (log : AlertLog) :
    Except Error (OperationalAlertEvent × AlertLog) :=
  match log.find? fun row => row.alertEventId = event.alertEventId with
  | some stored =>
    if stored = event then .ok (stored, log)
    else .error ⟨.validation, "Immutable operational alert event identity conflict"⟩
  | none =>
    -- `uq_operational_alert_lifecycle`
    if log.any fun row => row.alertKey = event.alertKey &&
        row.lifecycleSequence = event.lifecycleSequence then
      .error ⟨.database, "Failed to persist operational alert event"⟩
    else .ok (event, log ++ [event])

/-- `occurred_at DESC, alert_event_id` -/
def alertOrder (e : OperationalAlertEvent) : ℕᵒᵈ ×ₗ List Char :=
  toLex (OrderDual.toDual e.occurredAt, e.alertEventId.toList)

def listOperationalAlertEvents (limit : ℕ) (log : AlertLog) : List OperationalAlertEvent :=
  (sortedBy alertOrder log).take limit

/-! ## the service -/

structure OperationsService where
  recovery : RecoveryCoordinator
  alertEvents : List OperationalAlertEvent
  activeAlerts : Dict String OperationalAlertEvent
  alertSequences : Dict String ℕ

namespace OperationsService

/-- `deque(maxlen=5_000)` after an append -/
def appended (events : List OperationalAlertEvent) (event : OperationalAlertEvent) :
    List OperationalAlertEvent :=
  (events ++ [event]).drop (events.length + 1 - 5000)

/-- `self._alert_sequences.get(alert_key, 0)` -/
def sequence (s : OperationsService) (key : String) : ℕ := (s.alertSequences.lookup key).getD 0

/-- a service before `initialize` -/
def new (required : ℕ) (h : 2 ≤ required ∧ required ≤ 100) : OperationsService where
  recovery := .new required h
  alertEvents := []
  activeAlerts := ∅
  alertSequences := ∅

/-- what an event of a type makes of the active alerts -/
def activated (active : Dict String OperationalAlertEvent) (key : String) (type : AlertEventType)
    (event : OperationalAlertEvent) : Dict String OperationalAlertEvent :=
  match type with
  | .opened => active.insert key event
  | .resolved => active.erase key

/-- one event of the loop in `initialize` -/
def restore (s : OperationsService) (event : OperationalAlertEvent) : OperationsService :=
  { s with
    alertEvents := appended s.alertEvents event
    alertSequences := s.alertSequences.insert event.alertKey
      (max (s.sequence event.alertKey) event.lifecycleSequence)
    activeAlerts := activated s.activeAlerts event.alertKey event.eventType event }

/-- the alerts `initialize` reads back -/
def initialized (s : OperationsService) (log : AlertLog) : OperationsService :=
  (listOperationalAlertEvents 5000 log).reverse.foldl restore s

/-- `_sync_slo_alert` up to its `_record_alert` -/
def syncSloAlert (number : ℚ → String) (evaluation : SLOEvaluation) (correlationId : String)
    (s : OperationsService) : Option AlertRecord :=
  let key := "slo:" ++ evaluation.sloName
  match evaluation.status, s.activeAlerts.lookup key with
  | .breached, none =>
    some
      { alertKey := key
        eventType := .opened
        severity := .error
        source := "OperationsService"
        correlationId := some correlationId
        reason := "SLO " ++ evaluation.sloName ++ " breached: " ++
          (evaluation.measured.map number).getD "None" ++ " vs " ++ number evaluation.target
        metadata := .obj
          [("evaluation_id", .str evaluation.evaluationId),
            ("measured", (evaluation.measured.map Json.num).getD .null),
            ("target", .num evaluation.target)] }
  | .healthy, some active | .warning, some active =>
    some
      { alertKey := key
        eventType := .resolved
        severity := active.severity
        source := "OperationsService"
        correlationId := some correlationId
        reason := "SLO " ++ evaluation.sloName ++ " recovered"
        metadata := .obj [("evaluation_id", .str evaluation.evaluationId)] }
  | _, _ => none

/-- `observe_dependency` up to its `_record_alert` -/
def observeDependency (name : DependencyName) (healthy : Bool) (reason : String)
    (correlationId : Option String) (s : OperationsService) :
    OperationsService × Option AlertRecord :=
  let (recovery, state) := s.recovery.observe name healthy reason
  let key := "dependency:" ++ name.text.toLower
  ({ s with recovery := recovery },
    match healthy, s.activeAlerts.lookup key with
    | false, none =>
      some
        { alertKey := key
          eventType := .opened
          severity := if state.critical then .critical else .warning
          source := "RecoveryCoordinator"
          correlationId := correlationId
          reason := reason
          metadata := .obj [("dependency", .str name.text), ("critical", .bool state.critical)] }
    | true, some active =>
      if !state.critical || decide (recovery.required ≤ state.consecutiveSuccesses) then
        some
          { alertKey := key
            eventType := .resolved
            severity := active.severity
            source := "RecoveryCoordinator"
            correlationId := correlationId
            reason := name.text ++ " recovered"
            metadata := .obj
              [("dependency", .str name.text), ("mode_before", .str s.recovery.mode.text)] }
      else none
    | _, _ => none)

/-- `_record_alert` under the lock: nothing to do, or the event to save -/
def prepare (record : AlertRecord) (id : String) (now : Time) (s : OperationsService) :
    Option (Except Error OperationalAlertEvent) :=
  match record.eventType, s.activeAlerts.lookup record.alertKey with
  | .opened, some _ => none
  | .resolved, none => none
  | _, _ =>
    some (OperationalAlertEvent.check
      { record with
        alertEventId := id
        lifecycleSequence := s.sequence record.alertKey + 1
        occurredAt := now })

/-- `_record_alert` after its save -/
def recordAlert (event stored : OperationalAlertEvent) (s : OperationsService) :
    OperationsService :=
  { s with
    alertEvents :=
      if ∀ item ∈ s.alertEvents, item.alertEventId ≠ stored.alertEventId then
        appended s.alertEvents stored
      else s.alertEvents
    alertSequences := s.alertSequences.insert event.alertKey event.lifecycleSequence
    activeAlerts := activated s.activeAlerts event.alertKey event.eventType stored }

end OperationsService

/-! ## the tasks and the store -/

/-- the service, the calls that wait for its lock, the save its holder awaits, and the rows -/
structure AlertSystem where
  service : OperationsService
  waiting : List AlertRecord
  saving : Option OperationalAlertEvent
  log : AlertLog

inductive AlertOp where
  | sync (evaluation : SLOEvaluation) (correlationId : String)
  | observe (name : DependencyName) (healthy : Bool) (reason : String)
      (correlationId : Option String)
  | record (record : AlertRecord)
  | enter (i : ℕ) (id : String) (now : Time)   -- a waiting call takes the free lock
  | finish (fate : WriteFate)                  -- its save returns or raises
  | restart (committed : Bool)                 -- with the row of the save that was awaited, or without
  deriving DecidableEq

namespace AlertSystem

/-- a new service on an empty log -/
def start (required : ℕ) (h : 2 ≤ required ∧ required ≤ 100) : AlertSystem :=
  ⟨.new required h, [], none, []⟩

/-- the log with the row of a save -/
def stored (log : AlertLog) (event : OperationalAlertEvent) : AlertLog :=
  match saveOperationalAlertEvent event log with
  | .ok (_, log') => log'
  | .error _ => log

def enter (i : ℕ) (id : String) (now : Time) (w : AlertSystem) : AlertSystem :=
  match w.saving, w.waiting[i]? with
  | none, some record =>
    { w with
      waiting := w.waiting.eraseIdx i
      saving := match w.service.prepare record id now with
        | some (.ok event) => some event
        | _ => none }
  | _, _ => w

def finish (fate : WriteFate) (w : AlertSystem) : AlertSystem :=
  match w.saving with
  | none => w
  | some event =>
    match fate.commit (⟨.database, "Failed to persist operational alert event"⟩ : Error)
        (saveOperationalAlertEvent event) w.log with
    | (.ok row, log) =>
      { w with service := w.service.recordAlert event row, saving := none, log := log }
    | (.error _, log) => { w with saving := none, log := log }

def restart (required : ℕ) (h : 2 ≤ required ∧ required ≤ 100) (committed : Bool)
    (w : AlertSystem) : AlertSystem :=
  let log := if committed then w.saving.elim w.log (stored w.log) else w.log
  ⟨(OperationsService.new required h).initialized log, [], none, log⟩

def step (number : ℚ → String) (required : ℕ) (h : 2 ≤ required ∧ required ≤ 100)
    (w : AlertSystem) : AlertOp → AlertSystem
  | .sync evaluation correlationId =>
    { w with
      waiting := w.waiting ++ (w.service.syncSloAlert number evaluation correlationId).toList }
  | .observe name healthy reason correlationId =>
    let (service, record) := w.service.observeDependency name healthy reason correlationId
    { w with service := service, waiting := w.waiting ++ record.toList }
  | .record record => { w with waiting := w.waiting ++ [record] }
  | .enter i id now => enter i id now w
  | .finish fate => finish fate w
  | .restart committed => restart required h committed w

end AlertSystem

/-! ## the log -/

namespace AlertLog

variable {log : AlertLog} {e : OperationalAlertEvent} {key : String}

theorem of_snoc (log : AlertLog) (e : OperationalAlertEvent) (key : String) :
    AlertLog.of (log ++ [e]) key =
      if e.alertKey = key then log.of key ++ [e] else log.of key := by
  unfold AlertLog.of
  rw [List.filter_append]
  by_cases he : e.alertKey = key
  · simp [he]
  · simp [he]

theorem openEvent_snoc (log : AlertLog) (e : OperationalAlertEvent) (key : String) :
    AlertLog.openEvent (log ++ [e]) key =
      if e.alertKey = key then if e.eventType = .opened then some e else none
      else log.openEvent key := by
  unfold AlertLog.openEvent
  rw [of_snoc]
  by_cases he : e.alertKey = key
  · rw [if_pos he, if_pos he, List.getLast?_concat]
    by_cases ht : e.eventType = .opened
    · simp [Option.filter, ht]
    · simp [Option.filter, ht]
  · rw [if_neg he, if_neg he]

theorem mem_of : e ∈ log.of key ↔ e ∈ log ∧ e.alertKey = key := by
  simp [AlertLog.of]

/-- what the newest rows show of a log, and what they need for it -/
structure Restorable (log : AlertLog) : Prop where
  alternates : ∀ key, Alternates OperationalAlertEvent.lifecycleSequence
    (fun e => e.eventType = .opened) (log.of key)
  ids : (log.map OperationalAlertEvent.alertEventId).Nodup
  ordered : ∀ key, (log.of key).Pairwise fun a b => alertOrder b < alertOrder a
  within : ∀ key e, (log.of key).getLast? = some e →
    (log.countP fun x => decide (alertOrder x < alertOrder e)) < 5000

/-- the next event of its key -/
structure Next (log : AlertLog) (e : OperationalAlertEvent) : Prop where
  sequence : e.lifecycleSequence = (log.of e.alertKey).length + 1
  opens : e.eventType = .opened ↔ (log.of e.alertKey).length % 2 = 0

theorem restorable_nil : Restorable [] where
  alternates _ := alternates_nil
  ids := List.nodup_nil
  ordered _ := List.Pairwise.nil
  within _ _ he := absurd he (by simp [AlertLog.of])

theorem Restorable.snoc (h : log.Restorable) (hn : log.Next e)
    (hid : ∀ row ∈ log, row.alertEventId ≠ e.alertEventId)
    (horder : ∀ row ∈ log, row.alertKey = e.alertKey → alertOrder e < alertOrder row)
    (hwithin : ∀ row ∈ log ++ [e], (AlertLog.of (log ++ [e]) row.alertKey).getLast? = some row →
      ((log ++ [e]).countP fun x => decide (alertOrder x < alertOrder row)) < 5000) :
    AlertLog.Restorable (log ++ [e]) := by
  refine ⟨fun key => ?_, ?_, fun key => ?_, fun key row hrow => ?_⟩
  · rw [of_snoc]
    split_ifs with hkey
    · subst hkey
      exact (h.alternates _).snoc hn.sequence hn.opens
    · exact h.alternates key
  · rw [List.map_append, List.nodup_append]
    refine ⟨h.ids, List.nodup_singleton _, fun a ha b hb => ?_⟩
    obtain ⟨row, hrow, rfl⟩ := List.mem_map.1 ha
    rw [List.map_singleton, List.mem_singleton] at hb
    rw [hb]
    exact hid row hrow
  · rw [of_snoc]
    split_ifs with hkey
    · rw [List.pairwise_append]
      refine ⟨h.ordered key, List.pairwise_singleton _ _, fun a ha b hb => ?_⟩
      rw [List.mem_singleton] at hb
      subst hb
      obtain ⟨hmem, hak⟩ := mem_of.1 ha
      exact horder a hmem (hak.trans hkey.symm)
    · exact h.ordered key
  · obtain ⟨hmem, hkey⟩ := mem_of.1 (List.mem_of_getLast? hrow)
    subst hkey
    exact hwithin row hmem hrow

/-- a key is open exactly when it has an odd number of events -/
theorem Restorable.openEvent_isSome (h : log.Restorable) (key : String) :
    (log.openEvent key).isSome = true ↔ (log.of key).length % 2 = 1 := by
  unfold AlertLog.openEvent
  cases hlast : (log.of key).getLast? with
  | none =>
    rw [List.getLast?_eq_none_iff] at hlast
    simp [hlast]
  | some e =>
    rw [← ((h.alternates key).last hlast).2]
    by_cases ht : e.eventType = .opened
    · simp [Option.filter, ht]
    · simp [Option.filter, ht]

/-- the row of the next event goes in exactly when its id is new -/
theorem Restorable.save (h : log.Restorable) (hn : log.Next e) :
    ((∀ row ∈ log, row.alertEventId ≠ e.alertEventId) ∧
        saveOperationalAlertEvent e log = .ok (e, log ++ [e])) ∨
      (¬ (∀ row ∈ log, row.alertEventId ≠ e.alertEventId) ∧
        ∃ err, saveOperationalAlertEvent e log = .error err) := by
  have hseq : ∀ row ∈ log, row.alertKey = e.alertKey →
      row.lifecycleSequence ≠ e.lifecycleSequence := by
    intro row hrow hkey he
    have hle := (h.alternates e.alertKey).number_le (mem_of.2 ⟨hrow, hkey⟩)
    rw [he, hn.sequence] at hle
    omega
  unfold saveOperationalAlertEvent
  cases hf : log.find? fun row => row.alertEventId = e.alertEventId with
  | none =>
    have hnew := List.find?_eq_none.1 hf
    refine Or.inl ⟨fun row hrow => by simpa using hnew row hrow, ?_⟩
    refine if_neg fun hany => ?_
    obtain ⟨row, hrow, hrow'⟩ := List.any_eq_true.1 hany
    simp only [Bool.and_eq_true, decide_eq_true_eq] at hrow'
    exact hseq row hrow hrow'.1 hrow'.2
  | some row =>
    have hrow := List.mem_of_find?_eq_some hf
    have hid : row.alertEventId = e.alertEventId := by simpa using List.find?_some hf
    refine Or.inr ⟨fun hall => hall row hrow hid, _, if_neg fun he => ?_⟩
    exact hseq row hrow (by rw [he]) (by rw [he])

end AlertLog

/-! ## the memory -/

namespace OperationsService

variable {s : OperationsService} {log : AlertLog} {key : String}

theorem lookup_activated (active : Dict String OperationalAlertEvent) (k key : String)
    (type : AlertEventType) (event : OperationalAlertEvent) :
    (activated active k type event).lookup key =
      if k = key then if type = .opened then some event else none else active.lookup key := by
  by_cases hk : k = key
  · subst hk
    cases type <;> simp [activated]
  · have hk' : ¬ key = k := fun he => hk he.symm
    cases type with
    | opened => rw [activated, Dict.lookup_insert_eq, if_neg hk', if_neg hk]
    | resolved => rw [activated, Dict.lookup_erase_eq, if_neg hk', if_neg hk]

/-- the memory shows the log: the number of every key's events, and the keys left open -/
structure Mirrors (s : OperationsService) (log : AlertLog) : Prop where
  sequence : ∀ key, s.sequence key = (log.of key).length
  active : ∀ key, s.activeAlerts.lookup key = log.openEvent key

theorem Mirrors.recordAlert (h : s.Mirrors log) {e : OperationalAlertEvent} (hn : log.Next e) :
    (s.recordAlert e e).Mirrors (log ++ [e]) := by
  refine ⟨fun key => ?_, fun key => ?_⟩
  · have hsequences : (s.recordAlert e e).alertSequences =
        s.alertSequences.insert e.alertKey e.lifecycleSequence := rfl
    rw [AlertLog.of_snoc, OperationsService.sequence, hsequences, Dict.lookup_insert_eq]
    by_cases hk : e.alertKey = key
    · subst hk
      rw [if_pos rfl, if_pos rfl, List.length_append, List.length_singleton]
      exact hn.sequence
    · rw [if_neg hk, if_neg fun he => hk he.symm]
      exact h.sequence key
  · have hactive : (s.recordAlert e e).activeAlerts =
        activated s.activeAlerts e.alertKey e.eventType e := rfl
    rw [AlertLog.openEvent_snoc, hactive, lookup_activated, h.active]

theorem sequence_restore (s : OperationsService) (e : OperationalAlertEvent) (key : String) :
    (s.restore e).sequence key =
      if e.alertKey = key then max (s.sequence key) e.lifecycleSequence else s.sequence key := by
  unfold sequence restore
  rw [Dict.lookup_insert_eq]
  by_cases hk : e.alertKey = key
  · subst hk
    simp [sequence]
  · rw [if_neg hk, if_neg fun he => hk he.symm]

section New

variable {required : ℕ} {h : 2 ≤ required ∧ required ≤ 100}

/-- the largest number restored for a key -/
theorem sequence_foldl_le (events : List OperationalAlertEvent) (key : String) (n : ℕ) :
    (events.foldl restore (new required h)).sequence key ≤ n ↔
      ∀ e ∈ events, e.alertKey = key → e.lifecycleSequence ≤ n := by
  induction events using List.reverseRecOn with
  | nil => simp [new, sequence]
  | append_singleton events e ih =>
    rw [List.foldl_append, List.foldl_cons, List.foldl_nil, sequence_restore]
    simp only [List.forall_mem_append, List.forall_mem_singleton, ← ih]
    by_cases hk : e.alertKey = key
    · simp [hk]
    · simp [hk]

theorem active_foldl (events : List OperationalAlertEvent) (key : String) :
    (events.foldl restore (new required h)).activeAlerts.lookup key =
      AlertLog.openEvent events key := by
  induction events using List.reverseRecOn with
  | nil => rfl
  | append_singleton events e ih =>
    rw [List.foldl_append, List.foldl_cons, List.foldl_nil, AlertLog.openEvent_snoc, ← ih]
    exact lookup_activated _ _ _ _ _

/-- a restart finds what the log holds, when its newest rows show it -/
theorem initialized_mirrors (hlog : log.Restorable) :
    ((new required h).initialized log).Mirrors log := by
  have hnd : (log.map alertOrder).Nodup := by
    have hids : ((log.map alertOrder).map fun k => String.ofList (ofLex k).2).Nodup := by
      have heq : ((fun k => String.ofList (ofLex k).2) ∘ alertOrder) =
          OperationalAlertEvent.alertEventId := by
        funext e
        simp [alertOrder]
      rw [List.map_map, heq]
      exact hlog.ids
    exact hids.of_map
  have hlast : ∀ key, (AlertLog.of (listOperationalAlertEvents 5000 log).reverse key).getLast? =
      (log.of key).getLast? :=
    fun key => getLast?_newest hnd (hlog.ordered key) (hlog.within key)
  refine ⟨fun key => le_antisymm ?_ ?_, fun key => ?_⟩
  · refine (sequence_foldl_le _ key _).2 fun e he hk => ?_
    have hmem : e ∈ log := (mem_sortedBy _).1 (List.mem_of_mem_take (List.mem_reverse.1 he))
    exact (hlog.alternates key).number_le (AlertLog.mem_of.2 ⟨hmem, hk⟩)
  · cases hk : (log.of key).getLast? with
    | none =>
      rw [List.getLast?_eq_none_iff] at hk
      rw [hk]
      exact Nat.zero_le _
    | some e =>
      rw [← ((hlog.alternates key).last hk).1]
      rw [← hlast key] at hk
      obtain ⟨hmem, hkey⟩ := AlertLog.mem_of.1 (List.mem_of_getLast? hk)
      exact (sequence_foldl_le _ key _).1 le_rfl e hmem hkey
  · rw [initialized, active_foldl, AlertLog.openEvent, AlertLog.openEvent, hlast]

end New

/-- the event a call prepares is the next of its key -/
theorem prepare_next (hs : s.Mirrors log) (hlog : log.Restorable) {record : AlertRecord}
    {id : String} {now : Time} {e : OperationalAlertEvent}
    (h : s.prepare record id now = some (.ok e)) : log.Next e := by
  have hopen := hlog.openEvent_isSome record.alertKey
  rw [← hs.active] at hopen
  unfold prepare at h
  have hseq := hs.sequence record.alertKey
  cases ht : record.eventType with
  | opened =>
    cases ha : s.activeAlerts.lookup record.alertKey with
    | some active => simp [ht, ha] at h
    | none =>
      simp only [ht, ha, Option.some.injEq] at h
      rw [OperationalAlertEvent.check_eq h]
      refine ⟨by rw [hseq], iff_of_true ht ?_⟩
      rw [ha] at hopen
      simp only [Option.isSome_none, Bool.false_eq_true, false_iff] at hopen
      exact (Nat.mod_two_eq_zero_or_one _).resolve_right hopen
  | resolved =>
    cases ha : s.activeAlerts.lookup record.alertKey with
    | none => simp [ht, ha] at h
    | some active =>
      simp only [ht, ha, Option.some.injEq] at h
      rw [OperationalAlertEvent.check_eq h]
      refine ⟨by rw [hseq], iff_of_false (by simp [ht]) ?_⟩
      rw [ha] at hopen
      have hodd := hopen.1 rfl
      dsimp only
      omega

end OperationsService

/-! ## runs -/

namespace AlertSystem

variable {w : AlertSystem}

/-- the event an operation adds to the log -/
def stores (w : AlertSystem) : AlertOp → Option OperationalAlertEvent
  | .finish .saved | .finish .lost | .restart true =>
    w.saving.filter fun e => ∀ row ∈ w.log, row.alertEventId ≠ e.alertEventId
  | _ => none

/-- an operation that stores an event is acknowledged or ends the service; the event is newer than
every older one of its key; and the last event of every key stays among the newest 5,000 -/
def Meets (w : AlertSystem) (op : AlertOp) : Prop :=
  ∀ e ∈ w.stores op,
    op ≠ .finish .lost ∧
    (∀ row ∈ w.log, row.alertKey = e.alertKey → alertOrder e < alertOrder row) ∧
    ∀ row ∈ w.log ++ [e], (AlertLog.of (w.log ++ [e]) row.alertKey).getLast? = some row →
      ((w.log ++ [e]).countP fun x => decide (alertOrder x < alertOrder row)) < 5000

/-- what a state keeps -/
structure Inv (w : AlertSystem) : Prop where
  restorable : w.log.Restorable
  mirrors : w.service.Mirrors w.log
  next : ∀ e, w.saving = some e → w.log.Next e

/-- the events of every key alternate and are numbered without gap, the active alerts are the keys
left open, and a service initialised from the log has the same alerts and the same next numbers -/
structure Lifecycle (required : ℕ) (h : 2 ≤ required ∧ required ≤ 100) (w : AlertSystem) : Prop where
  alternates : ∀ key, Alternates OperationalAlertEvent.lifecycleSequence
    (fun e => e.eventType = .opened) (w.log.of key)
  active : ∀ key, (w.service.activeAlerts.lookup key).isSome = true ↔
    ∃ e, (w.log.of key).getLast? = some e ∧ e.eventType = .opened
  restored : ∀ key,
    ((OperationsService.new required h).initialized w.log).activeAlerts.lookup key =
        w.service.activeAlerts.lookup key ∧
      ((OperationsService.new required h).initialized w.log).sequence key =
        w.service.sequence key

theorem Inv.lifecycle {required : ℕ} {h : 2 ≤ required ∧ required ≤ 100} (hw : w.Inv) :
    Lifecycle required h w := by
  have hinit : ((OperationsService.new required h).initialized w.log).Mirrors w.log :=
    OperationsService.initialized_mirrors hw.restorable
  refine ⟨hw.restorable.alternates, fun key => ?_, fun key => ⟨?_, ?_⟩⟩
  · rw [hw.mirrors.active, AlertLog.openEvent, Option.isSome_iff_exists]
    simp only [Option.filter_eq_some_iff, decide_eq_true_eq]
  · rw [hinit.active, hw.mirrors.active]
  · rw [hinit.sequence, hw.mirrors.sequence]

theorem start_inv (required : ℕ) (h : 2 ≤ required ∧ required ≤ 100) : (start required h).Inv where
  restorable := AlertLog.restorable_nil
  mirrors := ⟨fun _ => rfl, fun _ => rfl⟩
  next _ he := absurd he (by simp [start])

theorem enter_inv (hw : w.Inv) (i : ℕ) (id : String) (now : Time) : (enter i id now w).Inv := by
  unfold enter
  split
  · refine ⟨hw.restorable, hw.mirrors, fun e he => ?_⟩
    dsimp only at he
    split at he
    · rename_i event hprepare
      rw [← Option.some.inj he]
      exact OperationsService.prepare_next hw.mirrors hw.restorable hprepare
    · exact absurd he (by simp)
  · exact hw

theorem stores_saving {e : OperationalAlertEvent} (he : w.saving = some e)
    (hid : ∀ row ∈ w.log, row.alertEventId ≠ e.alertEventId) :
    e ∈ w.saving.filter fun e => ∀ row ∈ w.log, row.alertEventId ≠ e.alertEventId :=
  Option.filter_eq_some_iff.2 ⟨he, decide_eq_true hid⟩

/-- the log after the row of a save, when its operation meets the condition -/
theorem Inv.store (hw : w.Inv) {e : OperationalAlertEvent} (he : w.saving = some e)
    (hid : ∀ row ∈ w.log, row.alertEventId ≠ e.alertEventId) {op : AlertOp} (hm : w.Meets op)
    (hop : op = .finish .saved ∨ op = .restart true) : AlertLog.Restorable (w.log ++ [e]) := by
  have hstores : e ∈ w.stores op := by
    rcases hop with rfl | rfl <;> exact stores_saving he hid
  obtain ⟨-, horder, hwithin⟩ := hm e hstores
  exact hw.restorable.snoc (hw.next e he) hid horder hwithin

theorem finish_inv (hw : w.Inv) {fate : WriteFate} (hm : w.Meets (.finish fate)) :
    (finish fate w).Inv := by
  unfold finish
  cases he : w.saving with
  | none => exact hw
  | some e =>
    have hidle : ∀ log', log' = w.log →
        Inv { w with saving := none, log := log' } := by
      rintro log' rfl
      exact ⟨hw.restorable, hw.mirrors, fun e' he' => absurd he' (by simp)⟩
    rcases hw.restorable.save (hw.next e he) with ⟨hid, hsave⟩ | ⟨-, err, hsave⟩
    · cases fate with
      | saved =>
        simp only [WriteFate.commit, hsave]
        exact ⟨hw.store he hid hm (Or.inl rfl), hw.mirrors.recordAlert (hw.next e he),
          fun e' he' => absurd he' (by simp)⟩
      | refused =>
        simp only [WriteFate.commit]
        exact hidle _ rfl
      | lost =>
        exact absurd rfl (hm e (stores_saving he hid)).1
    · cases fate <;> simp only [WriteFate.commit, hsave] <;> exact hidle _ rfl

theorem restart_inv (required : ℕ) (h : 2 ≤ required ∧ required ≤ 100) (hw : w.Inv)
    {committed : Bool} (hm : w.Meets (.restart committed)) :
    (restart required h committed w).Inv := by
  have hfresh : ∀ log : AlertLog, log.Restorable →
      Inv ⟨(OperationsService.new required h).initialized log, [], none, log⟩ := fun log hlog =>
    ⟨hlog, OperationsService.initialized_mirrors hlog, fun e he => absurd he (by simp)⟩
  unfold restart
  cases committed with
  | false => exact hfresh _ hw.restorable
  | true =>
    cases he : w.saving with
    | none => exact hfresh _ hw.restorable
    | some e =>
      refine hfresh _ ?_
      rcases hw.restorable.save (hw.next e he) with ⟨hid, hsave⟩ | ⟨-, err, hsave⟩
      · simp only [Option.elim, stored, hsave, if_true]
        exact hw.store he hid hm (Or.inr rfl)
      · simp only [Option.elim, stored, hsave, if_true]
        exact hw.restorable

theorem step_inv (number : ℚ → String) (required : ℕ) (h : 2 ≤ required ∧ required ≤ 100)
    (op : AlertOp) (hm : w.Meets op) (hw : w.Inv) : (step number required h w op).Inv := by
  cases op with
  | sync evaluation correlationId => exact ⟨hw.restorable, hw.mirrors, hw.next⟩
  | observe name healthy reason correlationId =>
    exact ⟨hw.restorable, ⟨hw.mirrors.sequence, hw.mirrors.active⟩, hw.next⟩
  | record record => exact ⟨hw.restorable, hw.mirrors, hw.next⟩
  | enter i id now => exact enter_inv hw i id now
  | finish fate => exact finish_inv hw hm
  | restart committed => exact restart_inv required h hw hm

/-- **Alert lifecycle.** In every state of a run whose operations meet the condition, the events of
every key alternate from 1 on without gap or repeat, the active alerts are exactly the keys whose last
event opened them, and a service initialised from the log has the same active alerts and the same
next sequence numbers. -/
theorem alert_lifecycle (number : ℚ → String) (required : ℕ) (h : 2 ≤ required ∧ required ≤ 100)
    (ops : List AlertOp)
    (hm : Along (step number required h) Meets (start required h) ops) :
    Lifecycle required h (run (step number required h) (start required h) ops) :=
  (along_inv (fun _ op hmeets hw => step_inv number required h op hmeets hw)
    (start_inv required h) hm).lifecycle

instance (w : AlertSystem) (op : AlertOp) : Decidable (w.Meets op) :=
  decidable_of_iff ((w.stores op).all fun e => decide (op ≠ .finish .lost ∧
    (∀ row ∈ w.log, row.alertKey = e.alertKey → alertOrder e < alertOrder row) ∧
    ∀ row ∈ w.log ++ [e], (AlertLog.of (w.log ++ [e]) row.alertKey).getLast? = some row →
      ((w.log ++ [e]).countP fun x => decide (alertOrder x < alertOrder row)) < 5000) = true) (by
    rw [Option.all_eq_true]
    simp only [decide_eq_true_eq]
    rfl)

/-- a broker outage of one clock reading -/
def outage (later : Time) : List AlertOp :=
  [.observe .broker false "refused" none,
    .enter 0 "0b8f6c0e-4a53-4a6c-8f2f-6b9d1f0a7c11" 0,
    .finish .saved,
    .observe .broker true "ok" none,
    .enter 0 "9d3b1f52-7c1e-4d0f-9a57-2f4f0f7d8e21" later,
    .finish .saved]

/-- the broker fails and recovers at one clock reading, and the ids put the resolution first: a
service initialised from the log finds the alert active -/
theorem equal_timestamps : ¬ Lifecycle 3 (by decide)
    (run (step (fun _ => "0.5") 3 (by decide)) (start 3 (by decide)) (outage 0)) := by
  intro hlifecycle
  have hdiffers :
      ((OperationsService.new 3 (by decide)).initialized
        (run (step (fun _ => "0.5") 3 (by decide)) (start 3 (by decide)) (outage 0)).log
          ).activeAlerts.lookup "dependency:broker" ≠
      (run (step (fun _ => "0.5") 3 (by decide)) (start 3 (by decide)) (outage 0)
        ).service.activeAlerts.lookup "dependency:broker" := by
    decide +kernel
  exact hdiffers (hlifecycle.restored "dependency:broker").1

/-- the same outage with a later recovery, and a restart -/
theorem alert_lifecycle_sample : Lifecycle 3 (by decide)
    (run (step (fun _ => "0.5") 3 (by decide)) (start 3 (by decide))
      (outage 1 ++ [.restart false])) :=
  alert_lifecycle (fun _ => "0.5") 3 (by decide) _ (by decide +kernel)

end AlertSystem

end CapitalCipher
