/-
The event journal and its outbox, and the transactions of `database/repositories/repository.py`
over them.

  • `saveBusMessage_ok`: the journal takes an event once, and then says whether it was published.
  • `markPublished_ok`, `markFailed_ok`: only the first marks an event published.
  • `mem_listPending`: what is listed is in the journal.
-/
import CapitalCipher.Database.Models
import CapitalCipher.Schemas.Events
import Mathlib.Data.List.Sort
import Mathlib.Data.Prod.Lex
import Mathlib.Data.String.Basic

namespace CapitalCipher

open Lib

/-- `event_journal` -/
def eventJournalSchema : Schema String BusMessage where
  key m := m.messageId
  check _ := true
  clash a b := a.eventId == b.eventId
  guard _ _ := false
  guard_key h := by cases h

/-- a row of `event_outbox` -/
structure OutboxEntry where
  eventId : String
  brokerMessageId : Option String
  publishedAt : Option Time
  publishAttempts : ℕ
  lastErrorType : Option String
  createdAt : Time
  updatedAt : Time
  deriving DecidableEq

/-- `event_outbox` -/
def eventOutboxSchema : Schema String OutboxEntry where
  key r := r.eventId
  check _ := true
  clash _ _ := false
  guard old new := decide (old.eventId = new.eventId)
  guard_key h := by simpa using h

structure EventDb where
  journal : Table eventJournalSchema
  outbox : Table eventOutboxSchema

abbrev EventTx := Tx EventDb Error

/-- what `save_bus_message` found -/
structure JournalWriteResult where
  inserted : Bool
  brokerPublished : Bool
  deriving DecidableEq

namespace EventDb

def empty : EventDb := ⟨.empty _, .empty _⟩

/-- the event has its journal row -/
def Journaled (db : EventDb) (eventId : String) : Prop :=
  ∃ m ∈ db.journal.rows, m.eventId = eventId

/-- the event is marked published -/
def Marked (db : EventDb) (eventId : String) : Prop :=
  ∃ r ∈ db.outbox.rows, r.eventId = eventId ∧ r.publishedAt.isSome = true

instance (db : EventDb) : DecidablePred db.Journaled := fun e => by
  unfold Journaled
  infer_instance

instance (db : EventDb) : DecidablePred db.Marked := fun e => by
  unfold Marked
  infer_instance

def onJournal : (Table eventJournalSchema → Except Violation (Table eventJournalSchema)) →
    EventTx Unit :=
  Tx.write EventDb.journal (fun db t => { db with journal := t }) (integrityError "event_journal")

def onOutbox : (Table eventOutboxSchema → Except Violation (Table eventOutboxSchema)) →
    EventTx Unit :=
  Tx.write EventDb.outbox (fun db t => { db with outbox := t }) (integrityError "event_outbox")

/-- append the event, unless its `event_id` is there -/
def saveBusMessage (message : BusMessage) : EventTx JournalWriteResult := do
  let db ← get
  match db.journal.rows.find? fun m => m.eventId = message.eventId with
  | none =>
    onJournal (·.insert message)
    pure ⟨true, false⟩
  | some _ =>
    pure ⟨false, ((db.outbox.get? message.eventId).bind OutboxEntry.publishedAt).isSome⟩

/-- `INSERT ... ON CONFLICT (event_id) DO UPDATE`, under the foreign key to the journal -/
def upsertOutbox (entry : OutboxEntry) (update : OutboxEntry → OutboxEntry) : EventTx Unit := do
  let db ← get
  Tx.require (db.Journaled entry.eventId) (integrityError "event_outbox" .check)
  match db.outbox.get? entry.eventId with
  | none => onOutbox (·.insert entry)
  | some _ => onOutbox (·.update (fun r => r.eventId = entry.eventId) update)

def markBusMessagePublished (now : Time) (eventId brokerMessageId : String) : EventTx Unit :=
  upsertOutbox ⟨eventId, some brokerMessageId, some now, 1, none, now, now⟩ fun r =>
    { r with
      brokerMessageId := some brokerMessageId, publishedAt := some now,
      publishAttempts := r.publishAttempts + 1, lastErrorType := none, updatedAt := now }

def markBusMessageFailed (now : Time) (eventId errorType : String) : EventTx Unit :=
  upsertOutbox ⟨eventId, none, none, 1, some errorType, now, now⟩ fun r =>
    { r with
      publishAttempts := r.publishAttempts + 1, lastErrorType := some errorType,
      updatedAt := now }

/-- the events that are not marked published, oldest first -/
def listPendingBusMessages (limit : ℕ) (db : EventDb) : List BusMessage :=
  ((db.journal.rows.filter fun m => !decide (db.Marked m.eventId)).insertionSort fun a b =>
    toLex (a.timestamp, a.messageId) ≤ toLex (b.timestamp, b.messageId)).take limit

/-! ## What the transactions did -/

variable {s : EventDb}

theorem saveBusMessage_ok {m : BusMessage} {r : JournalWriteResult × EventDb}
    (h : (saveBusMessage m).run s = .ok r) :
    (∀ e, s.Journaled e → r.2.Journaled e) ∧ r.2.Journaled m.eventId ∧
      r.2.outbox = s.outbox ∧
      ((r.1.inserted = true ∧ ¬ s.Journaled m.eventId) ∨
        (r.1.inserted = false ∧ s.Journaled m.eventId ∧
          (r.1.brokerPublished = true ↔ s.Marked m.eventId))) := by
  simp only [saveBusMessage, Tx.bind_ok, Tx.get_ok] at h
  obtain ⟨_, _, he, h⟩ := h
  cases he
  split at h
  · rename_i hfind
    simp only [Tx.bind_ok, Tx.pure_ok, onJournal] at h
    obtain ⟨_, s₁, h1, he⟩ := h
    obtain ⟨T, hT, he'⟩ := Tx.write_ok.1 h1
    cases he
    cases he'
    have hrows := (Table.insert_ok hT).1
    refine ⟨fun e ⟨x, hx, hxe⟩ => ⟨x, ?_, hxe⟩, ⟨m, ?_, rfl⟩, rfl, .inl ⟨rfl, ?_⟩⟩
    · rw [hrows]
      exact List.mem_append_left _ hx
    · rw [hrows]
      simp
    · rintro ⟨x, hx, hxe⟩
      simpa [hxe] using List.find?_eq_none.1 hfind x hx
  · rename_i x hfind
    cases Tx.pure_ok.1 h
    have hx := List.mem_of_find?_eq_some hfind
    have hxe : x.eventId = m.eventId := by simpa using List.find?_some hfind
    refine ⟨fun _ he => he, ⟨x, hx, hxe⟩, rfl, .inr ⟨rfl, ⟨x, hx, hxe⟩, ?_⟩⟩
    constructor
    · intro hp
      cases hg : s.outbox.get? m.eventId with
      | none => simp [hg] at hp
      | some row =>
        obtain ⟨hmem, hkey⟩ := (s.outbox.get?_eq_some).1 hg
        exact ⟨row, hmem, hkey, by simpa [hg] using hp⟩
    · rintro ⟨row, hmem, hkey, hp⟩
      have hg : s.outbox.get? m.eventId = some row := (s.outbox.get?_eq_some).2 ⟨hmem, hkey⟩
      simpa [hg] using hp

/-- an upsert touches the outbox only -/
theorem upsertOutbox_ok {entry : OutboxEntry} {update : OutboxEntry → OutboxEntry}
    {r : Unit × EventDb} (h : (upsertOutbox entry update).run s = .ok r) :
    r.2.journal = s.journal ∧
      ∀ x ∈ r.2.outbox.rows, x ∈ s.outbox.rows ∨ x = entry ∨
        ∃ y ∈ s.outbox.rows, y.eventId = entry.eventId ∧ x = update y := by
  simp only [upsertOutbox, Tx.bind_ok, Tx.get_ok, Tx.require_ok, onOutbox] at h
  obtain ⟨_, _, he, _, _, ⟨-, he'⟩, h⟩ := h
  cases he
  cases he'
  split at h
  · obtain ⟨T, hT, he⟩ := Tx.write_ok.1 h
    cases he
    refine ⟨rfl, fun x hx => ?_⟩
    rw [(Table.insert_ok hT).1] at hx
    rcases List.mem_append.1 hx with hx | hx
    · exact .inl hx
    · exact .inr (.inl (List.mem_singleton.1 hx))
  · obtain ⟨T, hT, he⟩ := Tx.write_ok.1 h
    cases he
    refine ⟨rfl, fun x hx => ?_⟩
    rw [(Table.update_ok hT).1] at hx
    obtain ⟨y, hy, rfl⟩ := List.mem_map.1 hx
    by_cases hid : y.eventId = entry.eventId
    · rw [if_pos (by simpa using hid)]
      exact .inr (.inr ⟨y, hy, hid, rfl⟩)
    · rw [if_neg (by simpa using hid)]
      exact .inl hy

theorem markPublished_ok {now : Time} {e brokerId : String} {r : Unit × EventDb}
    (h : (markBusMessagePublished now e brokerId).run s = .ok r) :
    r.2.journal = s.journal ∧ ∀ x, r.2.Marked x → s.Marked x ∨ x = e := by
  obtain ⟨hjournal, hrows⟩ := upsertOutbox_ok h
  refine ⟨hjournal, fun x ⟨row, hrow, hid, hp⟩ => ?_⟩
  rcases hrows row hrow with hold | rfl | ⟨y, hy, hye, rfl⟩
  · exact .inl ⟨row, hold, hid, hp⟩
  · exact .inr hid.symm
  · exact .inr (hid.symm.trans hye)

theorem markFailed_ok {now : Time} {e errorType : String} {r : Unit × EventDb}
    (h : (markBusMessageFailed now e errorType).run s = .ok r) :
    r.2.journal = s.journal ∧ ∀ x, r.2.Marked x → s.Marked x := by
  obtain ⟨hjournal, hrows⟩ := upsertOutbox_ok h
  refine ⟨hjournal, fun x ⟨row, hrow, hid, hp⟩ => ?_⟩
  rcases hrows row hrow with hold | rfl | ⟨y, hy, -, rfl⟩
  · exact ⟨row, hold, hid, hp⟩
  · cases hp
  · exact ⟨y, hy, hid, hp⟩

theorem mem_listPending {limit : ℕ} {m : BusMessage}
    (h : m ∈ s.listPendingBusMessages limit) : m ∈ s.journal.rows := by
  have hsorted := List.mem_of_mem_take h
  rw [(List.perm_insertionSort _ _).mem_iff] at hsorted
  exact (List.mem_filter.1 hsorted).1

end EventDb

end CapitalCipher
