/-
Local delivery of journaled events, over every interleaving of publishes, transport and journal
failures, and outbox drains.

The lock keeps a publish alone from its journal write to the moment it remembers its event, so an
event that was not in the journal cannot be remembered twice. What is not kept is the other case: a
publish that finds its event in the journal takes the row for a delivery, or for none, as the outbox
says.

  • `Fenced`: the journal's verdict is right, and no fan-out is disturbed.
  • `published_was_sent`: in every run, only what the transport took is marked published.
  • `delivered_exactly_once`: in every fenced run, handlers see each event exactly once.
  • `Retries.dropped_or_doubled`, `Retries.disturbed_fan_out`: what happens otherwise.
-/
import CapitalCipher.Core.EventBus
import CapitalCipher.Lib.Mutex
import CapitalCipher.Lib.Run

namespace CapitalCipher

open Lib

/-! ## Stages -/

namespace PublishStage

/-- inside the lock -/
def holds : PublishStage → Bool
  | .journal | .transport | .markPublished _ | .markFailed _ _ => true
  | _ => false

/-- inside the lock, past the journal -/
def past : PublishStage → Bool
  | .transport | .markPublished _ | .markFailed _ _ => true
  | _ => false

/-- handing the event around, or done with it -/
def handed : PublishStage → Bool
  | .handler _ | .deadLetter _ _ | .delivered => true
  | _ => false

/-- handing the event around -/
def handing : PublishStage → Option ℕ
  | .handler k | .deadLetter k _ => some k
  | _ => none

/-- returned normally -/
def returned : PublishStage → Bool
  | .duplicate | .delivered => true
  | _ => false

theorem holds_of_past {s : PublishStage} (h : s.past = true) : s.holds = true := by
  cases s with
  | transport => rfl
  | markPublished _ => rfl
  | markFailed _ _ => rfl
  | _ => cases h

theorem not_holds_of_handed {s : PublishStage} (h : s.handed = true) : s.holds = false := by
  cases s with
  | handler _ => rfl
  | deadLetter _ _ => rfl
  | delivered => rfl
  | _ => cases h

/-- how often the handler at that position was called -/
def reached (position : ℕ) : PublishStage → ℕ
  | .handler k | .deadLetter k _ => if position ≤ k then 1 else 0
  | .delivered => 1
  | _ => 0

end PublishStage

def DrainStage.holds : DrainStage → Bool
  | .list | .transport _ _ _ | .markPublished _ _ _ _ | .markFailed _ _ _ _ => true
  | _ => false

namespace BusTask

def holds : BusTask → Prop
  | .publish _ stage => stage.holds = true
  | .drain _ stage => stage.holds = true

/-- a publish of that event, at such a stage -/
def publishes (p : PublishStage → Bool) (eventId : String) : BusTask → Prop
  | .publish m stage => m.eventId = eventId ∧ p stage = true
  | .drain _ _ => False

abbrev past : String → BusTask → Prop := publishes PublishStage.past

abbrev returned : String → BusTask → Prop := publishes PublishStage.returned

abbrev handed : String → BusTask → Prop := publishes PublishStage.handed

/-- about to mark that event published -/
def marking (eventId : String) : BusTask → Prop
  | .publish m (.markPublished _) => m.eventId = eventId
  | .drain _ (.markPublished _ m _ _) => m.eventId = eventId
  | _ => False

instance (p : PublishStage → Bool) (eventId : String) : DecidablePred (publishes p eventId) :=
  fun t => by
    cases t <;> (unfold publishes; infer_instance)

end BusTask

/-! ## What an await can do -/

/-- what a transaction keeps: the journal, and the marks apart from one event's -/
structure EventDb.Kept (P : String → Prop) (s t : EventDb) : Prop where
  journaled : ∀ e, s.Journaled e → t.Journaled e
  marked : ∀ e, t.Marked e → s.Marked e ∨ P e

theorem EventDb.Kept.refl {P : String → Prop} (s : EventDb) : s.Kept P s :=
  ⟨fun _ => id, fun _ => .inl⟩

theorem EventDb.Kept.imp {P Q : String → Prop} {s t : EventDb} (h : s.Kept P t)
    (hPQ : ∀ e, P e → Q e) : s.Kept Q t :=
  ⟨h.journaled, fun e he => (h.marked e he).imp id (hPQ e)⟩

namespace DbReply

variable {α : Type} {x : EventTx α} {db : EventDb}

theorem run_ok {reply : DbReply} {pre : String} {a : α} {db' : EventDb}
    (h : reply.run pre x db = (.ok a, db')) : reply = .answered ∧ x.run db = .ok (a, db') := by
  cases reply with
  | answered => exact ⟨rfl, Tx.wrap_ok.1 (Tx.commit_ok.1 h)⟩
  | refused text => cases h
  | lost text => cases h

theorem run_kept {P : String → Prop} (hx : ∀ r, x.run db = .ok r → db.Kept P r.2)
    (reply : DbReply) (pre : String) : db.Kept P (reply.run pre x db).2 := by
  cases reply with
  | refused text => exact .refl db
  | answered =>
    unfold run Tx.commit
    cases h : (Tx.wrap (fun e => (⟨.database, pre ++ e.message⟩ : Error)) x).run db with
    | error e => exact .refl db
    | ok r => exact hx r (Tx.wrap_ok.1 h)
  | lost text =>
    unfold run Tx.commit
    cases h : x.run db with
    | error e => exact .refl db
    | ok r => exact hx r h

end DbReply

namespace BusWorld

open EventDb

variable {cfg : EventBusConfig} {w : BusWorld} {m : BusMessage}

theorem saveBusMessage_kept {P : String → Prop} {r : JournalWriteResult × EventDb}
    (h : (saveBusMessage m).run w.db = .ok r) : w.db.Kept P r.2 := by
  obtain ⟨hjournal, -, houtbox, -⟩ := saveBusMessage_ok h
  refine ⟨hjournal, fun e he => .inl ?_⟩
  unfold Marked at he ⊢
  rwa [houtbox] at he

theorem markPublished_kept (now : Time) (e brokerId : String) {r : Unit × EventDb}
    (h : (markBusMessagePublished now e brokerId).run w.db = .ok r) :
    w.db.Kept (· = e) r.2 := by
  obtain ⟨hjournal, hmarked⟩ := markPublished_ok h
  refine ⟨fun x hx => ?_, hmarked⟩
  unfold Journaled
  rwa [hjournal]

theorem markFailed_kept {P : String → Prop} (now : Time) (e errorType : String)
    {r : Unit × EventDb} (h : (markBusMessageFailed now e errorType).run w.db = .ok r) :
    w.db.Kept P r.2 := by
  obtain ⟨hjournal, hmarked⟩ := markFailed_ok h
  refine ⟨fun x hx => ?_, fun x hx => .inl (hmarked x hx)⟩
  unfold Journaled
  rwa [hjournal]

theorem handOn_fst (w : BusWorld) (m : BusMessage) (k : ℕ) : (w.handOn m k).1 =
    { w with
      invoked := w.invoked ++ ((w.handlers m.topic)[k]?.map fun x => (x, m.eventId)).toList } := by
  unfold handOn
  cases (w.handlers m.topic)[k]? with
  | none => simp
  | some x => simp

theorem handOn_handed (w : BusWorld) (m : BusMessage) (k : ℕ) :
    (w.handOn m k).2.handed = true := by
  unfold handOn
  cases (w.handlers m.topic)[k]? <;> rfl

theorem deadLetterOn_fst (w : BusWorld) (m : BusMessage) (k d : ℕ) :
    ∃ calls, (w.deadLetterOn m k d).1 = { w with invoked := w.invoked ++ calls } := by
  unfold deadLetterOn
  cases (w.handlers Topics.deadLetter)[d]? with
  | none => exact ⟨_, handOn_fst w m (k + 1)⟩
  | some x => exact ⟨_, rfl⟩

theorem deadLetterOn_handed (w : BusWorld) (m : BusMessage) (k d : ℕ) :
    (w.deadLetterOn m k d).2.handed = true := by
  unfold deadLetterOn
  cases (w.handlers Topics.deadLetter)[d]? with
  | none => exact handOn_handed w m (k + 1)
  | some x => rfl

/-- a publish that finds its event in the journal is ignored -/
def Ignored (cfg : EventBusConfig) (db : EventDb) (eventId : String) : Prop :=
  cfg.transport = false ∨ db.Marked eventId

instance (cfg : EventBusConfig) (db : EventDb) : DecidablePred (Ignored cfg db) := fun e => by
  unfold Ignored
  infer_instance

theorem isDuplicate_iff (cfg : EventBusConfig) {r : JournalWriteResult} {db : EventDb}
    (h : (saveBusMessage m).run w.db = .ok (r, db)) :
    isDuplicate cfg r = true ↔ w.db.Journaled m.eventId ∧ Ignored cfg w.db m.eventId := by
  obtain ⟨-, -, -, ⟨hins, hnot⟩ | ⟨hins, hfound, hmarked⟩⟩ := saveBusMessage_ok h
  · replace hins : r.inserted = true := hins
    simp [isDuplicate, hins, hnot]
  · replace hins : r.inserted = false := hins
    replace hmarked : r.brokerPublished = true ↔ w.db.Marked m.eventId := hmarked
    simp [isDuplicate, hins, hfound, hmarked, Ignored]

/-- one await of a publish -/
inductive Published (cfg : EventBusConfig) (env : BusEnv) (w : BusWorld) (i : ℕ)
    (m : BusMessage) : PublishStage → BusWorld × PublishStage → Prop
  | stay {stage : PublishStage} (outside : stage.holds = false) :
      Published cfg env w i m stage (w, stage)
  | enter (head : w.lock.head? = some i) : Published cfg env w i m .waiting (w, .journal)
  | fail {stage : PublishStage} {db : EventDb} (error : Error) (inside : stage.holds = true)
      (kept : w.db.Kept (fun _ => False) db) :
      Published cfg env w i m stage ({ w with db := db }.release, .raised error)
  | duplicate {db : EventDb} (answered : env.reply = .answered)
      (kept : w.db.Kept (fun _ => False) db) (found : w.db.Journaled m.eventId)
      (ignored : Ignored cfg w.db m.eventId) :
      Published cfg env w i m .journal
        (({ w with db := db }.release).remember cfg m.eventId, .duplicate)
  | journaled {db : EventDb} (answered : env.reply = .answered)
      (kept : w.db.Kept (fun _ => False) db) (stored : db.Journaled m.eventId)
      (new : w.db.Journaled m.eventId → ¬ Ignored cfg w.db m.eventId) :
      Published cfg env w i m .journal ({ w with db := db }, .transport)
  | journaledOnly {db : EventDb} (answered : env.reply = .answered)
      (kept : w.db.Kept (fun _ => False) db) (stored : db.Journaled m.eventId)
      (new : w.db.Journaled m.eventId → ¬ Ignored cfg w.db m.eventId) :
      Published cfg env w i m .journal ({ w with db := db }.deliver cfg m)
  | sent (brokerId : String) :
      Published cfg env w i m .transport
        ({ w with sent := w.sent ++ [m.eventId] }, .markPublished brokerId)
  | unsent (errorType : String) (error : Error) :
      Published cfg env w i m .transport (w, .markFailed errorType error)
  | unmarked {db : EventDb} (brokerId : String) (error : Error)
      (kept : w.db.Kept (· = m.eventId) db) :
      Published cfg env w i m (.markPublished brokerId)
        ({ w with db := db }, .markFailed "DatabaseError" error)
  | marked {db : EventDb} (brokerId : String) (kept : w.db.Kept (· = m.eventId) db) :
      Published cfg env w i m (.markPublished brokerId) ({ w with db := db }.deliver cfg m)
  | unpublished {db : EventDb} (errorType : String) (error : Error)
      (kept : w.db.Kept (fun _ => False) db) :
      Published cfg env w i m (.markFailed errorType error) ({ w with db := db }.deliver cfg m)
  | next (k : ℕ) : Published cfg env w i m (.handler k) (w.handOn m (k + 1))
  | raised (k : ℕ) (raised : env.raised = true) :
      Published cfg env w i m (.handler k) (w.deadLetterOn m k 0)
  | deadLetter (k d : ℕ) :
      Published cfg env w i m (.deadLetter k d) (w.deadLetterOn m k (d + 1))

theorem publishNext_published (cfg : EventBusConfig) (env : BusEnv) (w : BusWorld) (i : ℕ)
    (m : BusMessage) (stage : PublishStage) :
    Published cfg env w i m stage (w.publishNext cfg env i m stage) := by
  cases stage with
  | waiting =>
    simp only [publishNext]
    split_ifs with hhead
    · exact .enter hhead
    · exact .stay rfl
  | journal =>
    have hkept : w.db.Kept (fun _ => False)
        (env.reply.run "Failed to journal bus message: " (saveBusMessage m) w.db).2 :=
      DbReply.run_kept (fun r => saveBusMessage_kept) _ _
    simp only [publishNext]
    cases h : env.reply.run "Failed to journal bus message: " (saveBusMessage m) w.db with
    | mk result db =>
      rw [h] at hkept
      cases result with
      | error e => exact .fail e rfl hkept
      | ok r =>
        obtain ⟨hanswered, hrun⟩ := DbReply.run_ok h
        have hstored := (saveBusMessage_ok hrun).2.1
        have hverdict := isDuplicate_iff cfg hrun
        simp only [BusWorld.journaled]
        split_ifs with hd ht
        · exact .duplicate hanswered hkept (hverdict.1 hd).1 (hverdict.1 hd).2
        · exact .journaled hanswered hkept hstored fun hf hi => hd (hverdict.2 ⟨hf, hi⟩)
        · exact .journaledOnly hanswered hkept hstored fun hf hi => hd (hverdict.2 ⟨hf, hi⟩)
  | transport =>
    simp only [publishNext]
    cases env.broker with
    | ok brokerId => exact .sent brokerId
    | error e => exact .unsent e.1 e.2
  | markPublished brokerId =>
    have hkept := DbReply.run_kept (fun r => markPublished_kept (w := w)
      env.now m.eventId brokerId) env.reply "Failed to mark bus message published: "
    simp only [publishNext]
    cases h : env.reply.run "Failed to mark bus message published: "
        (markBusMessagePublished env.now m.eventId brokerId) w.db with
    | mk result db =>
      rw [h] at hkept
      cases result with
      | error e => exact .unmarked brokerId e hkept
      | ok _ => exact .marked brokerId hkept
  | markFailed errorType error =>
    have hkept := DbReply.run_kept (fun r => markFailed_kept (w := w)
      (P := fun _ => False) env.now m.eventId errorType) env.reply
      "Failed to mark bus message failed: "
    simp only [publishNext, BusWorld.unpublished]
    split_ifs
    · exact .fail error rfl hkept
    · exact .unpublished errorType error hkept
  | handler k =>
    simp only [publishNext]
    split_ifs with hraised
    · exact .raised k hraised
    · exact .next k
  | deadLetter k d => exact .deadLetter k d
  | duplicate => exact .stay rfl
  | delivered => exact .stay rfl
  | raised error => exact .stay rfl

/-- one await of a drain: it hands nothing around, and keeps to the lock -/
structure Drained (w : BusWorld) (i : ℕ) (stage : DrainStage) (r : BusWorld × DrainStage) :
    Prop where
  same : r.1 = { w with db := r.1.db, lock := r.1.lock, sent := r.1.sent }
  lock : (r.1.lock = w.lock ∧
      (r.2.holds = true → stage.holds = true ∨ w.lock.head? = some i)) ∨
    (r.1.lock = w.lock.tail ∧ stage.holds = true ∧ r.2.holds = false)
  kept : w.db.Kept (fun e => ∀ b, (BusTask.drain b stage).marking e) r.1.db
  sent : ∀ e ∈ w.sent, e ∈ r.1.sent
  marking : ∀ e b, (BusTask.drain b r.2).marking e → e ∈ r.1.sent

theorem drainOn_drained {i : ℕ} {stage : DrainStage} (hs : stage.holds = true) {db : EventDb}
    (hkept : w.db.Kept (fun e => ∀ b, (BusTask.drain b stage).marking e) db)
    (result : OutboxDrainResult) (rest : List BusMessage) :
    Drained w i stage ({ w with db := db }.drainOn result rest) := by
  cases rest with
  | nil => exact ⟨rfl, .inr ⟨rfl, hs, rfl⟩, hkept, fun _ he => he, fun _ _ => False.elim⟩
  | cons message rest =>
    exact ⟨rfl, .inl ⟨rfl, fun _ => .inl hs⟩, hkept, fun _ he => he, fun _ _ => False.elim⟩

theorem drainNext_drained (env : BusEnv) (w : BusWorld) (i batchSize : ℕ) (stage : DrainStage) :
    Drained w i stage (w.drainNext env i batchSize stage) := by
  have hstay : ∀ s : DrainStage, (∀ e b, ¬ (BusTask.drain b s).marking e) →
      Drained w i s (w, s) := fun s hs =>
    ⟨rfl, .inl ⟨rfl, .inl⟩, .refl _, fun _ he => he, fun e b h => absurd h (hs e b)⟩
  cases stage with
  | waiting =>
    simp only [drainNext]
    split_ifs with hhead
    · exact ⟨rfl, .inl ⟨rfl, fun _ => .inr hhead⟩, .refl _, fun _ he => he,
        fun _ _ => False.elim⟩
    · exact hstay .waiting fun _ _ => id
  | list =>
    simp only [drainNext, listed]
    cases env.reply with
    | answered => exact drainOn_drained rfl (.refl _) _ _
    | refused text =>
      exact ⟨rfl, .inr ⟨rfl, rfl, rfl⟩, .refl _, fun _ he => he, fun _ _ => False.elim⟩
    | lost text =>
      exact ⟨rfl, .inr ⟨rfl, rfl, rfl⟩, .refl _, fun _ he => he, fun _ _ => False.elim⟩
  | transport message rest result =>
    simp only [drainNext]
    cases env.broker with
    | ok brokerId =>
      refine ⟨rfl, .inl ⟨rfl, fun _ => .inl rfl⟩, .refl _, fun e he => ?_, fun e b he => ?_⟩
      · exact List.mem_append_left _ he
      · exact List.mem_append_right _ (List.mem_singleton.2 he.symm)
    | error e =>
      exact ⟨rfl, .inl ⟨rfl, fun _ => .inl rfl⟩, .refl _, fun _ he => he, fun _ _ => False.elim⟩
  | markPublished brokerId message rest result =>
    have hkept : w.db.Kept (fun e => ∀ b,
        (BusTask.drain b (.markPublished brokerId message rest result)).marking e)
        (env.reply.run "Failed to mark bus message published: "
          (markBusMessagePublished env.now message.eventId brokerId) w.db).2 := by
      refine DbReply.run_kept (fun r hr => ?_) _ _
      obtain ⟨hjournaled, hmarked⟩ := markPublished_kept (w := w) _ _ _ hr
      exact ⟨hjournaled, fun e he => (hmarked e he).imp id fun h _ => h.symm⟩
    simp only [drainNext]
    cases h : env.reply.run "Failed to mark bus message published: "
        (markBusMessagePublished env.now message.eventId brokerId) w.db with
    | mk answer db =>
      rw [h] at hkept
      cases answer with
      | error e =>
        exact ⟨rfl, .inl ⟨rfl, fun _ => .inl rfl⟩, hkept, fun _ he => he, fun _ _ => False.elim⟩
      | ok _ => exact drainOn_drained rfl hkept _ _
  | markFailed errorType message rest result =>
    have hkept : w.db.Kept (fun e => ∀ b,
        (BusTask.drain b (.markFailed errorType message rest result)).marking e)
        (env.reply.run "Failed to mark bus message failed: "
          (markBusMessageFailed env.now message.eventId errorType) w.db).2 :=
      DbReply.run_kept (fun r hr => markFailed_kept (w := w) _ _ _ hr) _ _
    simp only [drainNext]
    cases h : env.reply.run "Failed to mark bus message failed: "
        (markBusMessageFailed env.now message.eventId errorType) w.db with
    | mk answer db =>
      rw [h] at hkept
      cases answer with
      | error e =>
        exact ⟨rfl, .inr ⟨rfl, rfl, rfl⟩, hkept, fun _ he => he, fun _ _ => False.elim⟩
      | ok _ => exact drainOn_drained rfl hkept _ _
  | drained result => exact hstay (.drained result) fun _ _ => id
  | raised error => exact hstay (.raised error) fun _ _ => id

/-- what any await keeps: other tasks, subscriptions, the journal, and only marks for what was sent -/
structure Awaited (w : BusWorld) (t : BusTask) (r : BusWorld × BusTask) : Prop where
  tasks : r.1.tasks = w.tasks
  subscribers : r.1.subscribers = w.subscribers
  journaled : ∀ e, w.db.Journaled e → r.1.db.Journaled e
  marked : ∀ e, r.1.db.Marked e → w.db.Marked e ∨ t.marking e
  sent : ∀ e ∈ w.sent, e ∈ r.1.sent
  marking : ∀ e, r.2.marking e → e ∈ r.1.sent

theorem deliver_fst (cfg : EventBusConfig) (w : BusWorld) (m : BusMessage) :
    ∃ calls, (w.deliver cfg m).1 =
      { w.release.remember cfg m.eventId with invoked := w.invoked ++ calls } := by
  exact ⟨_, handOn_fst _ m 0⟩

theorem deliver_handed (cfg : EventBusConfig) (w : BusWorld) (m : BusMessage) :
    (w.deliver cfg m).2.handed = true := handOn_handed _ m 0

/-- no mark is made but at its stage -/
theorem not_marking {s : PublishStage} (hs : ∀ id, s ≠ .markPublished id) :
    ∀ e, ¬ (BusTask.publish m s).marking e := by
  cases s with
  | markPublished brokerId => exact absurd rfl (hs brokerId)
  | _ => exact fun _ => id

theorem not_marking_of_handed {s : PublishStage} (hs : s.handed = true) :
    ∀ e, ¬ (BusTask.publish m s).marking e :=
  not_marking fun id he => by rw [he] at hs; cases hs

theorem not_marking_of_outside {s : PublishStage} (hs : s.holds = false) :
    ∀ e, ¬ (BusTask.publish m s).marking e :=
  not_marking fun id he => by rw [he] at hs; cases hs

/-- an await that sends nothing -/
theorem Awaited.unsent {t : BusTask} {r : BusWorld × BusTask} (htasks : r.1.tasks = w.tasks)
    (hsubscribers : r.1.subscribers = w.subscribers) (hkept : w.db.Kept t.marking r.1.db)
    (hsent : r.1.sent = w.sent) (hmarking : ∀ e, ¬ r.2.marking e) : Awaited w t r :=
  ⟨htasks, hsubscribers, hkept.journaled, hkept.marked, fun _ he => hsent ▸ he,
    fun e he => absurd he (hmarking e)⟩

theorem Awaited.deliver {t : BusTask} {db : EventDb} (hkept : w.db.Kept t.marking db) :
    Awaited w t (({ w with db := db }.deliver cfg m).1,
      .publish m ({ w with db := db }.deliver cfg m).2) := by
  obtain ⟨calls, hcalls⟩ := deliver_fst cfg { w with db := db } m
  rw [hcalls]
  exact .unsent rfl rfl hkept rfl (not_marking_of_handed (deliver_handed cfg _ m))

theorem Published.awaited {env : BusEnv} {i : ℕ} {s : PublishStage}
    {r : BusWorld × PublishStage} (h : Published cfg env w i m s r) :
    Awaited w (.publish m s) (r.1, .publish m r.2) := by
  cases h with
  | stay houtside => exact .unsent rfl rfl (.refl _) rfl (not_marking_of_outside houtside)
  | enter hhead => exact .unsent rfl rfl (.refl _) rfl fun _ => id
  | fail error hinside hkept =>
    exact .unsent rfl rfl (hkept.imp fun _ => False.elim) rfl fun _ => id
  | duplicate _ hkept _ _ => exact .unsent rfl rfl (hkept.imp fun _ => False.elim) rfl fun _ => id
  | journaled _ hkept _ _ => exact .unsent rfl rfl (hkept.imp fun _ => False.elim) rfl fun _ => id
  | journaledOnly _ hkept _ _ => exact .deliver (hkept.imp fun _ => False.elim)
  | sent brokerId =>
    exact ⟨rfl, rfl, fun _ => id, fun _ => .inl, fun e he => List.mem_append_left _ he,
      fun e he => List.mem_append_right _ (List.mem_singleton.2 he.symm)⟩
  | unsent errorType error => exact .unsent rfl rfl (.refl _) rfl fun _ => id
  | unmarked brokerId error hkept =>
    exact .unsent rfl rfl (hkept.imp fun _ he => he.symm) rfl fun _ => id
  | marked brokerId hkept => exact .deliver (hkept.imp fun _ he => he.symm)
  | unpublished errorType error hkept => exact .deliver (hkept.imp fun _ => False.elim)
  | next k =>
    rw [handOn_fst]
    exact .unsent rfl rfl (.refl _) rfl (not_marking_of_handed (handOn_handed w m _))
  | raised k _ =>
    obtain ⟨calls, hcalls⟩ := deadLetterOn_fst w m k 0
    rw [hcalls]
    exact .unsent rfl rfl (.refl _) rfl (not_marking_of_handed (deadLetterOn_handed w m k 0))
  | deadLetter k d =>
    obtain ⟨calls, hcalls⟩ := deadLetterOn_fst w m k (d + 1)
    rw [hcalls]
    exact .unsent rfl rfl (.refl _) rfl
      (not_marking_of_handed (deadLetterOn_handed w m k (d + 1)))

theorem advance_awaited (cfg : EventBusConfig) (env : BusEnv) (w : BusWorld) (i : ℕ)
    (t : BusTask) : Awaited w t (w.advance cfg env i t) := by
  cases t with
  | publish m stage => exact (publishNext_published cfg env w i m stage).awaited
  | drain batchSize stage =>
    have h := drainNext_drained env w i batchSize stage
    simp only [advance]
    have hsame := h.same
    refine ⟨?_, ?_, h.kept.journaled, fun e he => ?_, h.sent, fun e he => h.marking e _ he⟩
    · rw [hsame]
    · rw [hsame]
    · exact (h.kept.marked e he).imp id fun hm => hm batchSize

/-! ## What the transport took -/

/-- only events the transport took are marked published, or about to be -/
structure Sent (w : BusWorld) : Prop where
  marked : ∀ e, w.db.Marked e → e ∈ w.sent
  marking : ∀ t ∈ w.tasks, ∀ e, t.marking e → e ∈ w.sent

theorem Sent.started {w w' : BusWorld} (h : Sent w) (hdb : w'.db = w.db) (hsent : w'.sent = w.sent)
    {t : BusTask} (htasks : w'.tasks = w.tasks ++ [t]) (ht : ∀ e, ¬ t.marking e) : Sent w' := by
  refine ⟨fun e he => ?_, fun u hu e he => ?_⟩
  · rw [hsent]
    exact h.marked e (hdb ▸ he)
  · rw [hsent]
    rw [htasks] at hu
    rcases List.mem_append.1 hu with hu | hu
    · exact h.marking u hu e he
    · rw [List.mem_singleton.1 hu] at he
      exact absurd he (ht e)

theorem Sent.step {w : BusWorld} (h : Sent w) (cfg : EventBusConfig) (op : BusOp) :
    Sent (w.step cfg op) := by
  cases op with
  | publish m =>
    simp only [BusWorld.step, startPublish]
    cases admission m with
    | error e => exact h.started rfl rfl rfl fun _ => id
    | ok _ =>
      simp only []
      split_ifs
      · exact h.started rfl rfl rfl fun _ => id
      · exact h.started rfl rfl rfl fun _ => id
      · exact h.started rfl rfl rfl fun _ => id
  | drain batchSize =>
    simp only [BusWorld.step, startDrain]
    split_ifs
    · exact h.started rfl rfl rfl fun _ => id
    · exact h.started rfl rfl rfl fun _ => id
    · exact h
  | subscribe topic handler =>
    simp only [BusWorld.step, subscribe]
    split_ifs
    · exact h
    · exact ⟨h.marked, h.marking⟩
  | unsubscribe topic handler =>
    simp only [BusWorld.step, unsubscribe]
    split_ifs
    · exact ⟨h.marked, h.marking⟩
    · exact h
  | advance i env =>
    cases ht : w.tasks[i]? with
    | none => simpa only [BusWorld.step, ht] using h
    | some t =>
      have haw := advance_awaited cfg env w i t
      have hmem := List.mem_of_getElem? ht
      simp only [BusWorld.step, ht]
      refine ⟨fun e he => ?_, fun u hu e he => ?_⟩
      · rcases haw.marked e he with hold | hmarking
        · exact haw.sent e (h.marked e hold)
        · exact haw.sent e (h.marking t hmem e hmarking)
      · rcases List.mem_or_eq_of_mem_set hu with hu | rfl
        · exact haw.sent e (h.marking u (haw.tasks ▸ hu) e he)
        · exact haw.marking e he

/-- **Published events were sent.** In every run, whatever fails. -/
theorem published_was_sent (cfg : EventBusConfig) (ops : List BusOp) :
    Sent (run (step cfg) init ops) := by
  refine run_inv (P := Sent) (fun w op h => h.step cfg op) ?_ ops
  refine ⟨fun e he => ?_, fun t ht => ?_⟩
  · obtain ⟨r, hr, -⟩ := he
    cases hr
  · cases ht

/-! ## Remembering -/

/-- the journal's verdict on an event it has: ignored exactly if an earlier publish remembered it -/
def Verdict (cfg : EventBusConfig) (w : BusWorld) (eventId : String) : Prop :=
  w.db.Journaled eventId → (Ignored cfg w.db eventId ↔ eventId ∈ w.remembered)

instance (cfg : EventBusConfig) (w : BusWorld) : DecidablePred (Verdict cfg w) := fun e => by
  unfold Verdict
  infer_instance

/-- the next handler of the dead-letter topic is no handler of the message's own topic -/
def Apart (w : BusWorld) (m : BusMessage) (d : ℕ) : Prop :=
  ∀ x, (w.handlers Topics.deadLetter)[d]? = some x → x ∉ w.handlers m.topic

instance (w : BusWorld) (m : BusMessage) (d : ℕ) : Decidable (w.Apart m d) :=
  match h : (w.handlers Topics.deadLetter)[d]? with
  | none => .isTrue fun x hx => by rw [h] at hx; cases hx
  | some y =>
    decidable_of_iff (y ∉ w.handlers m.topic)
      ⟨fun hy x hx => by rw [h] at hx; cases hx; exact hy, fun hy => hy y h⟩

/-- removing that handler skips no handler of a fan-out that is at its `k`-th -/
def Undisturbed (handlers : List ℕ) (x k : ℕ) : Prop :=
  handlers.idxOf x ≤ k → handlers.length ≤ k + 1

instance (handlers : List ℕ) (x k : ℕ) : Decidable (Undisturbed handlers x k) := by
  unfold Undisturbed
  infer_instance

/-- no fan-out of that topic is disturbed by the removal -/
def Removable (w : BusWorld) (topic : String) (x : ℕ) : BusTask → Prop
  | .publish m stage => m.topic = topic → ∀ k ∈ stage.handing, Undisturbed (w.handlers topic) x k
  | .drain _ _ => True

instance (w : BusWorld) (topic : String) (x : ℕ) : DecidablePred (w.Removable topic x) := fun t => by
  cases t <;> (unfold Removable; infer_instance)

/-- the journal's verdict is right, and no fan-out is disturbed -/
def Fenced (cfg : EventBusConfig) (w : BusWorld) : BusOp → Prop
  | .advance i env =>
    match w.tasks[i]? with
    | some (.publish m .journal) => env.reply = .answered → Verdict cfg w m.eventId
    | some (.publish m (.handler _)) => env.raised = true → w.Apart m 0
    | some (.publish m (.deadLetter _ d)) => w.Apart m (d + 1)
    | _ => True
  | .unsubscribe topic x => x ∈ w.handlers topic → ∀ t ∈ w.tasks, w.Removable topic x t
  | _ => True

instance (cfg : EventBusConfig) (w : BusWorld) : DecidablePred (Fenced cfg w) := fun op => by
  unfold Fenced
  split
  · split <;> infer_instance
  · infer_instance
  · infer_instance

/-- what the lock and the journal keep, when the journal's verdicts are right: each remembered event
is handed around by exactly one publish -/
structure Sound (w : BusWorld) : Prop where
  exclusive : Exclusive BusTask.holds w.lock w.tasks
  processed : ∀ e ∈ w.processed, e ∈ w.remembered
  journaled : ∀ e ∈ w.remembered, w.db.Journaled e
  past : ∀ t ∈ w.tasks, ∀ e, t.past e → e ∉ w.remembered ∧ w.db.Journaled e
  returned : ∀ t ∈ w.tasks, ∀ e, t.returned e → e ∈ w.remembered
  known : ∀ t ∈ w.tasks, ∀ e, t.handed e → e ∈ w.remembered
  handed : ∀ e ∈ w.remembered, ∃ t ∈ w.tasks, t.handed e
  once : ∀ (i j : ℕ) (t u : BusTask), w.tasks[i]? = some t → w.tasks[j]? = some u → ∀ e,
    t.handed e → u.handed e → i = j

theorem Sound.empty : Sound init := by
  have hget : ∀ (i : ℕ) (t : BusTask), init.tasks[i]? ≠ some t := by
    intro i t h
    cases List.mem_of_getElem? h
  refine ⟨fun i t ht => absurd ht (hget i t), ?_, ?_, ?_, ?_, ?_, ?_,
    fun i j t u ht => absurd ht (hget i t)⟩
  · exact fun e he => absurd he List.not_mem_nil
  · exact fun e he => absurd he List.not_mem_nil
  · exact fun t ht => absurd ht List.not_mem_nil
  · exact fun t ht => absurd ht List.not_mem_nil
  · exact fun t ht => absurd ht List.not_mem_nil
  · exact fun e he => absurd he List.not_mem_nil

/-- a new task that has not come past the lock -/
theorem Sound.started {w w' : BusWorld} (h : Sound w) (hdb : w'.db = w.db)
    (hprocessed : w'.processed = w.processed) (hremembered : w'.remembered = w.remembered)
    {t : BusTask} (htasks : w'.tasks = w.tasks ++ [t])
    (hlock : Exclusive BusTask.holds w'.lock w'.tasks) (hpast : ∀ e, ¬ t.past e)
    (hhanded : ∀ e, ¬ t.handed e)
    (hreturned : ∀ e, t.returned e → e ∈ w.remembered) : Sound w' := by
  have hmem : ∀ u ∈ w'.tasks, u ∈ w.tasks ∨ u = t := by
    intro u hu
    rw [htasks] at hu
    exact (List.mem_append.1 hu).imp id List.mem_singleton.1
  have hget : ∀ (i : ℕ) (u : BusTask) e, w'.tasks[i]? = some u → u.handed e → w.tasks[i]? = some u := by
    intro i u e hu he
    rw [htasks] at hu
    rcases lt_or_ge i w.tasks.length with hi | hi
    · rwa [List.getElem?_append_left hi] at hu
    · rw [List.getElem?_append_right hi] at hu
      rw [List.mem_singleton.1 (List.mem_of_getElem? hu)] at he
      exact absurd he (hhanded e)
  refine ⟨hlock, ?_, ?_, fun u hu e he => ?_, fun u hu e he => ?_, fun u hu e he => ?_,
    fun e he => ?_, fun i j u v hu hv e heu hev => ?_⟩
  · rw [hprocessed, hremembered]
    exact h.processed
  · rw [hremembered, hdb]
    exact h.journaled
  · rw [hremembered, hdb]
    rcases hmem u hu with hu | rfl
    · exact h.past u hu e he
    · exact absurd he (hpast e)
  · rw [hremembered]
    rcases hmem u hu with hu | rfl
    · exact h.returned u hu e he
    · exact hreturned e he
  · rw [hremembered]
    rcases hmem u hu with hu | rfl
    · exact h.known u hu e he
    · exact absurd he (hhanded e)
  · rw [hremembered] at he
    obtain ⟨u, hu, hue⟩ := h.handed e he
    refine ⟨u, ?_, hue⟩
    rw [htasks]
    exact List.mem_append_left _ hu
  · exact h.once i j u v (hget i u e hu heu) (hget j v e hv hev) e heu hev

/-- a task that goes on and remembers nothing new -/
theorem Sound.moved {w w' : BusWorld} (h : Sound w) {i : ℕ} {t n : BusTask}
    (ht : w.tasks[i]? = some t) (htasks : w'.tasks = w.tasks.set i n)
    (hlock : Exclusive BusTask.holds w'.lock w'.tasks)
    (hremembered : ∀ e, e ∈ w'.remembered ↔ e ∈ w.remembered)
    (hprocessed : ∀ e ∈ w'.processed, e ∈ w.remembered)
    (hjournaled : ∀ e, w.db.Journaled e → w'.db.Journaled e)
    (hpast : ∀ e, n.past e → e ∉ w.remembered ∧ w'.db.Journaled e)
    (hreturned : ∀ e, n.returned e → e ∈ w.remembered)
    (hhanded : ∀ e, n.handed e ↔ t.handed e) : Sound w' := by
  have hmem : ∀ u ∈ w'.tasks, u ∈ w.tasks ∨ u = n := by
    intro u hu
    rw [htasks] at hu
    exact List.mem_or_eq_of_mem_set hu
  have htmem := List.mem_of_getElem? ht
  have hget : ∀ (j : ℕ) (u : BusTask) e, w'.tasks[j]? = some u → u.handed e →
      ∃ v : BusTask, w.tasks[j]? = some v ∧ v.handed e := by
    intro j u e hu he
    rw [htasks, List.getElem?_set] at hu
    split_ifs at hu with hij hlen
    · cases hu
      exact ⟨t, hij ▸ ht, (hhanded e).1 he⟩
    · exact ⟨u, hu, he⟩
  refine ⟨hlock, fun e he => (hremembered e).2 (hprocessed e he), fun e he => ?_,
    fun u hu e he => ?_, fun u hu e he => ?_, fun u hu e he => ?_, fun e he => ?_,
    fun j k u v hu hv e heu hev => ?_⟩
  · exact hjournaled e (h.journaled e ((hremembered e).1 he))
  · rw [hremembered]
    rcases hmem u hu with hu | rfl
    · exact ⟨(h.past u hu e he).1, hjournaled e (h.past u hu e he).2⟩
    · exact hpast e he
  · rw [hremembered]
    rcases hmem u hu with hu | rfl
    · exact h.returned u hu e he
    · exact hreturned e he
  · rw [hremembered]
    rcases hmem u hu with hu | rfl
    · exact h.known u hu e he
    · exact h.known t htmem e ((hhanded e).1 he)
  · obtain ⟨u, hu, hue⟩ := h.handed e ((hremembered e).1 he)
    obtain ⟨j, hj⟩ := List.mem_iff_getElem?.1 hu
    rw [htasks]
    by_cases hij : i = j
    · subst hij
      rw [ht] at hj
      cases hj
      exact ⟨n, List.mem_set (List.getElem?_eq_some_iff.1 ht).1 _, (hhanded e).2 hue⟩
    · refine ⟨u, List.mem_of_getElem? (i := j) ?_, hue⟩
      rw [List.getElem?_set_ne hij]
      exact hj
  · obtain ⟨u', hu', heu'⟩ := hget j u e hu heu
    obtain ⟨v', hv', hev'⟩ := hget k v e hv hev
    exact h.once j k u' v' hu' hv' e heu' hev'

/-- a publish alone in the lock remembers its event, for the first time, and hands it around -/
theorem Sound.delivered {w w' : BusWorld} (h : Sound w) {i : ℕ} {m : BusMessage}
    {s s' : PublishStage} (ht : w.tasks[i]? = some (.publish m s)) (hs : s.holds = true)
    (hs' : s'.handed = true) (htasks : w'.tasks = w.tasks.set i (.publish m s'))
    (hlock : w'.lock = w.lock.tail) (hremembered : w'.remembered = w.remembered ++ [m.eventId])
    (hprocessed : ∀ e ∈ w'.processed, e ∈ w.processed ∨ e = m.eventId)
    (hjournaled : ∀ e, w.db.Journaled e → w'.db.Journaled e)
    (hstored : w'.db.Journaled m.eventId) (hnew : m.eventId ∉ w.remembered) : Sound w' := by
  have hlen := (List.getElem?_eq_some_iff.1 ht).1
  have hmem : ∀ u ∈ w'.tasks, u ∈ w.tasks ∨ u = .publish m s' := by
    intro u hu
    rw [htasks] at hu
    exact List.mem_or_eq_of_mem_set hu
  have hmore : ∀ e, e ∈ w'.remembered ↔ e ∈ w.remembered ∨ e = m.eventId := by
    intro e
    rw [hremembered, List.mem_append, List.mem_singleton]
  have hget : ∀ (j : ℕ) (u : BusTask) e, w'.tasks[j]? = some u → u.handed e →
      (j = i ∧ e = m.eventId) ∨ (w.tasks[j]? = some u ∧ e ∈ w.remembered) := by
    intro j u e hu he
    rw [htasks, List.getElem?_set] at hu
    split_ifs at hu with hij
    · cases hu
      exact .inl ⟨hij.symm, he.1.symm⟩
    · exact .inr ⟨hu, h.known u (List.mem_of_getElem? hu) e he⟩
  have hexclusive : Exclusive BusTask.holds w'.lock w'.tasks := by
    rw [hlock, htasks]
    refine h.exclusive.leave ht hs fun hh => ?_
    have hh' : s'.holds = true := hh
    rw [PublishStage.not_holds_of_handed hs'] at hh'
    cases hh'
  -- the lock is empty behind it: nothing else stands past the journal
  have hpast : ∀ u ∈ w'.tasks, ∀ e, ¬ u.past e := by
    intro u hu e he
    obtain ⟨j, hj⟩ := List.mem_iff_getElem?.1 hu
    have hholds : u.holds := by
      cases u with
      | publish m₁ s₁ => exact PublishStage.holds_of_past he.2
      | drain _ _ => exact he.elim
    rw [htasks, List.getElem?_set] at hj
    split_ifs at hj with hij
    · cases hj
      have hout := PublishStage.not_holds_of_handed hs'
      rw [PublishStage.holds_of_past he.2] at hout
      cases hout
    · exact hij (h.exclusive.unique ht hj hs hholds)
  refine ⟨hexclusive, fun e he => ?_, fun e he => ?_, fun u hu e he => ?_, fun u hu e he => ?_,
    fun u hu e he => ?_, fun e he => ?_, fun j k u v hu hv e heu hev => ?_⟩
  · rw [hmore]
    exact (hprocessed e he).imp (h.processed e) id
  · rcases (hmore e).1 he with he | rfl
    · exact hjournaled e (h.journaled e he)
    · exact hstored
  · exact absurd he (hpast u hu e)
  · rw [hmore]
    rcases hmem u hu with hu | rfl
    · exact .inl (h.returned u hu e he)
    · exact .inr he.1.symm
  · rw [hmore]
    rcases hmem u hu with hu | rfl
    · exact .inl (h.known u hu e he)
    · exact .inr he.1.symm
  · rcases (hmore e).1 he with he | rfl
    · obtain ⟨u, hu, hue⟩ := h.handed e he
      obtain ⟨j, hj⟩ := List.mem_iff_getElem?.1 hu
      by_cases hij : i = j
      · subst hij
        rw [ht] at hj
        cases hj
        exact absurd (hue.1 ▸ he) hnew
      · refine ⟨u, List.mem_of_getElem? (i := j) ?_, hue⟩
        rw [htasks, List.getElem?_set_ne hij]
        exact hj
    · refine ⟨.publish m s', ?_, rfl, hs'⟩
      rw [htasks]
      exact List.mem_set hlen _
  · rcases hget j u e hu heu with ⟨hj, he⟩ | ⟨hj, he⟩
    · rcases hget k v e hv hev with ⟨hk, -⟩ | ⟨-, he'⟩
      · exact hj.trans hk.symm
      · exact absurd (he ▸ he') hnew
    · rcases hget k v e hv hev with ⟨-, he'⟩ | ⟨hk, -⟩
      · exact absurd (he' ▸ he) hnew
      · exact h.once j k u v hj hk e heu hev

theorem mem_remember (cfg : EventBusConfig) (w : BusWorld) (e : String) :
    ∀ x ∈ (w.remember cfg e).processed, x ∈ w.processed ∨ x = e := by
  intro x hx
  rcases List.mem_append.1 (List.mem_of_mem_drop hx) with hx | hx
  · exact .inl (List.mem_of_mem_filter hx)
  · exact .inr (List.mem_singleton.1 hx)

/-- the fan-out and the dead letters move a task that hands its event around -/
theorem Sound.handing {w : BusWorld} (h : Sound w) {i : ℕ} {m : BusMessage} {s s' : PublishStage}
    (ht : w.tasks[i]? = some (.publish m s)) (hs : s.handed = true) (hs' : s'.handed = true)
    (calls : List (ℕ × String)) :
    Sound { w with invoked := w.invoked ++ calls, tasks := w.tasks.set i (.publish m s') } := by
  have hknown : m.eventId ∈ w.remembered :=
    h.known _ (List.mem_of_getElem? ht) m.eventId ⟨rfl, hs⟩
  have hout := PublishStage.not_holds_of_handed hs'
  refine h.moved ht rfl (h.exclusive.move fun hh => ?_) (fun _ => .rfl) h.processed (fun _ => id)
    (fun e he => ?_) (fun e he => he.1 ▸ hknown) fun e => ?_
  · exact Bool.noConfusion (hout.symm.trans hh)
  · exact Bool.noConfusion (hout.symm.trans (PublishStage.holds_of_past he.2))
  · exact ⟨fun he => ⟨he.1, hs⟩, fun he => ⟨he.1, hs'⟩⟩

/-- an event that no journal row or a right verdict lets through was not remembered -/
theorem Sound.new {w : BusWorld} (h : Sound w) {e : String} (hverdict : Verdict cfg w e)
    (hnew : w.db.Journaled e → ¬ Ignored cfg w.db e) : e ∉ w.remembered := by
  intro hin
  have hfound := h.journaled e hin
  exact hnew hfound ((hverdict hfound).2 hin)

/-- one await of a publish keeps the world sound, if the journal's verdict is right -/
theorem Sound.published {w : BusWorld} (h : Sound w) {env : BusEnv} {i : ℕ} {m : BusMessage}
    {s : PublishStage} (ht : w.tasks[i]? = some (.publish m s)) {r : BusWorld × PublishStage}
    (hr : Published cfg env w i m s r)
    (hverdict : s = .journal → env.reply = .answered → Verdict cfg w m.eventId) :
    Sound { r.1 with tasks := r.1.tasks.set i (.publish m r.2) } := by
  have hmem := List.mem_of_getElem? ht
  -- a task that only changes its stage, inside or outside the lock as before
  have hgo : ∀ (w' : BusWorld) (s' : PublishStage), w'.tasks = w.tasks → w'.lock = w.lock →
      w'.remembered = w.remembered → w'.processed = w.processed →
      (∀ e, w.db.Journaled e → w'.db.Journaled e) → (s'.holds = true → w.lock.head? = some i) →
      (s'.past = true → m.eventId ∉ w.remembered ∧ w'.db.Journaled m.eventId) →
      s'.returned = false → s'.handed = false → s.handed = false →
      Sound { w' with tasks := w'.tasks.set i (.publish m s') } := by
    intro w' s' htasks hlock hrem hproc hjournaled hhead hpast hret hhand hhand'
    refine h.moved (n := .publish m s') ht ?_ ?_ (fun e => ?_)
      (fun e he => h.processed e (hproc ▸ he)) hjournaled (fun e he => he.1 ▸ hpast he.2)
      (fun e he => ?_) fun e => ?_
    · rw [htasks]
    · rw [htasks, hlock]
      exact h.exclusive.move hhead
    · rw [hrem]
    · exact Bool.noConfusion (hret.symm.trans he.2)
    · constructor
      · intro he
        exact Bool.noConfusion (hhand.symm.trans he.2)
      · intro he
        exact Bool.noConfusion (hhand'.symm.trans he.2)
  -- a publish that remembers its event for the first time and hands it around
  have hdeliver : ∀ db : EventDb, s.holds = true → (∀ e, w.db.Journaled e → db.Journaled e) →
      db.Journaled m.eventId → m.eventId ∉ w.remembered →
      Sound { ({ w with db := db }.deliver cfg m).1 with
        tasks := ({ w with db := db }.deliver cfg m).1.tasks.set i
          (.publish m ({ w with db := db }.deliver cfg m).2) } := by
    intro db hs hjournaled hstored hnew
    obtain ⟨calls, hcalls⟩ := deliver_fst cfg { w with db := db } m
    rw [hcalls]
    exact h.delivered ht hs (deliver_handed cfg _ m) rfl rfl rfl
      (mem_remember cfg { w with db := db }.release m.eventId) hjournaled hstored hnew
  have hhead : s.holds = true → w.lock.head? = some i := h.exclusive i _ ht
  have hpast : s.past = true → m.eventId ∉ w.remembered ∧ w.db.Journaled m.eventId :=
    fun hs => h.past _ hmem m.eventId ⟨rfl, hs⟩
  cases hr with
  | stay houtside =>
    refine h.moved ht rfl (h.exclusive.move hhead) (fun _ => .rfl) h.processed (fun _ => id)
      (h.past _ hmem) (h.returned _ hmem) fun _ => .rfl
  | enter head =>
    exact hgo w .journal rfl rfl rfl rfl (fun _ => id) (fun _ => head) nofun rfl rfl rfl
  | @fail _ db error hinside hkept =>
    refine h.moved ht rfl (h.exclusive.leave ht hinside nofun) (fun _ => .rfl) h.processed
      hkept.journaled (fun e he => nomatch he.2) (fun e he => nomatch he.2) fun e => ?_
    constructor
    · intro he
      cases he.2
    · intro he
      exact Bool.noConfusion (hinside.symm.trans (PublishStage.not_holds_of_handed he.2))
  | @duplicate db hanswered hkept hfound hignored =>
    have hin : m.eventId ∈ w.remembered := (hverdict rfl hanswered hfound).1 hignored
    refine h.moved ht rfl (h.exclusive.leave ht rfl nofun) (fun e => ?_) (fun e he => ?_)
      hkept.journaled (fun e he => nomatch he.2) (fun e he => he.1 ▸ hin) fun e => ?_
    · refine ⟨fun he => ?_, fun he => List.mem_append_left _ he⟩
      rcases List.mem_append.1 he with he | he
      · exact he
      · exact List.mem_singleton.1 he ▸ hin
    · rcases mem_remember cfg { w with db := db }.release m.eventId e he with he | rfl
      · exact h.processed e he
      · exact hin
    · exact ⟨fun he => (nomatch he.2), fun he => (nomatch he.2)⟩
  | journaled hanswered hkept hstored hnew =>
    exact hgo _ .transport rfl rfl rfl rfl hkept.journaled (fun _ => hhead rfl)
      (fun _ => ⟨h.new (hverdict rfl hanswered) hnew, hstored⟩) rfl rfl rfl
  | journaledOnly hanswered hkept hstored hnew =>
    exact hdeliver _ rfl hkept.journaled hstored (h.new (hverdict rfl hanswered) hnew)
  | sent brokerId =>
    exact hgo { w with sent := w.sent ++ [m.eventId] } (.markPublished brokerId) rfl rfl rfl rfl
      (fun _ => id) (fun _ => hhead rfl) (fun _ => hpast rfl) rfl rfl rfl
  | unsent errorType error =>
    exact hgo w (.markFailed errorType error) rfl rfl rfl rfl (fun _ => id) (fun _ => hhead rfl)
      (fun _ => hpast rfl) rfl rfl rfl
  | unmarked brokerId error hkept =>
    exact hgo _ (.markFailed "DatabaseError" error) rfl rfl rfl rfl hkept.journaled
      (fun _ => hhead rfl) (fun _ => ⟨(hpast rfl).1, hkept.journaled _ (hpast rfl).2⟩) rfl rfl rfl
  | marked brokerId hkept =>
    exact hdeliver _ rfl hkept.journaled (hkept.journaled _ (hpast rfl).2) (hpast rfl).1
  | unpublished errorType error hkept =>
    exact hdeliver _ rfl hkept.journaled (hkept.journaled _ (hpast rfl).2) (hpast rfl).1
  | next k =>
    rw [handOn_fst]
    exact h.handing ht rfl (handOn_handed w m (k + 1)) _
  | raised k _ =>
    obtain ⟨calls, hcalls⟩ := deadLetterOn_fst w m k 0
    rw [hcalls]
    exact h.handing ht rfl (deadLetterOn_handed w m k 0) calls
  | deadLetter k d =>
    obtain ⟨calls, hcalls⟩ := deadLetterOn_fst w m k (d + 1)
    rw [hcalls]
    exact h.handing ht rfl (deadLetterOn_handed w m k (d + 1)) calls

/-- so does one await of a drain -/
theorem Sound.drained {w : BusWorld} (h : Sound w) {i batchSize : ℕ} {s : DrainStage}
    (ht : w.tasks[i]? = some (.drain batchSize s)) {r : BusWorld × DrainStage}
    (hr : Drained w i s r) :
    Sound { r.1 with tasks := r.1.tasks.set i (.drain batchSize r.2) } := by
  have hsame := hr.same
  have hlock : Exclusive BusTask.holds r.1.lock (w.tasks.set i (.drain batchSize r.2)) := by
    rcases hr.lock with ⟨hl, hholds⟩ | ⟨hl, hin, hout⟩
    · rw [hl]
      refine h.exclusive.move fun hh => ?_
      exact (hholds hh).elim (h.exclusive i _ ht) id
    · rw [hl]
      exact h.exclusive.leave ht hin (by simp [BusTask.holds, hout])
  refine h.moved (i := i) (t := .drain batchSize s) (n := .drain batchSize r.2) ht ?_ ?_
    (fun e => ?_) (fun e he => ?_) hr.kept.journaled (fun _ => False.elim) (fun _ => False.elim)
    fun _ => .rfl
  · rw [hsame]
  · have htasks : r.1.tasks = w.tasks := by rw [hsame]
    rw [htasks]
    exact hlock
  · rw [hsame]
  · rw [hsame] at he
    exact h.processed e he

/-- **Soundness of a fenced step.** -/
theorem Sound.step {w : BusWorld} (h : Sound w) {op : BusOp} (hf : Fenced cfg w op) :
    Sound (w.step cfg op) := by
  have hfree : ∀ t : BusTask, ¬ t.holds → Exclusive BusTask.holds w.lock (w.tasks ++ [t]) :=
    fun t ht => h.exclusive.append ht
  cases op with
  | publish m =>
    simp only [BusWorld.step, startPublish]
    cases admission m with
    | error e =>
      exact h.started rfl rfl rfl rfl (hfree _ nofun) (fun e he => nomatch he.2)
        (fun e he => nomatch he.2) fun e he => nomatch he.2
    | ok _ =>
      simp only []
      split_ifs with hin hempty
      · exact h.started rfl rfl rfl rfl (hfree _ nofun) (fun e he => nomatch he.2)
          (fun e he => nomatch he.2) fun e he => he.1 ▸ h.processed _ hin
      · exact h.started rfl rfl rfl rfl (h.exclusive.arrive fun _ => hempty)
          (fun e he => nomatch he.2) (fun e he => nomatch he.2) fun e he => nomatch he.2
      · exact h.started rfl rfl rfl rfl (h.exclusive.arrive nofun) (fun e he => nomatch he.2)
          (fun e he => nomatch he.2) fun e he => nomatch he.2
  | drain batchSize =>
    simp only [BusWorld.step, startDrain]
    split_ifs with ht hempty
    · exact h.started rfl rfl rfl rfl (h.exclusive.arrive fun _ => hempty)
        (fun _ => False.elim) (fun _ => False.elim) fun _ => False.elim
    · exact h.started rfl rfl rfl rfl (h.exclusive.arrive nofun) (fun _ => False.elim)
        (fun _ => False.elim) fun _ => False.elim
    · exact h
  | subscribe topic handler =>
    simp only [BusWorld.step, subscribe]
    split_ifs
    · exact h
    · exact ⟨h.exclusive, h.processed, h.journaled, h.past, h.returned, h.known, h.handed, h.once⟩
  | unsubscribe topic handler =>
    simp only [BusWorld.step, unsubscribe]
    split_ifs
    · exact ⟨h.exclusive, h.processed, h.journaled, h.past, h.returned, h.known, h.handed, h.once⟩
    · exact h
  | advance i env =>
    cases ht : w.tasks[i]? with
    | none => simpa only [BusWorld.step, ht] using h
    | some t =>
      simp only [BusWorld.step, ht]
      cases t with
      | publish m s =>
        refine h.published ht (publishNext_published cfg env w i m s) fun hs hanswered => ?_
        subst hs
        simp only [Fenced, ht] at hf
        exact hf hanswered
      | drain batchSize s => exact h.drained ht (drainNext_drained env w i batchSize s)

/-! ## Handing around -/

/-- no topic has a handler twice -/
def Distinct (w : BusWorld) : Prop := ∀ topic, (w.handlers topic).Nodup

theorem handlers_insert (w : BusWorld) (topic : String) (l : List ℕ) (t : String) :
    handlers { w with subscribers := AList.insert topic l w.subscribers } t =
      if t = topic then l else w.handlers t := by
  unfold handlers
  split_ifs with h
  · rw [h, AList.lookup_insert]
    rfl
  · rw [AList.lookup_insert_ne h]

theorem handlers_congr {w w' : BusWorld} (h : w'.subscribers = w.subscribers) (topic : String) :
    w'.handlers topic = w.handlers topic := by
  unfold handlers
  rw [h]

theorem Distinct.step {w : BusWorld} (h : Distinct w) (cfg : EventBusConfig) (op : BusOp) :
    Distinct (w.step cfg op) := by
  have hsame : ∀ w' : BusWorld, w'.subscribers = w.subscribers → Distinct w' := by
    intro w' hw' topic
    rw [handlers_congr hw']
    exact h topic
  cases op with
  | publish m =>
    simp only [BusWorld.step, startPublish]
    cases admission m with
    | error e => exact hsame _ rfl
    | ok _ =>
      simp only []
      split_ifs
      · exact hsame _ rfl
      · exact hsame _ rfl
      · exact hsame _ rfl
  | drain batchSize =>
    simp only [BusWorld.step, startDrain]
    split_ifs
    · exact hsame _ rfl
    · exact hsame _ rfl
    · exact h
  | subscribe topic handler =>
    simp only [BusWorld.step, subscribe]
    split_ifs with hin
    · exact h
    · intro t
      rw [handlers_insert]
      split_ifs
      · refine List.Nodup.append (h topic) (List.nodup_singleton _) ?_
        rw [List.disjoint_singleton]
        exact hin
      · exact h t
  | unsubscribe topic handler =>
    simp only [BusWorld.step, unsubscribe]
    split_ifs
    · intro t
      rw [handlers_insert]
      split_ifs
      · exact (h topic).erase handler
      · exact h t
    · exact h
  | advance i env =>
    cases ht : w.tasks[i]? with
    | none => simpa only [BusWorld.step, ht] using h
    | some t =>
      simp only [BusWorld.step, ht]
      exact hsame _ (advance_awaited cfg env w i t).subscribers

/-- the fan-out calls a handler when it comes to its position -/
theorem handOn_count {x k : ℕ} (hnodup : (w.handlers m.topic).Nodup)
    (hx : x ∈ w.handlers m.topic)
    (hcount : w.invoked.count (x, m.eventId) =
      if (w.handlers m.topic).idxOf x < k then 1 else 0) :
    (w.handOn m k).1.invoked.count (x, m.eventId) =
      (w.handOn m k).2.reached ((w.handlers m.topic).idxOf x) := by
  have hlt := List.idxOf_lt_length_iff.2 hx
  unfold handOn
  cases hk : (w.handlers m.topic)[k]? with
  | none =>
    have hlen := List.getElem?_eq_none_iff.1 hk
    simp only [PublishStage.reached, hcount]
    rw [if_pos (lt_of_lt_of_le hlt hlen)]
  | some y =>
    obtain ⟨hklt, hy⟩ := List.getElem?_eq_some_iff.1 hk
    simp only [PublishStage.reached, List.count_append, hcount, List.count_singleton,
      beq_iff_eq, Prod.mk.injEq, and_true]
    by_cases hyx : y = x
    · have hpos : (w.handlers m.topic).idxOf x = k := by
        rw [← hyx, ← hy]
        exact hnodup.idxOf_getElem k hklt
      simp [hyx, hpos]
    · have hpos : (w.handlers m.topic).idxOf x ≠ k := by
        intro he
        apply hyx
        rw [← hy]
        simp only [← he]
        exact List.getElem_idxOf hlt
      rw [if_neg hyx, add_zero]
      by_cases hlt' : (w.handlers m.topic).idxOf x < k
      · rw [if_pos hlt', if_pos hlt'.le]
      · rw [if_neg hlt', if_neg (by omega)]

/-- dead letters go to other handlers, and then the fan-out goes on -/
theorem deadLetterOn_count {x k d : ℕ} (hnodup : (w.handlers m.topic).Nodup)
    (hx : x ∈ w.handlers m.topic) (hapart : w.Apart m d)
    (hcount : w.invoked.count (x, m.eventId) =
      if (w.handlers m.topic).idxOf x ≤ k then 1 else 0) :
    (w.deadLetterOn m k d).1.invoked.count (x, m.eventId) =
      (w.deadLetterOn m k d).2.reached ((w.handlers m.topic).idxOf x) := by
  unfold deadLetterOn
  cases hd : (w.handlers Topics.deadLetter)[d]? with
  | none =>
    refine handOn_count hnodup hx ?_
    rw [hcount]
    simp only [Nat.lt_succ_iff]
  | some y =>
    have hyx : y ≠ x := fun he => hapart y hd (he ▸ hx)
    simp [PublishStage.reached, List.count_append, hcount, hyx]

/-- a handler of all the topics an event is published under is called once for it: when the one
publish that hands it around has come to it -/
structure Delivers (x : ℕ) (e : String) (T : String → Prop) (w : BusWorld) : Prop where
  topics : ∀ m s, .publish m s ∈ w.tasks → m.eventId = e → T m.topic
  subscribed : ∀ topic, T topic → x ∈ w.handlers topic
  fresh : e ∉ w.remembered → w.invoked.count (x, e) = 0
  reached : ∀ m s, .publish m s ∈ w.tasks → m.eventId = e → s.handed = true →
    w.invoked.count (x, e) = s.reached ((w.handlers m.topic).idxOf x)

/-- one await keeps it, when the task that is awaited does -/
theorem Delivers.advanced {x : ℕ} {e : String} {T : String → Prop} {w w' : BusWorld}
    (h : Delivers x e T w) (hsound : Sound w') {i : ℕ} {t n : BusTask}
    (ht : w.tasks[i]? = some t) (htasks : w'.tasks = w.tasks.set i n)
    (hsubscribers : w'.subscribers = w.subscribers)
    (hremembered : ∀ e ∈ w.remembered, e ∈ w'.remembered) (calls : List (ℕ × String))
    (hinvoked : w'.invoked = w.invoked ++ calls) (hcalls : ∀ c ∈ calls, n.handed c.2)
    (hsame : ∀ m s', n = .publish m s' → ∃ s, t = .publish m s)
    (hself : ∀ m s', n = .publish m s' → m.eventId = e → s'.handed = true →
      w'.invoked.count (x, e) = s'.reached ((w.handlers m.topic).idxOf x)) :
    Delivers x e T w' := by
  have hlen := (List.getElem?_eq_some_iff.1 ht).1
  have hi : w'.tasks[i]? = some n := by
    rw [htasks, List.getElem?_set_self hlen]
  have hcount : ¬ n.handed e → w'.invoked.count (x, e) = w.invoked.count (x, e) := by
    intro hnot
    have hzero : calls.count (x, e) = 0 :=
      List.count_eq_zero_of_not_mem fun hin => hnot (hcalls _ hin)
    rw [hinvoked, List.count_append, hzero, add_zero]
  refine ⟨fun m s hm he => ?_, fun topic hT => ?_, fun hnew => ?_, fun m s hm he hs => ?_⟩
  · rw [htasks] at hm
    rcases List.mem_or_eq_of_mem_set hm with hm | hm
    · exact h.topics m s hm he
    · obtain ⟨s₀, rfl⟩ := hsame m s hm.symm
      exact h.topics m s₀ (List.mem_of_getElem? ht) he
  · rw [handlers_congr hsubscribers]
    exact h.subscribed topic hT
  · rw [hcount]
    · exact h.fresh fun hin => hnew (hremembered e hin)
    · exact fun hhanded => hnew (hsound.known n (List.mem_of_getElem? hi) e hhanded)
  · rw [handlers_congr hsubscribers]
    obtain ⟨j, hj⟩ := List.mem_iff_getElem?.1 hm
    by_cases hij : i = j
    · subst hij
      rw [hi] at hj
      cases hj
      exact hself m s rfl he hs
    · rw [hcount]
      · rw [htasks, List.getElem?_set_ne hij] at hj
        exact h.reached m s (List.mem_of_getElem? hj) he hs
      · exact fun hhanded => hij (hsound.once i j n _ hi hj e hhanded ⟨he, hs⟩)

/-- the calls of a fan-out step are for its own event, which it hands around -/
theorem handOn_calls (w : BusWorld) (m : BusMessage) (k : ℕ) :
    ∃ calls : List (ℕ × String), (w.handOn m k).1 = { w with invoked := w.invoked ++ calls } ∧
      ∀ c ∈ calls, c.2 = m.eventId := by
  refine ⟨_, handOn_fst w m k, fun c hc => ?_⟩
  simp only [Option.mem_toList, Option.map_eq_some_iff] at hc
  obtain ⟨y, -, rfl⟩ := hc
  rfl

theorem deadLetterOn_calls (w : BusWorld) (m : BusMessage) (k d : ℕ) :
    ∃ calls : List (ℕ × String),
      (w.deadLetterOn m k d).1 = { w with invoked := w.invoked ++ calls } ∧
        ∀ c ∈ calls, c.2 = m.eventId := by
  unfold deadLetterOn
  cases (w.handlers Topics.deadLetter)[d]? with
  | none => exact handOn_calls w m (k + 1)
  | some y =>
    refine ⟨[(y, m.eventId)], rfl, fun c hc => ?_⟩
    rw [List.mem_singleton.1 hc]

/-- what a publish needs to go on undisturbed -/
structure Calm (cfg : EventBusConfig) (w : BusWorld) (env : BusEnv) (m : BusMessage)
    (s : PublishStage) : Prop where
  verdict : s = .journal → env.reply = .answered → Verdict cfg w m.eventId
  raised : ∀ k, s = .handler k → env.raised = true → w.Apart m 0
  deadLetter : ∀ k d, s = .deadLetter k d → w.Apart m (d + 1)

theorem Fenced.calm {i : ℕ} {env : BusEnv} {s : PublishStage}
    (h : Fenced cfg w (.advance i env)) (ht : w.tasks[i]? = some (.publish m s)) :
    Calm cfg w env m s := by
  simp only [Fenced, ht] at h
  refine ⟨fun hs => ?_, fun k hs => ?_, fun k d hs => ?_⟩
  · subst hs
    exact h
  · subst hs
    exact h
  · subst hs
    exact h

/-- one await of a publish -/
theorem Delivers.published {x : ℕ} {e : String} {T : String → Prop} {w : BusWorld}
    (h : Delivers x e T w) (hsound : Sound w) (hdistinct : Distinct w) {env : BusEnv} {i : ℕ}
    {m : BusMessage} {s : PublishStage} (ht : w.tasks[i]? = some (.publish m s))
    {r : BusWorld × PublishStage} (hr : Published cfg env w i m s r)
    (hcalm : Calm cfg w env m s) :
    Delivers x e T { r.1 with tasks := r.1.tasks.set i (.publish m r.2) } := by
  have hsound' := hsound.published ht hr hcalm.verdict
  have hmem := List.mem_of_getElem? ht
  have hin : m.eventId = e → x ∈ w.handlers m.topic :=
    fun he => h.subscribed _ (h.topics m s hmem he)
  -- a task that calls nobody and is not handing around
  have hquiet : ∀ (w' : BusWorld) (s' : PublishStage), w'.tasks = w.tasks →
      w'.subscribers = w.subscribers → (∀ e ∈ w.remembered, e ∈ w'.remembered) →
      w'.invoked = w.invoked → s'.handed = false →
      Sound { w' with tasks := w'.tasks.set i (.publish m s') } →
      Delivers x e T { w' with tasks := w'.tasks.set i (.publish m s') } := by
    intro w' s' htasks hsub hrem hinv hhanded hs'
    refine h.advanced hs' (n := .publish m s') ht (by rw [htasks]) hsub hrem [] ?_ nofun
      (fun m' s'' hm => ?_) fun m' s'' hm _ hh => ?_
    · rw [List.append_nil]
      exact hinv
    · cases hm
      exact ⟨s, rfl⟩
    · cases hm
      exact Bool.noConfusion (hhanded.symm.trans hh)
  -- a publish that remembers its event and calls the first handler
  have hdeliver : ∀ db : EventDb, m.eventId ∉ w.remembered →
      Sound { ({ w with db := db }.deliver cfg m).1 with
        tasks := ({ w with db := db }.deliver cfg m).1.tasks.set i
          (.publish m ({ w with db := db }.deliver cfg m).2) } →
      Delivers x e T { ({ w with db := db }.deliver cfg m).1 with
        tasks := ({ w with db := db }.deliver cfg m).1.tasks.set i
          (.publish m ({ w with db := db }.deliver cfg m).2) } := by
    intro db hnew hs'
    obtain ⟨calls, hcalls, hown⟩ :=
      handOn_calls (({ w with db := db }.release).remember cfg m.eventId) m 0
    have hfst : ({ w with db := db }.deliver cfg m).1 =
        { ({ w with db := db }.release).remember cfg m.eventId with
          invoked := w.invoked ++ calls } := hcalls
    refine h.advanced hs' (n := .publish m ({ w with db := db }.deliver cfg m).2) ht
      ?_ ?_ ?_ calls ?_ (fun c hc => ?_) (fun m' s'' hm => ?_) fun m' s'' hm he _ => ?_
    · rw [hfst]
      rfl
    · rw [hfst]
      rfl
    · intro y hy
      rw [hfst]
      exact List.mem_append_left _ hy
    · rw [hfst]
    · exact ⟨(hown c hc).symm, deliver_handed cfg _ m⟩
    · cases hm
      exact ⟨s, rfl⟩
    · cases hm
      subst he
      refine handOn_count (w := ({ w with db := db }.release).remember cfg m.eventId)
        (hdistinct m.topic) (hin rfl) ?_
      exact h.fresh hnew
  -- a fan-out step
  have hfan : ∀ (w' : BusWorld) (s' : PublishStage) (calls : List (ℕ × String)),
      w' = { w with invoked := w.invoked ++ calls } → (∀ c ∈ calls, c.2 = m.eventId) →
      s'.handed = true → (m.eventId = e →
        w'.invoked.count (x, e) = s'.reached ((w.handlers m.topic).idxOf x)) →
      Sound { w' with tasks := w'.tasks.set i (.publish m s') } →
      Delivers x e T { w' with tasks := w'.tasks.set i (.publish m s') } := by
    intro w' s' calls hw' hown hhanded hcount hs'
    subst hw'
    refine h.advanced hs' (n := .publish m s') ht rfl rfl (fun _ => id) calls rfl
      (fun c hc => ⟨(hown c hc).symm, hhanded⟩) (fun m' s'' hm => ?_) fun m' s'' hm he _ => ?_
    · cases hm
      exact ⟨s, rfl⟩
    · cases hm
      exact hcount he
  have hpast : s.past = true → m.eventId ∉ w.remembered :=
    fun hs => (hsound.past _ hmem m.eventId ⟨rfl, hs⟩).1
  cases hr with
  | stay houtside =>
    refine h.advanced hsound' ht rfl rfl (fun _ => id) [] (by simp) nofun (fun m' s'' hm => ?_)
      fun m' s'' hm he hh => ?_
    · cases hm
      exact ⟨s, rfl⟩
    · cases hm
      exact h.reached m s hmem he hh
  | enter head => exact hquiet w .journal rfl rfl (fun _ => id) rfl rfl hsound'
  | fail error hinside hkept => exact hquiet _ (.raised error) rfl rfl (fun _ => id) rfl rfl hsound'
  | duplicate hanswered hkept hfound hignored =>
    exact hquiet _ .duplicate rfl rfl (fun _ hy => List.mem_append_left _ hy) rfl rfl hsound'
  | journaled hanswered hkept hstored hnew =>
    exact hquiet _ .transport rfl rfl (fun _ => id) rfl rfl hsound'
  | journaledOnly hanswered hkept hstored hnew =>
    exact hdeliver _ (hsound.new (hcalm.verdict rfl hanswered) hnew) hsound'
  | sent brokerId =>
    exact hquiet { w with sent := w.sent ++ [m.eventId] } (.markPublished brokerId) rfl rfl
      (fun _ => id) rfl rfl hsound'
  | unsent errorType error =>
    exact hquiet w (.markFailed errorType error) rfl rfl (fun _ => id) rfl rfl hsound'
  | unmarked brokerId error hkept =>
    exact hquiet _ (.markFailed "DatabaseError" error) rfl rfl (fun _ => id) rfl rfl hsound'
  | marked brokerId hkept => exact hdeliver _ (hpast rfl) hsound'
  | unpublished errorType error hkept => exact hdeliver _ (hpast rfl) hsound'
  | next k =>
    obtain ⟨calls, hcalls, hown⟩ := handOn_calls w m (k + 1)
    refine hfan _ _ calls hcalls hown (handOn_handed w m (k + 1)) (fun he => ?_) hsound'
    subst he
    refine handOn_count (hdistinct m.topic) (hin rfl) ?_
    rw [h.reached m _ hmem rfl rfl]
    simp only [PublishStage.reached, Nat.lt_succ_iff]
  | raised k hraised =>
    obtain ⟨calls, hcalls, hown⟩ := deadLetterOn_calls w m k 0
    refine hfan _ _ calls hcalls hown (deadLetterOn_handed w m k 0) (fun he => ?_) hsound'
    subst he
    exact deadLetterOn_count (hdistinct m.topic) (hin rfl) (hcalm.raised k rfl hraised)
      (h.reached m _ hmem rfl rfl)
  | deadLetter k d =>
    obtain ⟨calls, hcalls, hown⟩ := deadLetterOn_calls w m k (d + 1)
    refine hfan _ _ calls hcalls hown (deadLetterOn_handed w m k (d + 1)) (fun he => ?_) hsound'
    subst he
    exact deadLetterOn_count (hdistinct m.topic) (hin rfl) (hcalm.deadLetter k d rfl)
      (h.reached m _ hmem rfl rfl)

/-- where a handler stands when another one leaves -/
theorem idxOf_erase {l : List ℕ} {x y : ℕ} (hne : x ≠ y) (hx : x ∈ l) :
    (l.erase y).idxOf x = if l.idxOf y < l.idxOf x then l.idxOf x - 1 else l.idxOf x := by
  induction l with
  | nil => cases hx
  | cons a l ih =>
    by_cases hay : a = y
    · subst hay
      rw [List.erase_cons_head, List.idxOf_cons_self, List.idxOf_cons_ne l hne.symm]
      simp
    · rw [List.erase_cons_tail (by simpa using hay), List.idxOf_cons_ne l hay]
      by_cases hax : a = x
      · subst hax
        simp
      · rw [List.idxOf_cons_ne _ hax, List.idxOf_cons_ne l hax,
          ih ((List.mem_cons.1 hx).resolve_left (Ne.symm hax))]
        split_ifs with h1 h2 h2
        · omega
        · omega
        · omega
        · rfl

/-- a removal that disturbs nobody moves no handler over the fan-out's position -/
theorem Undisturbed.idxOf_le {l : List ℕ} {x y k : ℕ} (h : Undisturbed l y k) (hne : x ≠ y)
    (hx : x ∈ l) : (l.erase y).idxOf x ≤ k ↔ l.idxOf x ≤ k := by
  have hlt := List.idxOf_lt_length_iff.2 hx
  rw [idxOf_erase hne hx]
  unfold Undisturbed at h
  by_cases hy : l.idxOf y ≤ k
  · have hlen := h hy
    split_ifs
    · omega
    · rfl
  · split_ifs
    · omega
    · rfl

/-- what the claim is about: the event is published under those topics, and the handler stays
subscribed to them -/
def Stays (x : ℕ) (e : String) (T : String → Prop) : BusOp → Prop
  | .publish m => m.eventId = e → T m.topic
  | .unsubscribe topic y => T topic → y ≠ x
  | _ => True

theorem Delivers.started {x : ℕ} {e : String} {T : String → Prop} {w w' : BusWorld}
    (h : Delivers x e T w) (hsubscribers : w'.subscribers = w.subscribers)
    (hremembered : w'.remembered = w.remembered) (hinvoked : w'.invoked = w.invoked) {t : BusTask}
    (htasks : w'.tasks = w.tasks ++ [t]) (ht : ∀ e, ¬ t.handed e)
    (htopics : ∀ m s, t = .publish m s → m.eventId = e → T m.topic) : Delivers x e T w' := by
  have hmem : ∀ u ∈ w'.tasks, u ∈ w.tasks ∨ u = t := by
    intro u hu
    rw [htasks] at hu
    exact (List.mem_append.1 hu).imp id List.mem_singleton.1
  refine ⟨fun m s hm he => ?_, fun topic hT => ?_, fun hnew => ?_, fun m s hm he hs => ?_⟩
  · rcases hmem _ hm with hm | hm
    · exact h.topics m s hm he
    · exact htopics m s hm.symm he
  · rw [handlers_congr hsubscribers]
    exact h.subscribed topic hT
  · rw [hinvoked]
    exact h.fresh (hremembered ▸ hnew)
  · rw [hinvoked, handlers_congr hsubscribers]
    rcases hmem _ hm with hm | hm
    · exact h.reached m s hm he hs
    · exact absurd (hm ▸ ⟨he, hs⟩ : t.handed e) (ht e)

/-- handlers that come stand behind the others -/
theorem Delivers.subscribe {x : ℕ} {e : String} {T : String → Prop} {w : BusWorld}
    (h : Delivers x e T w) (topic : String) (y : ℕ) : Delivers x e T (w.subscribe topic y) := by
  unfold BusWorld.subscribe
  split_ifs
  · exact h
  · refine ⟨h.topics, fun t hT => ?_, h.fresh, fun m s hm he hs => ?_⟩
    · rw [handlers_insert]
      split_ifs with ht
      · exact List.mem_append_left _ (ht ▸ h.subscribed t hT)
      · exact h.subscribed t hT
    · rw [handlers_insert]
      split_ifs with ht
      · have hx := h.subscribed _ (h.topics m s hm he)
        rw [ht] at hx
        rw [List.idxOf_append_of_mem hx, ← ht]
        exact h.reached m s hm he hs
      · exact h.reached m s hm he hs

/-- handlers that go leave it where it is, if the fan-outs are undisturbed -/
theorem Delivers.unsubscribe {x : ℕ} {e : String} {T : String → Prop} {w : BusWorld}
    (h : Delivers x e T w) {topic : String} {y : ℕ}
    (hremovable : y ∈ w.handlers topic → ∀ t ∈ w.tasks, w.Removable topic y t)
    (hne : T topic → y ≠ x) : Delivers x e T (w.unsubscribe topic y) := by
  unfold BusWorld.unsubscribe
  split_ifs with hy
  · refine ⟨h.topics, fun t hT => ?_, h.fresh, fun m s hm he hs => ?_⟩
    · rw [handlers_insert]
      split_ifs with ht
      · subst ht
        exact (List.mem_erase_of_ne (hne hT).symm).2 (h.subscribed t hT)
      · exact h.subscribed t hT
    · rw [handlers_insert]
      split_ifs with ht
      · have hT := h.topics m s hm he
        have hx := h.subscribed _ hT
        have hcalm := hremovable hy _ hm ht
        have hcount := h.reached m s hm he hs
        rw [ht] at hT hx hcount
        rw [hcount]
        cases s with
        | handler k =>
          simp only [PublishStage.reached, (hcalm k rfl).idxOf_le (hne hT).symm hx]
        | deadLetter k d =>
          simp only [PublishStage.reached, (hcalm k rfl).idxOf_le (hne hT).symm hx]
        | delivered => rfl
        | _ => cases hs
      · exact h.reached m s hm he hs
  · exact h

/-- **Delivery in a fenced step.** -/
theorem Delivers.step {x : ℕ} {e : String} {T : String → Prop} {w : BusWorld}
    (h : Delivers x e T w) (hsound : Sound w) (hdistinct : Distinct w) {op : BusOp}
    (hf : Fenced cfg w op) (hstays : Stays x e T op) : Delivers x e T (w.step cfg op) := by
  cases op with
  | publish m =>
    have htopics : ∀ s' m' s, BusTask.publish m s' = .publish m' s → m'.eventId = e →
        T m'.topic := by
      intro s' m' s hm
      cases hm
      exact hstays
    simp only [BusWorld.step, startPublish]
    cases admission m with
    | error err =>
      exact h.started rfl rfl rfl rfl (fun _ he => nomatch he.2) (htopics _)
    | ok _ =>
      simp only []
      split_ifs
      · exact h.started rfl rfl rfl rfl (fun _ he => nomatch he.2) (htopics _)
      · exact h.started rfl rfl rfl rfl (fun _ he => nomatch he.2) (htopics _)
      · exact h.started rfl rfl rfl rfl (fun _ he => nomatch he.2) (htopics _)
  | drain batchSize =>
    simp only [BusWorld.step, startDrain]
    split_ifs
    · exact h.started rfl rfl rfl rfl (fun _ => False.elim) nofun
    · exact h.started rfl rfl rfl rfl (fun _ => False.elim) nofun
    · exact h
  | subscribe topic y => exact h.subscribe topic y
  | unsubscribe topic y => exact h.unsubscribe hf hstays
  | advance i env =>
    have hsound' := hsound.step hf
    cases ht : w.tasks[i]? with
    | none => simpa only [BusWorld.step, ht] using h
    | some t =>
      simp only [BusWorld.step, ht] at hsound' ⊢
      cases t with
      | publish m s =>
        exact h.published hsound hdistinct ht (publishNext_published cfg env w i m s)
          (Fenced.calm hf ht)
      | drain batchSize s =>
        have hr := drainNext_drained env w i batchSize s
        have hsame := hr.same
        refine h.advanced hsound' ht (n := .drain batchSize (w.drainNext env i batchSize s).2)
          ?_ ?_ ?_ [] ?_ nofun nofun nofun
        · simp only [advance]
          rw [hsame]
        · simp only [advance]
          rw [hsame]
        · simp only [advance]
          rw [hsame]
          exact fun _ => id
        · simp only [advance]
          rw [hsame, List.append_nil]

/-! ## Runs -/

/-- a publish of the event returned normally -/
def Returned (w : BusWorld) (e : String) : Prop := ∃ t ∈ w.tasks, t.returned e

/-- a publish is handing the event around -/
def Handing (w : BusWorld) (e : String) : Prop :=
  ∃ t ∈ w.tasks, t.publishes (fun s => s.handing.isSome) e

instance (w : BusWorld) : DecidablePred (Returned w) := fun e => by
  unfold Returned
  infer_instance

instance (w : BusWorld) : DecidablePred (Handing w) := fun e => by
  unfold Handing
  infer_instance

/-- the message an operation publishes -/
def published : BusOp → Option BusMessage
  | .publish m => some m
  | _ => none

/-- the topic that handler is unsubscribed from -/
def left (x : ℕ) : BusOp → Option String
  | .unsubscribe topic y => if y = x then some topic else none
  | _ => none

/-- the event is first published after `pre`, when the handler is subscribed to every topic it is
published under, and the handler stays -/
def Throughout (cfg : EventBusConfig) (pre post : List BusOp) (x : ℕ) (e : String) : Prop :=
  (∀ op ∈ pre, ∀ m ∈ published op, m.eventId ≠ e) ∧
    ∀ op ∈ post, ∀ m ∈ published op, m.eventId = e →
      x ∈ (run (step cfg) init pre).handlers m.topic ∧ ∀ op' ∈ post, m.topic ∉ left x op'

instance (cfg : EventBusConfig) (pre post : List BusOp) (x : ℕ) (e : String) :
    Decidable (Throughout cfg pre post x e) := by
  unfold Throughout
  infer_instance

/-- before the event is published, nobody is called for it -/
theorem delivers_before (cfg : EventBusConfig) {pre : List BusOp} {x : ℕ} {e : String}
    (hf : Along (step cfg) (Fenced cfg) init pre)
    (h : ∀ op ∈ pre, ∀ m ∈ published op, m.eventId ≠ e) :
    Sound (run (step cfg) init pre) ∧ Distinct (run (step cfg) init pre) ∧
      Delivers x e (fun _ => False) (run (step cfg) init pre) := by
  refine along_inv (P := fun w => Sound w ∧ Distinct w ∧ Delivers x e (fun _ => False) w)
    (fun w op hop hw => ?_) ?_ (along_mem hf)
  · refine ⟨hw.1.step hop.1, hw.2.1.step cfg op, hw.2.2.step hw.1 hw.2.1 hop.1 ?_⟩
    cases op with
    | publish m => exact h _ hop.2 m rfl
    | unsubscribe topic y => exact False.elim
    | _ => trivial
  · refine ⟨Sound.empty, fun _ => List.nodup_nil, ⟨fun m s hm _ => ?_, fun _ => False.elim,
      fun _ => rfl, fun m s hm _ _ => ?_⟩⟩
    · cases hm
    · cases hm

/-- **Exactly-once local delivery.** In every fenced run, a handler that is subscribed throughout is
called at most once for an event, and exactly once when a publish of it returned and none is still
handing it around; and only what the transport took is marked published. -/
theorem delivered_exactly_once (cfg : EventBusConfig) (pre post : List BusOp) (x : ℕ) (e : String)
    (hf : Along (step cfg) (Fenced cfg) init (pre ++ post)) (hx : Throughout cfg pre post x e) :
    (run (step cfg) init (pre ++ post)).invoked.count (x, e) ≤ 1 ∧
      (Returned (run (step cfg) init (pre ++ post)) e →
        ¬ Handing (run (step cfg) init (pre ++ post)) e →
        (run (step cfg) init (pre ++ post)).invoked.count (x, e) = 1) ∧
      ∀ e', (run (step cfg) init (pre ++ post)).db.Marked e' →
        e' ∈ (run (step cfg) init (pre ++ post)).sent := by
  obtain ⟨hpre, hpost⟩ := along_append.1 hf
  obtain ⟨hsound, hdistinct, hbefore⟩ := delivers_before (x := x) cfg hpre hx.1
  let T := fun topic : String => ∃ m, BusOp.publish m ∈ post ∧ m.eventId = e ∧ m.topic = topic
  have hstart : Delivers x e T (run (step cfg) init pre) := by
    refine ⟨fun m s hm he => (hbefore.topics m s hm he).elim, fun topic hT => ?_, hbefore.fresh,
      fun m s hm he => (hbefore.topics m s hm he).elim⟩
    obtain ⟨m, hm, he, rfl⟩ := hT
    exact (hx.2 _ hm m rfl he).1
  have hend : Sound (run (step cfg) init (pre ++ post)) ∧
      Distinct (run (step cfg) init (pre ++ post)) ∧
      Delivers x e T (run (step cfg) init (pre ++ post)) := by
    rw [run_append]
    refine along_inv (P := fun w => Sound w ∧ Distinct w ∧ Delivers x e T w)
      (fun w op hop hw => ?_) ⟨hsound, hdistinct, hstart⟩ (along_mem hpost)
    refine ⟨hw.1.step hop.1, hw.2.1.step cfg op, hw.2.2.step hw.1 hw.2.1 hop.1 ?_⟩
    cases op with
    | publish m => exact fun he => ⟨m, hop.2, he, rfl⟩
    | unsubscribe topic y =>
      rintro ⟨m, hm, he, rfl⟩ rfl
      exact (hx.2 _ hm m rfl he).2 _ hop.2 (by simp [left])
    | _ => trivial
  obtain ⟨hs, -, hd⟩ := hend
  refine ⟨?_, fun hret hdone => ?_, (published_was_sent cfg (pre ++ post)).marked⟩
  · by_cases hin : e ∈ (run (step cfg) init (pre ++ post)).remembered
    · obtain ⟨t, ht, hh⟩ := hs.handed e hin
      cases t with
      | drain b s => exact hh.elim
      | publish m s =>
        rw [hd.reached m s ht hh.1 hh.2]
        cases s <;> simp only [PublishStage.reached] <;> (try split_ifs) <;> omega
    · rw [hd.fresh hin]
      exact Nat.zero_le 1
  · obtain ⟨t, ht, hr⟩ := hret
    obtain ⟨u, hu, hh⟩ := hs.handed e (hs.returned t ht e hr)
    cases u with
    | drain b s => exact hh.elim
    | publish m s =>
      rw [hd.reached m s hu hh.1 hh.2]
      cases s with
      | handler k => exact absurd ⟨_, hu, hh.1, rfl⟩ hdone
      | deadLetter k d => exact absurd ⟨_, hu, hh.1, rfl⟩ hdone
      | delivered => rfl
      | _ => cases hh.2

end BusWorld

/-! ## Retries -/

namespace Retries

open BusWorld

def message (messageId : String) : BusMessage :=
  ⟨messageId, "event-1", "correlation-1", "system.events.v1", "SYSTEM_STARTED", "test", 0,
    .obj []⟩

def required : EventBusConfig := ⟨true, true, 100000⟩

def optional : EventBusConfig := ⟨true, false, 100000⟩

/-- every call succeeds -/
def fine : BusEnv := ⟨1, .answered, .ok "1000-1", false⟩

def brokerDown : BusEnv := ⟨1, .answered, .error ("ConnectionError", ⟨.transport, "down"⟩), false⟩

def subscribed : List BusOp := [.subscribe "system.events.v1" 7]

/-- a publish whose transport fails, which is required: it raises -/
def failed : List BusOp :=
  [.publish (message "m-1"), .advance 0 fine, .advance 0 brokerDown, .advance 0 fine]

/-- its retry: the transport is back, and the event is handed around -/
def retried : List BusOp :=
  failed ++
    [.publish (message "m-2"), .advance 1 fine, .advance 1 fine, .advance 1 fine, .advance 1 fine]

/-- the same retry, after the dispatcher published the event -/
def drained : List BusOp :=
  failed ++
    [.drain 100, .advance 1 fine, .advance 1 fine, .advance 1 fine,
     .publish (message "m-2"), .advance 2 fine]

/-- two publishes of one event at once; the first one's transport fails, which is optional -/
def concurrent : List BusOp :=
  [.publish (message "m-1"), .publish (message "m-2"), .advance 0 fine, .advance 0 brokerDown,
   .advance 0 fine, .advance 0 fine, .advance 1 fine, .advance 1 fine, .advance 1 fine,
   .advance 1 fine, .advance 1 fine]

/-- the retry is delivered, once -/
theorem retry_delivered :
    (run (step required) init (subscribed ++ retried)).invoked.count (7, "event-1") = 1 :=
  (delivered_exactly_once required subscribed retried 7 "event-1" (by decide +kernel)
    (by decide +kernel)).2.1 (by decide +kernel) (by decide +kernel)

/-- the drain takes the event away from its handlers; the concurrent publish brings it twice -/
theorem dropped_or_doubled :
    (Throughout required subscribed drained 7 "event-1" ∧
      Returned (run (step required) init (subscribed ++ drained)) "event-1" ∧
      ¬ Handing (run (step required) init (subscribed ++ drained)) "event-1" ∧
      (run (step required) init (subscribed ++ drained)).invoked.count (7, "event-1") = 0) ∧
    Throughout optional subscribed concurrent 7 "event-1" ∧
      (run (step optional) init (subscribed ++ concurrent)).invoked.count (7, "event-1") = 2 := by
  decide +kernel

/-- two handlers, the first of which leaves while the event is handed to it -/
def leaving : List BusOp :=
  [.publish (message "m-1"), .advance 0 fine, .advance 0 fine, .advance 0 fine,
   .unsubscribe "system.events.v1" 6, .advance 0 fine]

/-- a handler that raises while another one of its topic takes dead letters too -/
def raising : List BusOp :=
  [.publish (message "m-1"), .advance 0 fine, .advance 0 fine, .advance 0 fine,
   .advance 0 { fine with raised := true }, .advance 0 fine]

/-- a fan-out that is disturbed skips a handler, or calls it twice -/
theorem disturbed_fan_out :
    (Throughout required ([.subscribe "system.events.v1" 6] ++ subscribed) leaving 7 "event-1" ∧
      Returned (run (step required) init (([.subscribe "system.events.v1" 6] ++ subscribed) ++
        leaving)) "event-1" ∧
      (run (step required) init (([.subscribe "system.events.v1" 6] ++ subscribed) ++
        leaving)).invoked.count (7, "event-1") = 0) ∧
    Throughout required (subscribed ++ [.subscribe Topics.deadLetter 7]) raising 7 "event-1" ∧
      (run (step required) init ((subscribed ++ [.subscribe Topics.deadLetter 7]) ++
        raising)).invoked.count (7, "event-1") = 2 := by
  decide +kernel

end Retries

end CapitalCipher
