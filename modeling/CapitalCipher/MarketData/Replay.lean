/-
Checkpointed replay of a candle dataset: `market_data/adapters/replay.py`, `schemas/replay.py` and the
two checkpoint transactions of the repository.

An `Attempt` is what the environment does to one `replay()` call: whether the load raises, which
candles the handler refuses, and what becomes of each checkpoint write, which may be refused or may
commit although its call raises. An event id and a dataset hash are taken to be what they digest, and
`utcnow()` is a reading per offset. The one row of the replay's key is the checkpoint store.

  • `emit_spec`: one pass over the rest of the dataset.
  • `replay_tape`: what a call hands out and saves continues where the calls before it stopped.
  • `replay_resumes_iff`: replay resumes without a gap and completes in every state of a run exactly
    when no call stores a FAILED checkpoint after the last candle.
  • `last_save_lost`: a run after which replay never completes.
-/
import CapitalCipher.Schemas.Market
import CapitalCipher.Lib.Run

namespace CapitalCipher

open Lib

inductive ReplayStatus where
  | running | completed | failed
  deriving DecidableEq, Repr

structure ReplayCheckpoint where
  replayId : String
  consumerName : String
  topic : String
  datasetHash : List Candle
  nextOffset : ℕ
  lastEventId : Option Candle
  eventsProcessed : ℕ
  status : ReplayStatus
  updatedAt : Time
  completedAt : Option Time
  deriving DecidableEq

structure ReplayResult where
  replayId : String
  datasetHash : List Candle
  startOffset : ℕ
  nextOffset : ℕ
  eventsEmitted : ℕ
  totalEvents : ℕ
  resumed : Bool
  completed : Bool
  deriving DecidableEq

/-- `^[A-Za-z0-9._:-]{3,128}$` -/
def validReplayId (s : String) : Bool :=
  decide (3 ≤ s.length ∧ s.length ≤ 128) &&
  s.toList.all fun c => c.isAlphanum || c ∈ ['.', '_', ':', '-']

def replayTopic : String := "market.replay.v1"

/-- the order of the replay's sort key -/
def replayBefore (a b : Candle) : Bool :=
  decide (a.closedAt < b.closedAt ∨ a.closedAt = b.closedAt ∧
    (a.exchange.value < b.exchange.value ∨ a.exchange.value = b.exchange.value ∧
      (a.symbol < b.symbol ∨ a.symbol = b.symbol ∧ a.timeframe ≤ b.timeframe)))

structure ReplayMarketDataAdapter where
  candles : List Candle
  replayId : String
  consumerName : String := "market-replay"
  /-- the ids the checkpoint model accepts; with others every call is refused -/
  accepted : validReplayId replayId = true ∧ validReplayId consumerName = true

/-- what becomes of a checkpoint write -/
inductive CheckpointWrite where
  | saved
  | refused   -- nothing is stored and the call raises
  | lost      -- the row is stored and the call raises all the same
  deriving DecidableEq, Repr

/-- what the environment does to one call -/
structure Attempt where
  /-- loading the checkpoint raises -/
  load : Bool
  start : CheckpointWrite
  /-- the handler raises on the candle at an offset -/
  handler : ℕ → Bool
  /-- the write after the candle at an offset -/
  saved : ℕ → CheckpointWrite
  /-- the write of the FAILED checkpoint -/
  failed : CheckpointWrite
  clock : ℕ → Time

/-- what a call does that others can see -/
inductive ReplayEvent where
  | handed (offset : ℕ) (candle : Candle)
  | checkpointed (nextOffset : ℕ)
  deriving DecidableEq

def storeError : Error := ⟨.database, "Failed to save replay checkpoint"⟩

def handlerError : Error := ⟨.transport, "handler failed"⟩

/-- `save_replay_checkpoint`: the row, what was committed, and what is raised -/
def saveReplayCheckpoint (w : CheckpointWrite) (c : ReplayCheckpoint)
    (row : Option ReplayCheckpoint) : Option ReplayCheckpoint × List ReplayEvent × Option Error :=
  match w with
  | .saved => (some c, [.checkpointed c.nextOffset], none)
  | .lost => (some c, [.checkpointed c.nextOffset], some storeError)
  | .refused => (row, [], some storeError)

/-- what the loop leaves -/
structure Emission where
  row : Option ReplayCheckpoint
  current : ReplayCheckpoint
  log : List ReplayEvent
  emitted : ℕ
  raised : Option Error

structure ReplayCall where
  row : Option ReplayCheckpoint
  log : List ReplayEvent
  result : Except Error ReplayResult

namespace ReplayMarketDataAdapter

/-- an adapter over a dataset in replay order -/
def new (candles : List Candle) (replayId consumerName : String)
    (h : validReplayId replayId = true ∧ validReplayId consumerName = true) :
    ReplayMarketDataAdapter :=
  ⟨candles.mergeSort replayBefore, replayId, consumerName, h⟩

variable (ad : ReplayMarketDataAdapter)

/-- `candle_dataset_hash` -/
def datasetHash : List Candle := ad.candles.map Candle.facts

/-- the checkpoint after a candle was handed out -/
def advanced (t : Attempt) (candle : Candle) (current : ReplayCheckpoint) : ReplayCheckpoint :=
  let nextOffset := current.nextOffset + 1
  let completed := nextOffset = ad.candles.length
  { current with
    nextOffset := nextOffset
    lastEventId := some candle.facts
    eventsProcessed := nextOffset
    status := if completed then .completed else .running
    updatedAt := t.clock nextOffset
    completedAt := if completed then some (t.clock nextOffset) else none }

/-- the loop over the candles that are left -/
def emit (t : Attempt) : List Candle → ReplayCheckpoint → Option ReplayCheckpoint → Emission
  | [], current, row => ⟨row, current, [], 0, none⟩
  | candle :: rest, current, row =>
    let index := current.nextOffset
    if t.handler index then ⟨row, current, [.handed index candle], 0, some handlerError⟩
    else
      let current := ad.advanced t candle current
      let (row, log, raised) := saveReplayCheckpoint (t.saved index) current row
      match raised with
      | some e => ⟨row, current, .handed index candle :: log, 1, some e⟩
      | none =>
        let next := emit t rest current row
        { next with
          log := .handed index candle :: (log ++ next.log), emitted := next.emitted + 1 }

/-- the offset to start from, when the checkpoint fits the dataset -/
def resume (checkpoint : Option ReplayCheckpoint) : Except Error ℕ :=
  match checkpoint with
  | none => .ok 0
  | some c =>
    if c.datasetHash ≠ ad.datasetHash then
      .error ⟨.transport, "Replay dataset differs from the checkpointed dataset"⟩
    else if ad.candles.length < c.nextOffset then
      .error ⟨.transport, "Replay checkpoint points beyond the dataset"⟩
    else if 0 < c.nextOffset ∧
        c.lastEventId ≠ (ad.candles[c.nextOffset - 1]?).map Candle.facts then
      .error ⟨.transport, "Replay checkpoint last_event_id does not match the dataset"⟩
    else .ok c.nextOffset

/-- the checkpoint a call opens with -/
def opening (t : Attempt) (checkpoint : Option ReplayCheckpoint) (start : ℕ) :
    ReplayCheckpoint where
  replayId := ad.replayId
  consumerName := ad.consumerName
  topic := replayTopic
  datasetHash := ad.datasetHash
  nextOffset := start
  lastEventId := checkpoint.bind ReplayCheckpoint.lastEventId
  eventsProcessed := start
  status := if ad.candles = [] then .completed else .running
  updatedAt := t.clock start
  completedAt := if ad.candles = [] then some (t.clock start) else none

/-- the checkpoint of a call that raised -/
def failed (t : Attempt) (current : ReplayCheckpoint) : ReplayCheckpoint :=
  { current with
    status := .failed, updatedAt := t.clock current.nextOffset, completedAt := none }

/-- the result of a call that did not raise -/
def resultOf (start nextOffset emitted : ℕ) (resumed completed : Bool) : ReplayResult where
  replayId := ad.replayId
  datasetHash := ad.datasetHash
  startOffset := start
  nextOffset := nextOffset
  eventsEmitted := emitted
  totalEvents := ad.candles.length
  resumed := resumed
  completed := completed

/-- a call from the write of its opening checkpoint on -/
def replayFrom (t : Attempt) (checkpoint : Option ReplayCheckpoint) (start : ℕ)
    (row : Option ReplayCheckpoint) : ReplayCall :=
  let (row, log, raised) := saveReplayCheckpoint t.start (ad.opening t checkpoint start) row
  match raised with
  | some e => ⟨row, log, .error e⟩
  | none =>
    let e := ad.emit t (ad.candles.drop start) (ad.opening t checkpoint start) row
    match e.raised with
    | some exc =>
      let (row, log', raised) := saveReplayCheckpoint t.failed (failed t e.current) e.row
      ⟨row, log ++ e.log ++ log', .error (raised.getD exc)⟩
    | none =>
      ⟨e.row, log ++ e.log, .ok (ad.resultOf start e.current.nextOffset e.emitted
        checkpoint.isSome (e.current.status == .completed))⟩

/-- `replay` -/
def replay (reset : Bool) (t : Attempt) (row : Option ReplayCheckpoint) : ReplayCall :=
  if !reset && t.load then ⟨row, [], .error storeError⟩
  else
    let checkpoint := if reset then none else row
    match ad.resume checkpoint with
    | .error e => ⟨row, [], .error e⟩
    | .ok start =>
      if checkpoint.any fun c => c.status == .completed then
        ⟨row, [], .ok (ad.resultOf start start 0 true true)⟩
      else ad.replayFrom t checkpoint start row

/-! ## runs of calls -/

/-- the checkpoint store, and what the handler and the store were given so far -/
structure World where
  row : Option ReplayCheckpoint := none
  log : List ReplayEvent := []

/-- one `replay()` -/
def step (w : World) (t : Attempt) : World :=
  let call := ad.replay false t w.row
  ⟨call.row, w.log ++ call.log⟩

/-- the offset the next call starts from -/
def offset (row : Option ReplayCheckpoint) : ℕ := (row.map ReplayCheckpoint.nextOffset).getD 0

/-- the deliveries of a log, with their offsets -/
def deliveries (log : List ReplayEvent) : List (ℕ × Candle) :=
  log.filterMap fun
    | .handed i c => some (i, c)
    | .checkpointed _ => none

/-- a list without its repeats, each item where it came first -/
def firsts (l : List (ℕ × Candle)) : List (ℕ × Candle) := l.reverse.dedup.reverse

/-- the dataset with its offsets -/
def numbered : List (ℕ × Candle) := ad.candles.zipIdx.map Prod.swap

/-- an environment that fails nothing -/
def faultless : Attempt where
  load := false
  start := .saved
  handler _ := false
  saved _ := .saved
  failed := .saved
  clock _ := 0

/-- what every state of a run should satisfy -/
structure Resumes (w : World) : Prop where
  /-- the deliveries, without repeats, are the dataset from its start -/
  inOrder : ∃ k, firsts (deliveries w.log) = ad.numbered.take k
  /-- what was checkpointed is not handed out again -/
  noReturn : ∀ pre post n, w.log = pre ++ .checkpointed n :: post →
    ∀ i c, .handed i c ∈ post → n ≤ i
  /-- once everything is checkpointed, a call without faults reports completion -/
  completes : ∀ c, w.row = some c → c.nextOffset = ad.candles.length →
    ∃ r, (ad.replay false faultless w.row).result = .ok r ∧ r.completed = true

/-- from an offset on, every candle is taken and every write but the last one succeeds -/
def LastSaveRaises (t : Attempt) (index : ℕ) : Prop :=
  (∀ i < ad.candles.length, index ≤ i → t.handler i = false) ∧
    (∀ i < ad.candles.length - 1, index ≤ i → t.saved i = .saved) ∧
    t.saved (ad.candles.length - 1) ≠ .saved

instance (t : Attempt) (index : ℕ) : Decidable (ad.LastSaveRaises t index) :=
  inferInstanceAs (Decidable (_ ∧ _))

/-- the call delivers the last candle, its last write raises, and it stores a FAILED checkpoint -/
def Wedges (row : Option ReplayCheckpoint) (t : Attempt) : Prop :=
  offset row < ad.candles.length ∧ t.load = false ∧ t.start = .saved ∧
    ad.LastSaveRaises t (offset row) ∧ t.failed ≠ .refused

instance (row : Option ReplayCheckpoint) (t : Attempt) : Decidable (ad.Wedges row t) :=
  inferInstanceAs (Decidable (_ ∧ _))

/-! ## the tape of a run -/

/-- a log that takes a replay with `k` distinct deliveries and a saved offset `r` to one with `k'` and
`r'`: deliveries start at the saved offset and never skip, saved offsets follow the deliveries -/
inductive Tape : ℕ → ℕ → List ReplayEvent → ℕ → ℕ → Prop
  | nil (k r : ℕ) : Tape k r [] k r
  | handed {k r k' r' i : ℕ} {c : Candle} {log : List ReplayEvent} (hr : r ≤ i) (hk : i ≤ k)
      (hc : ad.candles[i]? = some c) (h : Tape (max k (i + 1)) r log k' r') :
      Tape k r (.handed i c :: log) k' r'
  | checkpointed {k r k' r' n : ℕ} {log : List ReplayEvent} (hr : r ≤ n) (hk : n ≤ k)
      (h : Tape k n log k' r') : Tape k r (.checkpointed n :: log) k' r'

namespace Tape

variable {ad} {k r k' r' k'' r'' : ℕ} {log log' : List ReplayEvent}

theorem append (h : Tape ad k r log k' r') (h' : Tape ad k' r' log' k'' r'') :
    Tape ad k r (log ++ log') k'' r'' := by
  induction h with
  | nil => exact h'
  | handed hr hk hc _ ih => exact .handed hr hk hc (ih h')
  | checkpointed hr hk _ ih => exact .checkpointed hr hk (ih h')

/-- nothing is handed out below the saved offset -/
theorem handed_ge (h : Tape ad k r log k' r') :
    ∀ i c, ReplayEvent.handed i c ∈ log → r ≤ i := by
  induction h with
  | nil => exact fun _ _ hm => absurd hm (List.not_mem_nil)
  | handed hr _ _ _ ih =>
    intro i c hm
    rcases List.mem_cons.1 hm with hm | hm
    · cases hm
      exact hr
    · exact ih i c hm
  | checkpointed hr _ _ ih =>
    intro i c hm
    rcases List.mem_cons.1 hm with hm | hm
    · cases hm
    · exact hr.trans (ih i c hm)

theorem noReturn (h : Tape ad k r log k' r') {pre post : List ReplayEvent} {n : ℕ}
    (hlog : log = pre ++ .checkpointed n :: post) :
    ∀ i c, ReplayEvent.handed i c ∈ post → n ≤ i := by
  induction h generalizing pre with
  | nil => simp at hlog
  | handed _ _ _ _ ih =>
    cases pre with
    | nil => cases hlog
    | cons e pre =>
      rw [List.cons_append, List.cons.injEq] at hlog
      exact ih hlog.2
  | checkpointed _ _ hrest ih =>
    cases pre with
    | nil =>
      cases hlog
      exact hrest.handed_ge
    | cons e pre =>
      rw [List.cons_append, List.cons.injEq] at hlog
      exact ih hlog.2

theorem bounds (h : Tape ad k r log k' r') (hrk : r ≤ k) (hk : k ≤ ad.candles.length) :
    r' ≤ k' ∧ k' ≤ ad.candles.length := by
  induction h with
  | nil => exact ⟨hrk, hk⟩
  | handed _ _ hc _ ih =>
    obtain ⟨hlt, -⟩ := List.getElem?_eq_some_iff.1 hc
    exact ih (by omega) (by omega)
  | checkpointed _ hn _ ih => exact ih hn hk

end Tape

theorem firsts_snoc (l : List (ℕ × Candle)) (x : ℕ × Candle) :
    firsts (l ++ [x]) = if x ∈ l then firsts l else firsts l ++ [x] := by
  unfold firsts
  rw [List.reverse_append, List.reverse_singleton, List.singleton_append]
  split_ifs with h
  · rw [List.dedup_cons_of_mem (List.mem_reverse.2 h)]
  · rw [List.dedup_cons_of_notMem (fun hm => h (List.mem_reverse.1 hm)), List.reverse_cons]

theorem mem_firsts {l : List (ℕ × Candle)} {x : ℕ × Candle} : x ∈ firsts l ↔ x ∈ l := by
  simp [firsts]

theorem numbered_getElem? (i : ℕ) :
    ad.numbered[i]? = (ad.candles[i]?).map fun c => (i, c) := by
  simp only [numbered, List.getElem?_map, List.getElem?_zipIdx, Option.map_map]
  cases ad.candles[i]? <;> simp

variable {ad} in
/-- the deliveries of a tape extend the dataset's beginning -/
theorem Tape.inOrder {k r k' r' : ℕ} {log : List ReplayEvent} (h : Tape ad k r log k' r')
    {before : List (ℕ × Candle)} (hb : firsts before = ad.numbered.take k) :
    firsts (before ++ deliveries log) = ad.numbered.take k' := by
  induction h generalizing before with
  | nil => simpa [deliveries] using hb
  | @handed k r k' r' i c log hr hk hc _ ih =>
    have hat : ad.numbered[i]? = some (i, c) := by rw [numbered_getElem?, hc, Option.map_some]
    have hsnoc : firsts (before ++ [(i, c)]) = ad.numbered.take (max k (i + 1)) := by
      rw [firsts_snoc, hb]
      rcases hk.lt_or_eq with hlt | rfl
      · -- the offset was handed out before
        have hmem : (i, c) ∈ before := by
          rw [← mem_firsts, hb]
          exact List.mem_of_getElem? (by rw [List.getElem?_take_of_lt hlt, hat])
        rw [if_pos hmem, max_eq_left (by omega)]
      · have hnew : (i, c) ∉ before := by
          rw [← mem_firsts, hb, List.mem_iff_getElem?]
          rintro ⟨j, hj⟩
          have hji : j < i := by
            by_contra hge
            rw [List.getElem?_take_eq_none (not_lt.1 hge)] at hj
            cases hj
          rw [List.getElem?_take_of_lt hji, numbered_getElem?] at hj
          obtain ⟨x, -, hx⟩ := Option.map_eq_some_iff.1 hj
          cases hx
          exact absurd hji (lt_irrefl _)
        rw [if_neg hnew, max_eq_right (by omega), List.take_add_one, hat]
        rfl
    have := ih hsnoc
    rwa [List.append_assoc] at this
  | checkpointed _ _ _ ih => exact ih hb

/-! ## one call -/

/-- a checkpoint of this dataset -/
structure Fits (c : ReplayCheckpoint) : Prop where
  dataset : c.datasetHash = ad.datasetHash
  inside : c.nextOffset ≤ ad.candles.length
  last : 0 < c.nextOffset → c.lastEventId = (ad.candles[c.nextOffset - 1]?).map Candle.facts
  completed : c.status = .completed → c.nextOffset = ad.candles.length
  empty : ad.candles = [] → c.status = .completed

/-- everything checkpointed means COMPLETED -/
def Settled (row : Option ReplayCheckpoint) : Prop :=
  ∀ c, row = some c → c.nextOffset = ad.candles.length → c.status = .completed

variable {ad}

theorem save_cases (w : CheckpointWrite) (c : ReplayCheckpoint) (row : Option ReplayCheckpoint) :
    (w = .refused ∧ saveReplayCheckpoint w c row = (row, [], some storeError)) ∨
      w ≠ .refused ∧ ∃ raised, saveReplayCheckpoint w c row =
        (some c, [.checkpointed c.nextOffset], raised) ∧ (raised = none ↔ w = .saved) := by
  cases w
  · exact .inr ⟨by decide, none, rfl, by simp⟩
  · exact .inl ⟨rfl, rfl⟩
  · exact .inr ⟨by decide, some storeError, rfl, by simp⟩

theorem advanced_fits {t : Attempt} {candle : Candle} {current : ReplayCheckpoint}
    (h : Fits ad current) (hc : ad.candles[current.nextOffset]? = some candle) :
    Fits ad (ad.advanced t candle current) where
  dataset := h.dataset
  inside := (List.getElem?_eq_some_iff.1 hc).1
  last _ := by
    show some candle.facts = _
    simp [advanced, hc]
  completed hs := by
    by_contra hne
    simp only [advanced] at hs hne
    rw [if_neg hne] at hs
    cases hs
  empty he := by
    rw [he] at hc
    cases hc

theorem failed_fits {t : Attempt} {c : ReplayCheckpoint} (h : Fits ad c) (hne : ad.candles ≠ []) :
    Fits ad (failed t c) :=
  ⟨h.dataset, h.inside, h.last, (fun hs => nomatch hs), fun he => absurd he hne⟩

section LastSave

variable {t : Attempt} {index : ℕ}

/-- a write that raises is the last one exactly at the last candle -/
theorem lastSaveRaises_here (hlt : index < ad.candles.length) (hh : t.handler index = false)
    (hw : t.saved index ≠ .saved) :
    index + 1 = ad.candles.length ↔ ad.LastSaveRaises t index := by
  constructor
  · intro hn
    have hlast : ad.candles.length - 1 = index := by omega
    refine ⟨fun i hi hle => ?_, fun i hi hle => ?_, by rwa [hlast]⟩
    · obtain rfl : i = index := by omega
      exact hh
    · omega
  · rintro ⟨-, hsaved, -⟩
    by_contra hn
    exact hw (hsaved index (by omega) le_rfl)

/-- a candle that is taken and saved leaves the question to the candles after it -/
theorem lastSaveRaises_next (hh : t.handler index = false)
    (hw : t.saved index = .saved) :
    ad.LastSaveRaises t (index + 1) ↔ ad.LastSaveRaises t index := by
  constructor
  · rintro ⟨h1, h2, h3⟩
    refine ⟨fun i hi hle => ?_, fun i hi hle => ?_, h3⟩
    · rcases hle.lt_or_eq with hle | rfl
      · exact h1 i hi hle
      · exact hh
    · rcases hle.lt_or_eq with hle | rfl
      · exact h2 i hi hle
      · exact hw
  · rintro ⟨h1, h2, h3⟩
    exact ⟨fun i hi hle => h1 i hi (by omega), fun i hi hle => h2 i hi (by omega), h3⟩

end LastSave

/-- what one pass over the rest of the dataset leaves -/
structure EmitSpec (ad : ReplayMarketDataAdapter) (t : Attempt) (k : ℕ) (start : ReplayCheckpoint)
    (e : Emission) : Prop where
  tape : ∃ k', Tape ad k start.nextOffset e.log k' (offset e.row) ∧ e.current.nextOffset ≤ k'
  current : Fits ad e.current
  row : ∃ c, e.row = some c ∧ Fits ad c ∧ c.nextOffset ≤ e.current.nextOffset
  settled : ad.Settled (some start) → ad.Settled e.row
  inside : e.raised ≠ none → start.nextOffset < ad.candles.length
  finished : e.raised = none → e.row = some e.current ∧ e.current.nextOffset = ad.candles.length
  /-- a raise after the last candle: everything before went well -/
  wedged : start.nextOffset < ad.candles.length →
    (e.raised ≠ none ∧ e.current.nextOffset = ad.candles.length ↔
      ad.LastSaveRaises t start.nextOffset)

theorem emit_spec (t : Attempt) (rest : List Candle) (current : ReplayCheckpoint) {k : ℕ}
    (hrest : rest = ad.candles.drop current.nextOffset) (hfits : Fits ad current)
    (hk : current.nextOffset ≤ k) :
    EmitSpec ad t k current (ad.emit t rest current (some current)) := by
  induction rest generalizing current k with
  | nil =>
    have hlen : current.nextOffset = ad.candles.length :=
      le_antisymm hfits.inside (List.drop_eq_nil_iff.1 hrest.symm)
    refine ⟨⟨k, .nil _ _, hk⟩, hfits, ⟨current, rfl, hfits, le_rfl⟩, id, (fun hr => absurd rfl hr),
      fun _ => ⟨rfl, hlen⟩,
      fun hlt => ?_⟩
    omega
  | cons candle rest ih =>
    have hc : ad.candles[current.nextOffset]? = some candle := by
      rw [← List.head?_drop, ← hrest, List.head?_cons]
    have hrest' : rest = ad.candles.drop (current.nextOffset + 1) := by
      rw [← List.tail_drop, ← hrest, List.tail_cons]
    obtain ⟨hlt, -⟩ := List.getElem?_eq_some_iff.1 hc
    have hfits' := advanced_fits (t := t) hfits hc
    have hoff : (ad.advanced t candle current).nextOffset = current.nextOffset + 1 := rfl
    have hsettled' : ad.Settled (some (ad.advanced t candle current)) := by
      intro c hcur hn
      cases hcur
      simp only [advanced] at hn ⊢
      rw [if_pos hn]
    unfold emit
    simp only
    split_ifs with hh
    · -- the handler raises: nothing moves
      refine ⟨⟨_, .handed le_rfl hk hc (.nil _ _), ?_⟩, hfits, ⟨current, rfl, hfits, le_rfl⟩,
        id, (fun _ => hlt), (fun hr => nomatch hr),
        fun _ => ⟨fun hr => ?_, fun hr => ?_⟩⟩
      · exact hk.trans (le_max_left _ _)
      · exact absurd hr.2 hlt.ne
      · rw [hr.1 _ hlt le_rfl] at hh
        cases hh
    · have hh : t.handler current.nextOffset = false := by simpa using hh
      have hle : current.nextOffset + 1 ≤ max k (current.nextOffset + 1) := le_max_right _ _
      rcases save_cases (t.saved current.nextOffset) (ad.advanced t candle current) (some current)
        with ⟨hw, hsave⟩ | ⟨hw, raised, hsave, hraised⟩
      · -- the write is refused: the row stays, the pass ends one candle further
        rw [hsave]
        refine ⟨⟨_, .handed le_rfl hk hc (.nil _ _), hle⟩, hfits', ⟨current, rfl, hfits, ?_⟩,
          id, (fun _ => hlt), (fun hr => nomatch hr), fun _ => ?_⟩
        · exact Nat.le_succ _
        · rw [← lastSaveRaises_here hlt hh (by rw [hw]; decide)]
          simp [hoff]
      · rw [hsave]
        cases raised with
        | some e =>
          refine ⟨⟨_, .handed le_rfl hk hc (.checkpointed (Nat.le_succ _) hle (.nil _ _)), hle⟩,
            hfits', ⟨_, rfl, hfits', le_rfl⟩, (fun _ => hsettled'),
            (fun _ => hlt), (fun hr => nomatch hr), fun _ => ?_⟩
          rw [← lastSaveRaises_here hlt hh (fun hs => nomatch hraised.2 hs)]
          simp [hoff]
        | none =>
          have hw : t.saved current.nextOffset = .saved := hraised.1 rfl
          obtain ⟨⟨k', htape, hk'⟩, hcur, hrow, hset, -, hfin, hwedge⟩ :=
            ih (ad.advanced t candle current) hrest' hfits' hle
          refine ⟨⟨k', .handed le_rfl hk hc (.checkpointed (Nat.le_succ _) hle htape), hk'⟩, hcur,
            hrow, (fun _ => hset hsettled'), (fun _ => hlt), hfin, fun _ => ?_⟩
          rcases hfits'.inside.lt_or_eq with hlt' | heq
          · rw [← lastSaveRaises_next hh hw]
            exact hwedge hlt'
          · -- the last write succeeded
            have hnil : rest = [] := by rw [hrest', List.drop_eq_nil_iff, ← heq]; exact le_rfl
            have hlast : ad.candles.length - 1 = current.nextOffset := by omega
            constructor
            · rintro ⟨hr, -⟩
              rw [hnil] at hr
              exact absurd rfl hr
            · rintro ⟨-, -, hne⟩
              rw [hlast] at hne
              exact absurd hw hne

theorem resume_ok {row : Option ReplayCheckpoint} (h : ∀ c, row = some c → Fits ad c) :
    ad.resume row = .ok (offset row) := by
  cases row with
  | none => rfl
  | some c =>
    have hc := h c rfl
    unfold resume
    simp only
    rw [if_neg (not_not.2 hc.dataset), if_neg (not_lt.2 hc.inside),
      if_neg (fun hbad => hbad.2 (hc.last hbad.1))]
    rfl

/-- a loaded checkpoint of this dataset is resumed, unless it is COMPLETED -/
theorem replay_eq {t : Attempt} {row : Option ReplayCheckpoint} (hload : t.load = false)
    (h : ∀ c, row = some c → Fits ad c) :
    ad.replay false t row =
      if (row.any fun c => c.status == .completed) = true then
        ⟨row, [], .ok (ad.resultOf (offset row) (offset row) 0 true true)⟩
      else ad.replayFrom t row (offset row) row := by
  have hresume : ad.resume row = .ok (offset row) := resume_ok h
  unfold replay
  simp only [hload, Bool.and_false, Bool.false_eq_true, if_false, hresume]

theorem opening_fits (t : Attempt) {row : Option ReplayCheckpoint}
    (h : ∀ c, row = some c → Fits ad c) : Fits ad (ad.opening t row (offset row)) := by
  have hinside : offset row ≤ ad.candles.length := by
    cases row with
    | none => exact Nat.zero_le _
    | some c => exact (h c rfl).inside
  refine ⟨rfl, hinside, fun hpos => ?_, fun hs => ?_, fun he => if_pos he⟩
  · cases row with
    | none => exact absurd hpos (lt_irrefl 0)
    | some c => exact (h c rfl).last hpos
  · by_cases he : ad.candles = []
    · have hlen : ad.candles.length = 0 := by rw [he]; rfl
      show offset row = _
      omega
    · simp only [opening, if_neg he] at hs
      cases hs

/-- **One call.** Its deliveries and saved offsets continue the tape, and it leaves a settled store
settled unless it wedges -/
theorem replay_tape (t : Attempt) {row : Option ReplayCheckpoint} {k : ℕ}
    (hfits : ∀ c, row = some c → Fits ad c) (hk : offset row ≤ k) :
    (∃ k', Tape ad k (offset row) (ad.replay false t row).log k'
        (offset (ad.replay false t row).row)) ∧
      (∀ c, (ad.replay false t row).row = some c → Fits ad c) ∧
      (ad.Settled row → (ad.Settled (ad.replay false t row).row ↔ ¬ ad.Wedges row t)) := by
  -- a call that stops before it stores anything
  have hkept : ∀ result : Except Error ReplayResult, ¬ ad.Wedges row t →
      ad.replay false t row = ⟨row, [], result⟩ → (∃ k', Tape ad k (offset row)
        (ad.replay false t row).log k' (offset (ad.replay false t row).row)) ∧
      (∀ c, (ad.replay false t row).row = some c → Fits ad c) ∧
      (ad.Settled row → (ad.Settled (ad.replay false t row).row ↔ ¬ ad.Wedges row t)) := by
    intro result hwedge hcall
    rw [hcall]
    exact ⟨⟨k, .nil _ _⟩, hfits, fun hs => ⟨fun _ => hwedge, fun _ => hs⟩⟩
  cases hload : t.load with
  | true =>
    refine hkept (.error storeError) (fun hw => ?_) (by simp [replay, hload])
    rw [hw.2.1] at hload
    cases hload
  | false =>
  by_cases hcompleted : (row.any fun c => c.status == .completed) = true
  · refine hkept _ (fun hw => ?_) (by rw [replay_eq hload hfits, if_pos hcompleted])
    obtain ⟨c, rfl, hc⟩ := (Option.any_eq_true _ _).1 hcompleted
    have := (hfits c rfl).completed (by simpa using hc)
    exact absurd hw.1 (by simp [offset, this])
  have hcall : ad.replay false t row = ad.replayFrom t row (offset row) row := by
    rw [replay_eq hload hfits, if_neg hcompleted]
  have hopening := opening_fits t hfits
  have hsettled : ad.Settled row → ad.Settled (some (ad.opening t row (offset row))) := by
    intro hs c hc hn
    cases hc
    by_cases he : ad.candles = []
    · exact if_pos he
    · exfalso
      cases row with
      | none => exact he (List.length_eq_zero_iff.1 hn.symm)
      | some c => exact hcompleted (by simp [hs c rfl hn])
  rcases save_cases t.start (ad.opening t row (offset row)) row with
    ⟨hw, hsave⟩ | ⟨hw, raised, hsave, hraised⟩
  · refine hkept _ (fun hwedge => ?_) (by
      rw [hcall, replayFrom, hsave])
    rw [hwedge.2.2.1] at hw
    cases hw
  cases raised with
  | some e =>
    have hrow : ad.replay false t row = ⟨some (ad.opening t row (offset row)),
        [.checkpointed (offset row)], .error e⟩ := by rw [hcall, replayFrom, hsave]; rfl
    rw [hrow]
    refine ⟨⟨k, .checkpointed le_rfl hk (.nil _ _)⟩, ?_, fun hs => ⟨fun _ hwedge => ?_, fun _ => hsettled hs⟩⟩
    · intro c hc
      cases hc
      exact hopening
    · exact nomatch hraised.2 hwedge.2.2.1
  | none =>
    have hstart : t.start = .saved := hraised.1 rfl
    have hspec := emit_spec t (ad.candles.drop (offset row)) _ rfl hopening hk
    revert hspec hcall
    generalize hem : ad.emit t (ad.candles.drop (offset row)) (ad.opening t row (offset row))
      (some (ad.opening t row (offset row))) = em
    intro hcall hspec
    obtain ⟨⟨k', htape, hk'⟩, hcur, ⟨c, hc, hcfits, hcle⟩, hset, hin, hfin, hwedge⟩ := hspec
    cases hr : em.raised with
    | none =>
      have hrow : ad.replay false t row = ⟨em.row, [.checkpointed (offset row)] ++ em.log,
          .ok (ad.resultOf (offset row) em.current.nextOffset em.emitted row.isSome
            (em.current.status == .completed))⟩ := by
        rw [hcall, replayFrom, hsave]
        simp only [hem, hr]
        rfl
      rw [hrow]
      refine ⟨⟨k', .checkpointed le_rfl hk htape⟩, ?_, fun hs =>
        ⟨fun _ hw => ?_, fun _ => hset (hsettled hs)⟩⟩
      · intro x hx
        rw [hc] at hx
        cases hx
        exact hcfits
      · exact ((hwedge hw.1).2 hw.2.2.2.1).1 hr
    | some exc =>
      have hlt : offset row < ad.candles.length := hin (by rw [hr]; exact nofun)
      rcases save_cases t.failed (failed t em.current) em.row with
        ⟨hf, hsave'⟩ | ⟨hf, raised, hsave', -⟩
      · have hrow : ad.replay false t row = ⟨em.row, [.checkpointed (offset row)] ++ em.log ++ [],
            .error storeError⟩ := by
          rw [hcall, replayFrom, hsave]
          simp only [hem, hr, hsave']
          rfl
        rw [hrow, List.append_nil]
        refine ⟨⟨k', .checkpointed le_rfl hk htape⟩, ?_, fun hs =>
          ⟨fun _ hw => hw.2.2.2.2 hf, fun _ => hset (hsettled hs)⟩⟩
        intro x hx
        rw [hc] at hx
        cases hx
        exact hcfits
      · have hrow : ad.replay false t row = ⟨some (failed t em.current),
            [.checkpointed (offset row)] ++ em.log ++ [.checkpointed em.current.nextOffset],
            .error (raised.getD exc)⟩ := by
          rw [hcall, replayFrom, hsave]
          simp only [hem, hr, hsave']
          rfl
        rw [hrow]
        have htail : Tape ad k' (offset em.row) [.checkpointed em.current.nextOffset] k'
            em.current.nextOffset := by
          refine .checkpointed ?_ hk' (.nil _ _)
          rw [hc]
          exact hcle
        refine ⟨⟨k', .append (.checkpointed le_rfl hk htape) htail⟩, ?_, fun hs => ?_⟩
        · intro x hx
          cases hx
          exact failed_fits hcur (List.ne_nil_of_length_pos (by omega))
        · -- the FAILED checkpoint is settled unless it is at the end
          have hlast := hwedge hlt
          constructor
          · intro hset' hw
            have hn := (hlast.2 hw.2.2.2.1).2
            exact nomatch hset' _ rfl hn
          · intro hw x hx hn
            cases hx
            have hraises : em.raised ≠ none := by rw [hr]; exact nofun
            exact absurd ⟨hlt, hload, hstart, hlast.1 ⟨hraises, hn⟩, hf⟩ hw

/-! ## every run -/

/-- what every run keeps -/
structure Inv (ad : ReplayMarketDataAdapter) (w : World) (k : ℕ) : Prop where
  tape : Tape ad 0 0 w.log k (offset w.row)
  row : ∀ c, w.row = some c → Fits ad c

theorem step_inv {w : World} {k : ℕ} (h : Inv ad w k) (t : Attempt) :
    (∃ k', Inv ad (ad.step w t) k') ∧
      (ad.Settled w.row → (ad.Settled (ad.step w t).row ↔ ¬ ad.Wedges w.row t)) := by
  have hk := (h.tape.bounds le_rfl (Nat.zero_le _)).1
  obtain ⟨⟨k', htape⟩, hfits, hsettled⟩ := replay_tape t h.row hk
  exact ⟨⟨k', h.tape.append htape, hfits⟩, hsettled⟩

/-- with everything checkpointed, the next call without faults completes exactly when the store is
settled -/
theorem completes_iff {row : Option ReplayCheckpoint} (hfits : ∀ c, row = some c → Fits ad c) :
    (∀ c, row = some c → c.nextOffset = ad.candles.length →
      ∃ r, (ad.replay false faultless row).result = .ok r ∧ r.completed = true) ↔
      ad.Settled row := by
  refine forall_congr' fun c => forall_congr' fun hc => forall_congr' fun hn => ?_
  subst hc
  have hdrop : ad.candles.drop c.nextOffset = [] := List.drop_eq_nil_iff.2 (by omega)
  by_cases hs : c.status = .completed
  · refine iff_of_true ⟨ad.resultOf c.nextOffset c.nextOffset 0 true true, ?_, rfl⟩ hs
    have hany : ((some c).any fun c => c.status == .completed) = true := by simpa using hs
    rw [replay_eq rfl hfits, if_pos hany]
    rfl
  · refine iff_of_false ?_ hs
    rintro ⟨r, hr, hcompleted⟩
    have hne : ad.candles ≠ [] := fun he => hs ((hfits c rfl).empty he)
    have hany : ¬ ((some c).any fun c => c.status == .completed) = true := fun h =>
      hs (by simpa using h)
    rw [replay_eq rfl hfits, if_neg hany] at hr
    have hdrop : ad.candles.drop (offset (some c)) = [] := hdrop
    simp only [replayFrom, faultless, saveReplayCheckpoint, hdrop, emit, opening, if_neg hne,
      Except.ok.injEq] at hr
    rw [← hr] at hcompleted
    cases hcompleted

theorem resumes_iff {w : World} {k : ℕ} (h : Inv ad w k) : ad.Resumes w ↔ ad.Settled w.row := by
  constructor
  · intro hr
    exact (completes_iff h.row).1 hr.completes
  · intro hs
    refine ⟨⟨k, ?_⟩, fun pre post n hlog => h.tape.noReturn hlog, (completes_iff h.row).2 hs⟩
    have hstart : firsts [] = ad.numbered.take 0 := rfl
    exact h.tape.inOrder hstart

/-- **Replay resumes.** In every state of a run the deliveries are the dataset in order without a gap,
nothing checkpointed is handed out again and the replay can complete, exactly when no call stores a
FAILED checkpoint after the last candle -/
theorem replay_resumes_iff (ad : ReplayMarketDataAdapter) (attempts : List Attempt) :
    (∀ n, ad.Resumes (run ad.step {} (attempts.take n))) ↔
      Along ad.step (fun w t => ¬ ad.Wedges w.row t) {} attempts := by
  suffices hgen : ∀ (w : World) (k : ℕ), Inv ad w k → ad.Settled w.row →
      ((∀ n, ad.Resumes (run ad.step w (attempts.take n))) ↔
        Along ad.step (fun w t => ¬ ad.Wedges w.row t) w attempts) from
    hgen {} 0 ⟨.nil _ _, fun _ hc => nomatch hc⟩ fun _ hc => nomatch hc
  induction attempts with
  | nil =>
    intro w k h hs
    simpa [Along] using fun _ : ℕ => (resumes_iff h).2 hs
  | cons t attempts ih =>
    intro w k h hs
    obtain ⟨⟨k', h'⟩, hsettled⟩ := step_inv h t
    constructor
    · intro hall
      have hs' : ad.Settled (ad.step w t).row := (resumes_iff h').1 (hall 1)
      exact ⟨(hsettled hs).1 hs', (ih _ k' h' hs').1 fun n => hall (n + 1)⟩
    · rintro ⟨hw, halong⟩ n
      have hs' := (hsettled hs).2 hw
      cases n with
      | zero => exact (resumes_iff h).2 hs
      | succ n => exact (ih _ k' h' hs').2 halong n

/-- a dataset of one candle -/
def oneCandle : ReplayMarketDataAdapter where
  candles := [
    { exchange := .binance, symbol := "BTCUSDT", timeframe := "1m", openPrice := 1, high := 1
      low := 1, close := 1, volume := 0, closedAt := 60, receivedAt := 60 }]
  replayId := "replay"
  accepted := by decide +kernel

/-- the store refuses the checkpoint after the last candle and takes the FAILED one -/
def lastSaveRefused : Attempt := { faultless with saved := fun _ => .refused }

/-- the candle is delivered and checkpointed, and the next call without faults does not complete -/
theorem last_save_lost :
    (run oneCandle.step {} [lastSaveRefused]).row.map ReplayCheckpoint.nextOffset =
        some oneCandle.candles.length ∧
      (oneCandle.replay false faultless (run oneCandle.step {} [lastSaveRefused]).row).result =
        .ok (oneCandle.resultOf 1 1 0 true false) ∧
      ¬ oneCandle.Resumes (run oneCandle.step {} [lastSaveRefused]) := by
  have hresult :
      (oneCandle.replay false faultless (run oneCandle.step {} [lastSaveRefused]).row).result =
        .ok (oneCandle.resultOf 1 1 0 true false) := rfl
  refine ⟨rfl, hresult, fun h => ?_⟩
  obtain ⟨r, hr, hcompleted⟩ := h.completes _ rfl rfl
  rw [hresult, Except.ok.injEq] at hr
  rw [← hr] at hcompleted
  cases hcompleted

end ReplayMarketDataAdapter

end CapitalCipher
