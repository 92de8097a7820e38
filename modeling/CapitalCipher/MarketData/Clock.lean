/-
The clock gate of `market_data/clock.py`: probes of an exchange's clock, the registry of the latest
evidence and the verdict a backfill asks for.

A probe is suspended in its request and again in its save; any number of probes take turns in any
order, and the request or the save of any of them may raise. An observation counts as persisted when
its save has returned; the same segment records it in the registry.

  • `evaluateClockProbe_bound`: what the midpoint estimate may miss is half the round trip.
  • `clock_gate_iff`: every verdict of a run is sound, and it is based on the newest evidence as long
    as the saves return in the order of the response times, and only as long.
  • `overtaken_probe`: the older of two probes returns last and is trusted over the newer one.
-/
import CapitalCipher.Lib.Run
import CapitalCipher.Schemas.Backfill

namespace CapitalCipher

open Lib

structure ClockObservation where
  source : String
  requestStartedAt : Time
  sourceAt : Time
  responseReceivedAt : Time
  offsetMs : ℚ
  roundTripMs : ℚ
  status : ClockStatus
  deriving DecidableEq

structure ClockThresholds where
  warningOffsetMs : ℚ
  unsafeOffsetMs : ℚ
  warningRoundTripMs : ℚ
  unsafeRoundTripMs : ℚ

/-- the status of an offset and a round trip -/
def ClockThresholds.status (t : ClockThresholds) (offsetMs roundTripMs : ℚ) : ClockStatus :=
  if t.unsafeOffsetMs < |offsetMs| ∨ t.unsafeRoundTripMs < roundTripMs then .unsafeOffset
  else if t.warningOffsetMs < |offsetMs| ∨ t.warningRoundTripMs < roundTripMs then .warning
  else .synced

/-- `evaluate_clock_probe` -/
def evaluateClockProbe (t : ClockThresholds) (source : String)
    (requestStartedAt sourceAt responseReceivedAt : Time) : Except Error ClockObservation :=
  if responseReceivedAt < requestStartedAt then
    .error ⟨.transport, "response_received_at must not precede request_started_at"⟩
  else if ¬ (0 ≤ t.warningOffsetMs ∧ t.warningOffsetMs ≤ t.unsafeOffsetMs) then
    .error ⟨.transport, "clock offset thresholds are inconsistent"⟩
  else if ¬ (0 ≤ t.warningRoundTripMs ∧ t.warningRoundTripMs ≤ t.unsafeRoundTripMs) then
    .error ⟨.transport, "round-trip thresholds are inconsistent"⟩
  else
    let roundTripMs : ℚ := ((responseReceivedAt : ℚ) - requestStartedAt) / 1000
    let midpoint : ℚ := requestStartedAt + ((responseReceivedAt : ℚ) - requestStartedAt) / 2
    let offsetMs : ℚ := (sourceAt - midpoint) / 1000
    .ok { source := source, requestStartedAt := requestStartedAt, sourceAt := sourceAt,
          responseReceivedAt := responseReceivedAt, offsetMs := offsetMs, roundTripMs := roundTripMs,
          status := t.status offsetMs roundTripMs }

structure ClockTrustVerdict where
  exchange : Exchange
  status : ClockStatus
  trusted : Bool
  observation : Option ClockObservation
  reason : String
  deriving DecidableEq

structure ExchangeClockRegistry where
  maxAgeSeconds : ℚ
  latest : Exchange → Option ClockObservation

namespace ExchangeClockRegistry

/-- `record` -/
def record (r : ExchangeClockRegistry) (exchange : Exchange) (observation : ClockObservation) :
    ExchangeClockRegistry :=
  { r with latest := Function.update r.latest exchange (some observation) }

/-- `verdict` -/
def verdict (r : ExchangeClockRegistry) (exchange : Exchange) (now : Time) : ClockTrustVerdict :=
  match r.latest exchange with
  | none => ⟨exchange, .unknown, false, none, "No clock observation is available"⟩
  | some observation =>
    let ageSeconds : ℚ := ((now : ℚ) - observation.responseReceivedAt) / 1000000
    if ageSeconds < 0 ∨ r.maxAgeSeconds < ageSeconds then
      ⟨exchange, .unknown, false, some observation, "Clock observation is stale or from the future"⟩
    else
      let trusted := decide (observation.status = .synced ∨ observation.status = .warning)
      ⟨exchange, observation.status, trusted, some observation,
        if trusted then "Clock evidence is within the ingestion gate"
        else "Clock offset or round-trip latency is unsafe"⟩

/-- `require_trusted` -/
def requireTrusted (r : ExchangeClockRegistry) (exchange : Exchange) (now : Time) :
    Except Error ClockTrustVerdict :=
  let v := r.verdict exchange now
  if v.trusted then .ok v
  else .error ⟨.dataQuality, "Trusted market-data ingestion blocked by clock gate"⟩

theorem verdict_observation (r : ExchangeClockRegistry) (exchange : Exchange) (now : Time) :
    (r.verdict exchange now).observation = r.latest exchange := by
  unfold verdict
  cases r.latest exchange with
  | none => rfl
  | some observation =>
    dsimp only
    split_ifs
    all_goals rfl

/-- a verdict is trusted on an observation that is not unsafe -/
theorem verdict_trusted {r : ExchangeClockRegistry} {exchange : Exchange} {now : Time}
    (h : (r.verdict exchange now).trusted = true) :
    ∃ o, r.latest exchange = some o ∧ (o.status = .synced ∨ o.status = .warning) := by
  unfold verdict at h
  cases ho : r.latest exchange with
  | none =>
    rw [ho] at h
    cases h
  | some o =>
    rw [ho] at h
    dsimp only at h
    split_ifs at h
    all_goals exact ⟨o, rfl, of_decide_eq_true h⟩

end ExchangeClockRegistry

/-- where a `probe` call stands -/
inductive ProbeState where
  | idle
  | requesting (exchange : Exchange) (startedAt : Time)
  | saving (exchange : Exchange) (observation : ClockObservation)

/-- the registry, what the saves have stored, and the probes under way -/
structure ClockMonitor where
  registry : ExchangeClockRegistry
  persisted : List (Exchange × ClockObservation) := []
  probes : ℕ → ProbeState := fun _ => .idle

inductive ClockOp where
  /-- a call of `probe` sends its request -/
  | start (probe : ℕ) (exchange : Exchange) (now : Time)
  /-- the answer arrives, is evaluated and handed to the save -/
  | respond (probe : ℕ) (sourceAt now : Time)
  /-- the request or the save raises -/
  | fails (probe : ℕ)
  /-- the save returns -/
  | saved (probe : ℕ)
  deriving DecidableEq

/-- the `source` the client names -/
def clockSource : Exchange → String
  | .binance => "binance.server-time"
  | .bybit => "bybit.server-time"

namespace ClockMonitor

def put (s : ClockMonitor) (probe : ℕ) (state : ProbeState) : ClockMonitor :=
  { s with probes := Function.update s.probes probe state }

/-- one segment of one `ExchangeClockMonitor.probe` call -/
def step (t : ClockThresholds) (s : ClockMonitor) : ClockOp → ClockMonitor
  | .start probe exchange now =>
    match s.probes probe with
    | .idle => s.put probe (.requesting exchange now)
    | _ => s
  | .respond probe sourceAt now =>
    match s.probes probe with
    | .requesting exchange startedAt =>
      match evaluateClockProbe t (clockSource exchange) startedAt sourceAt now with
      | .ok observation => s.put probe (.saving exchange observation)
      | .error _ => s.put probe .idle
    | _ => s
  | .fails probe => s.put probe .idle
  | .saved probe =>
    match s.probes probe with
    | .saving exchange observation =>
      { s with registry := s.registry.record exchange observation
               persisted := (exchange, observation) :: s.persisted
               probes := Function.update s.probes probe .idle }
    | _ => s

/-- a monitor that has probed nothing -/
def fresh (maxAgeSeconds : ℚ) : ClockMonitor := { registry := ⟨maxAgeSeconds, fun _ => none⟩ }

/-! ## The estimate -/

/-- evidence as the probe made it -/
def Evaluated (t : ClockThresholds) (o : ClockObservation) : Prop :=
  evaluateClockProbe t o.source o.requestStartedAt o.sourceAt o.responseReceivedAt = .ok o

theorem evaluated_of_ok {t : ClockThresholds} {source : String} {started sourceAt received : Time}
    {o : ClockObservation} (h : evaluateClockProbe t source started sourceAt received = .ok o) :
    Evaluated t o := by
  have hfields : o.source = source ∧ o.requestStartedAt = started ∧ o.sourceAt = sourceAt ∧
      o.responseReceivedAt = received := by
    unfold evaluateClockProbe at h
    split_ifs at h
    cases h
    exact ⟨rfl, rfl, rfl, rfl⟩
  obtain ⟨rfl, rfl, rfl, rfl⟩ := hfields
  exact h

/-- the true offset of a clock read at `stampedAt` of the local clock -/
def trueOffsetMs (o : ClockObservation) (stampedAt : ℚ) : ℚ := (o.sourceAt - stampedAt) / 1000

/-- wherever between request and response the exchange stamped its time, the estimate misses the true
offset by half the round trip at most -/
theorem evaluateClockProbe_bound {t : ClockThresholds} {o : ClockObservation} (h : Evaluated t o)
    (hsafe : o.status = .synced ∨ o.status = .warning) {stampedAt : ℚ}
    (hafter : (o.requestStartedAt : ℚ) ≤ stampedAt) (hbefore : stampedAt ≤ o.responseReceivedAt) :
    |trueOffsetMs o stampedAt| ≤ t.unsafeOffsetMs + o.roundTripMs / 2 := by
  obtain ⟨hoffset, hround, hstatus⟩ : o.offsetMs = ((o.sourceAt : ℚ) -
      (o.requestStartedAt + ((o.responseReceivedAt : ℚ) - o.requestStartedAt) / 2)) / 1000 ∧
      o.roundTripMs = ((o.responseReceivedAt : ℚ) - o.requestStartedAt) / 1000 ∧
      o.status = t.status o.offsetMs o.roundTripMs := by
    unfold Evaluated evaluateClockProbe at h
    split_ifs at h
    injection h with h
    constructor
    · rw [← h]
    · constructor
      · rw [← h]
      · rw [← h]
  have hestimate : |o.offsetMs| ≤ t.unsafeOffsetMs := by
    by_contra hlarge
    have hunsteady : o.status = .unsafeOffset := by
      rw [hstatus, ClockThresholds.status, if_pos (.inl (not_le.1 hlarge))]
    rw [hunsteady] at hsafe
    rcases hsafe with h | h
    · cases h
    · cases h
  have hmiss : |trueOffsetMs o stampedAt - o.offsetMs| ≤ o.roundTripMs / 2 := by
    rw [hoffset, hround, trueOffsetMs, abs_le]
    constructor
    · linarith
    · linarith
  calc |trueOffsetMs o stampedAt|
      = |o.offsetMs + (trueOffsetMs o stampedAt - o.offsetMs)| := by ring_nf
    _ ≤ |o.offsetMs| + |trueOffsetMs o stampedAt - o.offsetMs| := abs_add_le _ _
    _ ≤ t.unsafeOffsetMs + o.roundTripMs / 2 := add_le_add hestimate hmiss

/-! ## Runs -/

variable {t : ClockThresholds} {s : ClockMonitor}

/-- what a probe hands to its save, and what the registry holds, was evaluated -/
structure Evidence (t : ClockThresholds) (s : ClockMonitor) : Prop where
  latest : ∀ exchange o, s.registry.latest exchange = some o → Evaluated t o
  saving : ∀ probe exchange o, s.probes probe = .saving exchange o → Evaluated t o

theorem Evidence.put {probe : ℕ} {state : ProbeState} (h : Evidence t s)
    (hstate : ∀ exchange o, state = .saving exchange o → Evaluated t o) :
    Evidence t (s.put probe state) := by
  refine ⟨h.latest, fun p exchange o hp => ?_⟩
  have hupdate : Function.update s.probes probe state p = .saving exchange o := hp
  rw [Function.update_apply] at hupdate
  split_ifs at hupdate with heq
  · exact hstate exchange o hupdate
  · exact h.saving p exchange o hupdate

theorem Evidence.step (h : Evidence t s) (op : ClockOp) : Evidence t (s.step t op) := by
  cases op with
  | start probe exchange now =>
    cases hp : s.probes probe with
    | idle =>
      simp only [ClockMonitor.step, hp]
      exact h.put fun exchange o hstate => by cases hstate
    | requesting e startedAt => simpa only [ClockMonitor.step, hp] using h
    | saving e o => simpa only [ClockMonitor.step, hp] using h
  | respond probe sourceAt now =>
    cases hp : s.probes probe with
    | idle => simpa only [ClockMonitor.step, hp] using h
    | requesting e startedAt =>
      simp only [ClockMonitor.step, hp]
      cases ho : evaluateClockProbe t (clockSource e) startedAt sourceAt now with
      | error err => exact h.put fun exchange o hstate => by cases hstate
      | ok o =>
        refine h.put fun exchange o' hstate => ?_
        cases hstate
        exact evaluated_of_ok ho
    | saving e o => simpa only [ClockMonitor.step, hp] using h
  | fails probe => exact h.put fun exchange o hstate => by cases hstate
  | saved probe =>
    cases hp : s.probes probe with
    | idle => simpa only [ClockMonitor.step, hp] using h
    | requesting e startedAt => simpa only [ClockMonitor.step, hp] using h
    | saving e o =>
      have hput : Evidence t (s.put probe .idle) := h.put fun exchange o hstate => by cases hstate
      simp only [ClockMonitor.step, hp]
      refine ⟨fun exchange o' ho' => ?_, hput.saving⟩
      simp only [ExchangeClockRegistry.record, Function.update_apply] at ho'
      split_ifs at ho' with heq
      · cases ho'
        exact h.saving probe e o hp
      · exact h.latest exchange o' ho'

/-- a trusted verdict has evidence that bounds the true offset -/
def Sound (t : ClockThresholds) (s : ClockMonitor) : Prop :=
  ∀ exchange now, (s.registry.verdict exchange now).trusted = true →
    ∃ o, (s.registry.verdict exchange now).observation = some o ∧
      ∀ stampedAt : ℚ, o.requestStartedAt ≤ stampedAt → stampedAt ≤ o.responseReceivedAt →
        |trueOffsetMs o stampedAt| ≤ t.unsafeOffsetMs + o.roundTripMs / 2

theorem Evidence.sound (h : Evidence t s) : Sound t s := by
  intro exchange now htrusted
  obtain ⟨o, ho, hsafe⟩ := ExchangeClockRegistry.verdict_trusted htrusted
  refine ⟨o, (s.registry.verdict_observation exchange now).trans ho, ?_⟩
  intro stampedAt hafter hbefore
  exact evaluateClockProbe_bound (h.latest exchange o ho) hsafe hafter hbefore

/-- nothing is persisted for the exchange, or `o` is, and nothing that is answered `o`'s later -/
def Newest (persisted : List (Exchange × ClockObservation)) (exchange : Exchange)
    (o : Option ClockObservation) : Prop :=
  o.elim (∀ o', (exchange, o') ∉ persisted) fun o => (exchange, o) ∈ persisted ∧
    ∀ o', (exchange, o') ∈ persisted → o'.responseReceivedAt ≤ o.responseReceivedAt

/-- every verdict is based on the newest persisted evidence -/
def NewestEvidence (s : ClockMonitor) : Prop :=
  ∀ exchange now, Newest s.persisted exchange (s.registry.verdict exchange now).observation

theorem newestEvidence_iff :
    s.NewestEvidence ↔ ∀ exchange, Newest s.persisted exchange (s.registry.latest exchange) := by
  simp only [NewestEvidence, ExchangeClockRegistry.verdict_observation, forall_const]

/-- a save returns for an observation that answered no earlier than any persisted before it -/
def InOrder (s : ClockMonitor) : ClockOp → Prop
  | .saved probe => ∀ exchange o, s.probes probe = .saving exchange o →
      ∀ o', (exchange, o') ∈ s.persisted → o'.responseReceivedAt ≤ o.responseReceivedAt
  | _ => True

/-- a save that returns keeps the evidence newest exactly when it returns in order -/
theorem newest_saved {probe : ℕ} {e : Exchange} {o : ClockObservation}
    (hp : s.probes probe = .saving e o) (h : s.NewestEvidence) :
    (s.step t (.saved probe)).NewestEvidence ↔ s.InOrder (.saved probe) := by
  rw [newestEvidence_iff] at h ⊢
  simp only [InOrder, ClockMonitor.step, hp, ProbeState.saving.injEq, and_imp]
  constructor
  · rintro hnew e' o' rfl rfl o'' ho''
    have hlatest := hnew e
    rw [ExchangeClockRegistry.record] at hlatest
    dsimp only at hlatest
    rw [Function.update_self] at hlatest
    exact hlatest.2 o'' (List.mem_cons_of_mem _ ho'')
  · intro horder exchange
    rw [ExchangeClockRegistry.record]
    dsimp only
    by_cases heq : exchange = e
    · subst heq
      rw [Function.update_self]
      refine ⟨List.mem_cons_self, fun o' ho' => ?_⟩
      rcases List.mem_cons.1 ho' with hsame | ho'
      · cases hsame
        exact le_rfl
      · exact horder exchange o rfl rfl o' ho'
    · rw [Function.update_of_ne heq]
      have hother : ∀ o', (exchange, o') ∈ (e, o) :: s.persisted ↔ (exchange, o') ∈ s.persisted := by
        intro o'
        simp [heq]
      have hold := h exchange
      unfold Newest at hold ⊢
      simpa only [hother] using hold

theorem newest_step (op : ClockOp) (h : s.NewestEvidence) :
    (s.step t op).NewestEvidence ↔ s.InOrder op := by
  cases op with
  | start probe exchange now =>
    refine iff_of_true ?_ trivial
    cases hp : s.probes probe with
    | idle =>
      simp only [ClockMonitor.step, hp]
      exact h
    | requesting e startedAt => simpa only [ClockMonitor.step, hp] using h
    | saving e o => simpa only [ClockMonitor.step, hp] using h
  | respond probe sourceAt now =>
    refine iff_of_true ?_ trivial
    cases hp : s.probes probe with
    | idle => simpa only [ClockMonitor.step, hp] using h
    | requesting e startedAt =>
      simp only [ClockMonitor.step, hp]
      cases evaluateClockProbe t (clockSource e) startedAt sourceAt now with
      | error err => exact h
      | ok o => exact h
    | saving e o => simpa only [ClockMonitor.step, hp] using h
  | fails probe => exact iff_of_true h trivial
  | saved probe =>
    cases hp : s.probes probe with
    | idle =>
      refine iff_of_true (by simpa only [ClockMonitor.step, hp] using h) ?_
      intro e o hsaving
      rw [hp] at hsaving
      cases hsaving
    | requesting e startedAt =>
      refine iff_of_true (by simpa only [ClockMonitor.step, hp] using h) ?_
      intro e o hsaving
      rw [hp] at hsaving
      cases hsaving
    | saving e o => exact newest_saved hp h

/-- **Clock gate.** In every state of a run every verdict is sound and based on the newest persisted
evidence, if and only if the saves of each exchange return in the order of their response times. -/
theorem clock_gate_iff (t : ClockThresholds) (maxAgeSeconds : ℚ) (ops : List ClockOp) :
    (∀ pre, pre <+: ops → (run (step t) (fresh maxAgeSeconds) pre).NewestEvidence ∧
      Sound t (run (step t) (fresh maxAgeSeconds) pre)) ↔
        Along (step t) InOrder (fresh maxAgeSeconds) ops := by
  have hfresh : (fresh maxAgeSeconds).NewestEvidence :=
    newestEvidence_iff.2 fun exchange o ho => List.not_mem_nil ho
  have hevidence : Evidence t (fresh maxAgeSeconds) := by
    refine ⟨fun exchange o ho => ?_, fun probe exchange o ho => ?_⟩
    · cases ho
    · cases ho
  have hsound : ∀ pre, Sound t (run (step t) (fresh maxAgeSeconds) pre) := fun pre =>
    (run_inv (fun w op (hw : Evidence t w) => hw.step op) hevidence pre).sound
  simp only [hsound, and_true]
  exact prefix_iff (fun w op hw => newest_step op hw) hfresh ops

/-! ## A probe that is overtaken -/

/-- the thresholds of the configuration -/
def thresholds : ClockThresholds := ⟨500, 2000, 1000, 5000⟩

/-- the first probe answers after 100 ms, in step with the exchange; the second one answers later, ten
seconds off, and its save returns first -/
def overtaken : List ClockOp :=
  [.start 0 .binance 1000000, .start 1 .binance 1050000, .respond 0 1050000 1100000,
   .respond 1 11100000 1150000, .saved 1, .saved 0]

/-- the newer, unsafe evidence is replaced by the older one, and the verdict is trusted -/
theorem overtaken_probe :
    ((run (step thresholds) (fresh 90) overtaken).registry.verdict .binance 1200000).trusted = true ∧
    (((run (step thresholds) (fresh 90) overtaken).registry.verdict .binance 1200000).observation.map
      ClockObservation.responseReceivedAt) = some 1100000 ∧
    ((run (step thresholds) (fresh 90) overtaken).persisted.map fun p =>
      (p.1, p.2.responseReceivedAt, p.2.status)) =
        [(.binance, 1100000, .synced), (.binance, 1150000, .unsafeOffset)] := by
  decide +kernel

end ClockMonitor

end CapitalCipher
