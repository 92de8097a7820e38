/-
Decision cycles on any number of processes, over one database.

Every process has its own candle store and desk; its cycles interleave at every call, it crashes and is
started again, and what it held in memory is lost. `saveCandle` runs the transaction of the repository,
which may be refused or committed with its reply lost, and other writers may save candles before it. The
store answers as the store does, a consensus is computed from some scorecards, and every other component
answers whatever it likes.

  • `order_authorised`: no order is asked for on a path around a gate, the audit or the risk check.
  • `orders_tradable`: every order is a trade of the primary agents, whatever was put over them.
  • `one_cycle_per_candle`: over all processes, one cycle at most evaluates a candle, with one order.
  • `manual_never_evaluates`: a cycle started for the latest candle of the store gets nowhere.
-/
import CapitalCipher.Orchestrator.Discipline
import CapitalCipher.System.World

namespace CapitalCipher

open Lib Lib.Coro Lib.Coro.Assembly

/-- what all cycles stand on -/
structure Market where
  db : Db
  /-- the candle store of each process -/
  stores : ℕ → CandleBuckets

/-- how a cycle is started -/
structure CycleStart where
  event : CycleEvent
  /-- by `POST /orchestrator/evaluate`, on the latest candle of the store -/
  manual : Bool

/-- what is open about a reply -/
structure CycleChoice where
  /-- the answer of a component that is not modelled -/
  answer : (q : CycleCall) → Except Error q.Reply
  /-- how the transaction goes -/
  fault : Fault := .none
  /-- what other writers save first -/
  saved : List (Candle × DataQualityReport) := []
  /-- what other tasks of the process put into its store first -/
  delivered : List Candle := []
  /-- what the consensus service reads -/
  panel : ConsensusPanel

namespace Market

/-- a candle saved by some writer -/
def save (m : Market) (s : Candle × DataQualityReport) : Market :=
  { m with db := (Tx.commit (Repository.saveCandle s.1 s.2) m.db).2 }

/-- a candle put into the store of a process -/
def deliver (node : ℕ) (m : Market) (c : Candle) : Market :=
  { m with stores := Function.update m.stores node ((m.stores node).fed 500 c) }

/-- what others do before a reply -/
def meanwhile (node : ℕ) (choice : CycleChoice) (m : Market) : Market :=
  choice.delivered.foldl (deliver node) (choice.saved.foldl save m)

/-- the transaction of `saveCandle`, as it goes -/
def saving (fault : Fault) (c : Candle) (quality : DataQualityReport) (m : Market) :
    Except Error Bool × Market :=
  match fault with
  | .none => ((Tx.commit (Repository.saveCandle c quality) m.db).1, m.save (c, quality))
  | .refused e => (.error e, m)
  | .lost e => (.error e, m.save (c, quality))

/-- the answer of the store to `add` -/
def storing (node : ℕ) (c : Candle) (m : Market) : Except Error Bool × Market :=
  (((m.stores node).add 500 c).map Prod.snd, m.deliver node c)

/-- the answer of the consensus service -/
def consensus (choice : CycleChoice) (baseline : ScoredDecision) (outputs : List AgentOutput)
    (registrations : Registrations) : Except Error WeightedConsensus :=
  match choice.answer (.evaluateConsensus baseline outputs registrations) with
  | .error e => .error e
  | .ok _ =>
    ConsensusPanel.evaluate { choice.panel with registrations := registrations } baseline outputs

/-- the reply to a call, when the others are done -/
def reply (node : ℕ) (choice : CycleChoice) : (q : CycleCall) → Market → Except Error q.Reply × Market
  | .saveCandle c quality, m => m.saving choice.fault c quality
  | .storeCandle c, m => m.storing node c
  | .recentCandles exchange symbol timeframe limit, m =>
    (.ok ((m.stores node).get exchange symbol timeframe limit), m)
  | .evaluateConsensus baseline outputs registrations, m =>
    (consensus choice baseline outputs registrations, m)
  | q, m => (choice.answer q, m)

end Market

/-- what the cycles run and how they are answered -/
def cycles (cfg : CycleConfig) :
    Setting Desk Error CycleCall.Reply (Option CandidateDecision) CycleStart Market CycleChoice where
  program t := Orchestrator.onCandleClosed cfg t.event
  respond node choice q m := (m.meanwhile node choice).reply node choice q
  fresh := {}
  lost node m := { m with stores := Function.update m.stores node .empty }

/-- desks, a database, stores and cycles -/
abbrev CycleWorld := Assembly Desk Error CycleCall.Reply (Option CandidateDecision) CycleStart Market

abbrev CycleOp := AssemblyOp Desk CycleStart CycleChoice

/-- a world in which no cycle was started yet -/
def CycleWorld.opening (desks : ℕ → Desk) (m : Market) : CycleWorld := ⟨desks, m, []⟩

/-- the world after a run from there -/
def cyclesAfter (cfg : CycleConfig) (desks : ℕ → Desk) (m : Market) (ops : List CycleOp) :
    CycleWorld := run (step (cycles cfg)) (.opening desks m) ops

section

variable {cfg : CycleConfig} {m : Market}

/-- the consensus service replies what it computes -/
theorem consensus_ok {choice : CycleChoice} {baseline : ScoredDecision} {outputs : List AgentOutput}
    {registrations : Registrations} {c : WeightedConsensus}
    (h : Market.consensus choice baseline outputs registrations = .ok c) :
    ∃ panel : ConsensusPanel, panel.evaluate baseline outputs = .ok c := by
  unfold Market.consensus at h
  split at h
  · cases h
  · exact ⟨_, h⟩

theorem relied_reply (node : ℕ) (choice : CycleChoice) (q : CycleCall) (m : Market) :
    q.relied (m.reply node choice q).1 := by
  cases q with
  | evaluateConsensus baseline outputs registrations =>
    change CycleCall.relied (.evaluateConsensus baseline outputs registrations)
      (Market.consensus choice baseline outputs registrations)
    cases hc : Market.consensus choice baseline outputs registrations with
    | error e => trivial
    | ok c => exact consensus_ok hc
  | _ => trivial

theorem relied_respond (ev : CycleEvent) (node : ℕ) (choice : CycleChoice) (q : CycleCall)
    (m : Market) : (rules cfg ev).rely q ((cycles cfg).respond node choice q m).1 :=
  relied_reply node choice q (m.meanwhile node choice)

/-- every cycle conforms, in every run -/
theorem cycles_conform (cfg : CycleConfig) (desks : ℕ → Desk) (m : Market) (ops : List CycleOp) :
    ∀ p ∈ (cyclesAfter cfg desks m ops).parties, p.Conforms (rules cfg p.topic.event) fun r d =>
      ∀ decision, r = .ok (some decision) → Cleared cfg p.topic.event d := by
  have hall := run_conforms (S := cycles cfg) (w := CycleWorld.opening desks m)
    (fun t : CycleStart => onCandleClosed_follows cfg t.event) (fun t => relied_respond t.event) rfl ops
  exact hall

/-- processes without candles, on an empty database -/
def emptyMarket : Market := ⟨Db.empty, fun _ => .empty⟩

/-- the outputs of agents of one mind, in a market that rises -/
def risingOutputs : List AgentOutput :=
  (agreement .buy []).agentOutputs.map fun o =>
    { o with evidence := [("market_regime", .str MarketRegime.bullTrend.value)] }

/-- components that answer whatever a cycle needs to get to an order, and no further -/
def obliging (q : CycleCall) : Except Error q.Reply :=
  match q with
  | .now => .ok (quarterHour 1).closedAt
  | .monitorPositions _ => .ok []
  | .canOperate => .ok true
  | .publish _ _ _ _ => .ok ()
  | .registrations => .ok []
  | .executeMany _ => .ok risingOutputs
  | .newDecisionId => .ok "d"
  | .audit _ _ => .ok ()
  | .paperBalance => .ok 10000
  | .paperLeverage => .ok 1
  | .checkRisk a => .ok
    { riskCheckId := "r", evaluationId := "e", idempotencyKey := "k", requestFingerprint := "f"
      decisionId := a.decision.decisionId, correlationId := a.decision.correlationId
      riskStatus := .approved, approved := true
      effectiveLimits := ⟨1, 2, 3, 10, 5, 1, none⟩
      createdAt := (quarterHour 1).closedAt }
  | _ => .error ⟨.transport, "no reply"⟩

/-- the first cycle is run on and answered, for as long as it takes to get to an order -/
def answered : List CycleOp := (List.replicate 16 [.resume 0,
  .serve 0 { answer := obliging, panel := samplePanel (3 / 10) samplePolicy_accepted }]).flatten

/-- a candle is delivered and the cycle gets to an order -/
def tradedOnce : List CycleOp := .start 0 ⟨⟨quarterHour 1, "c"⟩, false⟩ :: answered

theorem traded_once : ∃ p ∈ (cyclesAfter {} (fun _ => {}) emptyMarket tradedOnce).parties,
    ∃ i ∈ p.issues, ∃ o, i.2.order? = some o := by
  have hany : ((cyclesAfter {} (fun _ => {}) emptyMarket tradedOnce).parties.any fun p =>
      p.issues.any fun i => i.2.order?.isSome) = true := by
    decide +kernel
  obtain ⟨p, hp, hissues⟩ := List.any_eq_true.1 hany
  obtain ⟨i, hi, horder⟩ := List.any_eq_true.1 hissues
  exact ⟨p, hp, i, hi, Option.isSome_iff_exists.1 horder⟩

/-- an order is allowed only as authorised -/
theorem authorised_of_allowed {ev : CycleEvent} {d : CycleDialogue} {q : CycleCall} {o : OrderTerms}
    (h : q.allowed cfg ev d) (ho : q.order? = some o) : Authorised cfg ev d o := by
  cases q with
  | submitApproved a => exact Option.some.inj ho ▸ h.2
  | createOrder a => exact Option.some.inj ho ▸ h.2
  | _ => cases ho

/-- **Orders are authorised.** In every run of any number of processes, an order is asked for only after
every gate was passed, the very decision was audited and then checked by risk, and risk did not refuse it;
and no cycle asks for a second one. -/
theorem order_authorised (cfg : CycleConfig) (desks : ℕ → Desk) (m : Market) (ops : List CycleOp) :
    ∀ p ∈ (cyclesAfter cfg desks m ops).parties, ∀ i ∈ p.issues, ∀ o, i.2.order? = some o →
      Authorised cfg p.topic.event i.1 o := by
  intro p hp i hi o ho
  exact authorised_of_allowed ((cycles_conform cfg desks m ops p hp).allowed i hi) ho

theorem traded_order_authorised :
    ∃ p ∈ (cyclesAfter {} (fun _ => {}) emptyMarket tradedOnce).parties, ∃ i ∈ p.issues, ∃ o,
      i.2.order? = some o ∧ Authorised {} p.topic.event i.1 o := by
  obtain ⟨p, hp, i, hi, o, ho⟩ := traded_once
  exact ⟨p, hp, i, hi, o, ho, order_authorised {} (fun _ => {}) emptyMarket tradedOnce p hp i hi o ho⟩

/-- **Orders are the primary agents' trades.** Whatever shadow agents, consensus, strategies and portfolio
construction say: an order is asked for only on outputs, answered before, that the decision engine itself
makes a trade of in that direction. -/
theorem orders_tradable (cfg : CycleConfig) (desks : ℕ → Desk) (m : Market) (ops : List CycleOp) :
    ∀ p ∈ (cyclesAfter cfg desks m ops).parties, ∀ i ∈ p.issues, ∀ o, i.2.order? = some o →
      ∃ requests c, Said i.1 (.executeMany requests) c.agentOutputs ∧
        c.symbol = p.topic.event.candle.symbol ∧ Tradable cfg.engine c o.decision.candidateAction := by
  intro p hp i hi o ho
  have hauthorised := authorised_of_allowed ((cycles_conform cfg desks m ops p hp).allowed i hi) ho
  obtain ⟨later, earlier, args, hd, -, hjudged⟩ := hauthorised.checked
  obtain ⟨requests, c, candidate, hsaid, hsymbol, -, hengine, hdecision⟩ := hjudged.engine
  refine ⟨requests, c, ?_, hsymbol, ?_⟩
  · rw [hd]
    exact List.mem_append_right later (List.mem_cons_of_mem _ hsaid)
  · have hcandidate : candidate = cfg.engine.consolidated c := (validateModel_ok.1 hengine).2.2
    have hdir := hjudged.directional
    rw [← hdecision, hcandidate] at hdir ⊢
    exact (DecisionEngine.tradable_of_directional hdir).1

theorem traded_order_tradable :
    ∃ p ∈ (cyclesAfter {} (fun _ => {}) emptyMarket tradedOnce).parties, ∃ i ∈ p.issues, ∃ o,
      i.2.order? = some o ∧ ∃ requests c, Said i.1 (.executeMany requests) c.agentOutputs ∧
        c.symbol = p.topic.event.candle.symbol ∧ Tradable {} c o.decision.candidateAction := by
  obtain ⟨p, hp, i, hi, o, ho⟩ := traded_once
  exact ⟨p, hp, i, hi, o, ho, orders_tradable {} (fun _ => {}) emptyMarket tradedOnce p hp i hi o ho⟩

/-! ## Once per candle -/

/-- what a save did -/
theorem saveCandle_cases {c : Candle} {quality : DataQualityReport} {db db' : Db} {new : Bool}
    (h : (Repository.saveCandle c quality).run db = .ok (new, db')) :
    new = false ∧ db' = db ∨ new = true ∧ ∃ t, db.candles.insert ⟨c, quality⟩ = .ok t ∧
      db' = { db with candles := t } := by
  obtain ⟨_, _, hget, h⟩ := Tx.bind_ok.1 (Tx.wrap_ok.1 h)
  cases Tx.get_ok.1 hget
  split at h
  · cases Tx.pure_ok.1 h
    exact .inl ⟨rfl, rfl⟩
  · obtain ⟨u, db₁, hinsert, h⟩ := Tx.bind_ok.1 h
    cases Tx.pure_ok.1 h
    obtain ⟨t, ht, he⟩ := Tx.write_ok.1 hinsert
    cases he
    exact .inr ⟨rfl, t, ht, rfl⟩

namespace Market

/-- the candle of that identity is in the database -/
def Saved (k : Series × Time) (m : Market) : Prop := ∃ r ∈ m.db.candles.rows, r.candle.identity = k

variable {k : Series × Time}

theorem Saved.save {s : Candle × DataQualityReport} (h : m.Saved k) : (m.save s).Saved k := by
  obtain ⟨r, hr, hk⟩ := h
  refine ⟨r, ?_, hk⟩
  unfold Market.save Tx.commit
  cases hrun : (Repository.saveCandle s.1 s.2).run m.db with
  | error e => exact hr
  | ok x =>
    obtain ⟨new, db'⟩ := x
    rcases saveCandle_cases hrun with ⟨-, rfl⟩ | ⟨-, t, ht, rfl⟩
    · exact hr
    · simp [(Table.insert_ok ht).1, hr]

theorem deliver_db (node : ℕ) (m : Market) (c : Candle) : (m.deliver node c).db = m.db := rfl

theorem deliveries_db (node : ℕ) (cs : List Candle) (m : Market) :
    (cs.foldl (deliver node) m).db = m.db := by
  induction cs generalizing m with
  | nil => rfl
  | cons c cs ih => rw [List.foldl_cons, ih, deliver_db]

theorem Saved.meanwhile {node : ℕ} {choice : CycleChoice} (h : m.Saved k) :
    (m.meanwhile node choice).Saved k := by
  have hsaved : (choice.saved.foldl Market.save m).Saved k := by
    generalize choice.saved = l
    induction l generalizing m with
    | nil => exact h
    | cons s l ih => exact ih h.save
  obtain ⟨r, hr, hk⟩ := hsaved
  exact ⟨r, by rw [Market.meanwhile, deliveries_db]; exact hr, hk⟩

theorem Saved.reply {node : ℕ} {choice : CycleChoice} {q : CycleCall} (h : m.Saved k) :
    (m.reply node choice q).2.Saved k := by
  cases q with
  | saveCandle c quality =>
    change (m.saving choice.fault c quality).2.Saved k
    unfold saving
    split
    · exact h.save
    · exact h
    · exact h.save
  | storeCandle c => exact h
  | _ => exact h

/-- a save that was replied as new: the candle was not in the database, and now it is -/
theorem saved_of_new (node : ℕ) {choice : CycleChoice} {c : Candle} {quality : DataQualityReport}
    (h : (m.reply node choice (.saveCandle c quality)).1 = .ok true) :
    ¬ m.Saved c.identity ∧ (m.reply node choice (.saveCandle c quality)).2.Saved c.identity := by
  change (m.saving choice.fault c quality).1 = .ok true at h
  change ¬ m.Saved c.identity ∧ (m.saving choice.fault c quality).2.Saved c.identity
  unfold saving Market.save Tx.commit at *
  cases hfault : choice.fault with
  | refused e => rw [hfault] at h; cases h
  | lost e => rw [hfault] at h; cases h
  | none =>
    rw [hfault] at h
    dsimp only at h ⊢
    cases hrun : (Repository.saveCandle c quality).run m.db with
    | error e => rw [hrun] at h; cases h
    | ok x =>
      rw [hrun] at h
      obtain ⟨new, db'⟩ := x
      obtain rfl : new = true := Except.ok.inj h
      rcases saveCandle_cases hrun with ⟨hnew, -⟩ | ⟨-, t, ht, rfl⟩
      · cases hnew
      · obtain ⟨hrows, -, hapart⟩ := Table.insert_ok ht
        refine ⟨?_, ⟨⟨c, quality⟩, by simp [hrows], rfl⟩⟩
        rintro ⟨r, hr, hk⟩
        have hclash := (hapart r hr).2.1
        simp only [Candle.identity, Prod.mk.injEq] at hk
        simp [candleSchema, hk.1, hk.2] at hclash

end Market

/-- a save that found the candle of that identity new -/
def savedNew (k : Series × Time) : Turn Error CycleCall.Reply → Bool
  | ⟨.saveCandle c _, .ok true⟩ => decide (c.identity = k)
  | _ => false

theorem savedNew_iff {k : Series × Time} {q : CycleCall} {r : Except Error q.Reply} :
    savedNew k ⟨q, r⟩ = true ↔ ∃ c quality, (⟨q, r⟩ : Turn Error CycleCall.Reply) =
      ⟨.saveCandle c quality, .ok true⟩ ∧ c.identity = k := by
  constructor
  · intro h
    unfold savedNew at h
    split at h
    · rename_i c quality heq
      exact ⟨c, quality, heq, of_decide_eq_true h⟩
    · cases h
  · rintro ⟨c, quality, heq, hk⟩
    rw [heq]
    exact decide_eq_true hk

/-- the database calls a candle new once -/
theorem gives_once (cfg : CycleConfig) (k : Series × Time) :
    GivesOnce (cycles cfg) (savedNew k) (Market.Saved k) where
  win node choice q m h := by
    obtain ⟨c, quality, heq, hk⟩ := savedNew_iff.1 h
    obtain rfl : q = .saveCandle c quality := congrArg Turn.request heq
    have hr : ((cycles cfg).respond node choice (.saveCandle c quality) m).1 = .ok true := by
      simpa using heq
    obtain ⟨hnew, hsaved⟩ := Market.saved_of_new node hr
    exact ⟨fun h => hnew (hk ▸ h.meanwhile), hk ▸ hsaved⟩
  keep node choice q m h := h.meanwhile.reply
  lost node m h := h

/-- what is not plain is asked behind the gates only -/
theorem cleared_of_allowed {ev : CycleEvent} {d : CycleDialogue} {q : CycleCall}
    (h : q.allowed cfg ev d) (hq : q.plain = false) : Cleared cfg ev d := by
  have hchecked : ∀ {o : OrderTerms}, Authorised cfg ev d o → Cleared cfg ev d := fun h =>
    Checked.cleared ⟨by
      obtain ⟨later, earlier, args, hd, hargs, hjudged⟩ := h.checked
      exact ⟨later, earlier, args, hd, hargs, hjudged⟩, h.first⟩
  cases q with
  | executeMany requests => exact h
  | checkRisk args => exact h.1.cleared
  | submitApproved a => exact hchecked h.2
  | createOrder a => exact hchecked h.2
  | _ => cases hq

/-- an evaluation of the candle of that identity, or anything that follows from it -/
def evaluates (k : Series × Time) (t : CycleStart) (q : CycleCall) : Bool :=
  decide (t.event.candle.identity = k) && !q.plain

/-- an order for the candle of that identity -/
def orders (k : Series × Time) (t : CycleStart) (q : CycleCall) : Bool :=
  decide (t.event.candle.identity = k) && q.order?.isSome

theorem savedNew_of_cleared {ev : CycleEvent} {d : CycleDialogue} (hrepository : cfg.repository = true)
    (h : Cleared cfg ev d) : ∃ t ∈ d, savedNew ev.candle.identity t = true := by
  obtain ⟨quality, hsaid⟩ := h.persisted hrepository
  exact ⟨_, hsaid, decide_eq_true rfl⟩

/-- one candle is delivered to two processes, and the first crashes -/
def deliveredTwice : List CycleOp :=
  [.start 0 ⟨⟨quarterHour 1, "first"⟩, false⟩, .start 1 ⟨⟨quarterHour 1, "second"⟩, false⟩, .resume 0,
    .crash 0, .resume 1]

/-- the store of a process holds a candle of that series that is not older -/
def Market.Outdated (node : ℕ) (c : Candle) (m : Market) : Prop :=
  ∃ last, ((m.stores node).buckets c.storeKey).getLast? = some last ∧ c.closedAt ≤ last.closedAt

namespace Market

variable {node : ℕ} {c : Candle}

theorem outdated_fed {s : CandleBuckets} {c' last : Candle}
    (hlast : (s.buckets c.storeKey).getLast? = some last) (hle : c.closedAt ≤ last.closedAt) :
    ∃ last', ((s.fed 500 c').buckets c.storeKey).getLast? = some last' ∧
      c.closedAt ≤ last'.closedAt := by
  have hadd := CandleBuckets.add_cases 500 s c'
  unfold CandleBuckets.fed
  generalize s.add 500 c' = r at hadd ⊢
  cases hadd with
  | duplicate _ _ => exact ⟨last, hlast, hle⟩
  | late _ _ => exact ⟨last, hlast, hle⟩
  | fresh hfresh =>
    by_cases hkey : c.storeKey = c'.storeKey
    · refine ⟨c', ?_, hle.trans (hfresh last (hkey ▸ hlast)).le⟩
      dsimp only
      rw [hkey, CandleBuckets.put_self, BoundedQueue.append, BoundedQueue.newest_append_singleton]
      simp
    · refine ⟨last, ?_, hle⟩
      dsimp only
      rw [CandleBuckets.put_other hkey, hlast]

theorem Outdated.deliver {node' : ℕ} {c' : Candle} (h : m.Outdated node c) :
    (m.deliver node' c').Outdated node c := by
  obtain ⟨last, hlast, hle⟩ := h
  unfold Outdated Market.deliver
  by_cases hnode : node = node'
  · subst hnode
    simpa using outdated_fed hlast hle
  · exact ⟨last, by simpa [hnode] using hlast, hle⟩

theorem save_stores (m : Market) (s : Candle × DataQualityReport) : (m.save s).stores = m.stores := rfl

theorem Outdated.meanwhile {node' : ℕ} {choice : CycleChoice} (h : m.Outdated node c) :
    (m.meanwhile node' choice).Outdated node c := by
  have hsaved : (choice.saved.foldl Market.save m).stores = m.stores := by
    generalize choice.saved = l
    clear h
    induction l generalizing m with
    | nil => rfl
    | cons s l ih => rw [List.foldl_cons, ih, save_stores]
  have hstart : (choice.saved.foldl Market.save m).Outdated node c := by
    rwa [Outdated, hsaved]
  unfold Market.meanwhile
  generalize choice.saved.foldl Market.save m = m' at hstart
  generalize choice.delivered = l
  clear h hsaved
  induction l generalizing m' with
  | nil => exact hstart
  | cons c' l ih => exact ih _ hstart.deliver

theorem Outdated.reply {node' : ℕ} {choice : CycleChoice} {q : CycleCall} (h : m.Outdated node c) :
    (m.reply node' choice q).2.Outdated node c := by
  cases q with
  | saveCandle c' quality =>
    change (m.saving choice.fault c' quality).2.Outdated node c
    unfold saving
    split <;> exact h
  | storeCandle c' => exact h.deliver
  | _ => exact h

/-- the store does not call an outdated candle new -/
theorem Outdated.not_new (h : m.Outdated node c) : (m.storing node c).1 ≠ .ok true := by
  obtain ⟨last, hlast, hle⟩ := h
  have hadd := CandleBuckets.add_cases 500 (m.stores node) c
  unfold storing
  generalize (m.stores node).add 500 c = r at hadd ⊢
  cases hadd with
  | duplicate _ _ => simp [Except.map]
  | late _ _ => simp [Except.map]
  | fresh hfresh => exact absurd (hfresh last hlast) hle.not_gt

end Market

/-- a manual cycle is started on the latest candle that the store of its process holds -/
def StartsOnLatest (w : CycleWorld) (op : CycleOp) : Prop :=
  ∀ node t, op = .start node t → t.manual = true →
    (w.environment.stores node).latest t.event.candle.exchange.value t.event.candle.symbol
      t.event.candle.timeframe = some t.event.candle

/-- a store never calls a candle new that is outdated in it -/
theorem stores_bar (cfg : CycleConfig) :
    Bars (cycles cfg)
      (fun t turn => turn = (⟨.storeCandle t.event.candle, .ok true⟩ : Turn Error CycleCall.Reply))
      (fun node t m => m.Outdated node t.event.candle) where
  give node t choice q m hgone heq := by
    obtain rfl : q = .storeCandle t.event.candle := congrArg Turn.request heq
    have hr : ((cycles cfg).respond node choice (.storeCandle t.event.candle) m).1 = .ok true := by
      simpa using heq
    exact hgone.meanwhile.not_new hr
  keep node t node' choice q m hgone := hgone.meanwhile.reply
  lost node t node' m hne hgone := by
    obtain ⟨last, hlast, hle⟩ := hgone
    exact ⟨last, by simpa [cycles, hne] using hlast, hle⟩

/-- **Manual evaluations never evaluate.** The candle they are started for is the latest of the store, so
the store never calls it new: no agent runs, risk is not asked, no order is placed, no decision comes
back; in every run, whatever the other cycles do meanwhile. -/
theorem manual_never_evaluates (cfg : CycleConfig) (desks : ℕ → Desk) (m : Market) {ops : List CycleOp}
    (hops : Along (step (cycles cfg)) StartsOnLatest (CycleWorld.opening desks m) ops) :
    ∀ p ∈ (cyclesAfter cfg desks m ops).parties, p.topic.manual = true →
      (∀ i ∈ p.issues, i.2.plain = true) ∧ ∀ decision, p.state ≠ .ended (.ok (some decision)) := by
  intro p hp hmanual
  have houtdated := along_imp (D := fun (w : CycleWorld) op => ∀ node t, op = .start node t →
    t.manual = true → w.environment.Outdated node t.event.candle)
    (fun w op h node t hstart hm => ⟨t.event.candle, h node t hstart hm, le_refl _⟩) hops
  have hnew := run_barred (B := fun t => t.manual = true) (stores_bar cfg) rfl houtdated p hp hmanual
  have hconforms := cycles_conform cfg desks m ops p hp
  have hstored : ∀ d : CycleDialogue, d ⊆ p.dialogue → ¬ Cleared cfg p.topic.event d :=
    fun d hsub hcleared => hnew _ (hsub hcleared.stored) rfl
  refine ⟨fun i hi => ?_, fun decision hended => ?_⟩
  · by_contra hplain
    refine hstored i.1 (fun t => p.mem_of_issues hi) ?_
    exact cleared_of_allowed (hconforms.allowed i hi) (by simpa using hplain)
  · have hproper := hconforms.proper
    rw [hended] at hproper
    exact hstored p.dialogue (List.Subset.refl _) (hproper decision rfl)

theorem along_of_not_started {w : CycleWorld} {ops : List CycleOp}
    (hops : ∀ op ∈ ops, ∀ node t, op ≠ .start node t) :
    Along (step (cycles cfg)) StartsOnLatest w ops := by
  induction ops generalizing w with
  | nil => trivial
  | cons op ops ih =>
    refine ⟨fun node t hstart => absurd hstart (hops op List.mem_cons_self node t), ih ?_⟩
    exact fun op' hop' => hops op' (List.mem_cons_of_mem op hop')

/-- the same cycle again, on the latest candle of the store -/
def latestAgain : List CycleOp := .start 0 ⟨⟨quarterHour 1, "c"⟩, true⟩ :: answered

theorem latest_again_not_evaluated :
    ∃ p ∈ (cyclesAfter {} (fun _ => {}) (emptyMarket.deliver 0 (quarterHour 1)) latestAgain).parties,
      p.topic.manual = true ∧ (∀ i ∈ p.issues, i.2.plain = true) ∧
        ∀ decision, p.state ≠ .ended (.ok (some decision)) := by
  have hany : ((cyclesAfter {} (fun _ => {}) (emptyMarket.deliver 0 (quarterHour 1))
      latestAgain).parties.any fun p => p.topic.manual) = true := by
    decide +kernel
  obtain ⟨p, hp, hmanual⟩ := List.any_eq_true.1 hany
  have hlatest : Along (step (cycles {})) StartsOnLatest
      (CycleWorld.opening (fun _ => {}) (emptyMarket.deliver 0 (quarterHour 1))) latestAgain := by
    refine ⟨fun node t hstart _ => ?_, along_of_not_started (by simp [answered])⟩
    cases hstart
    decide +kernel
  exact ⟨p, hp, hmanual, manual_never_evaluates {} (fun _ => {}) _ hlatest p hp hmanual⟩

end

end CapitalCipher
