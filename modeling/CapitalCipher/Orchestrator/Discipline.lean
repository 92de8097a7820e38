/-
What a decision cycle may ask, and when: the discipline of `orchestrator/service.py`.

`rules` says of every call of a cycle what has to have been answered before it: agents run only behind
every gate of the intake, the risk check only on an audited trade of the decision engine, and an order
only on a risk check of that very decision that did not refuse it, once.

  • `onCandleClosed_follows`: the cycle keeps to the rules, whatever it is answered.
-/
import CapitalCipher.Lib.Dialogue
import CapitalCipher.Orchestrator.Cycle

namespace CapitalCipher

open Lib Lib.Coro Orchestrator

/-- what a cycle asked and was answered, the latest first -/
abbrev CycleDialogue := Dialogue Error CycleCall.Reply

/-- the call was answered so -/
def Said (d : CycleDialogue) (q : CycleCall) (r : q.Reply) : Prop :=
  (⟨q, .ok r⟩ : Turn Error CycleCall.Reply) ∈ d

/-- the terms an order is asked for on -/
structure OrderTerms where
  decision : Decision
  riskCheck : RiskCheck
  currentPrice : ℚ
  marketCandle : Option Candle
  occurredAt : Option Time

namespace CycleCall

/-- the order a call asks for -/
def order? : CycleCall → Option OrderTerms
  | submitApproved a => some ⟨a.decision, a.riskCheck, a.currentPrice, a.marketCandle, a.occurredAt⟩
  | createOrder a => some ⟨a.decision, a.riskCheck, a.currentPrice, a.marketCandle, a.occurredAt⟩
  | _ => none

def isRiskCheck : CycleCall → Bool
  | checkRisk _ => true
  | _ => false

/-- calls that no rule is about -/
def plain : CycleCall → Bool
  | executeMany _ => false
  | checkRisk _ => false
  | submitApproved _ => false
  | createOrder _ => false
  | _ => true

/-- neither a risk check nor an order -/
def quiet (q : CycleCall) : Prop := q.isRiskCheck = false ∧ q.order? = none

theorem quiet_plain {q : CycleCall} (h : q.plain = true) : q.quiet := by
  cases q <;> first | exact ⟨rfl, rfl⟩ | cases h

end CycleCall

/-- every gate of the intake was passed -/
structure Cleared (cfg : CycleConfig) (ev : CycleEvent) (d : CycleDialogue) : Prop where
  clock : cfg.requireTrustedClock = true →
    ∃ verdict, Said d (.clockVerdict ev.candle.exchange) verdict ∧ verdict.trusted = true
  persisted : cfg.repository = true → ∃ quality, Said d (.saveCandle ev.candle quality) true
  stored : Said d (.storeCandle ev.candle) true
  operates : Said d .canOperate true
  unsuspended : cfg.operations = true → Said d .decisionsAllowed true

/-- the decision is a trade of the decision engine on what the agents said, and it was audited -/
structure Judged (cfg : CycleConfig) (ev : CycleEvent) (d : CycleDialogue) (decision : Decision) :
    Prop where
  cleared : Cleared cfg ev d
  directional : decision.candidateAction.directional = true
  engine : ∃ requests c candidate, Said d (.executeMany requests) c.agentOutputs ∧
    c.symbol = ev.candle.symbol ∧ c.timeframe = ev.candle.timeframe ∧
    cfg.engine.consolidate c = .ok candidate ∧ candidate.toDecision = decision
  audited : ∃ candidate : CandidateDecision, candidate.toDecision = decision ∧
    Said d (.audit ev.correlationId (.candidate candidate)) ()

/-- risk checked the very decision, did not refuse it, and no order was asked for before -/
structure Authorised (cfg : CycleConfig) (ev : CycleEvent) (d : CycleDialogue) (o : OrderTerms) :
    Prop where
  checked : ∃ later earlier args, d = later ++ ⟨.checkRisk args, .ok o.riskCheck⟩ :: earlier ∧
    args.decision = o.decision ∧ Judged cfg ev earlier o.decision
  passed : o.riskCheck.riskStatus ≠ .blocked ∧ o.riskCheck.riskStatus ≠ .killSwitch
  first : ∀ t ∈ d, t.request.order? = none
  terms : o.currentPrice = ev.candle.close ∧ o.marketCandle = some ev.candle ∧
    o.occurredAt = some ev.candle.closedAt

/-- a consensus is what the consensus service computes from some scorecards -/
def CycleCall.relied : (q : CycleCall) → Except Error q.Reply → Prop
  | .evaluateConsensus baseline outputs _, .ok c =>
    ∃ panel : ConsensusPanel, panel.evaluate baseline outputs = .ok c
  | _, _ => True

/-- what may be asked after a dialogue -/
def CycleCall.allowed (cfg : CycleConfig) (ev : CycleEvent) (d : CycleDialogue) : CycleCall → Prop
  | .executeMany _ => Cleared cfg ev d
  | .checkRisk a => Judged cfg ev d a.decision ∧ ∀ t ∈ d, t.request.isRiskCheck = false
  | .submitApproved a => cfg.oms = true ∧
    Authorised cfg ev d ⟨a.decision, a.riskCheck, a.currentPrice, a.marketCandle, a.occurredAt⟩
  | .createOrder a => cfg.oms = false ∧
    Authorised cfg ev d ⟨a.decision, a.riskCheck, a.currentPrice, a.marketCandle, a.occurredAt⟩
  | _ => True

/-- the discipline of a cycle -/
def rules (cfg : CycleConfig) (ev : CycleEvent) : Protocol Error CycleCall.Reply where
  rely q r := q.relied r
  allows d q := q.allowed cfg ev d

/-- neither a risk check nor an order was added -/
abbrev Grown (d d' : CycleDialogue) : Prop := Grows CycleCall.quiet d d'

section

variable {cfg : CycleConfig} {ev : CycleEvent} {d d' : CycleDialogue}

theorem allows_plain {q : CycleCall} (h : q.plain = true) : (rules cfg ev).allows d q := by
  cases q <;> trivial

theorem Said.grown {q : CycleCall} {r : q.Reply} (h : Said d q r) (hgrown : Grown d d') :
    Said d' q r := hgrown.mem h

theorem Cleared.subset (h : Cleared cfg ev d) (hsub : d ⊆ d') : Cleared cfg ev d' where
  clock hclock := by
    obtain ⟨verdict, hsaid, htrusted⟩ := h.clock hclock
    exact ⟨verdict, hsub hsaid, htrusted⟩
  persisted hrepository := by
    obtain ⟨quality, hsaid⟩ := h.persisted hrepository
    exact ⟨quality, hsub hsaid⟩
  stored := hsub h.stored
  operates := hsub h.operates
  unsuspended hops := hsub (h.unsuspended hops)

/-! ## Stages that ask plain calls only -/

/-- only plain calls -/
abbrev Plain {α : Type} (p : CycleProgram α) : Prop := p.Only fun q => q.plain = true

theorem Plain.follows {α : Type} {p : CycleProgram α} (h : Plain p) (d : CycleDialogue) :
    Coro.Follows (rules cfg ev) p d fun _ d' => Grown d d' :=
  (Only.follows h (fun _ _ => allows_plain) d).imp fun _ _ hgrows =>
    hgrows.imp fun _ => CycleCall.quiet_plain

theorem forgiven_plain {p : CycleProgram Unit} (h : Plain p) : Plain (forgiven p) :=
  h.handle fun _ => trivial

theorem forEvery_plain {β : Type} {f : β → CycleProgram Unit} (h : ∀ b, Plain (f b)) (l : List β) :
    Plain (forEvery f l) := by
  induction l with
  | nil => trivial
  | cons b l ih => exact (h b).bind fun _ => ih

theorem clockGate_plain : Plain (clockGate cfg ev) := by
  refine .ite (fun _ => .ite (fun _ => .call rfl fun verdict => ?_) fun _ => trivial) fun _ => trivial
  refine .ite (fun _ => trivial) fun _ => .modify (.bind (.ite (fun _ => ?_) fun _ => trivial) ?_)
  · exact only_call.2 rfl
  · exact fun _ => trivial

theorem scanHole_plain (existing : List Candle) : Plain (scanHole cfg ev existing) := by
  unfold scanHole
  split
  · exact only_call.2 rfl
  · trivial

theorem persist_plain (existing : List Candle) (quality : DataQualityReport) :
    Plain (persist cfg ev existing quality) := by
  refine .ite (fun _ => .call rfl fun inserted => ?_) fun _ => trivial
  exact .ite (fun _ => (scanHole_plain existing).bind fun _ => trivial) fun _ => trivial

theorem admission_plain (quality : DataQualityReport) : Plain (admission ev quality) :=
  .ite (fun _ => .modify trivial) fun _ => only_call.2 rfl

theorem rollDay_plain : Plain (rollDay ev) := by
  refine .read fun desk => ?_
  split
  · exact only_modify.2 trivial
  · exact .ite (fun _ => trivial) fun _ => .modify (only_call.2 rfl)

theorem monitor_plain : Plain (monitor ev) := by
  refine .call rfl fun closed => forEvery_plain (fun order => ?_) closed
  exact only_call.2 rfl

theorem operable_plain : Plain (operable cfg) := by
  refine .call rfl fun operates => .ite (fun _ => .ite (fun _ => ?_) fun _ => trivial) fun _ => trivial
  exact only_call.2 rfl

theorem registrationsByName_plain : Plain registrationsByName := .call rfl fun _ => trivial

theorem announce_plain (evidence : CycleEvidence) (eventType source : String) :
    Plain (announce ev evidence eventType source) := .call rfl fun _ => only_call.2 rfl

theorem markUnhealthy_plain (dependency reason : String) :
    Plain (markUnhealthy cfg ev dependency reason) :=
  .ite (fun _ => forgiven_plain (only_call.2 rfl)) fun _ => trivial

theorem recover_plain (e : Error) : Plain (recover cfg ev e) := by
  refine .ite (fun _ => .bind ?_ fun _ => .modify trivial) fun _ => trivial
  split
  · exact markUnhealthy_plain _ _
  · trivial

theorem construct_plain (decision : CandidateDecision) (consensus : Option WeightedConsensus) :
    Plain (Orchestrator.construct cfg ev decision consensus) := by
  unfold Orchestrator.construct
  split
  · refine .bind (.attempt ?_) fun r => ?_
    · exact .call rfl fun _ => .call rfl fun _ => (announce_plain _ _ _).bind fun _ => trivial
    · cases r <;> trivial
  · trivial

/-! ## Stages and what they establish -/

/-- started where `A` holds, the stage asks for no risk check and no order, and a value it ends with
meets `F` -/
def Stage {α : Type} (cfg : CycleConfig) (ev : CycleEvent) (p : CycleProgram α)
    (A : CycleDialogue → Prop) (F : α → CycleDialogue → Prop) : Prop :=
  ∀ d, A d → Coro.Follows (rules cfg ev) p d fun r d' => Grown d d' ∧ ∀ a, r = .ok a → F a d'

/-- a fact that quiet calls cannot undo -/
def Persists (A : CycleDialogue → Prop) : Prop := ∀ d d', Grown d d' → A d → A d'

namespace Stage

variable {α β : Type} {A : CycleDialogue → Prop} {F : α → CycleDialogue → Prop}
  {G : β → CycleDialogue → Prop}

theorem bind {p : CycleProgram α} {f : α → CycleProgram β} (hp : Stage cfg ev p A F)
    (hf : ∀ a, Stage cfg ev (f a) (F a) G) : Stage cfg ev (p.bind f) A G := by
  intro d hd
  refine Coro.Follows.bind (hp d hd) (fun a d' h => ?_) (fun e d' h => ⟨h.1, fun b hb => by cases hb⟩)
  refine (hf a d' (h.2 a rfl)).imp fun r d'' h' => ⟨h.1.trans h'.1, h'.2⟩

theorem read {k : Desk → CycleProgram α} (h : ∀ desk, Stage cfg ev (k desk) A F) :
    Stage cfg ev (Coro.read.bind k) A F := fun d hd desk => h desk d hd

theorem ret {a : α} (h : ∀ d, A d → F a d) : Stage cfg ev (.ret a) A F := fun d hd =>
  ⟨.refl d, fun b hb => by cases hb; exact h d hd⟩

theorem raise {e : Error} : Stage cfg ev (.raise e : CycleProgram α) A F := fun d _ =>
  ⟨.refl d, fun b hb => by cases hb⟩

theorem ite {c : Prop} [Decidable c] {p p' : CycleProgram α} (h : c → Stage cfg ev p A F)
    (h' : ¬ c → Stage cfg ev p' A F) : Stage cfg ev (if c then p else p') A F := fun d hd =>
  .ite (fun hc => h hc d hd) fun hc => h' hc d hd

/-- a call that `A` allows -/
theorem call {q : CycleCall} (hquiet : q.quiet) {F : q.Reply → CycleDialogue → Prop}
    (hq : ∀ d, A d → q.allowed cfg ev d)
    (h : ∀ d a, A d → q.relied (.ok a) → F a (⟨q, .ok a⟩ :: d)) : Stage cfg ev (consult q) A F := by
  intro d hd
  refine follows_call.2 ⟨hq d hd, fun r hr => ⟨(Grows.refl d).cons hquiet, fun a ha => ?_⟩⟩
  rw [ha] at hr ⊢
  exact h d a hd hr

/-- a plain call -/
theorem plain {q : CycleCall} (hq : q.plain = true) {F : q.Reply → CycleDialogue → Prop}
    (h : ∀ d a, A d → F a (⟨q, .ok a⟩ :: d)) : Stage cfg ev (consult q) A F :=
  .call (CycleCall.quiet_plain hq) (fun _ _ => allows_plain hq) fun d a hd _ => h d a hd

/-- `try: p`, whatever follows -/
theorem attempt {p : CycleProgram α} {f : Except Error α → CycleProgram β} (hA : Persists A)
    (hp : Stage cfg ev p A F) (hok : ∀ a, Stage cfg ev (f (.ok a)) (F a) G)
    (herror : ∀ e, Stage cfg ev (f (.error e)) A G) : Stage cfg ev (p.attempt.bind f) A G := by
  intro d hd
  refine Coro.Follows.attempt (hp d hd) fun r d' h => ?_
  cases r with
  | ok a => exact (hok a d' (h.2 a rfl)).imp fun r d'' h' => ⟨h.1.trans h'.1, h'.2⟩
  | error e => exact (herror e d' (hA d d' h.1 hd)).imp fun r d'' h' => ⟨h.1.trans h'.1, h'.2⟩

/-- a stage of plain calls keeps what was established -/
theorem keep {p : CycleProgram α} (hp : Plain p) (hA : Persists A) :
    Stage cfg ev p A fun _ => A := fun d hd =>
  (hp.follows d).imp fun _ d' hgrown => ⟨hgrown, fun _ _ => hA d d' hgrown hd⟩

/-- what follows a stage -/
theorem follows {p : CycleProgram α} {f : α → CycleProgram β} {d : CycleDialogue}
    {post : Except Error β → CycleDialogue → Prop} (hp : Stage cfg ev p A F) (hd : A d)
    (hquiet : ∀ t ∈ d, t.request.quiet)
    (hf : ∀ a d', F a d' → (∀ t ∈ d', t.request.quiet) → Coro.Follows (rules cfg ev) (f a) d' post)
    (herror : ∀ e d', d ⊆ d' → post (.error e) d') : Coro.Follows (rules cfg ev) (p.bind f) d post := by
  refine Coro.Follows.bind (hp d hd) (fun a d' h => hf a d' (h.2 a rfl) fun t ht => ?_) fun e d' h =>
    herror e d' fun _ => h.1.mem
  exact (h.1.old ht).elim id (hquiet t)

/-- a stage keeps what was established besides -/
theorem frame {B : CycleDialogue → Prop} {p : CycleProgram α} (hp : Stage cfg ev p B F)
    (hA : Persists A) : Stage cfg ev p (fun d => A d ∧ B d) fun a d => A d ∧ F a d := fun d hd =>
  (hp d hd.2).imp fun _ d' h => ⟨h.1, fun a ha => ⟨hA d d' h.1 hd.1, h.2 a ha⟩⟩

theorem imp {B : CycleDialogue → Prop} {F' : α → CycleDialogue → Prop} {p : CycleProgram α}
    (hp : Stage cfg ev p B F) (hB : ∀ d, A d → B d) (hF : ∀ a d, F a d → F' a d) :
    Stage cfg ev p A F' := fun d hd =>
  (hp d (hB d hd)).imp fun _ d' h => ⟨h.1, fun a ha => hF a d' (h.2 a ha)⟩

end Stage

/-- the clock gate was passed -/
def ClockPassed (cfg : CycleConfig) (ev : CycleEvent) (d : CycleDialogue) : Prop :=
  cfg.requireTrustedClock = true →
    ∃ verdict, Said d (.clockVerdict ev.candle.exchange) verdict ∧ verdict.trusted = true

/-- the candle was new to the database -/
def NewlySaved (cfg : CycleConfig) (ev : CycleEvent) (d : CycleDialogue) : Prop :=
  cfg.repository = true → ∃ quality, Said d (.saveCandle ev.candle quality) true

theorem clockPassed_persists : Persists (ClockPassed cfg ev) := by
  intro d d' hgrown h hclock
  obtain ⟨verdict, hsaid, htrusted⟩ := h hclock
  exact ⟨verdict, hsaid.grown hgrown, htrusted⟩

theorem newlySaved_persists : Persists (NewlySaved cfg ev) := by
  intro d d' hgrown h hrepository
  obtain ⟨quality, hsaid⟩ := h hrepository
  exact ⟨quality, hsaid.grown hgrown⟩

theorem clockGate_stage : Stage cfg ev (clockGate cfg ev) (fun _ => True) fun r d =>
    ∀ v, r = some v → ClockPassed cfg ev d := by
  refine .ite (fun _ => .ite (fun _ => ?_) fun _ => .raise) fun hclock => ?_
  · refine .bind (F := fun v d => Said d (.clockVerdict ev.candle.exchange) v)
      (.plain rfl fun d a _ => List.mem_cons_self) fun verdict => ?_
    refine .ite (fun htrusted => .ret fun d hsaid v _ _ => ⟨verdict, hsaid, htrusted⟩) fun _ => ?_
    refine (Stage.bind (F := fun _ _ => True) (G := fun r d => r = none) ?_ fun _ => ?_).imp
      (fun _ _ => trivial) fun a d ha v hv => by rw [ha] at hv; cases hv
    · exact Stage.keep (only_modify.2 trivial) fun _ _ _ _ => trivial
    · refine Stage.bind (F := fun _ _ => True) ?_ fun _ => .ret fun _ _ => rfl
      refine Stage.keep (.ite (fun _ => only_call.2 rfl) fun _ => trivial) fun _ _ _ _ => trivial
  · exact .ret fun d _ v _ h => absurd h hclock

theorem persist_stage (existing : List Candle) (quality : DataQualityReport) :
    Stage cfg ev (persist cfg ev existing quality) (fun _ => True) fun inserted d =>
      inserted = true → NewlySaved cfg ev d := by
  refine .ite (fun _ => ?_) fun hrepository => .ret fun d _ _ h => absurd h hrepository
  refine .bind (F := fun inserted d => Said d (.saveCandle ev.candle quality) inserted)
    (.plain rfl fun d a _ => List.mem_cons_self) fun inserted => ?_
  refine .ite (fun hinserted => ?_) fun _ => .ret fun d _ h => by cases h
  refine .bind (F := fun _ d => Said d (.saveCandle ev.candle quality) inserted)
    (.keep (scanHole_plain existing) fun d d' hgrown h => h.grown hgrown) fun _ => ?_
  exact .ret fun d hsaid _ _ => ⟨quality, hinserted ▸ hsaid⟩

theorem admission_stage (quality : DataQualityReport) :
    Stage cfg ev (admission ev quality) (fun _ => True) fun stored d =>
      stored = true → Said d (.storeCandle ev.candle) true := by
  refine .ite (fun _ => ?_) fun _ => ?_
  · refine .bind (F := fun _ _ => True) (.keep (only_modify.2 trivial) fun _ _ _ _ => trivial)
      fun _ => .ret fun d _ h => by cases h
  · exact .plain rfl fun d a _ ha => ha ▸ List.mem_cons_self

/-- the two gates an evaluation needs open -/
def GatesOpen (cfg : CycleConfig) (d : CycleDialogue) : Prop :=
  Said d .canOperate true ∧ (cfg.operations = true → Said d .decisionsAllowed true)

theorem operable_stage : Stage cfg ev (operable cfg) (fun _ => True) fun operates d =>
    operates = true → GatesOpen cfg d := by
  refine .bind (F := fun a d => Said d .canOperate a) (.plain rfl fun d a _ => List.mem_cons_self)
    fun operates => .ite (fun hoperates => ?_) fun _ => .ret fun d _ h => by cases h
  refine .ite (fun _ => ?_) fun hops => ?_
  · refine .plain rfl fun d a hsaid ha => ⟨?_, fun _ => ha ▸ List.mem_cons_self⟩
    exact hoperates ▸ List.mem_cons_of_mem _ hsaid
  · exact .ret fun d hsaid _ => ⟨hoperates ▸ hsaid, fun h => absurd h hops⟩

theorem and_persists {A B : CycleDialogue → Prop} (hA : Persists A) (hB : Persists B) :
    Persists fun d => A d ∧ B d := fun d d' hgrown h => ⟨hA d d' hgrown h.1, hB d d' hgrown h.2⟩

theorem said_persists (q : CycleCall) (r : q.Reply) : Persists fun d => Said d q r :=
  fun _ _ hgrown h => h.grown hgrown

theorem cleared_persists : Persists (Cleared cfg ev) := fun _ _ hgrown h =>
  h.subset fun _ => hgrown.mem

theorem intake_stage : Stage cfg ev (intake cfg ev) (fun _ => True) fun r d =>
    ∀ quality, r = some quality → Cleared cfg ev d := by
  refine clockGate_stage.bind fun r => ?_
  cases r with
  | none => exact .ret fun d _ q h => by cases h
  | some verdict =>
    refine Stage.imp (B := ClockPassed cfg ev) ?_ (fun d h => h verdict rfl) fun _ _ h => h
    have hassess : Plain (assess cfg ev verdict) := .call rfl fun _ => .call rfl fun _ => trivial
    refine .bind (.keep hassess clockPassed_persists) fun window => ?_
    refine .bind (((persist_stage _ _).frame clockPassed_persists).imp (fun d h => ⟨h, trivial⟩)
      fun _ _ h => h) fun inserted => .ite (fun hinserted => ?_) fun _ => .ret fun d _ q h => by cases h
    refine Stage.imp (B := fun d => ClockPassed cfg ev d ∧ NewlySaved cfg ev d) ?_
      (fun d h => ⟨h.1, h.2 hinserted⟩) fun _ _ h => h
    have hpersists : Persists fun d => ClockPassed cfg ev d ∧ NewlySaved cfg ev d :=
      and_persists clockPassed_persists newlySaved_persists
    refine .bind (((admission_stage _).frame hpersists).imp (fun d h => ⟨h, trivial⟩) fun _ _ h => h)
      fun stored => .ite (fun hstored => ?_) fun _ => .ret fun d _ q h => by cases h
    refine Stage.imp (B := fun d => (ClockPassed cfg ev d ∧ NewlySaved cfg ev d) ∧
      Said d (.storeCandle ev.candle) true) ?_ (fun d h => ⟨h.1, h.2 hstored⟩) fun _ _ h => h
    have hpersists' := and_persists hpersists (said_persists (.storeCandle ev.candle) true)
    refine .bind (.keep rollDay_plain hpersists') fun _ => ?_
    refine .bind (.keep monitor_plain hpersists') fun _ => ?_
    refine .bind ((operable_stage.frame hpersists').imp (fun d h => ⟨h, trivial⟩) fun _ _ h => h)
      fun operates => .ite (fun hoperates => ?_) fun _ => .ret fun d _ q h => by cases h
    refine Stage.imp (B := Cleared cfg ev) (F := fun _ d => Cleared cfg ev d) ?_ (fun d h => ?_)
      fun _ d h _ _ => h
    · refine .bind (F := fun _ d => Cleared cfg ev d) ?_ fun _ => .ret fun _ h => h
      exact .keep (only_call.2 rfl) cleared_persists
    · exact ⟨h.1.1.1, h.1.1.2, h.1.2, (h.2 hoperates).1, (h.2 hoperates).2⟩

/-! ## The evaluation -/

/-- behind the gates, the agents said this -/
def Ran (cfg : CycleConfig) (ev : CycleEvent) (outputs : List AgentOutput) (d : CycleDialogue) :
    Prop :=
  Cleared cfg ev d ∧ ∃ requests, Said d (.executeMany requests) outputs

theorem ran_persists (outputs : List AgentOutput) : Persists (Ran cfg ev outputs) := by
  intro d d' hgrown h
  obtain ⟨requests, hsaid⟩ := h.2
  exact ⟨cleared_persists d d' hgrown h.1, requests, hsaid.grown hgrown⟩

theorem runAgents_stage : Stage cfg ev (runAgents cfg ev) (Cleared cfg ev) (Ran cfg ev) := by
  refine .bind (F := fun _ => Cleared cfg ev)
    (.plain rfl fun d a h => h.subset (List.subset_cons_self _ _)) fun registered => ?_
  have hadmitted : Plain (admitted cfg registered) :=
    .ite (fun _ => .call rfl fun _ => trivial) fun _ => trivial
  refine .bind (.keep hadmitted cleared_persists) fun agents => ?_
  refine .bind (.keep (only_leave.2 trivial) cleared_persists) fun requests => ?_
  refine .bind (F := Ran cfg ev) ?_ fun outputs => ?_
  · refine .call ⟨rfl, rfl⟩ (fun d h => h) fun d outputs h _ => ?_
    exact ⟨h.subset (List.subset_cons_self _ _), requests, List.mem_cons_self⟩
  · refine .bind (F := fun _ => Ran cfg ev outputs) (.keep ?_ (ran_persists outputs)) fun _ => ?_
    · exact .ite (fun _ => forgiven_plain (only_call.2 rfl)) fun _ => trivial
    · refine .bind (F := fun _ => Ran cfg ev outputs) (.keep ?_ (ran_persists outputs)) fun _ =>
        .ret fun _ h => h
      refine .ite (fun _ => forgiven_plain (registrationsByName_plain.bind fun _ => ?_)) fun _ => trivial
      exact only_call.2 rfl

/-- a trade is the decision engine's, made of these outputs -/
def OfEngine (cfg : CycleConfig) (ev : CycleEvent) (outputs : List AgentOutput) (decision : Decision) :
    Prop :=
  decision.candidateAction.directional = true → ∃ c candidate, c.agentOutputs = outputs ∧
    c.symbol = ev.candle.symbol ∧ c.timeframe = ev.candle.timeframe ∧
    cfg.engine.consolidate c = .ok candidate ∧ candidate.toDecision = decision

/-- the strategy rules only ever block -/
theorem ofEngine_ruled {outputs : List AgentOutput} {evaluation : StrategyEvaluation}
    {regime : MarketRegime} {decision : CandidateDecision}
    (h : OfEngine cfg ev outputs decision.toDecision) :
    OfEngine cfg ev outputs (ruled evaluation regime decision).toDecision := by
  by_cases hblocked : evaluation.allowed = false ∧ decision.candidateAction.directional = true
  · rw [ruled, if_pos hblocked]
    intro hdir
    cases hdir
  · rw [ruled, if_neg hblocked]
    exact h

/-- a consensus keeps a trade as it is, or there is no trade left -/
theorem ofEngine_overlaid {outputs : List AgentOutput} {decision : CandidateDecision}
    {c : WeightedConsensus} {panel : ConsensusPanel}
    (hc : panel.evaluate decision.toScoredDecision outputs = .ok c)
    (h : OfEngine cfg ev outputs decision.toDecision) :
    OfEngine cfg ev outputs (overlaid decision c).toDecision := by
  rcases evaluate_overlay hc with ⟨haction, hconfidence⟩ | ⟨haction, -⟩
  · rw [overlaid, if_neg fun hne => hne.elim (fun hne => hne haction) fun hne => hne hconfidence]
    exact h
  · unfold overlaid
    split_ifs with hchanged
    · intro hdir
      rw [haction] at hdir
      cases hdir
    · exact h

theorem consolidateOutputs_stage {A : CycleDialogue → Prop} (hA : Persists A)
    (quality : DataQualityReport) (outputs : List AgentOutput) :
    Stage cfg ev (consolidateOutputs cfg ev quality outputs) A fun c d =>
      A d ∧ OfEngine cfg ev outputs c.decision.toDecision := by
  refine .read fun desk => ?_
  dsimp only
  generalize StrategyEngine.evaluate desk.strategies ev.candle.symbol ev.candle.timeframe
    (regimeOf outputs) = evaluation
  refine .bind (F := fun _ => A) (.keep (only_call.2 rfl) hA) fun decisionId => ?_
  cases hdecision : cfg.engine.consolidate (consolidation ev quality outputs evaluation decisionId) with
  | error e => exact .raise
  | ok decision =>
    refine .ret fun d hd => ⟨hd, ofEngine_ruled fun _ => ?_⟩
    exact ⟨_, decision, rfl, rfl, rfl, hdecision, rfl⟩

theorem weigh_stage {A : CycleDialogue → Prop} (hA : Persists A) {outputs : List AgentOutput}
    {decision : CandidateDecision} (h : OfEngine cfg ev outputs decision.toDecision) :
    Stage cfg ev (weigh cfg ev outputs decision) A fun weighed d =>
      A d ∧ OfEngine cfg ev outputs weighed.1.toDecision := by
  refine .ite (fun _ => ?_) fun _ => .ret fun d hd => ⟨hd, h⟩
  refine .attempt (F := fun c d => A d ∧ ∃ panel : ConsensusPanel,
    panel.evaluate decision.toScoredDecision outputs = .ok c) hA ?_ (fun c => ?_) fun e =>
      .ret fun d hd => ⟨hd, h⟩
  · refine .bind (.keep registrationsByName_plain hA) fun registrations => ?_
    refine .call ⟨rfl, rfl⟩ (fun _ _ => trivial) fun d c hd hrelied => ⟨?_, hrelied⟩
    exact hA d _ ((Grows.refl d).cons ⟨rfl, rfl⟩) hd
  · have hoverlaid : ∀ d, (A d ∧ ∃ panel : ConsensusPanel,
        panel.evaluate decision.toScoredDecision outputs = .ok c) →
        A d ∧ OfEngine cfg ev outputs (overlaid decision c).toDecision := by
      rintro d ⟨hd, panel, hc⟩
      exact ⟨hd, ofEngine_overlaid hc h⟩
    have hpersists : Persists fun d => A d ∧ ∃ panel : ConsensusPanel,
        panel.evaluate decision.toScoredDecision outputs = .ok c :=
      and_persists hA fun _ _ _ hc => hc
    exact .attempt hpersists (.keep (announce_plain _ _ _) hpersists)
      (fun _ => .ret hoverlaid) fun _ => .ret hoverlaid

/-- the candidate is on the audit trail -/
def Audited (ev : CycleEvent) (decision : Decision) (d : CycleDialogue) : Prop :=
  ∃ candidate : CandidateDecision, candidate.toDecision = decision ∧
    Said d (.audit ev.correlationId (.candidate candidate)) ()

theorem audited_persists (decision : Decision) : Persists (Audited ev decision) := by
  rintro d d' hgrown ⟨candidate, hcandidate, hsaid⟩
  exact ⟨candidate, hcandidate, hsaid.grown hgrown⟩

theorem record_stage {A : CycleDialogue → Prop} (hA : Persists A) (decision : CandidateDecision) :
    Stage cfg ev (Orchestrator.record cfg ev decision) A fun _ d =>
      A d ∧ Audited ev decision.toDecision d := by
  have hpersists : Persists fun d => A d ∧ Audited ev decision.toDecision d :=
    and_persists hA (audited_persists decision.toDecision)
  refine .bind (.keep (only_modify.2 trivial) hA) fun _ => ?_
  refine .bind (F := fun _ d => A d ∧ Audited ev decision.toDecision d) ?_ fun _ => ?_
  · refine .plain rfl fun d a hd => ⟨hA d _ ((Grows.refl d).cons ⟨rfl, rfl⟩) hd, ?_⟩
    exact ⟨decision, rfl, List.mem_cons_self⟩
  · refine .bind (F := fun _ d => A d ∧ Audited ev decision.toDecision d) (.keep ?_ hpersists)
      fun _ => .keep (only_call.2 rfl) hpersists
    exact .ite (fun _ => only_call.2 rfl) fun _ => trivial

/-! ## The risk check and the order -/

theorem Judged.subset {decision : Decision} (h : Judged cfg ev d decision) (hsub : d ⊆ d') :
    Judged cfg ev d' decision where
  cleared := h.cleared.subset hsub
  directional := h.directional
  engine := by
    obtain ⟨requests, c, candidate, hsaid, hrest⟩ := h.engine
    exact ⟨requests, c, candidate, hsub hsaid, hrest⟩
  audited := by
    obtain ⟨candidate, hcandidate, hsaid⟩ := h.audited
    exact ⟨candidate, hcandidate, hsub hsaid⟩

/-- risk answered for the decision, and no order was asked for yet -/
def Checked (cfg : CycleConfig) (ev : CycleEvent) (decision : Decision) (check : RiskCheck)
    (d : CycleDialogue) : Prop :=
  (∃ later earlier args, d = later ++ ⟨.checkRisk args, .ok check⟩ :: earlier ∧
    args.decision = decision ∧ Judged cfg ev earlier decision) ∧
  ∀ t ∈ d, t.request.order? = none

theorem checked_persists (decision : Decision) (check : RiskCheck) :
    Persists (Checked cfg ev decision check) := by
  rintro d d' hgrown ⟨⟨later, earlier, args, rfl, hargs, hjudged⟩, hfirst⟩
  refine ⟨?_, fun t ht => (hgrown.old ht).elim (fun hquiet => hquiet.2) (hfirst t)⟩
  obtain ⟨new, rfl, -⟩ := hgrown
  exact ⟨new ++ later, earlier, args, by simp, hargs, hjudged⟩

theorem Checked.cleared {decision : Decision} {check : RiskCheck} (h : Checked cfg ev decision check d) :
    Cleared cfg ev d := by
  obtain ⟨⟨later, earlier, args, rfl, -, hjudged⟩, -⟩ := h
  exact hjudged.cleared.subset fun t ht =>
    List.mem_append_right later (List.mem_cons_of_mem _ ht)

theorem afterRisk_stage (decision : CandidateDecision) (check : RiskCheck) :
    Stage cfg ev (afterRisk cfg ev decision check) (Checked cfg ev decision.toDecision check)
      fun x d => x.1.toDecision = decision.toDecision ∧ Checked cfg ev decision.toDecision x.2 d := by
  have hkept : Persists (Checked cfg ev decision.toDecision check) :=
    checked_persists decision.toDecision check
  refine .bind (.keep (only_modify.2 trivial) hkept) fun _ => ?_
  refine .bind (.keep (.ite (fun _ => only_call.2 rfl) fun _ => trivial) hkept) fun _ => ?_
  exact .bind (.keep (only_call.2 rfl) hkept) fun _ => .ret fun d h => ⟨rfl, h⟩

theorem askRisk_follows {quality : DataQualityReport} {outputs : List AgentOutput} {c : Candidacy}
    {proposal : Option PortfolioProposal} (hjudged : Judged cfg ev d c.decision.toDecision)
    (hquiet : ∀ t ∈ d, t.request.quiet) :
    Coro.Follows (rules cfg ev) (askRisk cfg ev quality outputs c proposal) d fun r d' =>
      Cleared cfg ev d' ∧ ∀ x, r = .ok x → x.1.toDecision = c.decision.toDecision ∧
        Checked cfg ev c.decision.toDecision x.2 d' := by
  have hfail : ∀ {d' : CycleDialogue} {e : Error}, d ⊆ d' → Cleared cfg ev d' ∧
      ∀ x, (.error e : Except Error (CandidateDecision × RiskCheck)) = .ok x →
        x.1.toDecision = c.decision.toDecision ∧
          Checked cfg ev c.decision.toDecision x.2 d' := fun hsub =>
    ⟨hjudged.cleared.subset hsub, fun x hx => by cases hx⟩
  refine .call trivial (fun balance _ => ?_) fun e _ => hfail (List.subset_cons_self _ _)
  have hsub : ∀ t t' : Turn Error CycleCall.Reply, d ⊆ t' :: t :: d := fun t t' _ hx =>
    List.mem_cons_of_mem t' (List.mem_cons_of_mem t hx)
  refine .call trivial (fun leverage _ => ?_) fun e _ => hfail (hsub _ _)
  have hbefore : ∀ t ∈ (⟨.paperLeverage, .ok leverage⟩ :: ⟨.paperBalance, .ok balance⟩ :: d :
      CycleDialogue), t.request.quiet := by
    intro t ht
    rcases List.mem_cons.1 ht with rfl | ht
    · exact ⟨rfl, rfl⟩
    · rcases List.mem_cons.1 ht with rfl | ht
      · exact ⟨rfl, rfl⟩
      · exact hquiet t ht
  have hjudged' := hjudged.subset (hsub ⟨.paperBalance, .ok balance⟩ ⟨.paperLeverage, .ok leverage⟩)
  refine .call ⟨hjudged', fun t ht => (hbefore t ht).1⟩ (fun check _ => ?_) fun e _ =>
    hfail fun x hx => List.mem_cons_of_mem _ (hsub _ _ hx)
  -- the check was answered: what is left of the stage is plain
  have hchecked : Checked cfg ev c.decision.toDecision check
      (⟨.checkRisk (riskArgs ev quality outputs c proposal balance leverage), .ok check⟩ ::
        ⟨.paperLeverage, .ok leverage⟩ :: ⟨.paperBalance, .ok balance⟩ :: d) := by
    refine ⟨⟨[], _, _, rfl, rfl, hjudged'⟩, fun t ht => ?_⟩
    rcases List.mem_cons.1 ht with rfl | ht
    · rfl
    · exact (hbefore t ht).2
  refine (afterRisk_stage c.decision check _ hchecked).imp fun r d' h => ⟨?_, h.2⟩
  exact (checked_persists _ _ _ d' h.1 hchecked).cleared

theorem place_follows {decision : CandidateDecision} {check : RiskCheck}
    (hchecked : Checked cfg ev decision.toDecision check d)
    (hpassed : check.riskStatus ≠ .blocked ∧ check.riskStatus ≠ .killSwitch) :
    Coro.Follows (rules cfg ev) (place cfg ev decision check) d fun _ d' => Cleared cfg ev d' := by
  have hsub : ∀ t : Turn Error CycleCall.Reply, d ⊆ t :: d := fun t => List.subset_cons_self t d
  have hcleared := hchecked.cleared
  have horder : Authorised cfg ev d ⟨decision.toDecision, check, ev.candle.close, some ev.candle,
      some ev.candle.closedAt⟩ := ⟨hchecked.1, hpassed, hchecked.2, rfl, rfl, rfl⟩
  refine .ite (fun homs => ?_) fun homs => ?_
  · refine .call ⟨homs, horder⟩ (fun order _ => ?_) fun e _ => hcleared.subset (hsub _)
    refine follows_call.2 ⟨trivial, fun r _ => hcleared.subset fun x hx => ?_⟩
    exact List.mem_cons_of_mem _ (hsub _ hx)
  · refine .call ⟨by simpa using homs, horder⟩ (fun order _ => ?_) fun e _ => hcleared.subset (hsub _)
    refine follows_call.2 ⟨trivial, fun r _ => hcleared.subset fun x hx => ?_⟩
    exact List.mem_cons_of_mem _ (hsub _ hx)

theorem act_follows {quality : DataQualityReport} {outputs : List AgentOutput} {c : Candidacy}
    {proposal : Option PortfolioProposal} (hran : Ran cfg ev outputs d)
    (hengine : OfEngine cfg ev outputs c.decision.toDecision)
    (haudited : Audited ev c.decision.toDecision d) (hquiet : ∀ t ∈ d, t.request.quiet) :
    Coro.Follows (rules cfg ev) (act cfg ev quality outputs c proposal) d fun _ d' => Cleared cfg ev d' := by
  refine .ite (fun hdir => ?_) fun _ => hran.1
  have hjudged : Judged cfg ev d c.decision.toDecision := by
    obtain ⟨requests, hsaid⟩ := hran.2
    obtain ⟨c', candidate, hc, hrest⟩ := hengine hdir
    exact ⟨hran.1, hdir, ⟨requests, c', candidate, hc ▸ hsaid, hrest⟩, haudited⟩
  refine .bind (askRisk_follows hjudged hquiet) (fun x d' h => ?_) fun e d' h => h.1
  obtain ⟨hdecision, hchecked⟩ := h.2 x rfl
  refine .ite (fun _ => h.1) fun hpassed => ?_
  refine .bind (place_follows (hdecision ▸ hchecked) (not_or.1 hpassed)) (fun _ d'' h' => h')
    fun e d'' h' => h'

theorem evaluate_follows (quality : DataQualityReport) (hcleared : Cleared cfg ev d)
    (hquiet : ∀ t ∈ d, t.request.quiet) :
    Coro.Follows (rules cfg ev) (Orchestrator.evaluate cfg ev quality) d fun _ d' => Cleared cfg ev d' := by
  refine runAgents_stage.follows hcleared hquiet (fun outputs d hran hquiet => ?_) fun e d' hsub =>
    hcleared.subset hsub
  have hfail : ∀ {d : CycleDialogue}, Ran cfg ev outputs d → ∀ (e : Error) (d' : CycleDialogue),
      d ⊆ d' → Cleared cfg ev d' := fun h _ _ hsub => h.1.subset hsub
  refine (consolidateOutputs_stage (ran_persists outputs) quality outputs).follows hran hquiet
    (fun c d hc hquiet => ?_) (hfail hran)
  refine (weigh_stage (ran_persists outputs) hc.2).follows hc.1 hquiet (fun weighed d hw hquiet => ?_)
    (hfail hc.1)
  refine (Stage.keep (construct_plain weighed.1 weighed.2) (ran_persists outputs)).follows hw.1 hquiet
    (fun proposal d hp hquiet => ?_) (hfail hw.1)
  refine (record_stage (ran_persists outputs) weighed.1).follows hp hquiet (fun _ d hr hquiet => ?_)
    (hfail hp)
  exact act_follows hr.1 hw.2 hr.2 hquiet

/-- an exception leaves no decision -/
theorem recover_stage (e : Error) :
    Stage cfg ev (recover cfg ev e) (fun _ => True) fun r _ => r = none := by
  have htrue : Persists fun _ => True := fun _ _ _ _ => trivial
  refine .ite (fun _ => ?_) fun _ => .raise
  refine .bind (F := fun _ _ => True) (.keep ?_ htrue) fun _ => ?_
  · split
    · exact markUnhealthy_plain _ _
    · trivial
  · exact .bind (.keep (only_modify.2 trivial) htrue) fun _ => .ret fun _ _ => rfl

/-- **The cycle keeps to the rules**, and it ends with a decision only behind every gate. -/
theorem onCandleClosed_follows (cfg : CycleConfig) (ev : CycleEvent) :
    Coro.Follows (rules cfg ev) (onCandleClosed cfg ev) [] fun r d =>
      ∀ decision, r = .ok (some decision) → Cleared cfg ev d := by
  refine Coro.Follows.attempt (intake_stage [] trivial) fun r d h => ?_
  have hquiet : ∀ t ∈ d, t.request.quiet := fun t ht =>
    (h.1.old ht).elim id fun hnil => absurd hnil List.not_mem_nil
  rcases r with e | (_ | quality)
  · exact (recover_stage e d trivial).imp fun r _ hr decision hd => by cases hr.2 _ hd
  · intro decision hd
    cases hd
  · refine Coro.Follows.attempt (evaluate_follows quality (h.2 (some quality) rfl quality rfl) hquiet)
      fun r d hcleared => ?_
    have hreport : ∀ d, Coro.Follows (rules cfg ev)
        (if cfg.operations then consult (.observeCycle r.isOk) else .ret ()) d fun _ d' => d ⊆ d' := by
      intro d
      refine .ite (fun _ => follows_call.2 ⟨trivial, fun _ _ => List.subset_cons_self _ _⟩) fun _ => ?_
      exact List.Subset.refl d
    have hended : Coro.Follows (rules cfg ev) (concluded cfg ev r) d fun _ d' => d ⊆ d' := by
      cases r with
      | ok decision => exact List.Subset.refl d
      | error e => exact (recover_stage e d trivial).imp fun _ _ hr _ => hr.1.mem
    refine Coro.Follows.attempt hended fun r' d' hsub => ?_
    refine Coro.Follows.bind (hreport d') (fun _ d'' hsub' => ?_) fun e d'' _ decision hd => by cases hd
    exact follows_leave.2 fun decision _ => hcleared.subset (List.Subset.trans hsub hsub')

end

end CapitalCipher
