/-
Revocation by the kill switch, over runs.

A trigger revokes the approvals that exist when it commits. An evaluation that passed its gates
before and stores its approval afterwards escapes it: after a reset that approval is consumed.
Every approval stored in time, with no trigger between its gates and its row, is revoked for good.

  • `RevocationFinal`: an ACTIVE approval saw no trigger since its gates, a consumed one saw none
    before it was consumed; `revocation_commit`: a commit in time keeps it.
  • `revocation_final`: it holds in every run that stores its approvals in time.
  • `revocation_escaped`: it fails in a run that does not, where the approval opens an order.
-/
import CapitalCipher.System.Steps

namespace CapitalCipher

open Lib Coro Repository World

variable {cfg : Config} {now : Time} {db db' : Db}

/-! ## Events of a commit -/

theorem minted_changes {g g' : ℕ} {i : String} : Event.minted i g' ∈ changes g db db' ↔
    g' = g ∧ (∃ a ∈ db'.approvals.rows, a.approvalId = i) ∧ db.approvals.get? i = none := by
  simp only [changes, List.mem_append, List.mem_map, List.mem_filter, Event.minted.injEq,
    reduceCtorEq, and_false, exists_false, or_false, Option.isNone_iff_eq_none]
  constructor
  · rintro ⟨_, ⟨⟨a, ha, rfl⟩, hn⟩, rfl, rfl⟩
    exact ⟨rfl, ⟨a, ha, rfl⟩, hn⟩
  · rintro ⟨rfl, ⟨a, ha, rfl⟩, hn⟩
    exact ⟨_, ⟨⟨a, ha, rfl⟩, hn⟩, rfl, rfl⟩

theorem mem_consumedIds {i : String} :
    i ∈ consumedIds db ↔ ∃ a ∈ db.approvals.rows, a.approvalId = i ∧ a.status = .consumed := by
  simp only [consumedIds, List.mem_map, List.mem_filter, beq_iff_eq]
  constructor
  · rintro ⟨a, ⟨ha, hc⟩, hi⟩
    exact ⟨a, ha, hi, hc⟩
  · rintro ⟨a, ha, hi, hc⟩
    exact ⟨a, ⟨ha, hc⟩, hi⟩

theorem consumed_changes {g e : ℕ} {i : String} : Event.consumed i e ∈ changes g db db' ↔
    e = db.epoch ∧ i ∈ consumedIds db' ∧ i ∉ consumedIds db := by
  simp only [changes, List.mem_append, List.mem_map, List.mem_filter, Event.consumed.injEq,
    reduceCtorEq, and_false, exists_false, false_or, decide_eq_true_eq]
  constructor
  · rintro ⟨_, ⟨h, hn⟩, rfl, rfl⟩
    exact ⟨rfl, h, hn⟩
  · rintro ⟨rfl, h, hn⟩
    exact ⟨_, ⟨h, hn⟩, rfl, rfl⟩

/-- events that say nothing about approvals -/
def Silent (events : List Event) : Prop :=
  ∀ i e, Event.minted i e ∉ events ∧ Event.consumed i e ∉ events

theorem silent_submissions {n : ℕ} {m : Memory} {p : Paused Memory Error Request.Reply Unit} :
    Silent (submissions n m p) := by
  intro i e
  unfold submissions
  split <;> simp

theorem silent_handed {q : Request} {v : q.Reply} : Silent (handed q v) := by
  intro i e
  unfold handed
  split <;> simp

/-! ## What a commit does to approvals -/

/-- only an evaluation creates approvals -/
theorem Effect.approvals_within {q : Request} (h : Effect now q db db')
    (hq : ∀ k a, q ≠ .saveCentralRiskEvaluation k (some a)) :
    db.approvals.Within db'.approvals := by
  cases h with
  | @evaluated k a he hv =>
    cases a with
    | none =>
      have := hv.approvals
      simp only at this
      exact this ▸ .refl _
    | some a => exact absurd he (hq k a)
  | consumed _ hv => exact .of_update hv.approvals
  | saved _ hv => rw [hv.rest]; exact .refl _
  | created _ hv => exact .of_update hv.approvals
  | controlled _ hv =>
    have := hv.approvals
    split_ifs at this
    · exact .of_update this
    · exact this ▸ .refl _
  | frame hv => exact hv.approvals ▸ .refl _

/-- the epoch stays, or a trigger committed and no approval is ACTIVE -/
theorem Effect.epoch {q : Request} (h : Effect now q db db') :
    db'.epoch = db.epoch ∨ ∀ a ∈ db'.approvals.rows, a.status ≠ .active := by
  have hsame : db'.riskControlEvents = db.riskControlEvents → db'.epoch = db.epoch :=
    fun he => by rw [Db.epoch, Db.epoch, he]
  cases h with
  | evaluated _ hv => exact .inl (hsame (by rw [hv.rest]))
  | consumed _ hv => exact .inl (hsame (by rw [hv.rest]))
  | saved _ hv => exact .inl (hsame (by rw [hv.rest]))
  | created _ hv => exact .inl (hsame (by rw [hv.rest]))
  | @controlled active _ _ _ _ _ hv =>
    cases active with
    | false =>
      refine .inl ?_
      simp [Db.epoch, (Table.insert_ok hv.riskControlEvents).1, List.filter_append]
    | true =>
      refine .inr fun a ha => ?_
      have happ := hv.approvals
      rw [if_pos rfl] at happ
      rw [(Table.update_ok happ).1] at ha
      obtain ⟨b, -, rfl⟩ := List.mem_map.1 ha
      split_ifs with hb
      · simp
      · simpa using hb
  | frame hv => exact .inl (hsame hv.riskControlEvents)

/-- an operation that stores an approval does so before any further trigger commits -/
def storedInTime (w : World) : Op → Bool
  | .exec i _ fault =>
    match w.tasks[i]? with
    | some ⟨_, .waiting (.saveCentralRiskEvaluation _ (some a)) _, g⟩ =>
      !(fault.commits && (w.db.approvals.get? a.approvalId).isNone) || g == w.db.epoch
    | _ => true
  | _ => true

/-- an approval that was not there was stored in time -/
theorem minted_in_time {w : World} {i : ℕ} {locked : List String} {fault : Fault} {node g : ℕ}
    {q : Request} {k : Except Error q.Reply → Program Unit} (h : Effect now q w.db db')
    (htime : storedInTime w (.exec i locked fault) = true) (hcommits : fault.commits = true)
    (hfound : w.tasks[i]? = some ⟨node, .waiting q k, g⟩) {a : OrderApproval}
    (ha : a ∈ db'.approvals.rows) (hnone : w.db.approvals.get? a.approvalId = none) :
    g = w.db.epoch := by
  by_cases hq : ∃ c x, q = .saveCentralRiskEvaluation c (some x)
  · obtain ⟨c, x, rfl⟩ := hq
    have hx : a = x := by
      cases h with
      | evaluated he hv =>
        cases he
        rw [(Table.insert_ok hv.approvals).1] at ha
        rcases List.mem_append.1 ha with ha | ha
        · exact absurd rfl ((w.db.approvals.get?_eq_none).1 hnone a ha)
        · exact List.mem_singleton.1 ha
      | frame hv => exact absurd rfl ((w.db.approvals.get?_eq_none).1 hnone a (hv.approvals ▸ ha))
      | _ he => cases he
    subst hx
    simpa [storedInTime, hfound, hcommits, hnone] using htime
  · simp only [not_exists] at hq
    obtain ⟨b, hb, he⟩ := h.approvals_within hq a ha
    exact absurd he.key ((w.db.approvals.get?_eq_none).1 hnone b hb)

/-! ## The invariant -/

/-- revocation reaches every approval: an ACTIVE one saw no trigger since its gates, and a consumed
one saw none until it was consumed -/
structure RevocationFinal (db : Db) (history : List Event) : Prop where
  active : ∀ a ∈ db.approvals.rows, a.status = .active →
    ∀ g, Event.minted a.approvalId g ∈ history → g = db.epoch
  consumed : ∀ i g e, Event.minted i g ∈ history → Event.consumed i e ∈ history → g = e

/-- the history speaks of stored approvals -/
structure Recorded (db : Db) (history : List Event) : Prop where
  minted : ∀ i g, Event.minted i g ∈ history → ∃ a ∈ db.approvals.rows, a.approvalId = i
  consumed : ∀ i e, Event.consumed i e ∈ history → i ∈ consumedIds db

theorem recorded_commit {g : ℕ} {history : List Event} (h : Recorded db history)
    (hext : db.approvals.Extends db'.approvals) : Recorded db' (history ++ changes g db db') where
  minted i g' hm := by
    rcases List.mem_append.1 hm with hm | hm
    · obtain ⟨a, ha, rfl⟩ := h.minted i g' hm
      obtain ⟨a', ha', he⟩ := hext a ha
      exact ⟨a', ha', he.key.symm⟩
    · exact (minted_changes.1 hm).2.1
  consumed i e hc := by
    rcases List.mem_append.1 hc with hc | hc
    · obtain ⟨a, ha, rfl, hs⟩ := mem_consumedIds.1 (h.consumed i e hc)
      exact mem_consumedIds.2 ⟨a, hext.mem_of_final ha (approval_final (by simp [hs])), rfl, hs⟩
    · exact (consumed_changes.1 hc).2.1

/-- the stored approval of an id, before and after a commit -/
theorem approval_before {a a' : OrderApproval} (hext : db.approvals.Extends db'.approvals)
    (ha : a ∈ db.approvals.rows) (ha' : a' ∈ db'.approvals.rows) (hid : a.approvalId = a'.approvalId) :
    a = a' ∨ (a.status = .active ∧ a'.status ≠ .active) := by
  obtain ⟨b, hb, he⟩ := hext a ha
  obtain rfl : b = a' := db'.approvals.eq_of_key_eq hb ha' (he.key.symm.trans hid)
  rcases approval_evolves he with h | ⟨h, h', -⟩
  · exact .inl h
  · exact .inr ⟨h, h'⟩

/-- **One commit.** A commit that stores its approvals in time keeps revocation final. -/
theorem revocation_commit {g : ℕ} {history : List Event} (h : RevocationFinal db history)
    (hrec : Recorded db history) (hext : db.approvals.Extends db'.approvals)
    (hepoch : db'.epoch = db.epoch ∨ ∀ a ∈ db'.approvals.rows, a.status ≠ .active)
    (hnew : ∀ a ∈ db'.approvals.rows, db.approvals.get? a.approvalId = none → g = db.epoch) :
    RevocationFinal db' (history ++ changes g db db') where
  active a ha hact g' hm := by
    have he : db'.epoch = db.epoch := hepoch.resolve_right fun hall => hall a ha hact
    rw [he]
    rcases List.mem_append.1 hm with hm | hm
    · obtain ⟨b, hb, hid⟩ := hrec.minted _ _ hm
      rcases approval_before hext hb ha hid with rfl | ⟨-, hne⟩
      · exact h.active b hb hact g' hm
      · exact absurd hact hne
    · obtain ⟨rfl, -, hnone⟩ := minted_changes.1 hm
      exact hnew a ha hnone
  consumed i g' e hm hc := by
    rcases List.mem_append.1 hm with hm | hm <;> rcases List.mem_append.1 hc with hc | hc
    · exact h.consumed i g' e hm hc
    · -- minted before and consumed now: it was ACTIVE until now
      obtain ⟨rfl, hin, hnot⟩ := consumed_changes.1 hc
      obtain ⟨b, hb, rfl⟩ := hrec.minted i g' hm
      obtain ⟨a, ha, hid, hs⟩ := mem_consumedIds.1 hin
      rcases approval_before hext hb ha hid.symm with rfl | ⟨hact, -⟩
      · exact absurd (mem_consumedIds.2 ⟨b, hb, rfl, hs⟩) hnot
      · exact h.active b hb hact g' hm
    · obtain ⟨-, -, hnone⟩ := minted_changes.1 hm
      obtain ⟨a, ha, hid, -⟩ := mem_consumedIds.1 (hrec.consumed i e hc)
      exact absurd hid ((db.approvals.get?_eq_none).1 hnone a ha)
    · obtain ⟨rfl, ⟨a, ha, rfl⟩, hnone⟩ := minted_changes.1 hm
      obtain ⟨rfl, -⟩ := consumed_changes.1 hc
      exact hnew a ha hnone

/-- silent events change nothing -/
theorem revocation_silent {history events : List Event} (hs : Silent events)
    (h : RevocationFinal db history ∧ Recorded db history) :
    RevocationFinal db (history ++ events) ∧ Recorded db (history ++ events) := by
  have hm : ∀ {i g}, Event.minted i g ∈ history ++ events → Event.minted i g ∈ history :=
    fun hm => (List.mem_append.1 hm).resolve_right (hs _ _).1
  have hc : ∀ {i e}, Event.consumed i e ∈ history ++ events → Event.consumed i e ∈ history :=
    fun hc => (List.mem_append.1 hc).resolve_right (hs _ _).2
  exact ⟨⟨fun a ha hact g hg => h.1.active a ha hact g (hm hg),
      fun i g e hg he => h.1.consumed i g e (hm hg) (hc he)⟩,
    ⟨fun i g hg => h.2.minted i g (hm hg), fun i e he => h.2.consumed i e (hc he)⟩⟩

theorem revocation_step (w : World) (op : Op) (w' : World) (_ : w.Sound cfg)
    (htime : storedInTime w op = true)
    (h : RevocationFinal w.db w.history ∧ Recorded w.db w.history) (hs : Step cfg w op w') :
    RevocationFinal w'.db w'.history ∧ Recorded w'.db w'.history := by
  cases hs with
  | segment => exact revocation_silent silent_submissions h
  | committed ht htx hrun hreply hfound =>
    have heffect := effect_of_run htx hrun
    have hext := (extends_of_run htx hrun).approvals
    refine revocation_silent silent_handed ⟨revocation_commit h.1 h.2 hext heffect.epoch
      fun a ha hnone => ?_, recorded_commit h.2 hext⟩
    refine minted_in_time heffect htime ?_ hfound ha hnone
    rcases hreply with ⟨rfl, -⟩ | ⟨e, rfl, -⟩ <;> rfl
  | idle | answered | failed | crash | moved => exact h

/-- **Revocation is final, when approvals are stored in time.** In every run in which no trigger
commits between the gates of an evaluation and the row of its approval, an approval is consumed only
before any trigger that came after its gates, and every ACTIVE approval has seen none. -/
theorem revocation_final (cfg : Config) (ops : List Op)
    (h : Along (World.step cfg) (fun w op => storedInTime w op = true) (World.init cfg) ops) :
    RevocationFinal (World.run cfg ops).db (World.run cfg ops).history := by
  refine (along_induction (P := fun w => RevocationFinal w.db w.history ∧ Recorded w.db w.history)
    ⟨⟨?_, ?_⟩, ⟨?_, ?_⟩⟩ revocation_step h).1 <;> simp [World.init]

/-- an evaluation is stored and consumed, and then the switch is thrown -/
def storedBefore : List Op :=
  withCheck (boot ++ [.start 0 (.check { decision := sampleDecision, entryPrice := 100 })] ++
    serve 0 ++ serve 0 ++ serve 0) fun check =>
    [.start 0 (.createOrder ⟨sampleDecision, check, 100, none, none⟩)] ++
    serve 1 ++ serve 1 ++ [.start 0 (.triggerKillSwitch "halt" "operator" none)] ++ serve 2

theorem revocation_final_storedBefore :
    RevocationFinal (World.run .sample storedBefore).db (World.run .sample storedBefore).history :=
  revocation_final .sample storedBefore (by decide +kernel)

example : (World.run .sample storedBefore).db.approvals.rows.map (·.status) = [.consumed] := by
  decide +kernel

/-- an evaluation passes its gates, the switch is thrown while its audit record is written, its
approval is stored, the switch is reset, and an order is opened with it -/
def storedAfter : List Op :=
  withCheck (boot ++ [.start 0 (.check { decision := sampleDecision, entryPrice := 100 })] ++
    serve 0 ++ [.start 0 (.triggerKillSwitch "halt" "operator" none)] ++ serve 1 ++ serve 1 ++
    serve 0 ++ serve 0 ++ [.transition 0 .maintenance,
      .start 0 (.resetKillSwitch "resume" "operator" none)] ++ serve 2 ++ serve 2) fun check =>
    [.start 0 (.createOrder ⟨sampleDecision, check, 100, none, none⟩)] ++
    serve 3 ++ serve 3

/-- **Revocation is escaped.** An approval minted before a trigger is consumed after it. -/
theorem revocation_escaped :
    ¬ ∀ cfg ops, RevocationFinal (World.run cfg ops).db (World.run cfg ops).history := by
  intro h
  have := (h .sample storedAfter).consumed sampleApprovalId 0 1 (by decide +kernel)
    (by decide +kernel)
  cases this

end CapitalCipher
