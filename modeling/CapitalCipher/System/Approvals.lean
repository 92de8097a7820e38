/-
Approvals are single use, across the paper engine and the OMS.

An order exists only with an approval that was consumed for exactly its id, so one approval carries
one order at most, on one of the two venues. The difficulty is `save_paper_order`, which would store
an order that is not there: the close path reaches it only for orders the paper book holds, and the
book holds only orders whose row was committed.

  • `OrdersBound`: every stored order is bound to an approval; `Effect.bound`: commits keep it.
  • `Backed`: what the requests in flight owe to rows that are already stored.
  • `approval_single_use`: both, over every run, and approvals are decided once.
-/
import CapitalCipher.System.Steps

namespace CapitalCipher

open Lib Coro Repository World

variable {cfg : Config}

/-! ## Orders and their approvals -/

/-- a paper order is stored under this id, with this approval -/
def Db.holds (db : Db) (paperOrderId : String) (approvalId : Option String) : Prop :=
  ∃ o ∈ db.paperOrders.rows, o.paperOrderId = paperOrderId ∧ o.approvalId = approvalId

/-- the order's approval was consumed for this paper order -/
def PaperBound (db : Db) (o : PaperOrder) : Prop :=
  ∃ a ∈ db.approvals.rows, o.approvalId = some a.approvalId ∧ a.status = .consumed ∧
    a.paperOrderId = some o.paperOrderId

/-- the order's approval was consumed for it; a PAPER row mirrors a stored paper order -/
def OmsBound (db : Db) (o : OmsOrder) : Prop :=
  match o.environment with
  | .testnet => ∃ a ∈ db.approvals.rows, o.approvalId = a.approvalId ∧ a.status = .consumed ∧
      a.omsOrderId = some o.omsOrderId
  | .paper => db.holds o.omsOrderId (some o.approvalId)

structure OrdersBound (db : Db) : Prop where
  paper : ∀ o ∈ db.paperOrders.rows, PaperBound db o
  oms : ∀ o ∈ db.omsOrders.rows, OmsBound db o

/-- the orders an approval carries, paper and TESTNET -/
def carried (db : Db) (approvalId : String) : List (ExecutionEnvironment × String) :=
  ((db.paperOrders.rows.filter fun o => o.approvalId == some approvalId).map
    fun o => (.paper, o.paperOrderId)) ++
  ((db.omsOrders.rows.filter fun o => o.approvalId == approvalId && o.environment == .testnet).map
    fun o => (.testnet, o.omsOrderId))

/-- an approval is consumed for a paper order or for a TESTNET order, not for both -/
theorem consumed_either {db : Db} {a : OrderApproval} (ha : a ∈ db.approvals.rows)
    (hc : a.status = .consumed) : a.paperOrderId = none ∨ a.omsOrderId = none := by
  have hrow := db.approvals.checked a ha
  simp only [orderApprovalSchema, OrderApproval.terminalCheck, hc, Bool.and_eq_true,
    Bool.or_eq_true] at hrow
  rcases hrow.2 with ⟨-, ⟨-, h⟩ | ⟨h, -⟩⟩ | ⟨⟨⟨h, -⟩, -⟩, -⟩
  · exact .inr (by simpa using h)
  · exact .inl (by simpa using h)
  · cases h

/-- an approval carries one order at most -/
theorem carried_le_one {db : Db} (h : OrdersBound db) (approvalId : String) :
    (carried db approvalId).length ≤ 1 := by
  have hpaper : (db.paperOrders.rows.filter fun o => o.approvalId == some approvalId).length ≤ 1 := by
    refine db.paperOrders.filter_le_one fun a b ha hb hapart => ?_
    have := hapart.2.1
    simp only [beq_iff_eq] at ha hb
    simp [paperOrderSchema, ha, hb] at this
  have homs : (db.omsOrders.rows.filter
      fun o => o.approvalId == approvalId && o.environment == .testnet).length ≤ 1 := by
    refine db.omsOrders.filter_le_one fun a b ha hb hapart => ?_
    have := hapart.2.1
    simp only [Bool.and_eq_true, beq_iff_eq] at ha hb
    simp [omsOrderSchema, ha.1, hb.1] at this
  -- one of the two lists is empty, for the approval cannot be consumed on both venues
  have hone : (db.paperOrders.rows.filter fun o => o.approvalId == some approvalId) = [] ∨
      (db.omsOrders.rows.filter
        fun o => o.approvalId == approvalId && o.environment == .testnet) = [] := by
    by_contra hne
    simp only [not_or, ← List.length_pos_iff, List.length_pos_iff_exists_mem, List.mem_filter,
      Bool.and_eq_true, beq_iff_eq] at hne
    obtain ⟨⟨o, ho, hoa⟩, t, ht, hta, henv⟩ := hne
    obtain ⟨a, ha, hida, hca, hpa⟩ := h.paper o ho
    have hbt := h.oms t ht
    simp only [OmsBound, henv] at hbt
    obtain ⟨b, hb, hidb, -, htb⟩ := hbt
    have hab : a = b := db.approvals.eq_of_key_eq ha hb
      (by rw [hoa, Option.some.injEq] at hida; exact hida.symm.trans (hta.symm.trans hidb))
    rcases consumed_either ha hca with he | he
    · rw [hpa] at he
      cases he
    · rw [hab, htb] at he
      cases he
  rw [carried, List.length_append, List.length_map, List.length_map]
  rcases hone with he | he <;> rw [he] <;> simpa

/-! ## Commits keep the binding -/

variable {now : Time} {db db' : Db}

/-- a consumed approval stays as it is -/
theorem consumed_kept (h : db.approvals.Extends db'.approvals) {a : OrderApproval}
    (ha : a ∈ db.approvals.rows) (hc : a.status = .consumed) : a ∈ db'.approvals.rows :=
  h.mem_of_final ha (approval_final (by simp [hc]))

/-- no stored paper order is lost or takes another approval -/
def Db.PaperKept (db db' : Db) : Prop :=
  ∀ o ∈ db.paperOrders.rows, db'.holds o.paperOrderId o.approvalId

theorem Db.holds.kept {i : String} {a : Option String} (h : db.holds i a) (hk : db.PaperKept db') :
    db'.holds i a := by
  obtain ⟨o, ho, rfl, rfl⟩ := h
  exact hk o ho

theorem Db.PaperKept.of_eq (h : db'.paperOrders = db.paperOrders) : db.PaperKept db' :=
  fun o ho => ⟨o, h ▸ ho, rfl, rfl⟩

theorem PaperBound.kept {o o' : PaperOrder} (h : PaperBound db o)
    (ha : db.approvals.Extends db'.approvals) (hid : o'.paperOrderId = o.paperOrderId)
    (happ : o'.approvalId = o.approvalId) : PaperBound db' o' := by
  obtain ⟨a, hm, hk, hc, hp⟩ := h
  exact ⟨a, consumed_kept ha hm hc, happ.trans hk, hc, hid ▸ hp⟩

theorem OmsBound.kept {o o' : OmsOrder} (h : OmsBound db o)
    (ha : db.approvals.Extends db'.approvals) (hp : db.PaperKept db')
    (hid : o'.identity = o.identity) : OmsBound db' o' := by
  have henv : o'.environment = o.environment := congrArg OmsIdentity.environment hid
  have hoid : o'.omsOrderId = o.omsOrderId := congrArg OmsIdentity.omsOrderId hid
  have happ : o'.approvalId = o.approvalId := congrArg OmsIdentity.approvalId hid
  unfold OmsBound at h ⊢
  rw [henv, hoid, happ]
  split at h
  · obtain ⟨a, hm, hk, hc, hp⟩ := h
    exact ⟨a, consumed_kept ha hm hc, hk, hc, hp⟩
  · exact h.kept hp

/-- what a request owes to the stored paper orders -/
def Backed (db : Db) : Request → Prop
  | .savePaperOrder o => ∃ a, db.holds o.paperOrderId a
  | .saveAuditLog r => r.auditType = "PAPER_ORDER_CLOSED" → ∃ i ∈ r.entityId, ∃ a, db.holds i a
  | _ => True

theorem Repository.SavedPaper.updates {o : PaperOrder} (h : SavedPaper o db db')
    (hs : ∃ a, db.holds o.paperOrderId a) :
    db.paperOrders.update (fun x => x.paperOrderId == o.paperOrderId)
      (fun x => { x with status := o.status, closedAt := o.closedAt, pnl := o.pnl,
                         feesEstimated := o.feesEstimated }) = .ok db'.paperOrders := by
  rcases h.paperOrders with ⟨row, -, hu⟩ | ⟨hnone, -⟩
  · exact hu
  · obtain ⟨a, x, hx, hid, -⟩ := hs
    exact absurd hid ((db.paperOrders.get?_eq_none).1 hnone x hx)

theorem Effect.paper_kept {q : Request} (h : Effect now q db db') (hs : ∀ o, q = .savePaperOrder o → ∃ a, db.holds o.paperOrderId a) :
    db.PaperKept db' := by
  cases h with
  | evaluated _ hv => exact .of_eq (by rw [hv.rest])
  | consumed _ hv =>
    exact fun o ho => ⟨o, by simp [(Table.insert_ok hv.paperOrders).1, ho], rfl, rfl⟩
  | saved he hv =>
    intro o ho
    refine ⟨_, Table.mem_of_update (hv.updates (hs _ he)) ho, ?_, ?_⟩ <;> split_ifs <;> rfl
  | created _ hv => exact .of_eq (by rw [hv.rest])
  | controlled _ hv => exact .of_eq (by rw [hv.rest])
  | frame hv => exact .of_eq hv.paperOrders

/-- the approval a paper order asks to consume is the one it carries -/
theorem Repository.ConsumedPaper.carries {a : OrderApproval} {o : PaperOrder} {mirror : OmsOrder} {c : Trigger}
    {m : Memory} (h : ConsumedPaper now a o mirror db db') (hm : m.Sound cfg)
    (hq : Ask cfg c m (.consumeOrderApproval a o mirror)) : o.approvalId = some a.approvalId := by
  obtain ⟨⟨d, rc, t, msg, approval, hg, ha, hid, -⟩, -⟩ := hq
  have hkey : approval.approvalId = rc.approvalId.getD "" := hm.keyed (authorize_granted hg).1
  obtain ⟨stored, hstored, -, -⟩ := h.matched
  obtain ⟨hmem, hsk⟩ := (db.approvals.get?_eq_some).1 hstored
  -- the CHECK on the stored id rules out the default of the lookup
  have hlen : stored.approvalId.toList.length = 64 := by
    have hrow := db.approvals.checked stored hmem
    simp only [orderApprovalSchema, Bool.and_eq_true, decide_eq_true_eq] at hrow
    exact hrow.1.1
  have haid : a.approvalId = rc.approvalId.getD "" := by rw [ha]; exact hkey
  rw [hid, haid]
  cases hrc : rc.approvalId with
  | some i => rfl
  | none =>
    have : stored.approvalId = "" := by
      rw [← show a.approvalId = "" by rw [haid, hrc]; rfl]
      exact hsk
    rw [this] at hlen
    cases hlen

/-- the paper order of a consumption is bound to the approval it consumed -/
theorem Repository.ConsumedPaper.bound {a : OrderApproval} {o : PaperOrder} {mirror : OmsOrder}
    (h : ConsumedPaper now a o mirror db db') (hid : o.approvalId = some a.approvalId) :
    PaperBound db' o := by
  obtain ⟨stored, hstored, -, -⟩ := h.matched
  have hrow := Table.get?_of_update h.approvals hstored
  have hk := ((db.approvals.get?_eq_some).1 hstored).2
  rw [if_pos (by simpa [orderApprovalSchema] using hk)] at hrow
  exact ⟨_, ((db'.approvals.get?_eq_some).1 hrow).1, by rw [hid]; exact congrArg some hk.symm, rfl,
    rfl⟩

/-- so is the TESTNET order of a creation -/
theorem Repository.CreatedOms.bound {o : OmsOrder} {command : ExecutionCommand}
    (h : CreatedOms now o command db db') : OmsBound db' o := by
  obtain ⟨stored, hstored, -, -⟩ := h.matched
  have hrow := Table.get?_of_update h.approvals hstored
  have hk := ((db.approvals.get?_eq_some).1 hstored).2
  rw [if_pos (by simpa [orderApprovalSchema] using hk)] at hrow
  simp only [OmsBound, h.testnet]
  exact ⟨_, ((db'.approvals.get?_eq_some).1 hrow).1, hk.symm, rfl, rfl⟩

theorem Effect.bound {q : Request} (h : Effect now q db db')
    (hext : db.approvals.Extends db'.approvals) (hq : Asked cfg q) (hs : ∀ o, q = .savePaperOrder o → ∃ a, db.holds o.paperOrderId a)
    (hb : OrdersBound db) : OrdersBound db' := by
  have hkept := h.paper_kept hs
  -- rows that were there stay bound
  have hpaper : db'.paperOrders = db.paperOrders → ∀ o ∈ db'.paperOrders.rows, PaperBound db' o :=
    fun he o ho => (hb.paper o (he ▸ ho)).kept hext rfl rfl
  have homs : ∀ o ∈ db.omsOrders.rows, OmsBound db' o :=
    fun o ho => (hb.oms o ho).kept hext hkept rfl
  cases h with
  | evaluated _ hv =>
    have hrest := hv.rest
    exact ⟨hpaper (by rw [hrest]), by rw [hrest]; rw [hrest] at homs; exact homs⟩
  | @consumed a o mirror he hv =>
    subst he
    obtain ⟨c, m, hm, hask⟩ := hq
    have hid := hv.carries hm hask
    have hnew := hv.bound hid
    constructor
    · intro x hx
      rw [(Table.insert_ok hv.paperOrders).1] at hx
      rcases List.mem_append.1 hx with hx | hx
      · exact (hb.paper x hx).kept hext rfl rfl
      · exact List.mem_singleton.1 hx ▸ hnew
    · intro x hx
      rw [(Table.insert_ok hv.omsOrders).1] at hx
      rcases List.mem_append.1 hx with hx | hx
      · exact homs x hx
      · obtain rfl := List.mem_singleton.1 hx
        obtain ⟨henv, hoid, happ⟩ := hv.mirrored
        simp only [OmsBound, henv]
        exact ⟨o, by simp [(Table.insert_ok hv.paperOrders).1], hoid.symm, by rw [hid, happ]⟩
  | saved he hv =>
    have hu := hv.updates (hs _ he)
    have hrest := hv.rest
    constructor
    · intro x hx
      rw [(Table.update_ok hu).1] at hx
      obtain ⟨o, ho, rfl⟩ := List.mem_map.1 hx
      refine (hb.paper o ho).kept hext ?_ ?_ <;> split_ifs <;> rfl
    · have : db'.omsOrders = db.omsOrders := by rw [hrest]
      exact this ▸ homs
  | created _ hv =>
    refine ⟨hpaper (by rw [hv.rest]), fun x hx => ?_⟩
    rw [(Table.insert_ok hv.omsOrders).1] at hx
    rcases List.mem_append.1 hx with hx | hx
    · exact homs x hx
    · exact List.mem_singleton.1 hx ▸ hv.bound
  | controlled _ hv =>
    have : db'.omsOrders = db.omsOrders := by rw [hv.rest]
    exact ⟨hpaper (by rw [hv.rest]), this ▸ homs⟩
  | frame hv =>
    refine ⟨hpaper hv.paperOrders, fun x hx => ?_⟩
    obtain ⟨o, ho, he⟩ := hv.omsOrders x hx
    exact (hb.oms o ho).kept hext hkept (omsOrder_evolves he).1.symm

/-! ## Every run -/

/-- what a consumed reply promises -/
def Booked (db : Db) : Trigger → Prop
  | .reply (.consumeOrderApproval _ o _) (.ok _) => db.holds o.paperOrderId o.approvalId
  | _ => True

def TaskState.Backed (db : Db) : TaskState → Prop
  | .waiting q _ => CapitalCipher.Backed db q
  | .replied q r _ => CapitalCipher.Backed db q ∧ Booked db (.reply q r)
  | .done _ => True

/-- the invariant of a run: orders are bound, and what is in memory or in flight is stored -/
structure Bound (cfg : Config) (w : World) : Prop where
  orders : OrdersBound w.db
  held : cfg.repository = true → ∀ n i o, (w.mem n).paper.openOrders.lookup i = some o →
    w.db.holds i o.approvalId
  backed : cfg.repository = true → ∀ t ∈ w.tasks, t.state.Backed w.db

theorem Backed.kept {q : Request} (h : Backed db q) (hk : db.PaperKept db') : Backed db' q := by
  cases q with
  | savePaperOrder o =>
    obtain ⟨a, ha⟩ := h
    exact ⟨a, ha.kept hk⟩
  | saveAuditLog r =>
    intro hc
    obtain ⟨i, hi, a, ha⟩ := h hc
    exact ⟨i, hi, a, ha.kept hk⟩
  | _ => trivial

theorem Booked.kept {c : Trigger} (h : Booked db c) (hk : db.PaperKept db') : Booked db' c := by
  unfold Booked at h ⊢
  split
  · exact Db.holds.kept h hk
  · trivial

theorem TaskState.Backed.kept {s : TaskState} (h : s.Backed db) (hk : db.PaperKept db') :
    s.Backed db' := by
  cases s with
  | waiting q k => exact CapitalCipher.Backed.kept h hk
  | replied q r k => exact ⟨h.1.kept hk, h.2.kept hk⟩
  | done r => trivial

theorem booked_error (q : Request) (e : Error) : Booked db (.reply q (.error e)) := by
  cases q <;> trivial

/-- the paper book gains an order by its consumption only -/
theorem bookAfter_openOrders {c : Trigger} {m : Memory} {i : String} {o : PaperOrder}
    (h : (bookAfter c m).openOrders.lookup i = some o) :
    m.paper.openOrders.lookup i = some o ∨
      (i = o.paperOrderId ∧ ∃ a mirror, c = .reply (.consumeOrderApproval a o mirror) (.ok ())) := by
  unfold bookAfter at h
  split at h
  · exact .inl h
  · rw [Dict.lookup_insert_eq] at h
    split_ifs at h with hi
    · cases h
      exact .inr ⟨hi, _, _, rfl⟩
    · exact .inl h
  · exact .inl h
  · split_ifs at h
    · rw [Dict.lookup_erase_eq] at h
      split_ifs at h
      exact .inl h
    · exact .inl h
  · exact .inl h

/-- a reply a segment begins with was booked -/
theorem Begins.booked {w : World} {op : Op} {old : List Task} {node g : ℕ} {c : Trigger}
    (h : Begins w op old node g c) (hb : ∀ t ∈ w.tasks, t.state.Backed w.db) :
    Booked w.db c ∧ ∀ q r, c = .reply q r → Backed w.db q := by
  cases h with
  | start => exact ⟨trivial, fun _ _ h => nomatch h⟩
  | resume hi =>
    obtain ⟨hq, hr⟩ := hb _ (List.mem_of_getElem? hi)
    refine ⟨hr, ?_⟩
    rintro q r ⟨⟩
    exact hq

/-- after a segment the book still holds stored orders only -/
theorem held_segment {c : Trigger} {m₀ m : Memory} (hbook : m.book = bookAfter c m₀)
    (hbooked : Booked db c)
    (h : ∀ i o, m₀.paper.openOrders.lookup i = some o → db.holds i o.approvalId) (i : String)
    (o : PaperOrder) (ho : m.paper.openOrders.lookup i = some o) : db.holds i o.approvalId := by
  have hlookup : (bookAfter c m₀).openOrders.lookup i = some o := by rwa [← hbook]
  rcases bookAfter_openOrders hlookup with ho | ⟨rfl, a, mirror, rfl⟩
  · exact h i o ho
  · exact hbooked

/-- the request a segment ends with is backed -/
theorem backed_ask {c : Trigger} {m : Memory} {q : Request} (hask : Ask cfg c m q)
    (hheld : ∀ i o, m.paper.openOrders.lookup i = some o → db.holds i o.approvalId)
    (hc : ∀ q r, c = .reply q r → Backed db q) : Backed db q := by
  cases q with
  | savePaperOrder o =>
    obtain ⟨-, -, r, reply, hr, htype, hid⟩ := hask
    obtain ⟨i, hi, a, ha⟩ := hc _ _ hr htype
    rw [hid] at hi
    cases hi
    exact ⟨a, ha⟩
  | saveAuditLog r =>
    intro htype
    obtain ⟨i, hi, ho⟩ := hask.2 htype
    obtain ⟨o, ho⟩ := Option.isSome_iff_exists.1 ho
    exact ⟨i, hi, _, hheld i o ho⟩
  | _ => trivial

theorem booked_run {locked : List String} {q : Request} {tx : Txn q.Reply} {v : q.Reply}
    (htx : q.transaction now locked = some tx) (hrun : tx.run db = .ok (v, db')) :
    Booked db' (.reply q (.ok v)) := by
  cases q with
  | consumeOrderApproval a o mirror =>
    cases htx
    have h : ConsumedPaper now a o mirror db db' := consumeOrderApproval_ok hrun
    exact ⟨o, by simp [(Table.insert_ok h.paperOrders).1], rfl, rfl⟩
  | _ => trivial

theorem bound_step (w : World) (op : Op) (w' : World) (hw : w.Sound cfg) (h : Bound cfg w)
    (hs : Step cfg w op w') : Bound cfg w' := by
  cases hs with
  | idle => exact h
  | @segment _ old node g c pre post m p hb ht hm hseg hstops =>
    refine ⟨h.orders, fun hr n i o ho => ?_, fun hr => ?_⟩
    · simp only [setMem] at ho
      split_ifs at ho
      · exact held_segment (hseg hr).2.1 (hb.booked (h.backed hr)).1 (h.held hr _) i o ho
      · exact h.held hr n i o ho
    · have hold := h.backed hr
      obtain ⟨hbooked, hc⟩ := hb.booked hold
      rw [ht] at hold
      refine forall_replaced hold ?_
      cases p with
      | done r => trivial
      | waiting q k =>
        exact backed_ask hstops.1 (held_segment (hseg hr).2.1 hbooked (h.held hr _)) hc
  | @answered i a pre post node q k g r ht hr hrely =>
    refine ⟨h.orders, h.held, fun hrep => ?_⟩
    have hold := h.backed hrep
    rw [ht] at hold
    refine forall_replaced hold ⟨hold ⟨node, .waiting q k, g⟩ (by simp), ?_⟩
    cases q <;> cases a <;> trivial
  | @failed i locked fault pre post node q k g tx e ht htx hwhy =>
    refine ⟨h.orders, h.held, fun hrep => ?_⟩
    have hold := h.backed hrep
    rw [ht] at hold
    exact forall_replaced hold ⟨hold ⟨node, .waiting q k, g⟩ (by simp), booked_error q e⟩
  | @committed i locked fault pre post node q k g tx v db r ht htx hrun hreply =>
    have hq := (hw.waiting ht).1
    have heffect := effect_of_run htx hrun
    have hs : ∀ o, q = .savePaperOrder o → ∃ a, w.db.holds o.paperOrderId a := by
      rintro o rfl
      obtain ⟨-, -, -, hrep, -⟩ := hq
      exact h.backed hrep ⟨node, .waiting _ k, g⟩ (by rw [ht]; simp)
    have hkept := heffect.paper_kept hs
    refine ⟨heffect.bound (extends_of_run htx hrun).approvals hq hs h.orders,
      fun hrep n i o ho => (h.held hrep n i o ho).kept hkept, fun hrep => ?_⟩
    have hold : ∀ t ∈ w.tasks, t.state.Backed db := fun t ht => (h.backed hrep t ht).kept hkept
    rw [ht] at hold
    refine forall_replaced hold ⟨hold ⟨node, .waiting q k, g⟩ (by simp), ?_⟩
    rcases hreply with ⟨-, rfl⟩ | ⟨e, -, rfl⟩
    · exact booked_run htx hrun
    · exact booked_error q e
  | crash =>
    refine ⟨h.orders, fun hrep n i o ho => ?_, fun hrep t ht => ?_⟩
    · simp only [setMem] at ho
      split_ifs at ho
      · simp [Memory.fresh] at ho
      · exact h.held hrep n i o ho
    · obtain ⟨u, hu, rfl⟩ := List.mem_map.1 ht
      exact killed_state (h.backed hrep u hu) trivial
  | moved hm hc hb =>
    refine ⟨h.orders, fun hrep n i o ho => ?_, h.backed⟩
    simp only [setMem] at ho
    split_ifs at ho
    · exact h.held hrep _ i o ((congrArg (fun b : Book => b.openOrders.lookup i) hb).symm.trans ho)
    · exact h.held hrep n i o ho

/-- an approval's status moves once, out of ACTIVE -/
def DecidedOnce (db db' : Db) : Prop :=
  ∀ a ∈ db.approvals.rows, ∃ a' ∈ db'.approvals.rows, a' = a ∨
    (a.status = .active ∧ a'.status ∈ [.consumed, .revoked, .expired] ∧ a'.identity = a.identity)

theorem decidedOnce_of_extends (h : db.Extends db') : DecidedOnce db db' := by
  intro a ha
  obtain ⟨a', ha', he⟩ := h.approvals a ha
  refine ⟨a', ha', ?_⟩
  rcases approval_evolves he with rfl | ⟨hact, hne, hid⟩
  · exact .inl rfl
  · refine .inr ⟨hact, ?_, hid.symm⟩
    cases hs : a'.status
    · exact absurd hs hne
    all_goals simp

/-- an approval is single use: each order has its own, and is the only one it carries -/
structure SingleUse (cfg : Config) (w : World) : Prop where
  orders : OrdersBound w.db
  once : ∀ approvalId, (carried w.db approvalId).length ≤ 1
  held : cfg.repository = true → ∀ n i o, (w.mem n).paper.openOrders.lookup i = some o →
    PaperBound w.db o

/-- **Approvals are single use.** In every run, every stored order (and every order a process still
holds) has an approval consumed for exactly its id, no approval carries two orders, paper or
TESTNET, and whatever happens next each stored approval stays as it is or was ACTIVE and is decided
once. -/
theorem approval_single_use (cfg : Config) (ops more : List Op) :
    SingleUse cfg (World.run cfg ops) ∧
      DecidedOnce (World.run cfg ops).db (World.run cfg (ops ++ more)).db := by
  have hbound : Bound cfg (World.run cfg ops) := by
    refine run_induction ⟨⟨by simp [init, Db.empty], by simp [init, Db.empty]⟩, ?_, ?_⟩ bound_step ops
    · simp [init, Memory.fresh]
    · simp [init]
  refine ⟨⟨hbound.orders, carried_le_one hbound.orders, fun hrep n i o ho => ?_⟩,
    decidedOnce_of_extends (run_extends ops more)⟩
  obtain ⟨x, hx, hid, happ⟩ := hbound.held hrep n i o ho
  have hoid : o.paperOrderId = i := (run_sound ops).memory n |>.booked ho
  obtain ⟨a, ha, hk, hc, hp⟩ := hbound.orders.paper x hx
  exact ⟨a, ha, happ ▸ hk, hc, by rw [hoid, ← hid]; exact hp⟩

end CapitalCipher
