/-
The paper account is conserved, over every interleaving of opens, candles and closes.

An order is opened by the one commit that consumes its approval and closed only while it is open, so
both happen once in memory, and the book and the registered positions move together. The durable row
is another matter: a close stores it before it looks whether the order is still open, so a second
close of an order writes its own result over the row of the first.

  • `Tally.Squares`: the trades of a process square with its book and its positions.
  • `Accounts`: that, and what is in flight, over a run; `accounts_step`: every step keeps it.
  • `closes_conserved`: the account of every run whose stored closes agree with what was performed.
  • `close_overwritten`: two closes of one order, where the row ends with the result of the second.
-/
import CapitalCipher.System.Approvals
import CapitalCipher.System.Flight
import CapitalCipher.System.Trades

namespace CapitalCipher

open Lib Coro Repository World

variable {cfg : Config}

/-! ## Trades, book and positions -/

/-- every order is opened once and closed once, after it was opened; the open ones are the book, and
the book is what is registered -/
structure Tally.Squares (t : Tally) (b : Book) : Prop where
  opened_once : (t.opened.map PaperOrder.paperOrderId).Nodup
  closed_once : (t.closed.map PaperOrder.paperOrderId).Nodup
  closed_opened : ∀ i ∈ t.closed.map PaperOrder.paperOrderId,
    i ∈ t.opened.map PaperOrder.paperOrderId
  open_iff : ∀ i, (b.openOrders.lookup i).isSome ↔
    i ∈ t.opened.map PaperOrder.paperOrderId ∧ i ∉ t.closed.map PaperOrder.paperOrderId
  registered : ∀ i, b.positions.lookup (.paper i) = (b.openOrders.lookup i).map Exposures.ofPaper

namespace Tally.Squares

variable {t : Tally} {b : Book}

theorem fresh (cfg : Config) (now : Time) :
    (Memory.fresh cfg now).tally.Squares (Memory.fresh cfg now).book := by
  constructor <;> simp [Memory.tally, Memory.book, Memory.fresh, openings, closings]

/-- an order that was never opened is opened -/
theorem opening (h : t.Squares b) {o : PaperOrder}
    (hnew : o.paperOrderId ∉ t.opened.map PaperOrder.paperOrderId) :
    Tally.Squares { t with opened := t.opened ++ [o] }
      ⟨AList.insert (.paper o.paperOrderId) (Exposures.ofPaper o) b.positions,
        AList.insert o.paperOrderId o b.openOrders⟩ where
  opened_once := by
    rw [List.map_append, List.nodup_append]
    refine ⟨h.opened_once, by simp, ?_⟩
    intro i hi j hj hij
    obtain rfl : j = o.paperOrderId := by simpa using hj
    exact hnew (hij ▸ hi)
  closed_once := h.closed_once
  closed_opened i hi := by
    rw [List.map_append]
    exact List.mem_append_left _ (h.closed_opened i hi)
  open_iff i := by
    rw [Dict.lookup_insert_eq, List.map_append, List.mem_append]
    by_cases hi : i = o.paperOrderId
    · subst hi
      have hclosed : o.paperOrderId ∉ t.closed.map PaperOrder.paperOrderId :=
        fun hc => hnew (h.closed_opened _ hc)
      simp only [if_true, Option.isSome_some, List.map_cons, List.map_nil, List.mem_singleton,
        or_true, true_and, true_iff]
      exact hclosed
    · rw [if_neg hi, h.open_iff i]
      simp [hi]
  registered i := by
    rw [Dict.lookup_insert_eq, Dict.lookup_insert_eq]
    by_cases hi : i = o.paperOrderId
    · simp [hi]
    · rw [if_neg hi, if_neg (fun he => hi (ExposureId.paper.inj he))]
      exact h.registered i

/-- an open order is closed -/
theorem closing (h : t.Squares b) {o : PaperOrder} (hopen : (b.openOrders.lookup o.paperOrderId).isSome) :
    Tally.Squares { t with closed := t.closed ++ [o] }
      ⟨AList.erase (.paper o.paperOrderId) b.positions,
        AList.erase o.paperOrderId b.openOrders⟩ := by
  obtain ⟨hin, hout⟩ := (h.open_iff o.paperOrderId).1 hopen
  constructor
  · exact h.opened_once
  · rw [List.map_append, List.nodup_append]
    refine ⟨h.closed_once, by simp, ?_⟩
    intro i hi j hj hij
    obtain rfl : j = o.paperOrderId := by simpa using hj
    exact hout (hij ▸ hi)
  · intro i hi
    rw [List.map_append, List.mem_append] at hi
    rcases hi with hi | hi
    · exact h.closed_opened i hi
    · obtain rfl : i = o.paperOrderId := by simpa using hi
      exact hin
  · intro i
    rw [Dict.lookup_erase_eq, List.map_append, List.mem_append]
    by_cases hi : i = o.paperOrderId
    · simp [hi]
    · rw [if_neg hi, h.open_iff i]
      simp [hi]
  · intro i
    rw [Dict.lookup_erase_eq, Dict.lookup_erase_eq]
    by_cases hi : i = o.paperOrderId
    · simp [hi]
    · rw [if_neg hi, if_neg (fun he => hi (ExposureId.paper.inj he))]
      exact h.registered i

/-- a TESTNET reservation is no paper position -/
theorem reserving (h : t.Squares b) (created : OmsOrder) :
    t.Squares { b with positions := reserved created b.positions } := by
  refine ⟨h.opened_once, h.closed_once, h.closed_opened, h.open_iff, fun i => ?_⟩
  rw [← h.registered i]
  unfold reserved
  split_ifs
  · exact AList.lookup_insert_ne (by simp)
  · rfl

end Tally.Squares

/-! ## Segments -/

/-- the paper order a reply opens -/
def opensOf : Trigger → Option PaperOrder
  | .reply (.consumeOrderApproval _ o _) (.ok _) => some o
  | _ => none

/-- the close a reply has stored -/
def closesOf : Trigger → Option PaperOrder
  | .reply (.savePaperOrder o) (.ok _) => some o
  | _ => none

theorem tallyAfter_opened (c : Trigger) (m : Memory) :
    (tallyAfter c m).opened = m.tally.opened ++ (opensOf c).toList := by
  cases c with
  | start => simp [tallyAfter, opensOf]
  | reply q r =>
    cases q with
    | consumeOrderApproval a o mirror => cases r <;> simp [tallyAfter, opensOf]
    | savePaperOrder o =>
      cases r with
      | ok u =>
        simp only [tallyAfter, opensOf]
        split_ifs <;> simp
      | error e => simp [tallyAfter, opensOf]
    | _ => simp [tallyAfter, opensOf]

theorem mem_tallyAfter_closed {c : Trigger} {m : Memory} {x : PaperOrder}
    (h : x ∈ (tallyAfter c m).closed) : x ∈ m.tally.closed ∨ closesOf c = some x := by
  unfold tallyAfter at h
  split at h
  · exact .inl h
  · split_ifs at h
    · rcases List.mem_append.1 h with h | h
      · exact .inl h
      · exact .inr (by rw [List.mem_singleton.1 h]; rfl)
    · exact .inl h
  · exact .inl h

/-- a segment that is replied no portfolio keeps the trades square -/
theorem Tally.Squares.after {c : Trigger} {m : Memory} (h : m.tally.Squares m.book)
    (hload : ∀ q r, c = .reply q r → Trades q)
    (hnew : ∀ o, opensOf c = some o →
      o.paperOrderId ∉ m.tally.opened.map PaperOrder.paperOrderId) :
    (tallyAfter c m).Squares (bookAfter c m) := by
  cases c with
  | start => exact h
  | reply q r =>
    cases q with
    | loadOpenPositionExposures => cases hload _ _ rfl
    | consumeOrderApproval a o mirror =>
      cases r with
      | ok u => exact h.opening (hnew o rfl)
      | error e => exact h
    | savePaperOrder o =>
      cases r with
      | ok u =>
        simp only [tallyAfter, bookAfter]
        split_ifs with hopen
        · exact h.closing hopen
        · exact h
      | error e => exact h
    | createOmsOrder o command =>
      cases r with
      | ok created => exact h.reserving created
      | error e => exact h
    | _ => exact h

/-! ## What is in flight -/

/-- the orders a process opened, or is about to open -/
def opens (w : World) (n : ℕ) : List PaperOrder := (w.mem n).tally.opened ++ flight opensOf w n

/-- the closes a process performed, or has stored and is about to perform -/
def closes (w : World) (n : ℕ) : List PaperOrder := (w.mem n).tally.closed ++ flight closesOf w n

/-- what a close settles of an order -/
structure Settlement where
  paperOrderId : String
  status : PaperOrderStatus
  closedAt : Option Time
  pnl : Option ℚ
  fees : ℚ
  deriving DecidableEq

def PaperOrder.settlement (o : PaperOrder) : Settlement :=
  ⟨o.paperOrderId, o.status, o.closedAt, o.pnl, o.feesEstimated⟩

/-- the durable row of the order carries this settlement -/
def Db.settled (db : Db) (s : Settlement) : Prop :=
  ∃ row ∈ db.paperOrders.rows, row.settlement = s

/-- the order a request closes was opened by its process -/
def Closable (m : Memory) : Request → Prop
  | .savePaperOrder o => o.paperOrderId ∈ m.tally.opened.map PaperOrder.paperOrderId
  | .saveAuditLog r => r.auditType = "PAPER_ORDER_CLOSED" →
    ∃ i ∈ r.entityId, i ∈ m.tally.opened.map PaperOrder.paperOrderId
  | _ => True

def TaskState.Closable (m : Memory) : TaskState → Prop
  | .waiting q _ => CapitalCipher.Closable m q
  | .replied q _ _ => CapitalCipher.Closable m q
  | .done _ => True

/-- the accounts of a run -/
structure Accounts (w : World) : Prop where
  squares : ∀ n, (w.mem n).tally.Squares (w.mem n).book
  opened_once : ∀ n, ((opens w n).map PaperOrder.paperOrderId).Nodup
  opened_here : ∀ n n', ∀ o ∈ opens w n, ∀ o' ∈ opens w n', o.paperOrderId = o'.paperOrderId → n = n'
  booked : ∀ n, ∀ o ∈ opens w n, ∃ a, w.db.holds o.paperOrderId a
  closable : ∀ t ∈ w.tasks, t.state.Closable (w.mem t.node)
  settled : ∀ n, ∀ o ∈ closes w n, w.db.settled o.settlement

/-! ## Conditions on a run -/

/-- a close is stored over no other close of its order that was performed or is about to be -/
def closesAlone (w : World) : Op → Bool
  | .exec i _ fault =>
    match w.tasks[i]? with
    | some ⟨node, .waiting (.savePaperOrder o) _, _⟩ =>
      !fault.commits || (closes w node).all fun x =>
        x.paperOrderId != o.paperOrderId || x.settlement == o.settlement
    | _ => true
  | _ => true

/-! ## Steps -/

variable {w w' : World} {pre old post : List Task} {node g : ℕ} {m : Memory}

theorem setMem_ne {n : ℕ} (h : n ≠ node) : (w.setMem node m).mem n = w.mem n := if_neg h

theorem setMem_self : (w.setMem node m).mem node = m := if_pos rfl

/-- a segment moves an order from the flight to the tape -/
theorem opens_segment {op : Op} {c : Trigger} {p : Paused Memory Error Request.Reply Unit}
    (hb : Begins w op old node g c) (ht : w.tasks = pre ++ old ++ post)
    (ht' : w'.tasks = pre ++ w.paused node g p :: post) (hmem : w'.mem = (w.setMem node m).mem)
    (hm : m.tally = tallyAfter c (w.mem node)) (n : ℕ) : (opens w' n).Perm (opens w n) := by
  obtain ⟨⟨before, after, hold, hnew⟩, hother⟩ := flight_segment hb ht ht' (f := opensOf) rfl
  unfold opens
  rw [hmem]
  by_cases hn : n = node
  · subst hn
    rw [setMem_self, hm, tallyAfter_opened, hold, hnew, List.append_assoc]
    exact (List.perm_append_comm_assoc _ _ _).append_left _
  · rw [setMem_ne hn, hother n hn]

theorem closes_segment {op : Op} {c : Trigger} {p : Paused Memory Error Request.Reply Unit}
    (hb : Begins w op old node g c) (ht : w.tasks = pre ++ old ++ post)
    (ht' : w'.tasks = pre ++ w.paused node g p :: post) (hmem : w'.mem = (w.setMem node m).mem)
    (hm : m.tally = tallyAfter c (w.mem node)) (n : ℕ) {o : PaperOrder} (h : o ∈ closes w' n) :
    o ∈ closes w n := by
  obtain ⟨⟨before, after, hold, hnew⟩, hother⟩ := flight_segment hb ht ht' (f := closesOf) rfl
  unfold closes at h ⊢
  rw [hmem] at h
  by_cases hn : n = node
  · subst hn
    rw [setMem_self, hm, hnew] at h
    rw [hold]
    rcases List.mem_append.1 h with h | h
    · rcases mem_tallyAfter_closed h with h | h
      · exact List.mem_append_left _ h
      · simp [h]
    · rcases List.mem_append.1 h with h | h <;> simp [h]
  · rwa [setMem_ne hn, hother n hn] at h

/-- the trades that are known about orders stay what they are -/
theorem Accounts.narrow (h : Accounts w) (hdb : w'.db = w.db)
    (hopens : ∀ n, (opens w' n).Subperm (opens w n))
    (hcloses : ∀ n, ∀ o ∈ closes w' n, o ∈ closes w n)
    (hsquares : ∀ n, (w'.mem n).tally.Squares (w'.mem n).book)
    (hclosable : ∀ t ∈ w'.tasks, t.state.Closable (w'.mem t.node)) : Accounts w' where
  squares := hsquares
  opened_once n := by
    obtain ⟨l, hp, hl⟩ := hopens n
    exact ((hp.map _).nodup_iff).1 ((hl.map _).nodup (h.opened_once n))
  opened_here n n' o ho o' ho' := h.opened_here n n' o ((hopens n).subset ho) o' ((hopens n').subset ho')
  booked n o ho := hdb ▸ h.booked n o ((hopens n).subset ho)
  closable := hclosable
  settled n o ho := hdb ▸ h.settled n o (hcloses n o ho)

/-- the orders a process opened stay opened until it crashes -/
theorem Closable.grow {m m' : Memory} {q : Request} (h : Closable m q)
    (ht : ∀ o ∈ m.tally.opened, o ∈ m'.tally.opened) : Closable m' q := by
  have hids : ∀ i ∈ m.tally.opened.map PaperOrder.paperOrderId,
      i ∈ m'.tally.opened.map PaperOrder.paperOrderId := by
    intro i hi
    obtain ⟨o, ho, rfl⟩ := List.mem_map.1 hi
    exact List.mem_map.2 ⟨o, ht o ho, rfl⟩
  cases q with
  | savePaperOrder o => exact hids _ h
  | saveAuditLog r =>
    intro htype
    obtain ⟨i, hi, ho⟩ := h htype
    exact ⟨i, hi, hids i ho⟩
  | _ => trivial

theorem TaskState.Closable.grow {m m' : Memory} {s : TaskState} (h : s.Closable m)
    (ht : ∀ o ∈ m.tally.opened, o ∈ m'.tally.opened) : s.Closable m' := by
  cases s with
  | waiting q k => exact CapitalCipher.Closable.grow h ht
  | replied q r k => exact CapitalCipher.Closable.grow h ht
  | done r => trivial

/-- a segment asks to close what is open -/
theorem closable_ask {c : Trigger} {m₀ m : Memory} {q : Request} (hask : Ask cfg c m q)
    (hs : m.tally.Squares m.book) (ht : ∀ o ∈ m₀.tally.opened, o ∈ m.tally.opened)
    (hc : ∀ q r, c = .reply q r → Closable m₀ q) : Closable m q := by
  cases q with
  | savePaperOrder o =>
    obtain ⟨-, -, r, reply, rfl, htype, hid⟩ := hask
    obtain ⟨i, hi, hopen⟩ := Closable.grow (hc _ _ rfl) ht htype
    rw [hid] at hi
    cases hi
    exact hopen
  | saveAuditLog r =>
    intro htype
    obtain ⟨i, hi, hopen⟩ := hask.2 htype
    exact ⟨i, hi, ((hs.open_iff i).1 hopen).1⟩
  | _ => trivial

theorem Accounts.segment {op : Op} {c : Trigger} {p : Paused Memory Error Request.Reply Unit}
    (h : Accounts w) (hasked : ∀ t ∈ w.tasks, t.state.Only Trades)
    (hb : Begins w op old node g c) (ht : w.tasks = pre ++ old ++ post)
    (hbook : m.book = bookAfter c (w.mem node)) (htally : m.tally = tallyAfter c (w.mem node))
    (hstops : Stops cfg c (w.mem node) m p) (hdb : w'.db = w.db)
    (hmem : w'.mem = (w.setMem node m).mem) (ht' : w'.tasks = pre ++ w.paused node g p :: post) :
    Accounts w' := by
  have hreply : ∀ q r, c = .reply q r → ∃ k, ⟨node, .replied q r k, g⟩ ∈ w.tasks := by
    rintro q r rfl
    cases hb with
    | resume hi => exact ⟨_, List.mem_of_getElem? hi⟩
  have hsquares : m.tally.Squares m.book := by
    rw [hbook, htally]
    refine (h.squares node).after (fun q r hc => ?_) fun o ho hin => ?_
    · obtain ⟨k, hk⟩ := hreply q r hc
      exact (hasked _ hk).1
    · -- the order is in flight, so it cannot be on the tape as well
      have honce := h.opened_once node
      rw [opens, List.map_append, List.nodup_append] at honce
      refine honce.2.2 _ hin _ (List.mem_map_of_mem ?_) rfl
      obtain ⟨⟨before, after, hold, -⟩, -⟩ := flight_segment hb ht ht' (f := opensOf) rfl
      rw [hold, ho]
      simp
  have hgrow : ∀ o ∈ (w.mem node).tally.opened, o ∈ m.tally.opened := by
    intro o ho
    rw [htally, tallyAfter_opened]
    exact List.mem_append_left _ ho
  refine h.narrow hdb (fun n => (opens_segment hb ht ht' hmem htally n).subperm)
    (fun n o ho => closes_segment hb ht ht' hmem htally n ho) (fun n => ?_) ?_
  · rw [hmem]
    by_cases hn : n = node
    · subst hn
      rw [setMem_self]
      exact hsquares
    · rw [setMem_ne hn]
      exact h.squares n
  · have hold : ∀ t ∈ w.tasks, t.state.Closable ((w.setMem node m).mem t.node) := by
      intro t htm
      by_cases hn : t.node = node
      · rw [hn, setMem_self]
        exact (hn ▸ h.closable t htm).grow hgrow
      · rw [setMem_ne hn]
        exact h.closable t htm
    rw [ht] at hold
    rw [hmem, ht']
    apply forall_replaced hold
    cases p with
    | done r => trivial
    | waiting q k =>
      have hself : (w.setMem node m).mem node = m := setMem_self
      simp only [World.paused, hself]
      refine closable_ask hstops.1 hsquares hgrow fun q r hc => ?_
      obtain ⟨k, hk⟩ := hreply q r hc
      exact h.closable _ hk

/-- a reply that opens a new order, or whose close is stored -/
theorem Accounts.replied {q : Request} {r : Except Error q.Reply}
    {k : Except Error q.Reply → Program Unit} (h : Accounts w)
    (ht : w.tasks = pre ++ [⟨node, .waiting q k, g⟩] ++ post)
    (ht' : w'.tasks = pre ++ ⟨node, .replied q r k, g⟩ :: post) (hmem : w'.mem = w.mem)
    (hkept : w.db.PaperKept w'.db)
    (hsettled : ∀ n, ∀ o ∈ closes w n, w'.db.settled o.settlement)
    (hopen : ∀ o, opensOf (.reply q r) = some o → (∃ a, w'.db.holds o.paperOrderId a) ∧
      ∀ a, ¬ w.db.holds o.paperOrderId a)
    (hclose : ∀ o, closesOf (.reply q r) = some o → w'.db.settled o.settlement) :
    Accounts w' := by
  obtain ⟨hpo, hno⟩ := perm_replied (fun n => (w.mem n).tally.opened) ht ht'
    (f := opensOf)
  obtain ⟨hpc, hnc⟩ := perm_replied (fun n => (w.mem n).tally.closed) ht ht'
    (f := closesOf)
  have hopens : ∀ n, opens w' n = (w.mem n).tally.opened ++ flight opensOf w' n :=
    fun n => by rw [opens, hmem]
  have hcloses : ∀ n, closes w' n = (w.mem n).tally.closed ++ flight closesOf w' n :=
    fun n => by rw [closes, hmem]
  -- an order that is opened is opened here and now, or was opened before
  have hcases : ∀ n o, o ∈ opens w' n →
      o ∈ opens w n ∨ (n = node ∧ opensOf (.reply q r) = some o) := by
    intro n o ho
    rw [hopens] at ho
    by_cases hn : n = node
    · subst hn
      rcases List.mem_append.1 (hpo.mem_iff.1 ho) with ho | ho
      · exact .inr ⟨rfl, by simpa using ho⟩
      · exact .inl ho
    · rw [hno n hn] at ho
      exact .inl ho
  have hfresh : ∀ n, ∀ o ∈ opens w n, ∀ o', opensOf (.reply q r) = some o' →
      o.paperOrderId ≠ o'.paperOrderId := by
    intro n o ho o' ho' hid
    obtain ⟨a, ha⟩ := h.booked n o ho
    exact (hopen o' ho').2 a (hid ▸ ha)
  constructor
  · rw [hmem]
    exact h.squares
  · intro n
    rw [hopens]
    by_cases hn : n = node
    · subst hn
      rw [(hpo.map _).nodup_iff, List.map_append, List.nodup_append]
      refine ⟨?_, h.opened_once n, ?_⟩
      · cases opensOf (.reply q r) <;> simp
      · intro i hi j hj hij
        obtain ⟨o', ho', rfl⟩ := List.mem_map.1 hi
        obtain ⟨o, ho, rfl⟩ := List.mem_map.1 hj
        exact hfresh n o ho o' (by simpa using ho') hij.symm
    · rw [hno n hn]
      exact h.opened_once n
  · intro n n' o ho o' ho' hid
    rcases hcases n o ho with ho | ⟨rfl, ho⟩ <;> rcases hcases n' o' ho' with ho' | ⟨rfl, ho'⟩
    · exact h.opened_here n n' o ho o' ho' hid
    · exact absurd hid (hfresh n o ho o' ho')
    · exact absurd hid.symm (hfresh n' o' ho' o ho)
    · rfl
  · intro n o ho
    rcases hcases n o ho with ho | ⟨rfl, ho⟩
    · obtain ⟨a, ha⟩ := h.booked n o ho
      exact ⟨a, ha.kept hkept⟩
    · exact (hopen o ho).1
  · have hold := h.closable
    rw [ht] at hold
    rw [ht', hmem]
    exact forall_replaced hold (forall_old hold :)
  · intro n o ho
    rw [hcloses] at ho
    by_cases hn : n = node
    · subst hn
      rcases List.mem_append.1 (hpc.mem_iff.1 ho) with ho | ho
      · exact hclose o (by simpa using ho)
      · exact hsettled n o ho
    · rw [hnc n hn] at ho
      exact hsettled n o ho

/-! ## Commits -/

variable {now : Time} {db db' : Db}

theorem Db.settled.of_eq {s : Settlement} (h : db.settled s) (he : db'.paperOrders = db.paperOrders) :
    db'.settled s := by
  obtain ⟨row, hrow, hs⟩ := h
  exact ⟨row, he ▸ hrow, hs⟩

/-- a stored close is the settlement of its row -/
theorem Repository.SavedPaper.settled {o : PaperOrder} (h : SavedPaper o db db') :
    db'.settled o.settlement := by
  rcases h.paperOrders with ⟨row, hrow, hu⟩ | ⟨-, hi⟩
  · obtain ⟨hmem, hid⟩ := (db.paperOrders.get?_eq_some).1 hrow
    have hnew := Table.mem_of_update hu hmem
    have hid' : row.paperOrderId = o.paperOrderId := hid
    rw [if_pos (by simpa using hid')] at hnew
    exact ⟨_, hnew, by simp [PaperOrder.settlement, hid']⟩
  · exact ⟨o, by simp [(Table.insert_ok hi).1], rfl⟩

/-- a settlement is lost only to another close of its order -/
theorem Effect.settled_kept {q : Request} {o : PaperOrder} (h : Effect now q db db')
    (hset : db.settled o.settlement)
    (hsave : ∀ x, q = .savePaperOrder x → x.paperOrderId = o.paperOrderId →
      x.settlement = o.settlement) : db'.settled o.settlement := by
  cases h with
  | evaluated _ hv => exact hset.of_eq (by rw [hv.rest])
  | consumed _ hv =>
    obtain ⟨row, hrow, hs⟩ := hset
    exact ⟨row, by simp [(Table.insert_ok hv.paperOrders).1, hrow], hs⟩
  | @saved x he hv =>
    by_cases hid : x.paperOrderId = o.paperOrderId
    · rw [← hsave x he hid]
      exact hv.settled
    · obtain ⟨row, hrow, hs⟩ := hset
      have hne : ¬ row.paperOrderId = x.paperOrderId := by
        rw [show row.paperOrderId = o.paperOrderId from congrArg Settlement.paperOrderId hs]
        exact fun h => hid h.symm
      rcases hv.paperOrders with ⟨_, -, hu⟩ | ⟨-, hi⟩
      · have hnew := Table.mem_of_update hu hrow
        rw [if_neg (by simpa using hne)] at hnew
        exact ⟨row, hnew, hs⟩
      · exact ⟨row, by simp [(Table.insert_ok hi).1, hrow], hs⟩
  | created _ hv => exact hset.of_eq (by rw [hv.rest])
  | controlled _ hv => exact hset.of_eq (by rw [hv.rest])
  | frame hv => exact hset.of_eq hv.paperOrders

theorem opensOf_error (q : Request) (e : Error) : opensOf (.reply q (.error e)) = none := by
  cases q <;> rfl

theorem closesOf_error (q : Request) (e : Error) : closesOf (.reply q (.error e)) = none := by
  cases q <;> rfl

/-- the commit of a close that agrees with the closes of its process -/
theorem Accounts.committed {i : ℕ} {locked : List String} {fault : Fault} {q : Request}
    {k : Except Error q.Reply → Program Unit} {tx : Txn q.Reply} {v : q.Reply}
    {r : Except Error q.Reply} (h : Accounts w) (halone : closesAlone w (.exec i locked fault) = true)
    (ht : w.tasks = pre ++ [⟨node, .waiting q k, g⟩] ++ post)
    (hfound : w.tasks[i]? = some ⟨node, .waiting q k, g⟩)
    (htx : q.transaction now locked = some tx) (hrun : tx.run w.db = .ok (v, db))
    (hreply : fault = .none ∧ r = .ok v ∨ ∃ e, fault = .lost e ∧ r = .error e)
    (hdb : w'.db = db) (hmem : w'.mem = w.mem)
    (ht' : w'.tasks = pre ++ ⟨node, .replied q r k, g⟩ :: post) : Accounts w' := by
  have heffect := effect_of_run htx hrun
  have hopened : ∀ o, q = .savePaperOrder o →
      o.paperOrderId ∈ (w.mem node).tally.opened.map PaperOrder.paperOrderId := by
    rintro o rfl
    exact h.closable _ (List.mem_of_getElem? hfound)
  have hcommits : fault.commits = true := by
    rcases hreply with ⟨rfl, -⟩ | ⟨e, rfl, -⟩ <;> rfl
  have hopens : ∀ {n} {o : PaperOrder}, o ∈ (w.mem n).tally.opened → o ∈ opens w n :=
    fun ho => List.mem_append_left _ ho
  -- a close of the order being stored belongs to the process that stores it
  have hagree : ∀ n, ∀ o ∈ closes w n, ∀ x, q = .savePaperOrder x →
      x.paperOrderId = o.paperOrderId → x.settlement = o.settlement := by
    rintro n o ho x rfl hid
    obtain ⟨y, hy, hyid⟩ := List.mem_map.1 (hopened x rfl)
    have hopen : ∃ z ∈ opens w n, z.paperOrderId = o.paperOrderId := by
      rcases List.mem_append.1 ho with hm | hm
      · obtain ⟨z, hz, hzid⟩ := List.mem_map.1
          ((h.squares n).closed_opened _ (List.mem_map_of_mem hm))
        exact ⟨z, hopens hz, hzid⟩
      · obtain ⟨t, htm, hholds⟩ := mem_flight.1 hm
        have hclosable := h.closable t htm
        rw [holds_node hholds] at hclosable
        obtain ⟨tn, ts, tg⟩ := t
        obtain rfl : tn = n := holds_node hholds
        cases ts with
        | waiting q k => simp at hholds
        | done r => simp [Task.holds] at hholds
        | replied q' r' k' =>
          rw [holds_replied] at hholds
          have hq : q' = .savePaperOrder o := by
            unfold closesOf at hholds
            split at hholds
            · rename_i heq
              cases heq
              rw [Option.some.inj hholds]
            · cases hholds
          subst hq
          obtain ⟨z, hz, hzid⟩ := List.mem_map.1 hclosable
          exact ⟨z, hopens hz, hzid⟩
    obtain ⟨z, hz, hzid⟩ := hopen
    obtain rfl : node = n := h.opened_here node n y (hopens hy) z hz (by rw [hyid, hid, hzid])
    simp only [closesAlone, hfound, hcommits, Bool.not_true, Bool.false_or, List.all_eq_true] at halone
    have := halone o ho
    simp only [Bool.or_eq_true, bne_iff_ne, ne_eq, beq_iff_eq] at this
    exact (this.resolve_left fun hne => hne hid.symm).symm
  refine h.replied ht ht' hmem ?_ ?_ ?_ ?_
  · rw [hdb]
    refine heffect.paper_kept fun o ho => ?_
    obtain ⟨y, hy, hyid⟩ := List.mem_map.1 (hopened o ho)
    obtain ⟨a, ha⟩ := h.booked node y (hopens hy)
    exact ⟨a, hyid ▸ ha⟩
  · intro n o ho
    rw [hdb]
    exact heffect.settled_kept (h.settled n o ho) (hagree n o ho)
  · intro o ho
    rcases hreply with ⟨-, rfl⟩ | ⟨e, -, rfl⟩
    · cases q with
      | consumeOrderApproval a x mirror =>
        obtain rfl : x = o := Option.some.inj ho
        cases htx
        have hv : ConsumedPaper now a x mirror w.db db := consumeOrderApproval_ok hrun
        rw [hdb]
        refine ⟨⟨_, x, by simp [(Table.insert_ok hv.paperOrders).1], rfl, rfl⟩, ?_⟩
        rintro a' ⟨y, hy, hyid, -⟩
        exact (w.db.paperOrders.get?_eq_none).1 hv.absent y hy hyid
      | _ => cases ho
    · rw [opensOf_error] at ho
      cases ho
  · intro o ho
    rcases hreply with ⟨-, rfl⟩ | ⟨e, -, rfl⟩
    · cases q with
      | savePaperOrder x =>
        obtain rfl : x = o := Option.some.inj ho
        cases htx
        rw [hdb]
        exact (savePaperOrder_ok hrun : SavedPaper x w.db db).settled
      | _ => cases ho
    · rw [closesOf_error] at ho
      cases ho

theorem holds_answer {α : Type} {f : Trigger → Option α} {q : Request} {a : Answer}
    {r : Except Error q.Reply} (h : a.toReply q = some r)
    (hf : ∀ q r, q.transaction 0 [] = none → f (.reply q r) = none) : f (.reply q r) = none := by
  apply hf
  cases q <;> first | rfl | cases h

/-- a reply that is no news to the account -/
theorem Accounts.idle {q : Request} {r : Except Error q.Reply}
    {k : Except Error q.Reply → Program Unit} (h : Accounts w)
    (ht : w.tasks = pre ++ [⟨node, .waiting q k, g⟩] ++ post)
    (hopen : opensOf (.reply q r) = none) (hclose : closesOf (.reply q r) = none) :
    Accounts { w with tasks := pre ++ ⟨node, .replied q r k, g⟩ :: post } :=
  h.replied ht rfl rfl (.of_eq rfl) h.settled (by simp [hopen]) (by simp [hclose])

/-- a crash loses the account of its process -/
theorem Accounts.crash {now : Time} (h : Accounts w) (hdb : w'.db = w.db)
    (hmem : w'.mem = (w.setMem node (.fresh cfg now)).mem)
    (ht' : w'.tasks = w.tasks.map (Task.killed node)) : Accounts w' := by
  have hself : w'.mem node = .fresh cfg now := by rw [hmem, setMem_self]
  have hother : ∀ n ≠ node, w'.mem n = w.mem n := fun n hn => by rw [hmem, setMem_ne hn]
  have htally : (Memory.fresh cfg now).tally = ⟨[], []⟩ := rfl
  refine h.narrow hdb (fun n => ?_) (fun n o ho => ?_) (fun n => ?_) ?_
  · rw [opens, flight_crash ht']
    by_cases hn : n = node
    · rw [hn, hself, htally, if_pos rfl]
      exact List.nil_subperm
    · rw [hother n hn, if_neg hn]
      exact List.Subperm.refl _
  · rw [closes, flight_crash ht'] at ho
    by_cases hn : n = node
    · rw [hn, hself, htally, if_pos rfl] at ho
      cases ho
    · rwa [hother n hn, if_neg hn] at ho
  · by_cases hn : n = node
    · rw [hn, hself]
      exact .fresh cfg now
    · rw [hother n hn]
      exact h.squares n
  · intro t htm
    rw [ht'] at htm
    obtain ⟨u, hu, rfl⟩ := List.mem_map.1 htm
    rw [killed_node]
    by_cases hn : u.node = node
    · -- a task of the crashed process has ended
      unfold Task.killed
      split
      · rename_i hdone
        rw [hdone]
        trivial
      · rw [if_pos hn]
        trivial
    · rw [hother _ hn]
      exact killed_state (h.closable u hu) trivial

theorem accounts_step (hrep : cfg.repository = true) (w : World) (op : Op) (w' : World)
    (_ : w.Sound cfg) (hasked : ∀ t ∈ w.tasks, t.state.Only Trades)
    (hc : tradesOnly op = true ∧ closesAlone w op = true) (h : Accounts w)
    (hs : Step cfg w op w') : Accounts w' := by
  cases hs with
  | idle => exact h
  | segment hb ht hm hseg hstops =>
    obtain ⟨-, hbook, htally⟩ := hseg hrep
    exact h.segment hasked hb ht hbook htally hstops rfl rfl rfl
  | answered ht hr =>
    refine h.idle ht (holds_answer hr fun q r hq => ?_) (holds_answer hr fun q r hq => ?_)
    all_goals cases q <;> first | rfl | cases hq
  | failed ht => exact h.idle ht (opensOf_error _ _) (closesOf_error _ _)
  | committed ht htx hrun hreply hfound =>
    exact h.committed hc.2 ht hfound htx hrun hreply rfl rfl rfl
  | crash => exact h.crash rfl rfl rfl
  | @moved _ node m hm hcontrol hbook htally =>
    have hmem : ∀ n, ((w.setMem node m).mem n).tally = (w.mem n).tally ∧
        ((w.setMem node m).mem n).book = (w.mem n).book := by
      intro n
      by_cases hn : n = node
      · subst hn
        rw [setMem_self]
        exact ⟨htally, hbook⟩
      · rw [setMem_ne hn]
        exact ⟨rfl, rfl⟩
    have hflight : ∀ (f : Trigger → Option PaperOrder) n,
        flight f (w.setMem node m) n = flight f w n := fun _ _ => rfl
    refine h.narrow rfl (fun n => ?_) (fun n o ho => ?_) (fun n => ?_) fun t htm => ?_
    · rw [opens, hflight, (hmem n).1]
      exact List.Subperm.refl _
    · rwa [closes, hflight, (hmem n).1] at ho
    · rw [(hmem n).1, (hmem n).2]
      exact h.squares n
    · exact (h.closable t htm).grow fun o ho => (hmem t.node).1 ▸ ho

end CapitalCipher
