/-
Transactions that lock rows one after the other and keep every lock to their end.

A `Program` is what a transaction executes: rows locked by key, rows locked as a scan meets them, a
scan that skips locked rows, and an insertion, which waits for another one of the same row. What it
does next may depend on the rows it got. Any number of sessions run such programs; a transaction may
end at any time, and with its end all its locks are released.

  • `step_unshared`: a row is never locked by two sessions.
  • `Program.Obeys`: with which rows in hand a program may come to want a row; `run_sound` carries it
    to every session of every run.
  • `gate_deadlocked_iff`: where every transaction takes a gate row after at most one other row, two
    sessions deadlock only by taking the gate and that row in opposite orders.
-/
import Mathlib.Logic.Relation
import CapitalCipher.Lib.Run

namespace Lib.RowLocks

/-- what a transaction executes -/
inductive Program (ρ : Type) : Type where
  | done
  /-- lock the row with this key; `k` learns whether it exists -/
  | lock (r : ρ) (k : Bool → Program ρ)
  /-- lock the rows that match, waiting for each -/
  | scan (p : ρ → Bool) (k : List ρ → Program ρ)
  /-- lock those of the matching rows that nobody else has locked -/
  | skip (p : ρ → Bool) (k : List ρ → Program ρ)
  | insert (r : ρ) (k : Program ρ)

/-- one connection and the transaction it has open, if any -/
structure Session (κ ρ : Type) : Type where
  task : Option κ
  rest : Program ρ
  /-- the rows of the statement under way that it has yet to lock -/
  pending : List ρ
  held : List ρ
  /-- the rows it has inserted, or is about to -/
  fresh : List ρ

def Session.idle {κ ρ : Type} : Session κ ρ := ⟨none, .done, [], [], []⟩

structure Database (κ ρ : Type) : Type where
  /-- the rows that have been committed -/
  stored : ρ → Bool
  sessions : List (Session κ ρ)

inductive Op (κ ρ : Type) : Type where
  | start (k : κ)
  /-- execute the next statement; a scan meets `rows` and returns those of them in `kept` -/
  | execute (i : ℕ) (rows kept : List ρ)
  /-- lock the next row of the statement under way -/
  | acquire (i : ℕ)
  | finish (i : ℕ) (commit : Bool)

variable {κ ρ : Type}

namespace Database

def session (d : Database κ ρ) (i : ℕ) : Session κ ρ := d.sessions.getD i .idle

def put (d : Database κ ρ) (i : ℕ) (s : Session κ ρ) : Database κ ρ :=
  { d with sessions := d.sessions.set i s }

variable {d : Database κ ρ} {i j : ℕ} {s : Session κ ρ}

@[simp] theorem stored_put : (d.put i s).stored = d.stored := rfl

theorem session_put (hi : i < d.sessions.length) :
    (d.put i s).session j = if j = i then s else d.session j := by
  unfold session put
  rw [List.getD_eq_getElem?_getD, List.getD_eq_getElem?_getD, List.getElem?_set]
  by_cases hij : i = j
  · subst hij
    simp [hi]
  · simp [hij, Ne.symm hij]

theorem session_of_le (hi : d.sessions.length ≤ i) : d.session i = .idle := by
  unfold session
  rw [List.getD_eq_getElem?_getD, List.getElem?_eq_none hi]
  rfl

theorem lt_of_rest (h : (d.session i).rest ≠ .done) : i < d.sessions.length := by
  by_contra hi
  exact h (by rw [session_of_le (not_lt.1 hi)]; rfl)

theorem lt_of_pending (h : (d.session i).pending ≠ []) : i < d.sessions.length := by
  by_contra hi
  exact h (by rw [session_of_le (not_lt.1 hi)]; rfl)

theorem lt_of_held {r : ρ} (h : r ∈ (d.session i).held) : i < d.sessions.length := by
  by_contra hi
  rw [session_of_le (not_lt.1 hi)] at h
  cases h

/-- nobody but `i` holds the row -/
def Free (d : Database κ ρ) (i : ℕ) (r : ρ) : Prop :=
  ∀ j < d.sessions.length, r ∈ (d.session j).held → j = i

theorem free_iff {r : ρ} : d.Free i r ↔ ∀ j, r ∈ (d.session j).held → j = i :=
  ⟨fun h j hj => h j (lt_of_held hj) hj, fun h j _ hj => h j hj⟩

end Database

variable [DecidableEq ρ]

namespace Database

instance (d : Database κ ρ) (i : ℕ) (r : ρ) : Decidable (d.Free i r) :=
  inferInstanceAs (Decidable (∀ j < d.sessions.length, r ∈ (d.session j).held → j = i))

/-- the row `i` means to insert has been committed by another transaction -/
def Overtaken (d : Database κ ρ) (i : ℕ) (r : ρ) : Prop :=
  r ∈ (d.session i).fresh ∧ r ∉ (d.session i).held ∧ d.stored r = true

instance (d : Database κ ρ) (i : ℕ) (r : ρ) : Decidable (d.Overtaken i r) :=
  inferInstanceAs (Decidable (_ ∧ _ ∧ _))

/-- the session after its next statement has found the rows it is to lock -/
def execute (d : Database κ ρ) (i : ℕ) (rows kept : List ρ) : Database κ ρ :=
  let s := d.session i
  if s.pending = [] then
    match s.rest with
    | .done => d
    | .lock r k =>
      if d.stored r = true ∨ r ∈ s.fresh then d.put i { s with rest := k true, pending := [r] }
      else d.put i { s with rest := k false }
    | .scan p k =>
      if (∀ r ∈ rows, p r = true ∧ (d.stored r = true ∨ r ∈ s.fresh)) ∧ ∀ r ∈ kept, r ∈ rows then
        d.put i { s with rest := k kept, pending := rows }
      else d
    | .skip p k =>
      if ∀ r ∈ rows, p r = true ∧ d.stored r = true ∧ d.Free i r then
        d.put i { s with rest := k rows, held := rows ++ s.held }
      else d
    | .insert r k =>
      if d.stored r = true ∨ r ∈ s.fresh then d.put i { s with rest := k }
      else d.put i { s with rest := k, pending := [r], fresh := r :: s.fresh }
  else d

def acquire (d : Database κ ρ) (i : ℕ) : Database κ ρ :=
  let s := d.session i
  match s.pending with
  | [] => d
  | r :: pending =>
    if d.Overtaken i r then d.put i { s with pending := pending, fresh := s.fresh.filter (· ≠ r) }
    else if d.Free i r then d.put i { s with pending := pending, held := r :: s.held }
    else d

/-- the end of a transaction; what it inserted stays if it commits -/
def finish (d : Database κ ρ) (i : ℕ) (commit : Bool) : Database κ ρ :=
  let s := d.session i
  { stored := fun r => d.stored r || (commit && s.pending.isEmpty && decide (r ∈ s.fresh))
    sessions := d.sessions.set i .idle }

def step (program : κ → Program ρ) (d : Database κ ρ) : Op κ ρ → Database κ ρ
  | .start k => { d with sessions := d.sessions ++ [⟨some k, program k, [], [], []⟩] }
  | .execute i rows kept => d.execute i rows kept
  | .acquire i => d.acquire i
  | .finish i commit => d.finish i commit

/-- the row a session waits for until nobody else holds it -/
def wants (d : Database κ ρ) (i : ℕ) : Option ρ :=
  (d.session i).pending.head?.filter fun r => decide (¬ d.Overtaken i r)

/-- the wait-for graph -/
def Waits (d : Database κ ρ) (i j : ℕ) : Prop :=
  i ≠ j ∧ ∃ r, d.wants i = some r ∧ r ∈ (d.session j).held

/-- the session is on a cycle of the wait-for graph -/
def Deadlocked (d : Database κ ρ) (i : ℕ) : Prop := Relation.TransGen d.Waits i i

end Database

/-! ## Programs and what they want -/

/-- what a transaction has got so far -/
structure Hand (ρ : Type) : Type where
  /-- rows it has seen committed -/
  known : List ρ
  held : List ρ
  fresh : List ρ

/-- every row of a list is wanted as `I` allows, and what follows them meets `P` -/
def Rows (I : Hand ρ → Option ρ → Prop) (P : Hand ρ → Prop) : List ρ → Hand ρ → Prop
  | [], h => P h
  | r :: rows, h =>
    I h (some r) ∧ Rows I P rows { h with held := r :: h.held } ∧
      (r ∈ h.fresh → r ∉ h.held →
        Rows I P rows { h with known := r :: h.known, fresh := h.fresh.filter (· ≠ r) })

/-- `I h (some r)` holds whenever the program comes to want `r`, and `I h none` whenever it wants
nothing; the rows in `sure` exist -/
def Program.Obeys (sure : ρ → Prop) (I : Hand ρ → Option ρ → Prop) : Program ρ → Hand ρ → Prop
  | .done => fun h => I h none
  | .lock r k => fun h => I h none ∧ Rows I (fun h => (k true).Obeys sure I h) [r] h ∧
      (¬ sure r → (k false).Obeys sure I h)
  | .scan p k => fun h => I h none ∧ ∀ rows kept : List ρ, (∀ r ∈ rows, p r = true) →
      (∀ r ∈ kept, r ∈ rows) → Rows I (fun h => (k kept).Obeys sure I h) rows h
  | .skip p k => fun h => I h none ∧ ∀ rows : List ρ, (∀ r ∈ rows, p r = true) →
      (k rows).Obeys sure I { h with known := rows ++ h.known, held := rows ++ h.held }
  | .insert r k => fun h => I h none ∧
      Rows I (fun h => k.Obeys sure I h) [r] { h with fresh := r :: h.fresh } ∧
      k.Obeys sure I { h with known := r :: h.known } ∧ (r ∈ h.fresh → k.Obeys sure I h)

theorem Program.Obeys.idle {sure : ρ → Prop} {I : Hand ρ → Option ρ → Prop} {p : Program ρ}
    {h : Hand ρ} (hp : p.Obeys sure I h) : I h none := by
  cases p with
  | done => exact hp
  | _ => exact hp.1

/-- what is kept by taking rows of `T` in hand, whichever way, and allows wanting them -/
structure Kept (I : Hand ρ → Option ρ → Prop) (T : ρ → Prop) (Q : Hand ρ → Prop) : Prop where
  allows : ∀ h want, (∀ r, want = some r → T r) → Q h → I h want
  held : ∀ h r, T r → Q h → Q { h with held := r :: h.held }
  known : ∀ h r, T r → Q h → Q { h with known := r :: h.known }
  fresh : ∀ h r, T r → Q h → Q { h with fresh := r :: h.fresh }
  overtaken : ∀ h r, T r → Q h →
    Q { h with known := r :: h.known, fresh := h.fresh.filter (· ≠ r) }

namespace Kept

variable {sure : ρ → Prop} {I : Hand ρ → Option ρ → Prop} {T : ρ → Prop} {Q P : Hand ρ → Prop}
  {h : Hand ρ}

theorem idle (hQ : Kept I T Q) (hh : Q h) : I h none :=
  hQ.allows h none (fun _ hr => by cases hr) hh

theorem rows (hQ : Kept I T Q) {rows : List ρ} (hrows : ∀ r ∈ rows, T r) (hnext : ∀ h, Q h → P h)
    (hh : Q h) : Rows I P rows h := by
  induction rows generalizing h with
  | nil => exact hnext h hh
  | cons r rows ih =>
    have hr := hrows r List.mem_cons_self
    have hrest : ∀ {h : Hand ρ}, Q h → Rows I P rows h :=
      ih fun r' hr' => hrows r' (List.mem_cons_of_mem r hr')
    refine ⟨hQ.allows h (some r) ?_ hh, hrest (hQ.held h r hr hh),
      fun _ _ => hrest (hQ.overtaken h r hr hh)⟩
    intro r' hr'
    cases hr'
    exact hr

theorem lock (hQ : Kept I T Q) {r : ρ} {k : Bool → Program ρ} (hr : T r)
    (hnext : ∀ found h, Q h → (k found).Obeys sure I h) (hh : Q h) :
    (Program.lock r k).Obeys sure I h := by
  refine ⟨hQ.idle hh, hQ.rows (fun r' hr' => ?_) (hnext true) hh, fun _ => hnext false h hh⟩
  rw [List.mem_singleton.1 hr']
  exact hr

theorem scan (hQ : Kept I T Q) {p : ρ → Bool} {k : List ρ → Program ρ}
    (hp : ∀ r, p r = true → T r) (hnext : ∀ kept h, Q h → (k kept).Obeys sure I h) (hh : Q h) :
    (Program.scan p k).Obeys sure I h :=
  ⟨hQ.idle hh, fun rows kept hrows _ =>
    hQ.rows (fun r hr => hp r (hrows r hr)) (hnext kept) hh⟩

theorem insert (hQ : Kept I T Q) {r : ρ} {k : Program ρ} (hr : T r)
    (hnext : ∀ h, Q h → k.Obeys sure I h) (hh : Q h) : (Program.insert r k).Obeys sure I h := by
  refine ⟨hQ.idle hh, hQ.rows (fun r' hr' => ?_) hnext (hQ.fresh h r hr hh),
    hnext _ (hQ.known h r hr hh), fun _ => hnext h hh⟩
  rw [List.mem_singleton.1 hr']
  exact hr

theorem skip (hQ : Kept I T Q) {p : ρ → Bool} {k : List ρ → Program ρ}
    (hskipped : ∀ rows h, (∀ r ∈ rows, p r = true) → Q h →
      Q { h with known := rows ++ h.known, held := rows ++ h.held })
    (hnext : ∀ rows h, (∀ r ∈ rows, p r = true) → Q h → (k rows).Obeys sure I h) (hh : Q h) :
    (Program.skip p k).Obeys sure I h :=
  ⟨hQ.idle hh, fun rows hrows => hnext rows _ hrows (hskipped rows h hrows hh)⟩

/-- where any row may be wanted, so may any program be executed -/
theorem obeys (hQ : Kept I (fun _ => True) Q) (p : Program ρ) (hh : Q h) : p.Obeys sure I h := by
  induction p generalizing h with
  | done => exact hQ.idle hh
  | lock r k ih => exact hQ.lock trivial (fun found _ hh => ih found hh) hh
  | scan p k ih => exact hQ.scan (fun _ _ => trivial) (fun kept _ hh => ih kept hh) hh
  | insert r k ih => exact hQ.insert trivial (fun _ hh => ih hh) hh
  | skip p k ih =>
    refine hQ.skip ?_ (fun rows _ _ hh => ih rows hh) hh
    intro rows h _ hh
    clear * - hQ hh
    induction rows with
    | nil => exact hh
    | cons r rows ihr => exact hQ.held _ r trivial (hQ.known _ r trivial ihr)

end Kept

/-! ## One step -/

/-- what a step does to the session it is about -/
inductive Change (program : κ → Program ρ) (d : Database κ ρ) (i : ℕ) (s : Session κ ρ) :
    Session κ ρ → Prop
  | same : Change program d i s s
  | started (k : κ) (h : s = .idle) : Change program d i s ⟨some k, program k, [], [], []⟩
  | found (r : ρ) (k : Bool → Program ρ) (hpending : s.pending = []) (hrest : s.rest = .lock r k)
      (hr : d.stored r = true ∨ r ∈ s.fresh) :
      Change program d i s { s with rest := k true, pending := [r] }
  | missed (r : ρ) (k : Bool → Program ρ) (hpending : s.pending = []) (hrest : s.rest = .lock r k)
      (hr : ¬ d.stored r = true) : Change program d i s { s with rest := k false }
  | scanned (p : ρ → Bool) (k : List ρ → Program ρ) (rows kept : List ρ)
      (hpending : s.pending = []) (hrest : s.rest = .scan p k)
      (hrows : ∀ r ∈ rows, p r = true ∧ (d.stored r = true ∨ r ∈ s.fresh))
      (hkept : ∀ r ∈ kept, r ∈ rows) :
      Change program d i s { s with rest := k kept, pending := rows }
  | skipped (p : ρ → Bool) (k : List ρ → Program ρ) (rows : List ρ)
      (hpending : s.pending = []) (hrest : s.rest = .skip p k)
      (hrows : ∀ r ∈ rows, p r = true ∧ d.stored r = true ∧ d.Free i r) :
      Change program d i s { s with rest := k rows, held := rows ++ s.held }
  | present (r : ρ) (k : Program ρ) (hpending : s.pending = []) (hrest : s.rest = .insert r k)
      (hr : d.stored r = true ∨ r ∈ s.fresh) : Change program d i s { s with rest := k }
  | absent (r : ρ) (k : Program ρ) (hpending : s.pending = []) (hrest : s.rest = .insert r k)
      (hr : ¬ d.stored r = true) :
      Change program d i s { s with rest := k, pending := [r], fresh := r :: s.fresh }
  | overtaken (r : ρ) (rows : List ρ) (hpending : s.pending = r :: rows) (hfresh : r ∈ s.fresh)
      (hheld : r ∉ s.held) (hr : d.stored r = true) :
      Change program d i s { s with pending := rows, fresh := s.fresh.filter (· ≠ r) }
  | acquired (r : ρ) (rows : List ρ) (hpending : s.pending = r :: rows) (hr : d.Free i r)
      (hfresh : r ∈ s.fresh → r ∉ s.held → ¬ d.stored r = true) :
      Change program d i s { s with pending := rows, held := r :: s.held }
  | finished : Change program d i s .idle

/-- a step changes one session, and a row is committed with the transaction that inserted it -/
theorem step_spec (program : κ → Program ρ) (d : Database κ ρ) (op : Op κ ρ) :
    (∃ i, Change program d i (d.session i) ((d.step program op).session i) ∧
      ∀ j ≠ i, (d.step program op).session j = d.session j) ∧
    (∀ r, d.stored r = true → (d.step program op).stored r = true) ∧
    ∀ r, (d.step program op).stored r = true → d.stored r = true ∨
      ∃ i, (d.step program op).session i = .idle ∧ (d.session i).pending = [] ∧
        r ∈ (d.session i).fresh ∧
          ∀ r' ∈ (d.session i).fresh, (d.step program op).stored r' = true := by
  have hput : ∀ {i : ℕ} {s : Session κ ρ}, i < d.sessions.length →
      Change program d i (d.session i) s →
      (∃ i', Change program d i' (d.session i') ((d.put i s).session i') ∧
        ∀ j ≠ i', (d.put i s).session j = d.session j) ∧
      (∀ r, d.stored r = true → (d.put i s).stored r = true) ∧
      ∀ r, (d.put i s).stored r = true → d.stored r = true ∨
        ∃ i', (d.put i s).session i' = .idle ∧ (d.session i').pending = [] ∧
          r ∈ (d.session i').fresh ∧
            ∀ r' ∈ (d.session i').fresh, (d.put i s).stored r' = true := by
    intro i s hi hchange
    refine ⟨⟨i, ?_, ?_⟩, fun r hr => hr, fun r hr => .inl hr⟩
    · rw [Database.session_put hi, if_pos rfl]
      exact hchange
    · intro j hj
      rw [Database.session_put hi, if_neg hj]
  have hsame : (∃ i, Change program d i (d.session i) (d.session i) ∧
      ∀ j ≠ i, d.session j = d.session j) ∧ (∀ r, d.stored r = true → d.stored r = true) ∧
      ∀ r, d.stored r = true → d.stored r = true ∨ ∃ i, d.session i = .idle ∧
        (d.session i).pending = [] ∧ r ∈ (d.session i).fresh ∧
          ∀ r' ∈ (d.session i).fresh, d.stored r' = true :=
    ⟨⟨0, .same, fun _ _ => rfl⟩, fun _ hr => hr, fun _ hr => .inl hr⟩
  cases op with
  | start k =>
    refine ⟨⟨d.sessions.length, ?_, ?_⟩, fun r hr => hr, fun r hr => .inl hr⟩
    · have hnew : (d.step program (.start k)).session d.sessions.length =
          ⟨some k, program k, [], [], []⟩ := by
        simp [Database.step, Database.session]
      rw [hnew]
      exact .started k (Database.session_of_le le_rfl)
    · intro j hj
      rcases lt_or_gt_of_ne hj with hlt | hgt
      · simp [Database.step, Database.session, List.getElem?_append_left hlt]
      · rw [Database.session_of_le hgt.le, Database.session_of_le]
        simpa [Database.step] using hgt
  | execute i rows kept =>
    simp only [Database.step, Database.execute]
    by_cases hpending : (d.session i).pending = []
    · rw [if_pos hpending]
      cases hrest : (d.session i).rest with
      | done => exact hsame
      | lock r k =>
        dsimp only
        have hi := Database.lt_of_rest (d := d) (i := i) (by rw [hrest]; simp)
        by_cases hr : d.stored r = true ∨ r ∈ (d.session i).fresh
        · rw [if_pos hr]
          exact hput hi (.found r k hpending hrest hr)
        · rw [if_neg hr]
          exact hput hi (.missed r k hpending hrest fun h => hr (.inl h))
      | scan p k =>
        dsimp only
        have hi := Database.lt_of_rest (d := d) (i := i) (by rw [hrest]; simp)
        by_cases hrows : (∀ r ∈ rows, p r = true ∧
            (d.stored r = true ∨ r ∈ (d.session i).fresh)) ∧ ∀ r ∈ kept, r ∈ rows
        · rw [if_pos hrows]
          exact hput hi (.scanned p k rows kept hpending hrest hrows.1 hrows.2)
        · rw [if_neg hrows]
          exact hsame
      | skip p k =>
        dsimp only
        have hi := Database.lt_of_rest (d := d) (i := i) (by rw [hrest]; simp)
        by_cases hrows : ∀ r ∈ rows, p r = true ∧ d.stored r = true ∧ d.Free i r
        · rw [if_pos hrows]
          exact hput hi (.skipped p k rows hpending hrest hrows)
        · rw [if_neg hrows]
          exact hsame
      | insert r k =>
        dsimp only
        have hi := Database.lt_of_rest (d := d) (i := i) (by rw [hrest]; simp)
        by_cases hr : d.stored r = true ∨ r ∈ (d.session i).fresh
        · rw [if_pos hr]
          exact hput hi (.present r k hpending hrest hr)
        · rw [if_neg hr]
          exact hput hi (.absent r k hpending hrest fun h => hr (.inl h))
    · rw [if_neg hpending]
      exact hsame
  | acquire i =>
    simp only [Database.step, Database.acquire]
    cases hpending : (d.session i).pending with
    | nil => exact hsame
    | cons r rows =>
      dsimp only
      have hi := Database.lt_of_pending (d := d) (i := i) (by rw [hpending]; simp)
      by_cases hover : d.Overtaken i r
      · rw [if_pos hover]
        exact hput hi (.overtaken r rows hpending hover.1 hover.2.1 hover.2.2)
      · rw [if_neg hover]
        by_cases hfree : d.Free i r
        · rw [if_pos hfree]
          exact hput hi (.acquired r rows hpending hfree fun hf hh hs => hover ⟨hf, hh, hs⟩)
        · rw [if_neg hfree]
          exact hsame
  | finish i commit =>
    have hidle : (d.step program (.finish i commit)).session i = .idle := by
      rcases lt_or_ge i d.sessions.length with hi | hi
      · have := Database.session_put (d := d) (s := .idle) (j := i) hi
        rw [if_pos rfl] at this
        exact this
      · exact Database.session_of_le (by simpa [Database.step, Database.finish] using hi)
    refine ⟨⟨i, ?_, ?_⟩, fun r hr => by simp [Database.step, Database.finish, hr], ?_⟩
    · rw [hidle]
      exact .finished
    · intro j hj
      rcases lt_or_ge i d.sessions.length with hi | hi
      · have := Database.session_put (d := d) (s := .idle) (j := j) hi
        rw [if_neg hj] at this
        exact this
      · simp [Database.step, Database.finish, Database.session, List.set_eq_of_length_le hi]
    · intro r hr
      simp only [Database.step, Database.finish, Bool.or_eq_true, Bool.and_eq_true,
        List.isEmpty_iff, decide_eq_true_eq] at hr
      rcases hr with hr | ⟨⟨hcommit, hpending⟩, hfresh⟩
      · exact .inl hr
      · exact .inr ⟨i, hidle, hpending, hfresh, fun r' hr' => by
          simp [Database.step, Database.finish, hcommit, hpending, hr']⟩

/-! ## What every run keeps -/

/-- what holds of the sessions of every run -/
structure Sound (program : κ → Program ρ) (sure : ρ → Prop) (I : κ → Hand ρ → Option ρ → Prop)
    (d : Database κ ρ) : Prop where
  sure_stored : ∀ r, sure r → d.stored r = true
  unshared : ∀ i j r, r ∈ (d.session i).held → r ∈ (d.session j).held → i = j
  backed : ∀ i r, r ∈ (d.session i).held ∨ r ∈ (d.session i).pending →
    d.stored r = true ∨ r ∈ (d.session i).fresh
  placed : ∀ i r, r ∈ (d.session i).fresh → r ∈ (d.session i).held ∨ r ∈ (d.session i).pending
  /-- what a transaction has inserted is not committed before its end -/
  unstored : ∀ i r, r ∈ (d.session i).fresh → r ∈ (d.session i).held → ¬ d.stored r = true
  idle : ∀ i, (d.session i).task = none → d.session i = .idle
  obeys : ∀ i k, (d.session i).task = some k → ∃ known : List ρ,
    (∀ r ∈ known, d.stored r = true) ∧
      Rows (I k) ((d.session i).rest.Obeys sure (I k)) (d.session i).pending
        ⟨known, (d.session i).held, (d.session i).fresh⟩

variable {program : κ → Program ρ} {sure : ρ → Prop} {I : κ → Hand ρ → Option ρ → Prop}
  {d : Database κ ρ}

theorem Sound.empty {stored : ρ → Bool} (h : ∀ r, sure r → stored r = true) :
    Sound program sure I ⟨stored, []⟩ where
  sure_stored := h
  unshared i j r hi := by cases hi
  backed i r hi := by rcases hi with hi | hi <;> cases hi
  placed i r hi := by cases hi
  unstored i r hi := by cases hi
  idle i _ := rfl
  obeys i k hk := by cases hk

namespace Change

variable {i : ℕ} {s s' : Session κ ρ}

/-- a row is locked only while nobody else holds it -/
theorem held (h : Change program d i s s') {r : ρ} (hr : r ∈ s'.held) : r ∈ s.held ∨ d.Free i r := by
  cases h with
  | started => cases hr
  | finished => cases hr
  | skipped p k rows _ _ hrows =>
    rcases List.mem_append.1 hr with hr | hr
    · exact .inr (hrows r hr).2.2
    · exact .inl hr
  | acquired r' rows _ hfree =>
    rcases List.mem_cons.1 hr with rfl | hr
    · exact .inr hfree
    · exact .inl hr
  | _ => exact .inl hr

theorem backed (h : Change program d i s s')
    (hs : ∀ r, r ∈ s.held ∨ r ∈ s.pending → d.stored r = true ∨ r ∈ s.fresh) {r : ρ}
    (hr : r ∈ s'.held ∨ r ∈ s'.pending) : d.stored r = true ∨ r ∈ s'.fresh := by
  cases h with
  | same => exact hs r hr
  | started => rcases hr with hr | hr <;> cases hr
  | finished => rcases hr with hr | hr <;> cases hr
  | found r' k _ _ hr' =>
    rcases hr with hr | hr
    · exact hs r (.inl hr)
    · rw [List.mem_singleton.1 hr]
      exact hr'
  | missed => exact hs r hr
  | present => exact hs r hr
  | scanned p k rows kept _ _ hrows _ =>
    rcases hr with hr | hr
    · exact hs r (.inl hr)
    · exact (hrows r hr).2
  | skipped p k rows _ _ hrows =>
    rcases hr with hr | hr
    · rcases List.mem_append.1 hr with hr | hr
      · exact .inl (hrows r hr).2.1
      · exact hs r (.inl hr)
    · exact hs r (.inr hr)
  | absent r' k _ _ _ =>
    rcases hr with hr | hr
    · exact (hs r (.inl hr)).imp_right (List.mem_cons_of_mem r')
    · exact .inr (List.mem_cons.2 (.inl (List.mem_singleton.1 hr)))
  | acquired r' rows hpending _ =>
    rcases hr with hr | hr
    · rcases List.mem_cons.1 hr with rfl | hr
      · exact hs r (.inr (by rw [hpending]; exact List.mem_cons_self))
      · exact hs r (.inl hr)
    · exact hs r (.inr (by rw [hpending]; exact List.mem_cons_of_mem r' hr))
  | overtaken r' rows hpending _ _ hr' =>
    by_cases hrr : r = r'
    · rw [hrr]
      exact .inl hr'
    · have hold : r ∈ s.held ∨ r ∈ s.pending := by
        rw [hpending]
        exact hr.imp_right (List.mem_cons_of_mem r')
      exact (hs r hold).imp_right fun hf => List.mem_filter.2 ⟨hf, by simpa using hrr⟩

theorem placed (h : Change program d i s s')
    (hs : ∀ r, r ∈ s.fresh → r ∈ s.held ∨ r ∈ s.pending) {r : ρ} (hr : r ∈ s'.fresh) :
    r ∈ s'.held ∨ r ∈ s'.pending := by
  cases h with
  | same => exact hs r hr
  | started => cases hr
  | finished => cases hr
  | found r' k hpending =>
    have := hs r hr
    rw [hpending] at this
    exact this.imp_right fun h => absurd h List.not_mem_nil
  | missed => exact hs r hr
  | present => exact hs r hr
  | scanned p k rows kept hpending =>
    have := hs r hr
    rw [hpending] at this
    exact this.imp_right fun h => absurd h List.not_mem_nil
  | skipped => exact (hs r hr).imp_left (List.mem_append_right _)
  | absent r' k hpending =>
    rcases List.mem_cons.1 hr with rfl | hr
    · exact .inr (List.mem_singleton_self r)
    · have := hs r hr
      rw [hpending] at this
      exact this.imp_right fun h => absurd h List.not_mem_nil
  | acquired r' rows hpending =>
    have := hs r hr
    rw [hpending, List.mem_cons] at this
    rcases this with h | rfl | h
    · exact .inl (List.mem_cons_of_mem r' h)
    · exact .inl List.mem_cons_self
    · exact .inr h
  | overtaken r' rows hpending =>
    obtain ⟨hr, hne⟩ := List.mem_filter.1 hr
    have := hs r hr
    rw [hpending, List.mem_cons] at this
    rcases this with h | rfl | h
    · exact .inl h
    · simp at hne
    · exact .inr h

theorem unstored (h : Change program d i s s')
    (hplaced : ∀ r, r ∈ s.fresh → r ∈ s.held ∨ r ∈ s.pending)
    (hs : ∀ r, r ∈ s.fresh → r ∈ s.held → ¬ d.stored r = true) {r : ρ} (hfresh : r ∈ s'.fresh)
    (hheld : r ∈ s'.held) : ¬ d.stored r = true := by
  cases h with
  | started => cases hfresh
  | finished => cases hfresh
  | skipped p k rows hpending =>
    rcases hplaced r hfresh with h | h
    · exact hs r hfresh h
    · rw [hpending] at h
      cases h
  | absent r' k _ _ hr' =>
    rcases List.mem_cons.1 hfresh with rfl | hfresh
    · exact hr'
    · exact hs r hfresh hheld
  | acquired r' rows _ _ hover =>
    by_cases hr : r ∈ s.held
    · exact hs r hfresh hr
    · rcases List.mem_cons.1 hheld with rfl | h
      · exact hover hfresh hr
      · exact absurd h hr
  | overtaken => exact hs r (List.mem_filter.1 hfresh).1 hheld
  | _ => exact hs r hfresh hheld

theorem idle (h : Change program d i s s') (hs : s.task = none → s = .idle)
    (hs' : s'.task = none) : s' = .idle := by
  cases h with
  | same => exact hs hs'
  | started => cases hs'
  | finished => rfl
  | found r k _ hrest | missed r k _ hrest | scanned p k rows kept _ hrest | skipped p k rows _ hrest
  | present r k _ hrest | absent r k _ hrest =>
    rw [hs hs'] at hrest
    cases hrest
  | overtaken r rows hpending | acquired r rows hpending =>
    rw [hs hs'] at hpending
    cases hpending

/-- the rows a session comes to want are those its program may want -/
theorem obeys (h : Change program d i s s')
    (hprogram : ∀ k, (program k).Obeys sure (I k) ⟨[], [], []⟩)
    (hsure : ∀ r, sure r → d.stored r = true)
    (hs : ∀ k, s.task = some k → ∃ known : List ρ, (∀ r ∈ known, d.stored r = true) ∧
      Rows (I k) (s.rest.Obeys sure (I k)) s.pending ⟨known, s.held, s.fresh⟩)
    {k : κ} (hk : s'.task = some k) :
    ∃ known : List ρ, (∀ r ∈ known, d.stored r = true) ∧
      Rows (I k) (s'.rest.Obeys sure (I k)) s'.pending ⟨known, s'.held, s'.fresh⟩ := by
  have hmore : ∀ {r : ρ} {known : List ρ}, d.stored r = true → (∀ r ∈ known, d.stored r = true) →
      ∀ r' ∈ r :: known, d.stored r' = true := by
    intro r known hr hknown r' hr'
    rcases List.mem_cons.1 hr' with rfl | hr'
    · exact hr
    · exact hknown r' hr'
  cases h with
  | same => exact hs k hk
  | started k' =>
    cases hk
    exact ⟨[], fun r hr => absurd hr List.not_mem_nil, hprogram k⟩
  | finished => cases hk
  | found r k' hpending hrest =>
    obtain ⟨known, hknown, hobeys⟩ := hs k hk
    rw [hpending, hrest] at hobeys
    exact ⟨known, hknown, hobeys.2.1⟩
  | missed r k' hpending hrest hr =>
    obtain ⟨known, hknown, hobeys⟩ := hs k hk
    rw [hpending, hrest] at hobeys
    refine ⟨known, hknown, ?_⟩
    show Rows _ _ s.pending _
    rw [hpending]
    exact hobeys.2.2 fun hr' => hr (hsure r hr')
  | scanned p k' rows kept hpending hrest hrows hkept =>
    obtain ⟨known, hknown, hobeys⟩ := hs k hk
    rw [hpending, hrest] at hobeys
    exact ⟨known, hknown, hobeys.2 rows kept (fun r hr => (hrows r hr).1) hkept⟩
  | skipped p k' rows hpending hrest hrows =>
    obtain ⟨known, hknown, hobeys⟩ := hs k hk
    rw [hpending, hrest] at hobeys
    refine ⟨rows ++ known, fun r hr => ?_, ?_⟩
    · rcases List.mem_append.1 hr with hr | hr
      · exact (hrows r hr).2.1
      · exact hknown r hr
    · show Rows _ _ s.pending _
      rw [hpending]
      exact hobeys.2 rows fun r hr => (hrows r hr).1
  | present r k' hpending hrest hr =>
    obtain ⟨known, hknown, hobeys⟩ := hs k hk
    rw [hpending, hrest] at hobeys
    rcases hr with hr | hr
    · refine ⟨r :: known, hmore hr hknown, ?_⟩
      show Rows _ _ s.pending _
      rw [hpending]
      exact hobeys.2.2.1
    · refine ⟨known, hknown, ?_⟩
      show Rows _ _ s.pending _
      rw [hpending]
      exact hobeys.2.2.2 hr
  | absent r k' hpending hrest =>
    obtain ⟨known, hknown, hobeys⟩ := hs k hk
    rw [hpending, hrest] at hobeys
    exact ⟨known, hknown, hobeys.2.1⟩
  | overtaken r rows hpending hfresh hheld hr =>
    obtain ⟨known, hknown, hobeys⟩ := hs k hk
    rw [hpending] at hobeys
    exact ⟨r :: known, hmore hr hknown, hobeys.2.2 hfresh hheld⟩
  | acquired r rows hpending =>
    obtain ⟨known, hknown, hobeys⟩ := hs k hk
    rw [hpending] at hobeys
    exact ⟨known, hknown, hobeys.2.1⟩

end Change

/-- seen from any session, a step is one of the changes or none -/
theorem step_change (program : κ → Program ρ) (d : Database κ ρ) (op : Op κ ρ) (i : ℕ) :
    Change program d i (d.session i) ((d.step program op).session i) := by
  obtain ⟨⟨j, hchange, hothers⟩, -⟩ := step_spec program d op
  by_cases hij : i = j
  · rw [hij]
    exact hchange
  · rw [hothers i hij]
    exact .same

/-- two sessions cannot come to hold one row in a step -/
theorem step_unshared (program : κ → Program ρ) (op : Op κ ρ)
    (h : ∀ i j r, r ∈ (d.session i).held → r ∈ (d.session j).held → i = j) (i j : ℕ) (r : ρ)
    (hi : r ∈ ((d.step program op).session i).held)
    (hj : r ∈ ((d.step program op).session j).held) : i = j := by
  obtain ⟨⟨n, -, hothers⟩, -⟩ := step_spec program d op
  rcases (step_change program d op i).held hi with hold | hfree
  · rcases (step_change program d op j).held hj with hold' | hfree'
    · exact h i j r hold hold'
    · exact Database.free_iff.1 hfree' i hold
  · by_cases hjn : j = n
    · by_cases hin : i = n
      · rw [hin, hjn]
      · rw [hothers i hin] at hi
        rcases (step_change program d op j).held hj with hold' | hfree'
        · exact h i j r hi hold'
        · exact Database.free_iff.1 hfree' i hi
    · rw [hothers j hjn] at hj
      exact (Database.free_iff.1 hfree j hj).symm

theorem Sound.step (hprogram : ∀ k, (program k).Obeys sure (I k) ⟨[], [], []⟩)
    (h : Sound program sure I d) (op : Op κ ρ) : Sound program sure I (d.step program op) := by
  have hunshared := step_unshared program op h.unshared
  obtain ⟨-, hstored, hnew⟩ := step_spec program d op
  refine ⟨fun r hr => hstored r (h.sure_stored r hr), hunshared, ?_, ?_, ?_, ?_, ?_⟩
  · intro i r hr
    exact ((step_change program d op i).backed (h.backed i) hr).imp_left (hstored r)
  · intro i r hr
    exact (step_change program d op i).placed (h.placed i) hr
  · intro i r hfresh hheld hr
    rcases hnew r hr with hold | ⟨j, hidle, hpending, hr, -⟩
    · exact (step_change program d op i).unstored (h.placed i) (h.unstored i) hfresh hheld hold
    · -- the row was committed by the session that held it, which holds nothing any more
      have hj : r ∈ (d.session j).held := by
        refine (h.placed j r hr).resolve_right fun hp => ?_
        rw [hpending] at hp
        cases hp
      rcases (step_change program d op i).held hheld with hold | hfree
      · rw [h.unshared i j r hold hj, hidle] at hheld
        cases hheld
      · rw [← Database.free_iff.1 hfree j hj, hidle] at hheld
        cases hheld
  · intro i hi
    exact (step_change program d op i).idle (h.idle i) hi
  · intro i k hk
    obtain ⟨known, hknown, hobeys⟩ :=
      (step_change program d op i).obeys hprogram h.sure_stored (h.obeys i) hk
    exact ⟨known, fun r hr => hstored r (hknown r hr), hobeys⟩

theorem run_sound (hprogram : ∀ k, (program k).Obeys sure (I k) ⟨[], [], []⟩) {stored : ρ → Bool}
    (hstored : ∀ r, sure r → stored r = true) (ops : List (Op κ ρ)) :
    Sound program sure I (run (Database.step program) ⟨stored, []⟩ ops) :=
  run_inv (fun _ op hd => hd.step hprogram op) (Sound.empty hstored) ops

namespace Sound

variable {i j : ℕ} {r : ρ}

theorem pending_of_wants (hw : d.wants i = some r) :
    ∃ rows, (d.session i).pending = r :: rows ∧ ¬ d.Overtaken i r := by
  obtain ⟨hhead, hover⟩ := Option.filter_eq_some_iff.1 hw
  obtain ⟨rows, hpending⟩ := List.head?_eq_some_iff.1 hhead
  exact ⟨rows, hpending, of_decide_eq_true hover⟩

theorem task_of_wants (h : Sound program sure I d) (hw : d.wants i = some r) :
    ∃ k, (d.session i).task = some k := by
  obtain ⟨rows, hpending, -⟩ := pending_of_wants hw
  refine Option.ne_none_iff_exists'.1 fun hk => ?_
  rw [h.idle i hk] at hpending
  cases hpending

/-- what a session has in hand between its statements -/
theorem between (h : Sound program sure I d) (hpending : (d.session i).pending = []) {k : κ}
    (hk : (d.session i).task = some k) : ∃ known : List ρ, (∀ r ∈ known, d.stored r = true) ∧
      I k ⟨known, (d.session i).held, (d.session i).fresh⟩ none := by
  obtain ⟨known, hknown, hobeys⟩ := h.obeys i k hk
  rw [hpending] at hobeys
  exact ⟨known, hknown, Program.Obeys.idle hobeys⟩

/-- what a session has in hand when it wants a row -/
theorem wants (h : Sound program sure I d) (hw : d.wants i = some r) {k : κ}
    (hk : (d.session i).task = some k) : ∃ known : List ρ, (∀ r ∈ known, d.stored r = true) ∧
      I k ⟨known, (d.session i).held, (d.session i).fresh⟩ (some r) := by
  obtain ⟨rows, hpending, -⟩ := pending_of_wants hw
  obtain ⟨known, hknown, hobeys⟩ := h.obeys i k hk
  rw [hpending] at hobeys
  exact ⟨known, hknown, hobeys.1⟩

/-- what a session that wants a row means to insert is not committed -/
theorem unstored_of_wants (hw : d.wants i = some r) (hfresh : r ∈ (d.session i).fresh)
    (hheld : r ∉ (d.session i).held) : ¬ d.stored r = true := by
  obtain ⟨-, -, hover⟩ := pending_of_wants hw
  exact fun hr => hover ⟨hfresh, hheld, hr⟩

end Sound

/-! ## Deadlocks -/

namespace Database

variable {i j : ℕ}

theorem Waits.wants (h : d.Waits i j) : ∃ r, d.wants i = some r := by
  obtain ⟨-, r, hr, -⟩ := h
  exact ⟨r, hr⟩

/-- a cycle goes on from every session on it -/
theorem Deadlocked.next (h : d.Deadlocked i) : ∃ j, d.Waits i j ∧ d.Deadlocked j := by
  obtain ⟨j, hij, hji⟩ := Relation.TransGen.head'_iff.1 h
  exact ⟨j, hij, Relation.TransGen.tail' hji hij⟩

/-- a cycle comes back to every session on it -/
theorem Deadlocked.prev (h : d.Deadlocked i) : ∃ j, d.Waits j i ∧ d.Deadlocked j := by
  obtain ⟨j, hij, hji⟩ := Relation.TransGen.tail'_iff.1 h
  exact ⟨j, hji, Relation.TransGen.head' hji hij⟩

theorem Deadlocked.held_ne_nil (h : d.Deadlocked i) : (d.session i).held ≠ [] := by
  obtain ⟨j, ⟨-, r, -, hr⟩, -⟩ := h.prev
  exact List.ne_nil_of_mem hr

theorem deadlocked_pair (hij : d.Waits i j) (hji : d.Waits j i) : d.Deadlocked i :=
  (Relation.TransGen.single hij).tail hji

end Database

/-- a row is wanted from behind the gate row `c`, empty-handed, or is the gate itself with one other
row in hand -/
def AtGate (c : ρ) (held : List ρ) (r : ρ) : Prop :=
  c ∈ held ∨ held = [] ∨ (r = c ∧ ∃ a, held = [a])

/-- a session that holds one row and wants the gate, and the one behind the gate that wants that row -/
def Database.Crossed (d : Database κ ρ) (c : ρ) (i j : ℕ) : Prop :=
  i ≠ j ∧ d.wants i = some c ∧ c ∈ (d.session j).held ∧
    ∃ a, (d.session i).held = [a] ∧ d.wants j = some a

/-- **Deadlocks at a gate.** Where rows are wanted only from behind a gate row, or before it with at
most one row in hand, the sessions that deadlock are exactly the two that took the gate and one other
row in opposite orders. -/
theorem gate_deadlocked_iff {c : ρ}
    (hunshared : ∀ i j r, r ∈ (d.session i).held → r ∈ (d.session j).held → i = j)
    (hgate : ∀ i r, d.wants i = some r → AtGate c (d.session i).held r) (i : ℕ) :
    d.Deadlocked i ↔ ∃ j, d.Crossed c i j ∨ d.Crossed c j i := by
  -- a session on a cycle that is not behind the gate wants the gate with one row in hand
  have houtside : ∀ x, d.Deadlocked x → c ∉ (d.session x).held →
      d.wants x = some c ∧ ∃ a, (d.session x).held = [a] := by
    intro x hx hc
    obtain ⟨y, hxy, -⟩ := hx.next
    obtain ⟨r, hr⟩ := hxy.wants
    rcases hgate x r hr with hin | hempty | ⟨rfl, hone⟩
    · exact absurd hin hc
    · exact absurd hempty hx.held_ne_nil
    · exact ⟨hr, hone⟩
  have hinside : ∀ x, d.Deadlocked x → c ∈ (d.session x).held → ∃ y, d.Crossed c y x := by
    intro x hx hc
    obtain ⟨y, ⟨hne, r, hr, hheld⟩, hy⟩ := hx.next
    have hcy : c ∉ (d.session y).held := fun hcy => hne (hunshared x y c hc hcy)
    obtain ⟨hwants, a, ha⟩ := houtside y hy hcy
    rw [ha, List.mem_singleton] at hheld
    exact ⟨y, hne.symm, hwants, hc, a, ha, hheld ▸ hr⟩
  constructor
  · intro hi
    by_cases hc : c ∈ (d.session i).held
    · obtain ⟨y, hy⟩ := hinside i hi hc
      exact ⟨y, .inr hy⟩
    · obtain ⟨hwants, a, ha⟩ := houtside i hi hc
      obtain ⟨j, ⟨hne, r, hr, hheld⟩, hj⟩ := hi.next
      have hrc : r = c := Option.some.inj (hr.symm.trans hwants)
      rw [hrc] at hheld
      obtain ⟨y, hy⟩ := hinside j hj hheld
      -- whoever crosses the holder of the gate waits for it with the row that holder wants
      have hyi : i = y := by
        obtain ⟨-, -, -, b, hb, hwb⟩ := hy
        obtain ⟨z, ⟨-, r', hr', hheld'⟩, hz⟩ := hi.prev
        rw [ha, List.mem_singleton] at hheld'
        by_cases hcz : c ∈ (d.session z).held
        · have hzj : z = j := hunshared z j c hcz hheld
          rw [hzj] at hr'
          have hba : b = a := by
            rw [← hheld']
            exact Option.some.inj (hwb.symm.trans hr')
          apply hunshared i y a
          · rw [ha]
            exact List.mem_singleton_self a
          · rw [hb, hba]
            exact List.mem_singleton_self a
        · obtain ⟨hwz, -⟩ := houtside z hz hcz
          have hca : c = a := by
            rw [← hheld']
            exact Option.some.inj (hwz.symm.trans hr')
          exact absurd (by rw [ha, hca]; exact List.mem_singleton_self a) hc
      rw [← hyi] at hy
      exact ⟨j, .inl hy⟩
  · rintro ⟨j, hcross⟩
    have hwaits : ∀ x y, d.Crossed c x y → d.Waits x y ∧ d.Waits y x := by
      rintro x y ⟨hne, hx, hy, a, ha, hwy⟩
      exact ⟨⟨hne, c, hx, hy⟩, hne.symm, a, hwy, by rw [ha]; exact List.mem_singleton_self a⟩
    rcases hcross with h | h
    · exact Database.deadlocked_pair (hwaits i j h).1 (hwaits i j h).2
    · exact Database.deadlocked_pair (hwaits j i h).2 (hwaits j i h).1

end Lib.RowLocks
