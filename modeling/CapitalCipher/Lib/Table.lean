/-
Guarded tables: what a relational database enforces about the rows of one table, carried by the
table itself.

A `Schema` gives the primary key, the row CHECKs, the UNIQUE constraints and the BEFORE UPDATE
trigger. A `Table` is a list of rows that meets the CHECKs and the uniqueness; `insert` and
`update` refuse (they never repair), so a table that breaks a constraint cannot be built.

  • `get?_eq_some`: a key determines its row; `filter_le_one`: so does a UNIQUE column.
  • `insert_ok`, `update_ok`: exactly what an accepted write did.
  • `Evolves`, `Extends`, `Within`: rows are never lost (nor gained, by updates alone) and only
    change along the trigger's relation, over any number of writes; a row the trigger lets no further
    update pass is final.
-/
import Mathlib.Tactic
import Mathlib.Logic.Relation

namespace Lib

/-- what the database enforces about one table -/
structure Schema (K Row : Type) where
  key : Row → K
  /-- the CHECK constraints of a row -/
  check : Row → Bool
  /-- a UNIQUE constraint (other than the primary key) that the two rows break together -/
  clash : Row → Row → Bool
  /-- the BEFORE UPDATE trigger lets `old` become `new` -/
  guard : Row → Row → Bool
  guard_key : ∀ {old new : Row}, guard old new = true → key old = key new

variable {K Row : Type}

/-- two rows that may stand in one table -/
def Schema.Apart (S : Schema K Row) (a b : Row) : Prop :=
  S.key a ≠ S.key b ∧ S.clash a b = false ∧ S.clash b a = false

instance [DecidableEq K] (S : Schema K Row) : DecidableRel S.Apart := fun a b =>
  inferInstanceAs (Decidable (S.key a ≠ S.key b ∧ S.clash a b = false ∧ S.clash b a = false))

instance (S : Schema K Row) : Std.Symm S.Apart := ⟨fun _ _ h => ⟨h.1.symm, h.2.2, h.2.1⟩⟩

/-- why the database refused a write -/
inductive Violation where
  | check | unique | guard
  deriving DecidableEq, Repr

/-- the rows of one table, with the constraints they meet -/
structure Table (S : Schema K Row) where
  rows : List Row
  checked : ∀ r ∈ rows, S.check r = true
  unique : rows.Pairwise S.Apart

namespace Table

variable {S : Schema K Row}

/-- the table with no rows -/
def empty (S : Schema K Row) : Table S := ⟨[], by simp, .nil⟩

@[simp] theorem empty_rows : (empty S).rows = [] := rfl

theorem eq_of_key_eq (T : Table S) {a b : Row} (ha : a ∈ T.rows) (hb : b ∈ T.rows)
    (h : S.key a = S.key b) : a = b := by
  by_contra hne
  exact (T.unique.forall ha hb hne).1 h

theorem apart_of_mem (T : Table S) {a b : Row} (ha : a ∈ T.rows) (hb : b ∈ T.rows)
    (h : a ≠ b) : S.Apart a b :=
  T.unique.forall ha hb h

/-- rows that no two of a table can be: at most one of them is there -/
theorem filter_le_one (T : Table S) {p : Row → Bool}
    (h : ∀ a b, p a = true → p b = true → ¬ S.Apart a b) : (T.rows.filter p).length ≤ 1 := by
  have hpair : (T.rows.filter p).Pairwise S.Apart := T.unique.filter p
  match hl : T.rows.filter p with
  | [] => simp
  | [a] => simp
  | a :: b :: l =>
    rw [hl] at hpair
    have hmem : ∀ x ∈ a :: b :: l, p x = true := fun x hx =>
      (List.mem_filter.1 (hl ▸ hx)).2
    exact absurd ((List.pairwise_cons.1 hpair).1 b (by simp)) (h a b (hmem a (by simp))
      (hmem b (by simp)))

section Writes

variable [DecidableEq K]

/-- the row list as a table, when it meets the constraints -/
def store (S : Schema K Row) (rows : List Row) : Except Violation (Table S) :=
  if hc : ∀ r ∈ rows, S.check r = true then
    if hu : rows.Pairwise S.Apart then .ok ⟨rows, hc, hu⟩ else .error .unique
  else .error .check

/-- INSERT one row -/
def insert (T : Table S) (r : Row) : Except Violation (Table S) := store S (T.rows ++ [r])

/-- UPDATE every row that meets `p` -/
def update (T : Table S) (p : Row → Bool) (f : Row → Row) : Except Violation (Table S) :=
  if ∀ r ∈ T.rows, p r = true → S.guard r (f r) = true then
    store S (T.rows.map fun r => if p r then f r else r)
  else .error .guard

/-- SELECT by primary key -/
def get? (T : Table S) (k : K) : Option Row := T.rows.find? fun r => S.key r = k

/-! ## Reading -/

theorem get?_eq_some (T : Table S) {k : K} {r : Row} :
    T.get? k = some r ↔ r ∈ T.rows ∧ S.key r = k := by
  constructor
  · intro h
    exact ⟨List.mem_of_find?_eq_some h, by simpa using List.find?_some h⟩
  · rintro ⟨hr, rfl⟩
    cases hf : T.get? (S.key r) with
    | none =>
      have := List.find?_eq_none.1 hf r hr
      simp at this
    | some x =>
      have hx : x ∈ T.rows := List.mem_of_find?_eq_some hf
      have hk : S.key x = S.key r := by simpa using List.find?_some hf
      rw [T.eq_of_key_eq hx hr hk]

theorem get?_eq_none (T : Table S) {k : K} :
    T.get? k = none ↔ ∀ r ∈ T.rows, S.key r ≠ k := by
  simp [get?, List.find?_eq_none]

/-! ## Writing -/

theorem store_ok {rows : List Row} {T : Table S} (h : store S rows = .ok T) : T.rows = rows := by
  unfold store at h
  split_ifs at h with hc hu
  cases h
  rfl

theorem store_isOk {rows : List Row} (hc : ∀ r ∈ rows, S.check r = true)
    (hu : rows.Pairwise S.Apart) : store S rows = .ok ⟨rows, hc, hu⟩ := by
  rw [store, dif_pos hc, dif_pos hu]

/-- what an accepted INSERT did -/
theorem insert_ok {T T' : Table S} {r : Row} (h : T.insert r = .ok T') :
    T'.rows = T.rows ++ [r] ∧ S.check r = true ∧ ∀ x ∈ T.rows, S.Apart x r := by
  have hrows : T'.rows = T.rows ++ [r] := store_ok h
  refine ⟨hrows, T'.checked r (by simp [hrows]), fun x hx => ?_⟩
  have hu := T'.unique
  rw [hrows, List.pairwise_append] at hu
  exact hu.2.2 x hx r (by simp)

/-- an INSERT that breaks no constraint is accepted -/
theorem insert_isOk {T : Table S} {r : Row} (hc : S.check r = true)
    (hu : ∀ x ∈ T.rows, S.Apart x r) : ∃ T', T.insert r = .ok T' := by
  have hchk : ∀ x ∈ T.rows ++ [r], S.check x = true := by
    intro x hx
    rcases List.mem_append.1 hx with hx | hx
    · exact T.checked x hx
    · exact List.mem_singleton.1 hx ▸ hc
  have hpair : (T.rows ++ [r]).Pairwise S.Apart :=
    List.pairwise_append.2 ⟨T.unique, List.pairwise_singleton _ _, fun x hx y hy =>
      List.mem_singleton.1 hy ▸ hu x hx⟩
  exact ⟨_, store_isOk hchk hpair⟩

/-- what an accepted UPDATE did -/
theorem update_ok {T T' : Table S} {p : Row → Bool} {f : Row → Row} (h : T.update p f = .ok T') :
    (T'.rows = T.rows.map fun r => if p r then f r else r) ∧
      ∀ r ∈ T.rows, p r = true → S.guard r (f r) = true := by
  unfold update at h
  split_ifs at h with hg
  exact ⟨store_ok h, hg⟩

/-- where a row went in an accepted UPDATE -/
theorem mem_of_update {T T' : Table S} {p : Row → Bool} {f : Row → Row} (h : T.update p f = .ok T')
    {r : Row} (hr : r ∈ T.rows) : (if p r then f r else r) ∈ T'.rows := by
  rw [(update_ok h).1]
  exact List.mem_map.2 ⟨r, hr, rfl⟩

/-- an UPDATE that touches no uniqueness is accepted when trigger and CHECKs pass -/
theorem update_isOk {T : Table S} {p : Row → Bool} {f : Row → Row}
    (hg : ∀ r ∈ T.rows, p r = true → S.guard r (f r) = true)
    (hc : ∀ r ∈ T.rows, p r = true → S.check (f r) = true)
    (hu : ∀ a ∈ T.rows, ∀ b ∈ T.rows, S.Apart a b →
      S.Apart (if p a then f a else a) (if p b then f b else b)) :
    ∃ T', T.update p f = .ok T' := by
  have hchk : ∀ r ∈ T.rows.map (fun r => if p r then f r else r), S.check r = true := by
    intro r hr
    obtain ⟨x, hx, rfl⟩ := List.mem_map.1 hr
    split_ifs with hp
    · exact hc x hx hp
    · exact T.checked x hx
  have hpair : (T.rows.map fun r => if p r then f r else r).Pairwise S.Apart := by
    rw [List.pairwise_map]
    exact T.unique.imp_of_mem fun {a b} ha hb hab => hu a ha b hb hab
  refine ⟨⟨_, hchk, hpair⟩, ?_⟩
  rw [update, if_pos hg]
  exact store_isOk hchk hpair

/-- the row under a key, after an accepted UPDATE -/
theorem get?_of_update {T T' : Table S} {p : Row → Bool} {f : Row → Row}
    (h : T.update p f = .ok T') {k : K} {r : Row} (hr : T.get? k = some r) :
    T'.get? k = some (if p r then f r else r) := by
  obtain ⟨hmem, rfl⟩ := (T.get?_eq_some).1 hr
  refine (T'.get?_eq_some).2 ⟨mem_of_update h hmem, ?_⟩
  split_ifs with hp
  · exact (S.guard_key ((update_ok h).2 r hmem hp)).symm
  · rfl

/-- the row under its key, after an accepted INSERT -/
theorem get?_of_insert {T T' : Table S} {r : Row} (h : T.insert r = .ok T') :
    T'.get? (S.key r) = some r :=
  (T'.get?_eq_some).2 ⟨by simp [(insert_ok h).1], rfl⟩

end Writes

/-! ## Rows over time -/

/-- a row after any number of updates the trigger let pass -/
def Evolves (S : Schema K Row) (a b : Row) : Prop :=
  Relation.ReflTransGen (fun x y => S.guard x y = true) a b

/-- every row of `T` is still in `T'`, changed only along the trigger -/
def Extends (T T' : Table S) : Prop := ∀ r ∈ T.rows, ∃ r' ∈ T'.rows, Evolves S r r'

/-- every row of `T'` is a row of `T`, changed only along the trigger -/
def Within (T T' : Table S) : Prop := ∀ r' ∈ T'.rows, ∃ r ∈ T.rows, Evolves S r r'

/-- a fact that one accepted update keeps is kept by any number of them -/
theorem Evolves.keep {α : Type} {f : Row → α} (hf : ∀ {x y}, S.guard x y = true → f x = f y)
    {a b : Row} (h : Evolves S a b) : f a = f b := by
  induction h with
  | refl => rfl
  | tail _ hyz ih => exact ih.trans (hf hyz)

theorem Evolves.key {a b : Row} (h : Evolves S a b) : S.key a = S.key b := h.keep S.guard_key

/-- a row the trigger never lets change is what it was -/
theorem Evolves.final {a b : Row} (ha : ∀ x, S.guard a x = false) (h : Evolves S a b) : b = a := by
  induction h with
  | refl => rfl
  | tail _ hyz ih =>
    rw [ih, ha] at hyz
    cases hyz

theorem Within.refl (T : Table S) : T.Within T := fun r hr => ⟨r, hr, .refl⟩

theorem Within.trans {T T' T'' : Table S} (h : T.Within T') (h' : T'.Within T'') :
    T.Within T'' := by
  intro r'' hr''
  obtain ⟨r', hr', he'⟩ := h' r'' hr''
  obtain ⟨r, hr, he⟩ := h r' hr'
  exact ⟨r, hr, he.trans he'⟩

theorem Within.of_update [DecidableEq K] {T T' : Table S} {p : Row → Bool} {f : Row → Row}
    (h : T.update p f = .ok T') : T.Within T' := by
  obtain ⟨hrows, hg⟩ := update_ok h
  intro r' hr'
  rw [hrows] at hr'
  obtain ⟨r, hr, rfl⟩ := List.mem_map.1 hr'
  refine ⟨r, hr, ?_⟩
  split_ifs with hp
  · exact .single (hg r hr hp)
  · exact .refl

theorem Extends.refl (T : Table S) : T.Extends T := fun r hr => ⟨r, hr, .refl⟩

theorem Extends.trans {T T' T'' : Table S} (h : T.Extends T') (h' : T'.Extends T'') :
    T.Extends T'' := by
  intro r hr
  obtain ⟨r', hr', he⟩ := h r hr
  obtain ⟨r'', hr'', he'⟩ := h' r' hr'
  exact ⟨r'', hr'', he.trans he'⟩

theorem Extends.of_insert [DecidableEq K] {T T' : Table S} {r : Row} (h : T.insert r = .ok T') :
    T.Extends T' := by
  intro x hx
  exact ⟨x, by simp [(insert_ok h).1, hx], .refl⟩

theorem Extends.of_update [DecidableEq K] {T T' : Table S} {p : Row → Bool} {f : Row → Row}
    (h : T.update p f = .ok T') : T.Extends T' := by
  intro x hx
  refine ⟨_, mem_of_update h hx, ?_⟩
  split_ifs with hp
  · exact .single ((update_ok h).2 x hx hp)
  · exact .refl

/-- the row under a key, after the table was extended -/
theorem Extends.get? [DecidableEq K] {T T' : Table S} (h : T.Extends T') {k : K} {r : Row}
    (hr : T.get? k = some r) : ∃ r', T'.get? k = some r' ∧ Evolves S r r' := by
  obtain ⟨hmem, rfl⟩ := (T.get?_eq_some).1 hr
  obtain ⟨r', hr', he⟩ := h r hmem
  exact ⟨r', (T'.get?_eq_some).2 ⟨hr', he.key.symm⟩, he⟩

/-- a final row is found unchanged in every extension -/
theorem Extends.mem_of_final {T T' : Table S} (h : T.Extends T') {r : Row} (hr : r ∈ T.rows)
    (hfin : ∀ x, S.guard r x = false) : r ∈ T'.rows := by
  obtain ⟨r', hr', he⟩ := h r hr
  rwa [he.final hfin] at hr'

end Table

end Lib
