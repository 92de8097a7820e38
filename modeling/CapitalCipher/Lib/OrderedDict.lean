/-
Insertion-ordered dictionaries filed under a key of their own rows: a new row goes to the end, a row
under a known key takes the place of the one it replaces.

  • `get?_eq_some`: a key finds its row.
  • `get?_put`, `get?_update`: lookups after one and after several writes.
  • `rows_put_new`, `rows_update_new`: new rows keep their order at the end.
  • `rows_perm`, `values_perm`: dictionaries that look the same hold the same rows.
-/
import CapitalCipher.Lib.Dict

namespace Lib

/-- rows in insertion order, no two under one key -/
structure OrderedDict {K V : Type} (key : V → K) where
  rows : List V
  nodup : (rows.map key).Nodup

namespace OrderedDict

variable {K V : Type} {key : V → K}

instance : EmptyCollection (OrderedDict key) := ⟨⟨[], List.nodup_nil⟩⟩

@[simp] theorem rows_empty : (∅ : OrderedDict key).rows = [] := rfl

variable [DecidableEq K]

def get? (d : OrderedDict key) (k : K) : Option V := d.rows.find? fun v => key v = k

theorem get?_eq_some {d : OrderedDict key} {k : K} {v : V} :
    d.get? k = some v ↔ v ∈ d.rows ∧ key v = k := by
  constructor
  · intro h
    exact ⟨List.mem_of_find?_eq_some h, by simpa using List.find?_some h⟩
  · rintro ⟨hv, rfl⟩
    exact Dict.find?_key d.nodup hv

theorem get?_eq_none {d : OrderedDict key} {k : K} :
    d.get? k = none ↔ ∀ v ∈ d.rows, key v ≠ k := by
  simp [get?, List.find?_eq_none]

theorem get?_key {d : OrderedDict key} {v : V} (h : v ∈ d.rows) : d.get? (key v) = some v :=
  get?_eq_some.2 ⟨h, rfl⟩

@[simp] theorem get?_empty (k : K) : (∅ : OrderedDict key).get? k = none := rfl

/-- `d[key(v)] = v` -/
def put (d : OrderedDict key) (v : V) : OrderedDict key :=
  if h : key v ∈ d.rows.map key then
    { rows := d.rows.map fun x => if key x = key v then v else x
      nodup := by
        have hkeys : (d.rows.map fun x => if key x = key v then v else x).map key =
            d.rows.map key := by
          rw [List.map_map]
          refine List.map_congr_left fun x _ => ?_
          rw [Function.comp_apply]
          split_ifs with hx
          · exact hx.symm
          · rfl
        rw [hkeys]
        exact d.nodup }
  else
    { rows := d.rows ++ [v]
      nodup := by
        rw [List.map_append, List.nodup_append]
        refine ⟨d.nodup, by simp, fun a ha b hb hab => h ?_⟩
        rw [List.map_singleton, List.mem_singleton] at hb
        rw [← hb, ← hab]
        exact ha }

theorem get?_put (d : OrderedDict key) (v : V) (k : K) :
    (d.put v).get? k = if k = key v then some v else d.get? k := by
  unfold put
  split_ifs with h hk hk
  · obtain ⟨x, hx, hxv⟩ := List.mem_map.1 h
    refine get?_eq_some.2 ⟨List.mem_map.2 ⟨x, hx, if_pos hxv⟩, hk.symm⟩
  · ext w
    simp only [get?_eq_some, List.mem_map]
    constructor
    · rintro ⟨⟨x, hx, rfl⟩, hw⟩
      split_ifs at hw ⊢ with hxv
      · exact absurd hw.symm hk
      · exact ⟨hx, hw⟩
    · rintro ⟨hw, rfl⟩
      exact ⟨⟨w, hw, if_neg hk⟩, rfl⟩
  · exact get?_eq_some.2 ⟨by simp, hk.symm⟩
  · ext w
    simp only [get?_eq_some, List.mem_append, List.mem_singleton]
    constructor
    · rintro ⟨hw | rfl, hwk⟩
      · exact ⟨hw, hwk⟩
      · exact absurd hwk.symm hk
    · rintro ⟨hw, hwk⟩
      exact ⟨Or.inl hw, hwk⟩

theorem rows_put_new {d : OrderedDict key} {v : V} (h : d.get? (key v) = none) :
    (d.put v).rows = d.rows ++ [v] := by
  have hnew : key v ∉ d.rows.map key := by
    intro hmem
    obtain ⟨x, hx, hxv⟩ := List.mem_map.1 hmem
    exact get?_eq_none.1 h x hx hxv
  rw [put, dif_neg hnew]

/-- `d.update({key(v): v for v in vs})` -/
def update (d : OrderedDict key) (vs : List V) : OrderedDict key := vs.foldl put d

/-- `{key(v): v for v in vs}` -/
def ofList (key : V → K) (vs : List V) : OrderedDict key := update ∅ vs

theorem get?_update (d : OrderedDict key) (vs : List V) (k : K) :
    (d.update vs).get? k = (vs.reverse.find? fun v => key v = k).or (d.get? k) := by
  induction vs generalizing d with
  | nil => simp [update]
  | cons v vs ih =>
    have hstep : d.update (v :: vs) = (d.put v).update vs := rfl
    rw [hstep, ih, get?_put, List.reverse_cons, List.find?_append, Option.or_assoc]
    congr 1
    by_cases hk : key v = k
    · simp [hk]
    · rw [if_neg fun he => hk he.symm]
      simp [hk]

theorem get?_update_of_mem {d : OrderedDict key} {vs : List V} {v : V}
    (hnd : (vs.map key).Nodup) (hv : v ∈ vs) : (d.update vs).get? (key v) = some v := by
  rw [get?_update, Dict.find?_reverse_key hnd hv]
  rfl

theorem get?_update_of_not_mem {d : OrderedDict key} {vs : List V} {k : K}
    (h : ∀ v ∈ vs, key v ≠ k) : (d.update vs).get? k = d.get? k := by
  have hnone : vs.reverse.find? (fun x => key x = k) = none :=
    List.find?_eq_none.2 fun x hx => by simpa using h x (List.mem_reverse.1 hx)
  rw [get?_update, hnone]
  rfl

theorem mem_rows_update {d : OrderedDict key} {vs : List V} {v : V}
    (h : v ∈ (d.update vs).rows) : v ∈ vs ∨ v ∈ d.rows := by
  have hget := get?_key h
  rw [get?_update] at hget
  cases hf : vs.reverse.find? fun x => key x = key v with
  | some x =>
    rw [hf] at hget
    rw [← Option.some.inj hget]
    exact Or.inl (List.mem_reverse.1 (List.mem_of_find?_eq_some hf))
  | none =>
    rw [hf, Option.none_or] at hget
    exact Or.inr (get?_eq_some.1 hget).1

theorem get?_ofList {vs : List V} (hnd : (vs.map key).Nodup) {k : K} {v : V} :
    (ofList key vs).get? k = some v ↔ v ∈ vs ∧ key v = k := by
  constructor
  · intro h
    rw [ofList, get?_update, get?_empty, Option.or_none] at h
    exact ⟨List.mem_reverse.1 (List.mem_of_find?_eq_some h), by simpa using List.find?_some h⟩
  · rintro ⟨hv, rfl⟩
    exact get?_update_of_mem hnd hv

theorem rows_update_new {d : OrderedDict key} {vs : List V} (hnd : (vs.map key).Nodup)
    (h : ∀ v ∈ vs, d.get? (key v) = none) : (d.update vs).rows = d.rows ++ vs := by
  induction vs generalizing d with
  | nil => simp [update]
  | cons v vs ih =>
    have hstep : d.update (v :: vs) = (d.put v).update vs := rfl
    rw [List.map_cons, List.nodup_cons] at hnd
    rw [hstep, ih hnd.2, rows_put_new (h v List.mem_cons_self), List.append_assoc,
      List.singleton_append]
    intro x hx
    have hne : key x ≠ key v := by
      intro he
      apply hnd.1
      rw [← he]
      exact List.mem_map_of_mem hx
    rw [get?_put, if_neg hne]
    exact h x (List.mem_cons_of_mem v hx)

theorem rows_perm {d d' : OrderedDict key} (h : ∀ k, d.get? k = d'.get? k) :
    d.rows.Perm d'.rows := by
  rw [List.perm_ext_iff_of_nodup d.nodup.of_map d'.nodup.of_map]
  intro v
  have hmem : ∀ d : OrderedDict key, v ∈ d.rows ↔ d.get? (key v) = some v := fun d => by
    rw [get?_eq_some]
    exact ⟨fun hv => ⟨hv, rfl⟩, fun hv => hv.1⟩
  rw [hmem, hmem, h]

/-- a dictionary without an order that looks the same holds the same rows -/
theorem values_perm {d : Dict K V} {o : OrderedDict key} (h : ∀ k, d.lookup k = o.get? k) :
    d.values.Perm o.rows := by
  have hkeyed : Dict.Keyed key d := by
    intro k v hv
    rw [h] at hv
    exact (get?_eq_some.1 hv).2
  rw [List.perm_ext_iff_of_nodup hkeyed.nodup_map.of_map o.nodup.of_map]
  intro v
  rw [Dict.mem_values]
  constructor
  · rintro ⟨k, hk⟩
    rw [h] at hk
    exact (get?_eq_some.1 hk).1
  · intro hv
    exact ⟨key v, by rw [h, get?_key hv]⟩

end OrderedDict

end Lib
