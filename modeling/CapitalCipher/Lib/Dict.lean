/-
Dictionaries: association lists without duplicate keys, as Mathlib's `AList`, with the few
operations a program's in-memory maps need beyond it.

  • `lookup_mapValues`: mapping the values.
  • `lookup_fromList`: a dictionary built from a list of rows keeps, per key, the last row.
  • `values_perm`: a dictionary filed under its values' own keys has exactly the values of any
    duplicate-free list it agrees with.
-/
import Mathlib.Tactic
import Mathlib.Data.List.AList

namespace Lib

/-- an insertion map from `K` to `V` -/
abbrev Dict (K V : Type) := AList fun _ : K => V

namespace Dict

variable {K V W : Type}

def values (d : Dict K V) : List V := d.entries.map Sigma.snd

/-- the same keys with every value mapped -/
def mapValues (f : V → W) (d : Dict K V) : Dict K W where
  entries := d.entries.map fun e => ⟨e.1, f e.2⟩
  nodupKeys := by
    have h : (d.entries.map fun e => (⟨e.1, f e.2⟩ : (_ : K) × W)).keys = d.entries.keys := by
      simp [List.keys, Function.comp_def]
    rw [List.NodupKeys, h]
    exact d.nodupKeys

/-- every value is filed under its own key -/
def Keyed [DecidableEq K] (key : V → K) (d : Dict K V) : Prop :=
  ∀ {k v}, d.lookup k = some v → key v = k

section Lookup

variable [DecidableEq K]

theorem lookup_eq_some (d : Dict K V) {k : K} {v : V} :
    d.lookup k = some v ↔ (⟨k, v⟩ : (_ : K) × V) ∈ d.entries :=
  AList.mem_lookup_iff

theorem mem_values (d : Dict K V) {v : V} : v ∈ d.values ↔ ∃ k, d.lookup k = some v := by
  simp only [values, List.mem_map, lookup_eq_some]
  constructor
  · rintro ⟨⟨k, v'⟩, h, rfl⟩
    exact ⟨k, h⟩
  · rintro ⟨k, h⟩
    exact ⟨⟨k, v⟩, h, rfl⟩

@[simp] theorem lookup_mapValues (f : V → W) (d : Dict K V) (k : K) :
    (mapValues f d).lookup k = (d.lookup k).map f := by
  ext w
  rw [lookup_eq_some]
  simp only [mapValues, List.mem_map, Option.map_eq_some_iff, lookup_eq_some]
  constructor
  · rintro ⟨⟨k', v⟩, h, he⟩
    cases he
    exact ⟨v, h, rfl⟩
  · rintro ⟨v, h, rfl⟩
    exact ⟨⟨k, v⟩, h, rfl⟩

theorem lookup_insert_eq (d : Dict K V) (k k' : K) (v : V) :
    (AList.insert k v d).lookup k' = if k' = k then some v else d.lookup k' := by
  split_ifs with h
  · rw [h, AList.lookup_insert]
  · exact AList.lookup_insert_ne h

theorem lookup_erase_eq (d : Dict K V) (k k' : K) :
    (AList.erase k d).lookup k' = if k' = k then none else d.lookup k' := by
  split_ifs with h
  · rw [h, AList.lookup_erase]
  · exact AList.lookup_erase_ne h

/-- a row under a new key comes first -/
theorem values_insert_of_lookup (d : Dict K V) {k : K} {v : V} (h : d.lookup k = none) :
    values (AList.insert k v d) = v :: d.values := by
  have hk : k ∉ d := AList.lookup_eq_none.1 h
  rw [values, values, AList.entries_insert_of_notMem hk, List.map_cons]

/-- dictionaries that look the same hold the same rows -/
theorem values_perm_of_lookup {d d' : Dict K V} (h : ∀ k, d.lookup k = d'.lookup k) :
    d.values.Perm d'.values := by
  refine List.Perm.map Sigma.snd (List.lookup_ext d.nodupKeys d'.nodupKeys fun k v => ?_)
  have hk : d.entries.dlookup k = d'.entries.dlookup k := h k
  rw [hk]

/-- `{key(v): v for v in rows}` -/
def fromList (key : V → K) (rows : List V) : Dict K V :=
  rows.foldl (fun d v => AList.insert (key v) v d) ∅

theorem lookup_foldl_insert (key : V → K) (rows : List V) (d : Dict K V) (k : K) :
    (rows.foldl (fun d v => AList.insert (key v) v d) d).lookup k =
      (rows.reverse.find? fun v => key v = k).or (d.lookup k) := by
  induction rows generalizing d with
  | nil => simp
  | cons v rows ih =>
    rw [List.foldl_cons, ih, List.reverse_cons, List.find?_append, lookup_insert_eq,
      Option.or_assoc]
    congr 1
    by_cases h : key v = k
    · simp [h]
    · rw [if_neg (fun he => h he.symm)]
      simp [h]

theorem lookup_fromList (key : V → K) (rows : List V) (k : K) :
    (fromList key rows).lookup k = rows.reverse.find? fun v => key v = k := by
  rw [fromList, lookup_foldl_insert]
  simp

/-- a row of a list without duplicate keys is the one its key finds -/
theorem find?_key {key : V → K} {rows : List V} (h : (rows.map key).Nodup) {v : V} (hv : v ∈ rows) :
    (rows.find? fun x => key x = key v) = some v := by
  cases hf : rows.find? fun x => key x = key v with
  | none =>
    have := List.find?_eq_none.1 hf v hv
    simp at this
  | some x =>
    have hk : key x = key v := by simpa using List.find?_some hf
    rw [List.inj_on_of_nodup_map h (List.mem_of_find?_eq_some hf) hv hk]

/-- so is the last one under its key -/
theorem find?_reverse_key {key : V → K} {rows : List V} (h : (rows.map key).Nodup) {v : V}
    (hv : v ∈ rows) : (rows.reverse.find? fun x => key x = key v) = some v := by
  refine find?_key ?_ (List.mem_reverse.2 hv)
  rwa [List.map_reverse, List.nodup_reverse]

/-- without duplicate keys every row is found under its key -/
theorem lookup_fromList_eq_some {key : V → K} {rows : List V} (h : (rows.map key).Nodup) {k : K}
    {v : V} : (fromList key rows).lookup k = some v ↔ v ∈ rows ∧ key v = k := by
  rw [lookup_fromList]
  constructor
  · intro hf
    exact ⟨List.mem_reverse.1 (List.mem_of_find?_eq_some hf), by simpa using List.find?_some hf⟩
  · rintro ⟨hv, rfl⟩
    exact find?_reverse_key h hv

theorem keyed_fromList (key : V → K) (rows : List V) : Keyed key (fromList key rows) := by
  intro k v h
  rw [lookup_fromList] at h
  simpa using List.find?_some h

theorem Keyed.insert {key : V → K} {d : Dict K V} (h : Keyed key d) (v : V) :
    Keyed key (AList.insert (key v) v d) := by
  intro k w hw
  rw [lookup_insert_eq] at hw
  split_ifs at hw with hk
  · cases hw
    exact hk.symm
  · exact h hw

theorem Keyed.erase {key : V → K} {d : Dict K V} (h : Keyed key d) (k : K) :
    Keyed key (AList.erase k d) := by
  intro k' w hw
  rw [lookup_erase_eq] at hw
  split_ifs at hw
  exact h hw

theorem Keyed.congr {key : V → K} {d d' : Dict K V} (hd : Keyed key d)
    (h : ∀ k, d'.lookup k = d.lookup k) : Keyed key d' := by
  intro k v hv
  rw [h] at hv
  exact hd hv

theorem Keyed.nodup_map {key : V → K} {d : Dict K V} (h : Keyed key d) :
    (d.values.map key).Nodup := by
  have hk : d.values.map key = d.entries.keys := by
    rw [values, List.map_map, List.keys]
    refine List.map_congr_left fun e he => ?_
    obtain ⟨k, v⟩ := e
    exact h ((lookup_eq_some d).2 he)
  rw [hk]
  exact d.nodupKeys

/-- a dictionary read back from its own rows, in any order -/
theorem lookup_fromList_values {key : V → K} {d : Dict K V} (h : Keyed key d) {rows : List V}
    (hrows : rows.Perm d.values) (k : K) : (fromList key rows).lookup k = d.lookup k := by
  have hnd : (rows.map key).Nodup := ((hrows.map key).nodup_iff).2 h.nodup_map
  ext v
  rw [lookup_fromList_eq_some hnd, hrows.mem_iff, mem_values]
  constructor
  · rintro ⟨⟨k', hk'⟩, rfl⟩
    rw [h hk']
    exact hk'
  · intro hv
    exact ⟨⟨k, hv⟩, h hv⟩

/-- a dictionary filed under its values' keys holds exactly the rows of a list it agrees with -/
theorem values_perm {key : V → K} {d : Dict K V} (hd : Keyed key d) {rows : List V} (f : V → W)
    (g : W → K) (hg : ∀ v, g (f v) = key v) (hr : (rows.map key).Nodup)
    (h : ∀ k, (d.lookup k).map f = ((fromList key rows).lookup k).map f) :
    (d.values.map f).Perm (rows.map f) := by
  have hnd : ∀ {l : List V}, (l.map key).Nodup → (l.map f).Nodup := by
    intro l hl
    refine List.Nodup.of_map g ?_
    have hgf : g ∘ f = key := funext hg
    rwa [List.map_map, hgf]
  rw [List.perm_ext_iff_of_nodup (hnd hd.nodup_map) (hnd hr)]
  intro w
  have hmem : ∀ {d' : Dict K V}, (∃ v ∈ d'.values, f v = w) ↔
      ∃ k, (d'.lookup k).map f = some w := by
    intro d'
    simp only [mem_values, Option.map_eq_some_iff]
    constructor
    · rintro ⟨v, ⟨k, hk⟩, hw⟩
      exact ⟨k, v, hk, hw⟩
    · rintro ⟨k, v, hk, hw⟩
      exact ⟨v, ⟨k, hk⟩, hw⟩
  rw [List.mem_map, hmem, List.mem_map]
  simp only [h]
  rw [← hmem]
  simp only [mem_values, lookup_fromList_eq_some hr]
  constructor
  · rintro ⟨v, ⟨k, hv, -⟩, hw⟩
    exact ⟨v, hv, hw⟩
  · rintro ⟨v, hv, hw⟩
    exact ⟨v, ⟨key v, hv, rfl⟩, hw⟩

end Lookup

end Dict

end Lib
