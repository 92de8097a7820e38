/-
`_capped_weights` of `orchestrator/portfolio_consensus.py`: scores become weights that sum to one,
none above the cap.

The locals of the loop are a state and one round of it a function that may raise; the set of indices
is a list in ascending order. Arithmetic is exact, so the loop and the rounding of its result to 12
digits stand apart.

  • `cappingLoop_eq`: the loop computes the shares of `Lib.CappedShares`.
  • `cappedWeights_projection`: it ends, never divides by zero and gives a proper projection.
  • `sum_correctLast`: the correction of the last weight makes the rounded weights sum to one.
-/
import Mathlib.Data.List.GetD
import CapitalCipher.Lib.CappedShares
import CapitalCipher.Lib.Decimal
import CapitalCipher.Schemas.Common

namespace CapitalCipher

open Lib Lib.CappedShares

/-! ## the loop -/

/-- the locals of the loop -/
structure Capping where
  /-- the indices that have no weight yet -/
  remaining : List ℕ
  weights : List ℚ
  remainingMass : ℚ
  deriving DecidableEq, Repr

namespace Capping

def start (scores : List ℚ) : Capping :=
  ⟨List.range scores.length, List.replicate scores.length 0, 1⟩

/-- `sum(scores[index] for index in remaining)` -/
def total (scores : List ℚ) (s : Capping) : ℚ := (s.remaining.map fun i => scores.getD i 0).sum

/-- `remaining_mass * scores[index] / total` -/
def provisional (scores : List ℚ) (s : Capping) (index : ℕ) : ℚ :=
  s.remainingMass * scores.getD index 0 / s.total scores

/-- an index whose provisional weight is above the cap takes the cap -/
def take (cap : ℚ) (s : Capping) (index : ℕ) : Capping :=
  ⟨s.remaining.erase index, s.weights.set index cap, s.remainingMass - cap⟩

end Capping

/-- how a round ends: with another one to come, or with the weights -/
inductive CappingRound where
  | again (s : Capping)
  | done (weights : List ℚ)
  deriving DecidableEq, Repr

/-- one pass through the body of `while remaining` -/
def Capping.round (scores : List ℚ) (cap : ℚ) (s : Capping) : Except Error CappingRound :=
  if s.total scores = 0 then .error ⟨.transport, "ZeroDivisionError"⟩
  else
    let capped := s.remaining.filter fun index => decide (cap < s.provisional scores index)
    if capped = [] then
      .ok (.done (s.remaining.foldl
        (fun weights index => weights.set index (s.provisional scores index)) s.weights))
    else .ok (.again (capped.foldl (Capping.take cap) s))

/-- the loop; `none` when the rounds do not suffice -/
def cappingLoop (scores : List ℚ) (cap : ℚ) : ℕ → Capping → Except Error (Option (List ℚ))
  | 0, _ => .ok none
  | fuel + 1, s =>
    if s.remaining = [] then .ok (some s.weights)
    else do
      match ← s.round scores cap with
      | .again s => cappingLoop scores cap fuel s
      | .done weights => .ok (some weights)

/-- `rounded[-1] = round(rounded[-1] + (1 - sum(rounded)), 12)` -/
def correctLast (rounded : List ℚ) : Except Error (List ℚ) :=
  match rounded.getLast? with
  | none => .error ⟨.transport, "list index out of range"⟩
  | some last =>
    .ok (rounded.set (rounded.length - 1) (Decimal.round (last + (1 - rounded.sum)) 12))

/-- `_capped_weights` -/
def cappedWeights (scores : List ℚ) (cap : ℚ) (fuel : ℕ) : Except Error (Option (List ℚ)) := do
  match ← cappingLoop scores cap fuel (Capping.start scores) with
  | none => .ok none
  | some weights => some <$> correctLast (weights.map fun w => Decimal.round w 12)

/-- the states in which the loop tests its condition -/
inductive Visited (scores : List ℚ) (cap : ℚ) : Capping → Prop where
  | start : Visited scores cap (Capping.start scores)
  | again {s t : Capping} (hs : Visited scores cap s) (hopen : s.remaining ≠ [])
      (hround : s.round scores cap = .ok (.again t)) : Visited scores cap t

/-! ## the loop as a division into shares -/

/-- the scores with the weights given so far -/
def Capping.slots (scores : List ℚ) (s : Capping) : List (Slot ℚ) :=
  (List.range scores.length).map fun i =>
    (scores.getD i 0, if i ∈ s.remaining then none else some (s.weights.getD i 0))

/-- the indices are those of the scores, each once and in order -/
structure Capping.Tidy (scores : List ℚ) (s : Capping) : Prop where
  remaining_eq : (List.range scores.length).filter (· ∈ s.remaining) = s.remaining
  length_eq : s.weights.length = scores.length

namespace Capping

variable {scores : List ℚ} {cap : ℚ} {s : Capping}

theorem tidy_start (scores : List ℚ) : (start scores).Tidy scores where
  remaining_eq := List.filter_eq_self.2 fun i hi => by simpa [start] using hi
  length_eq := by simp [start]

theorem slots_start (scores : List ℚ) :
    (start scores).slots scores = scores.map fun x => (x, none) := by
  apply List.ext_getElem
  · simp [slots]
  · intro i h1 h2
    have hi : i < scores.length := by simpa using h2
    simp [slots, start, hi]

namespace Tidy

theorem nodup (h : s.Tidy scores) : s.remaining.Nodup := by
  rw [← h.remaining_eq]
  exact List.nodup_range.filter _

theorem lt (h : s.Tidy scores) {i : ℕ} (hi : i ∈ s.remaining) : i < scores.length := by
  rw [← h.remaining_eq] at hi
  exact List.mem_range.1 (List.mem_filter.1 hi).1

theorem openScores_slots (h : s.Tidy scores) :
    openScores (s.slots scores) = s.remaining.map fun i => scores.getD i 0 := by
  have hopen : (fun p : Slot ℚ => p.2.isNone) ∘ (fun i => (scores.getD i 0,
      if i ∈ s.remaining then none else some (s.weights.getD i 0))) =
      fun i => decide (i ∈ s.remaining) := by
    funext i
    by_cases hi : i ∈ s.remaining <;> simp [hi]
  rw [openScores, slots, List.filter_map, hopen, h.remaining_eq, List.map_map]
  rfl

theorem total_eq (h : s.Tidy scores) : (openScores (s.slots scores)).sum = s.total scores := by
  rw [h.openScores_slots, total]

theorem open_iff (h : s.Tidy scores) : (∃ p ∈ s.slots scores, p.2 = none) ↔ s.remaining ≠ [] := by
  constructor
  · rintro ⟨p, hp, hnone⟩ hnil
    obtain ⟨i, -, rfl⟩ := List.mem_map.1 hp
    simp [hnil] at hnone
  · intro hne
    obtain ⟨i, hi⟩ := List.exists_mem_of_ne_nil _ hne
    exact ⟨_, List.mem_map.2 ⟨i, List.mem_range.2 (h.lt hi), rfl⟩, by simp [hi]⟩

end Tidy

/-! ## one round -/

theorem foldl_take (cap : ℚ) {capped : List ℕ} (hcapped : capped.Nodup) (s : Capping)
    (hs : s.remaining.Nodup) :
    capped.foldl (take cap) s =
      ⟨s.remaining.filter (· ∉ capped), capped.foldl (fun weights i => weights.set i cap) s.weights,
        s.remainingMass - cap * capped.length⟩ := by
  induction capped generalizing s with
  | nil => simp
  | cons i capped ih =>
    rw [List.nodup_cons] at hcapped
    rw [List.foldl_cons, ih hcapped.2 _ (hs.erase i)]
    simp only [take, List.foldl_cons, mk.injEq, true_and]
    constructor
    · rw [hs.erase_eq_filter, List.filter_filter]
      refine List.filter_congr fun j _ => ?_
      by_cases hij : j = i <;> simp [hij]
    · rw [List.length_cons]
      push_cast
      ring

/-- assigning one value for each index of a list -/
theorem getD_foldl_set (f : ℕ → ℚ) (indices : List ℕ) (weights : List ℚ) {j : ℕ}
    (hj : j < weights.length) :
    (indices.foldl (fun weights i => weights.set i (f i)) weights).getD j 0 =
      if j ∈ indices then f j else weights.getD j 0 := by
  induction indices generalizing weights with
  | nil => simp
  | cons i indices ih =>
    rw [List.foldl_cons, ih _ (by simpa using hj)]
    by_cases hmem : j ∈ indices
    · simp [hmem]
    · by_cases hji : j = i
      · subst hji
        simp [hmem, hj, List.getD_eq_getElem?_getD]
      · have hij : i ≠ j := fun h => hji h.symm
        simp [hmem, hji, hij, List.getD_eq_getElem?_getD]

theorem length_foldl_set (f : ℕ → ℚ) (indices : List ℕ) (weights : List ℚ) :
    (indices.foldl (fun weights i => weights.set i (f i)) weights).length = weights.length := by
  induction indices generalizing weights with
  | nil => rfl
  | cons i indices ih => rw [List.foldl_cons, ih, List.length_set]

/-- a slot is above the cap when its index has yet no weight and is to get more than the cap -/
theorem exceeds_slot (s : Capping) (scores : List ℚ) (cap : ℚ) (i : ℕ) :
    exceeds cap s.remainingMass (s.total scores)
        (scores.getD i 0, if i ∈ s.remaining then none else some (s.weights.getD i 0)) =
      decide (i ∈ s.remaining.filter fun j => decide (cap < s.provisional scores j)) := by
  by_cases hi : i ∈ s.remaining <;> simp [exceeds, hi, provisional]

theorem countP_exceeds (h : s.Tidy scores) (cap : ℚ) :
    (s.slots scores).countP (exceeds cap s.remainingMass (s.total scores)) =
      (s.remaining.filter fun j => decide (cap < s.provisional scores j)).length := by
  rw [slots, List.countP_map, List.countP_eq_length_filter]
  congr 1
  have hfun : exceeds cap s.remainingMass (s.total scores) ∘ (fun i => (scores.getD i 0,
      if i ∈ s.remaining then none else some (s.weights.getD i 0))) =
      fun i => decide (cap < s.provisional scores i) && decide (i ∈ s.remaining) := by
    funext i
    rw [Function.comp_apply, exceeds_slot]
    by_cases hi : i ∈ s.remaining <;> simp [hi]
  rw [hfun, ← List.filter_filter, h.remaining_eq]

/-- **One round.** While some index has no weight and the total is not zero, a round fixes what
exceeds the cap, or gives the provisional weights when nothing does. -/
theorem round_spec (cap : ℚ) (h : s.Tidy scores) (htotal : s.total scores ≠ 0) :
    ((s.slots scores).any (exceeds cap s.remainingMass (s.total scores)) = true ∧
      ∃ t, s.round scores cap = .ok (.again t) ∧ t.Tidy scores ∧
        t.slots scores = (s.slots scores).map (fix cap s.remainingMass (s.total scores)) ∧
        t.remainingMass = s.remainingMass -
          cap * (s.slots scores).countP (exceeds cap s.remainingMass (s.total scores))) ∨
    ((s.slots scores).any (exceeds cap s.remainingMass (s.total scores)) = false ∧
      s.round scores cap = .ok (.done ((s.slots scores).map fun p =>
        p.2.getD (s.remainingMass * p.1 / s.total scores)))) := by
  have hcount := countP_exceeds h cap
  simp only [round, if_neg htotal]
  by_cases hcapped : (s.remaining.filter fun j => decide (cap < s.provisional scores j)) = []
  · refine .inr ⟨?_, ?_⟩
    · rw [hcapped, List.length_nil, List.countP_eq_zero] at hcount
      exact List.any_eq_false.2 hcount
    · rw [if_pos hcapped]
      congr 2
      apply List.ext_getElem
      · rw [length_foldl_set, h.length_eq]
        simp [slots]
      · intro i h1 h2
        have hi : i < s.weights.length := by
          rw [length_foldl_set] at h1
          exact h1
        have hget := getD_foldl_set (s.provisional scores) s.remaining s.weights hi
        rw [List.getD_eq_getElem _ _ h1] at hget
        rw [hget]
        by_cases hmem : i ∈ s.remaining <;> simp [slots, hmem, provisional]
  · refine .inl ⟨?_, _, if_neg hcapped, ?_, ?_, ?_⟩
    · rw [List.any_eq_true]
      have hpos : 0 < (s.slots scores).countP
          (exceeds cap s.remainingMass (s.total scores)) := by
        rw [hcount]
        exact List.length_pos_iff.2 hcapped
      exact List.countP_pos_iff.1 hpos
    all_goals rw [foldl_take cap (h.nodup.filter _) s h.nodup]
    · refine ⟨?_, ?_⟩
      · -- the indices that stay are a part of those there were
        conv_rhs => rw [← h.remaining_eq, List.filter_filter]
        refine List.filter_congr fun i hrange => ?_
        have hlt := List.mem_range.1 hrange
        by_cases hi : i ∈ s.remaining <;> simp [hi, hlt]
      · rw [length_foldl_set fun _ => cap]
        exact h.length_eq
    · rw [slots, slots, List.map_map]
      refine List.map_congr_left fun i hi => ?_
      have hlt : i < s.weights.length := by
        rw [h.length_eq]
        exact List.mem_range.1 hi
      have hget := getD_foldl_set (fun _ => cap)
        (s.remaining.filter fun j => decide (cap < s.provisional scores j)) s.weights hlt
      rw [Function.comp_apply, fix, exceeds_slot]
      simp only [hget]
      by_cases hmem : i ∈ s.remaining
      · by_cases hover : cap < s.provisional scores i <;> simp [hmem, hover]
      · simp [hmem]
    · rw [hcount]

end Capping

/-! ## the whole loop -/

section Loop

variable {scores : List ℚ} {cap : ℚ} {s : Capping}

theorem Capping.Tidy.weights_eq (h : s.Tidy scores) (hnil : s.remaining = []) :
    (s.slots scores).map (fun p => p.2.getD 0) = s.weights := by
  apply List.ext_getElem
  · simp [Capping.slots, h.length_eq]
  · intro i h1 h2
    simp [Capping.slots, hnil, h2]

theorem Capping.Tidy.all_isSome_iff (h : s.Tidy scores) :
    ((s.slots scores).all fun p => p.2.isSome) = true ↔ s.remaining = [] := by
  rw [List.all_eq_true]
  constructor
  · intro hall
    by_contra hne
    obtain ⟨p, hp, hnone⟩ := h.open_iff.2 hne
    have hsome := hall p hp
    simp [hnone] at hsome
  · intro hnil p hp
    obtain ⟨i, -, rfl⟩ := List.mem_map.1 hp
    simp [hnil]

theorem Capping.Tidy.total_pos {rate : ℚ} (h : s.Tidy scores)
    (hdivided : Divided cap s.remainingMass rate (s.slots scores)) (hopen : s.remaining ≠ []) :
    0 < s.total scores := by
  rw [← h.total_eq]
  exact hdivided.total_pos (h.open_iff.2 hopen)

/-- the loop divides the mass left into the shares of the library -/
theorem cappingLoop_eq {rate : ℚ} (fuel : ℕ) (h : s.Tidy scores)
    (hdivided : Divided cap s.remainingMass rate (s.slots scores))
    (hfuel : (openScores (s.slots scores)).length ≤ fuel) :
    cappingLoop scores cap (fuel + 1) s =
      .ok (some (allot cap (fuel + 1) s.remainingMass (s.slots scores))) := by
  induction fuel generalizing s rate with
  | zero =>
    have hnil : s.remaining = [] := by
      rw [h.openScores_slots, List.length_map] at hfuel
      exact List.length_eq_zero_iff.1 (Nat.le_zero.1 hfuel)
    rw [cappingLoop, if_pos hnil, allot, if_pos (h.all_isSome_iff.2 hnil), h.weights_eq hnil]
  | succ fuel ih =>
    by_cases hnil : s.remaining = []
    · rw [cappingLoop, if_pos hnil, allot, if_pos (h.all_isSome_iff.2 hnil), h.weights_eq hnil]
    have hsome : ¬ ((s.slots scores).all fun p => p.2.isSome) = true :=
      fun hall => hnil (h.all_isSome_iff.1 hall)
    rw [cappingLoop, if_neg hnil, allot, if_neg hsome, h.total_eq]
    rcases Capping.round_spec cap h (h.total_pos hdivided hnil).ne' with
      ⟨hover, t, hround, ht, hslots, hmass⟩ | ⟨hover, hround⟩
    · have hnext := hdivided.next (h.open_iff.2 hnil)
      have hfewer := length_openScores_fix_lt hover
      rw [h.total_eq, ← hslots, ← hmass] at hnext
      rw [← hslots] at hfewer
      rw [hround, if_pos hover, ← hslots, ← hmass]
      exact ih ht hnext (by omega)
    · rw [hround, if_neg (by simp [hover])]
      rfl

/-- more rounds than the loop takes change nothing -/
theorem cappingLoop_succ {fuel : ℕ} {weights : List ℚ}
    (h : cappingLoop scores cap fuel s = .ok (some weights)) :
    cappingLoop scores cap (fuel + 1) s = .ok (some weights) := by
  induction fuel generalizing s with
  | zero => simp [cappingLoop] at h
  | succ fuel ih =>
    rw [cappingLoop] at h ⊢
    split_ifs at h ⊢ with hnil
    · exact h
    · cases hround : s.round scores cap with
      | error e => simp [hround, bind, Except.bind] at h
      | ok outcome =>
        cases outcome with
        | again t =>
          simp only [hround, bind, Except.bind] at h ⊢
          exact ih h
        | done weights =>
          simp only [hround, bind, Except.bind] at h ⊢
          exact h

/-- every round keeps the mass and the shares given so far in proportion -/
theorem Visited.inv (hne : scores ≠ []) (hpos : ∀ x ∈ scores, 0 < x) (h : Visited scores cap s) :
    s.Tidy scores ∧ ∃ rate, Divided cap s.remainingMass rate (s.slots scores) := by
  induction h with
  | start =>
    refine ⟨Capping.tidy_start scores, 1 / scores.sum, ?_⟩
    rw [Capping.slots_start]
    exact Divided.start cap hne hpos
  | @again s t _ hopen hround ih =>
    obtain ⟨hs, rate, hdivided⟩ := ih
    rcases Capping.round_spec cap hs (hs.total_pos hdivided hopen).ne' with
      ⟨-, u, hu, hut, hslots, hmass⟩ | ⟨-, hdone⟩
    · rw [hround] at hu
      cases hu
      have hnext := hdivided.next (hs.open_iff.2 hopen)
      rw [hs.total_eq, ← hslots, ← hmass] at hnext
      exact ⟨hut, _, hnext⟩
    · rw [hround] at hdone
      cases hdone

/-- weights that are a proper projection of the scores below a cap -/
structure Projection (scores : List ℚ) (cap : ℚ) (weights : List ℚ) : Prop where
  length_eq : weights.length = scores.length
  sum_eq : weights.sum = 1
  bounds : ∀ w ∈ weights, 0 < w ∧ w ≤ cap
  ordered : ∀ p ∈ scores.zip weights, ∀ q ∈ scores.zip weights, p.1 ≤ q.1 → p.2 ≤ q.2
  proportional : ∀ p ∈ scores.zip weights, ∀ q ∈ scores.zip weights,
    p.2 ≠ cap → q.2 ≠ cap → p.2 * q.1 = q.2 * p.1

theorem projection_shares (hne : scores ≠ []) (hpos : ∀ x ∈ scores, 0 < x)
    (hcap : 1 ≤ scores.length * cap) : Projection scores cap (shares cap scores) := by
  obtain ⟨r, hr, heq, -⟩ := shares_spec cap hne hpos
  have hsum : (0 : ℚ) < scores.sum := List.sum_pos _ hpos hne
  have hr0 : 0 < r := lt_of_lt_of_le (by positivity) hr
  have hcap0 : 0 < cap := by
    by_contra hle
    have hn : (0 : ℚ) ≤ scores.length := Nat.cast_nonneg _
    have := mul_nonpos_of_nonneg_of_nonpos hn (not_lt.1 hle)
    linarith
  -- a score stands beside its share
  have hzip : ∀ p ∈ scores.zip (shares cap scores), p.2 = min cap (r * p.1) := by
    intro p hp
    rw [heq, ← List.map_prod_left_eq_zip, List.mem_map] at hp
    obtain ⟨x, -, rfl⟩ := hp
    rfl
  refine ⟨length_shares cap scores, ?_, ?_, ?_, ?_⟩
  · exact sum_shares_eq_one hne hpos (by rw [mul_comm]; exact hcap)
  · intro w hw
    rw [heq, List.mem_map] at hw
    obtain ⟨x, hx, rfl⟩ := hw
    exact ⟨lt_min hcap0 (mul_pos hr0 (hpos x hx)), min_le_left _ _⟩
  · intro p hp q hq hle
    rw [hzip p hp, hzip q hq]
    exact min_le_min_left cap (mul_le_mul_of_nonneg_left hle hr0.le)
  · intro p hp q hq hpc hqc
    have hbelow : ∀ x : ℚ, min cap (r * x) ≠ cap → min cap (r * x) = r * x := by
      intro x hx
      rcases min_choice cap (r * x) with h | h
      · exact absurd h hx
      · exact h
    rw [hzip p hp] at hpc ⊢
    rw [hzip q hq] at hqc ⊢
    rw [hbelow _ hpc, hbelow _ hqc]
    ring

/-- **Capped weights are a proper projection.** For positive scores and a cap that their number can
fill, the loop ends and gives weights that sum to one, each positive and at most the cap, in the
order of the scores and in proportion to them below the cap; in every round with an agent left the
remaining mass is positive and the total it divides by is not zero. -/
theorem cappedWeights_projection (scores : List ℚ) (cap : ℚ) (hne : scores ≠ [])
    (hpos : ∀ x ∈ scores, 0 < x) (hcap : 1 ≤ scores.length * cap) :
    (∃ weights, Projection scores cap weights ∧ ∀ fuel, scores.length < fuel →
      cappingLoop scores cap fuel (Capping.start scores) = .ok (some weights)) ∧
    ∀ s, Visited scores cap s → s.remaining ≠ [] → 0 < s.remainingMass ∧ s.total scores ≠ 0 := by
  constructor
  · refine ⟨shares cap scores, projection_shares hne hpos hcap, fun fuel hfuel => ?_⟩
    induction fuel, hfuel using Nat.le_induction with
    | base =>
      have hstart := Divided.start cap hne hpos
      rw [← Capping.slots_start] at hstart
      have hopen : (openScores ((Capping.start scores).slots scores)).length ≤ scores.length := by
        rw [Capping.slots_start, openScores_start]
      rw [cappingLoop_eq scores.length (Capping.tidy_start scores) hstart hopen,
        Capping.slots_start]
      rfl
    | succ fuel _ ih => exact cappingLoop_succ ih
  · intro s hs hopen
    obtain ⟨htidy, rate, hdivided⟩ := hs.inv hne hpos
    have htotal := htidy.total_pos hdivided hopen
    refine ⟨?_, htotal.ne'⟩
    have hcovers := hdivided.covers
    rw [htidy.total_eq] at hcovers
    exact lt_of_lt_of_le (mul_pos hdivided.rate_pos htotal) hcovers

theorem cappedWeights_projection_quarter :
    (∃ weights, Projection [1, 1, 1, 1, 4] (1 / 4) weights ∧
      ∀ fuel, [(1 : ℚ), 1, 1, 1, 4].length < fuel →
        cappingLoop [1, 1, 1, 1, 4] (1 / 4) fuel (Capping.start [1, 1, 1, 1, 4]) =
          .ok (some weights)) ∧
    ∀ s, Visited [1, 1, 1, 1, 4] (1 / 4) s → s.remaining ≠ [] →
      0 < s.remainingMass ∧ s.total [1, 1, 1, 1, 4] ≠ 0 :=
  cappedWeights_projection [1, 1, 1, 1, 4] (1 / 4) (by decide) (by decide) (by norm_num)

example : cappedWeights [1, 1, 1, 1, 4] (1 / 4) 6 =
    .ok (some [3 / 16, 3 / 16, 3 / 16, 3 / 16, 1 / 4]) := by decide +kernel

end Loop

/-! ## the rounding -/

theorem sum_round_eq (weights : List ℚ) (d : ℕ) :
    ∃ z : ℤ, (weights.map fun w => Decimal.round w d).sum = z / 10 ^ d := by
  induction weights with
  | nil => exact ⟨0, by simp⟩
  | cons w weights ih =>
    obtain ⟨z, hz⟩ := ih
    refine ⟨Decimal.nearest (w * 10 ^ d) + z, ?_⟩
    rw [List.map_cons, List.sum_cons, hz, Decimal.round]
    push_cast
    ring

/-- the last weight takes what the rounding of all of them missed -/
theorem sum_correctLast {weights corrected : List ℚ}
    (h : correctLast (weights.map fun w => Decimal.round w 12) = .ok corrected) :
    corrected.sum = 1 := by
  obtain ⟨z, hz⟩ := sum_round_eq weights 12
  rcases List.eq_nil_or_concat weights with rfl | ⟨init, last, rfl⟩
  · simp [correctLast] at h
  · simp only [List.concat_eq_append, List.map_append, List.map_cons, List.map_nil,
      correctLast, List.getLast?_concat, Except.ok.injEq] at h hz
    subst h
    -- what is rounded once more has 12 digits already
    have hdigits : Decimal.round (Decimal.round last 12 +
        (1 - (init.map (fun w => Decimal.round w 12) ++ [Decimal.round last 12]).sum)) 12 =
        Decimal.round last 12 +
          (1 - (init.map (fun w => Decimal.round w 12) ++ [Decimal.round last 12]).sum) := by
      have hint : Decimal.round last 12 +
          (1 - (init.map (fun w => Decimal.round w 12) ++ [Decimal.round last 12]).sum) =
          ((Decimal.nearest (last * 10 ^ 12) + 10 ^ 12 - z : ℤ) : ℚ) / 10 ^ 12 := by
        rw [hz, Decimal.round]
        push_cast
        ring
      rw [hint, Decimal.round_int_div]
    rw [hdigits]
    simp only [List.length_append, List.length_map, List.length_cons, List.length_nil,
      Nat.zero_add, Nat.add_sub_cancel, List.set_append_right, le_refl, Nat.sub_self,
      List.set_cons_zero, List.sum_append, List.sum_cons, List.sum_nil, add_zero]
    ring

end CapitalCipher
