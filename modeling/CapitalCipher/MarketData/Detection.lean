/-
What `detect_candle_gaps` finds when the close times lie on a grid that need not start where the scan
starts.

  • `ExactGaps`: ranges that hold the missing closes of a scanned range, each run once.
  • `gapsFrom_exact`: ranges found from one expected close to the next are exact.
  • `detection_exact_iff`: the detected ranges are exact when the scan starts on the grid or a candle
    closes within a step of its start, and only then.
  • `misaligned_range`: a leading gap that is reported half a step too early.
-/
import CapitalCipher.MarketData.Gaps

namespace CapitalCipher

open Lib

/-- `t` is a close of the grid inside the range without a candle -/
def Missing (step grid startAt endAt : ℕ) (closes : List ℕ) (t : ℕ) : Prop :=
  startAt ≤ t ∧ t ≤ endAt ∧ t ≡ grid [MOD step] ∧ t ∉ closes

/-- ranges `(first, last, count)` that hold the missing closes, each maximal run once -/
structure ExactGaps (step grid startAt endAt : ℕ) (closes : List ℕ)
    (ranges : List (ℕ × ℕ × ℕ)) : Prop where
  /-- in order, with a stored close between one range and the next -/
  ascending : ranges.Pairwise fun r r' => r.2.1 + step < r'.1
  ends : ∀ r ∈ ranges, Missing step grid startAt endAt closes r.1 ∧
    Missing step grid startAt endAt closes r.2.1 ∧ r.1 ≤ r.2.1
  union : ∀ t, t ≡ grid [MOD step] →
    ((∃ r ∈ ranges, r.1 ≤ t ∧ t ≤ r.2.1) ↔ Missing step grid startAt endAt closes t)
  counts : ∀ r ∈ ranges,
    r.2.2 = ((Finset.Icc r.1 r.2.1).filter fun t => t ≡ grid [MOD step]).card

/-! ## From one expected close to the next -/

/-- the ranges from the next expected close up to the one where the scan stops -/
def gapsFrom (step stop : ℕ) : (next : ℕ) → List ℕ → List (ℕ × ℕ × ℕ)
  | next, [] => missingRange step next ((stop - next) / step)
  | next, c :: closes => missingRange step next ((c - next) / step) ++ gapsFrom step stop (c + step) closes

/-- stored closes of a grid between the next expected one and the one where the scan stops -/
structure Expecting (step stop next : ℕ) (closes : List ℕ) : Prop where
  pos : 0 < step
  le : next ≤ stop
  stop_mod : stop ≡ next [MOD step]
  sorted : closes.Pairwise (· < ·)
  inside : ∀ c ∈ closes, next ≤ c ∧ c < stop
  grid : ∀ c ∈ closes, c ≡ next [MOD step]

theorem Expecting.tail {step stop next c : ℕ} {closes : List ℕ}
    (h : Expecting step stop next (c :: closes)) : Expecting step stop (c + step) closes := by
  obtain ⟨hfirst, hrest⟩ := List.pairwise_cons.1 h.sorted
  have hc := h.inside c List.mem_cons_self
  have hmod := h.grid c List.mem_cons_self
  refine ⟨h.pos, add_step_le hc.2 (h.stop_mod.trans hmod.symm),
    h.stop_mod.trans (hmod.symm.trans (add_step_modEq step c).symm), hrest, ?_, ?_⟩
  · intro x hx
    have hmodx := (h.grid x (List.mem_cons_of_mem c hx)).trans hmod.symm
    exact ⟨add_step_le (hfirst x hx) hmodx, (h.inside x (List.mem_cons_of_mem c hx)).2⟩
  · intro x hx
    exact (h.grid x (List.mem_cons_of_mem c hx)).trans (hmod.symm.trans (add_step_modEq step c).symm)

/-- the closes of one range: from `start` on, `missing` of them -/
theorem missingRange_iff {step start stop : ℕ} (hpos : 0 < step) (hle : start ≤ stop)
    (hmod : stop ≡ start [MOD step]) {t : ℕ} (ht : t ≡ start [MOD step]) :
    (∃ r ∈ missingRange step start ((stop - start) / step), r.1 ≤ t ∧ t ≤ r.2.1) ↔
      start ≤ t ∧ t < stop := by
  have hstop := step_mul_div hle hmod
  constructor
  · rintro ⟨r, hr, h1, h2⟩
    obtain ⟨hs, -, hend, -⟩ := missingRange_inside hr
    omega
  · rintro ⟨hge, hlt⟩
    exact missingRange_covers hge ht (by omega)

/-- a range between two expected closes: whole steps on the grid, short of the second one -/
structure RunOfSteps (step next stop : ℕ) (r : ℕ × ℕ × ℕ) : Prop where
  low : next ≤ r.1
  le : r.1 ≤ r.2.1
  high : r.2.1 + step ≤ stop
  grid : r.1 ≡ next [MOD step]
  length : r.2.1 + step = r.1 + step * r.2.2

theorem missingRange_run {step next stop : ℕ} (hle : next ≤ stop) (hmod : stop ≡ next [MOD step])
    {r : ℕ × ℕ × ℕ} (hr : r ∈ missingRange step next ((stop - next) / step)) :
    RunOfSteps step next stop r ∧ r.2.1 + step = stop := by
  have hstop := step_mul_div hle hmod
  obtain ⟨h1, h2, h3, -⟩ := missingRange_inside hr
  have hlength : r.2.2 = (stop - next) / step := by
    unfold missingRange at hr
    split_ifs at hr
    · cases hr
    · rw [List.mem_singleton] at hr
      rw [hr]
  refine ⟨⟨h1.ge, h2, by omega, ?_, ?_⟩, by omega⟩
  · rw [h1]
  · rw [hlength, h1, h3]

theorem gapsFrom_run {step stop next : ℕ} {closes : List ℕ} (h : Expecting step stop next closes) :
    ∀ r ∈ gapsFrom step stop next closes, RunOfSteps step next stop r := by
  induction closes generalizing next with
  | nil => exact fun r hr => (missingRange_run h.le h.stop_mod hr).1
  | cons c closes ih =>
    intro r hr
    have hc := h.inside c List.mem_cons_self
    have hmod := h.grid c List.mem_cons_self
    rcases List.mem_append.1 hr with hr | hr
    · obtain ⟨hrun, hend⟩ := missingRange_run hc.1 hmod hr
      exact ⟨hrun.low, hrun.le, by omega, hrun.grid, hrun.length⟩
    · have hrun := ih h.tail r hr
      have hlow := hrun.low
      exact ⟨by omega, hrun.le, hrun.high,
        hrun.grid.trans ((add_step_modEq step c).trans hmod), hrun.length⟩

/-- a stored close stands between one range and the next -/
theorem gapsFrom_ascending {step stop next : ℕ} {closes : List ℕ}
    (h : Expecting step stop next closes) :
    (gapsFrom step stop next closes).Pairwise fun r r' => r.2.1 + step < r'.1 := by
  have hone : ∀ start missing, (missingRange step start missing).Pairwise
      fun r r' => r.2.1 + step < r'.1 := by
    intro start missing
    unfold missingRange
    split_ifs
    · exact .nil
    · exact List.pairwise_singleton _ _
  induction closes generalizing next with
  | nil => exact hone _ _
  | cons c closes ih =>
    have hc := h.inside c List.mem_cons_self
    have hpos := h.pos
    refine List.pairwise_append.2 ⟨hone _ _, ih h.tail, fun r hr r' hr' => ?_⟩
    have hend := (missingRange_run hc.1 (h.grid c List.mem_cons_self) hr).2
    have hlow := (gapsFrom_run h.tail r' hr').low
    omega

theorem gapsFrom_union {step stop next : ℕ} {closes : List ℕ} (h : Expecting step stop next closes)
    {t : ℕ} (ht : t ≡ next [MOD step]) :
    (∃ r ∈ gapsFrom step stop next closes, r.1 ≤ t ∧ t ≤ r.2.1) ↔
      next ≤ t ∧ t < stop ∧ t ∉ closes := by
  induction closes generalizing next with
  | nil =>
    rw [gapsFrom, missingRange_iff h.pos h.le h.stop_mod ht]
    simp
  | cons c closes ih =>
    have hc := h.inside c List.mem_cons_self
    have hmod := h.grid c List.mem_cons_self
    have hpos := h.pos
    have htail := ih h.tail (ht.trans (hmod.symm.trans (add_step_modEq step c).symm))
    have hlater : ∀ x ∈ closes, c < x := (List.pairwise_cons.1 h.sorted).1
    have hhead := missingRange_iff h.pos hc.1 hmod ht
    simp only [gapsFrom, List.mem_append, or_and_right, exists_or, hhead, htail, List.mem_cons,
      not_or]
    constructor
    · rintro (⟨hge, hlt⟩ | ⟨hge, hlt, hout⟩)
      · exact ⟨hge, by omega, by omega, fun hmem => absurd (hlater t hmem) (by omega)⟩
      · exact ⟨by omega, hlt, by omega, hout⟩
    · rintro ⟨hge, hlt, hne, hout⟩
      rcases Nat.lt_or_ge t c with hbefore | hafter
      · exact .inl ⟨hge, hbefore⟩
      · have hlt' : c < t := by omega
        exact .inr ⟨add_step_le hlt' (ht.trans hmod.symm), hlt, hout⟩

/-- a run of steps holds as many closes as it counts -/
theorem RunOfSteps.card {step next stop grid : ℕ} {r : ℕ × ℕ × ℕ} (hpos : 0 < step)
    (h : RunOfSteps step next stop r) (hgrid : next ≡ grid [MOD step]) :
    r.2.2 = ((Finset.Icc r.1 r.2.1).filter fun t => t ≡ grid [MOD step]).card := by
  have hinj : Function.Injective fun i => r.1 + step * i := by
    intro i j hij
    exact Nat.eq_of_mul_eq_mul_left hpos (Nat.add_left_cancel hij)
  have himage : ((Finset.Icc r.1 r.2.1).filter fun t => t ≡ grid [MOD step]) =
      (Finset.range r.2.2).image fun i => r.1 + step * i := by
    ext t
    rw [Finset.mem_filter, Finset.mem_Icc, Finset.mem_image]
    constructor
    · rintro ⟨⟨hge, hle⟩, hmod⟩
      obtain ⟨i, hi⟩ := (Nat.modEq_iff_dvd' hge).1 ((h.grid.trans hgrid).trans hmod.symm)
      refine ⟨i, ?_, by omega⟩
      have hlength := h.length
      have hlt : step * i < step * r.2.2 := by omega
      exact Finset.mem_range.2 (Nat.lt_of_mul_lt_mul_left hlt)
    · rintro ⟨i, hi, rfl⟩
      have hlength := h.length
      have hle : step * (i + 1) ≤ step * r.2.2 := Nat.mul_le_mul_left step (Finset.mem_range.1 hi)
      rw [Nat.mul_succ] at hle
      refine ⟨⟨Nat.le_add_right _ _, by omega⟩, ?_⟩
      exact Nat.ModEq.trans (by simp [Nat.ModEq]) (h.grid.trans hgrid)
  rw [himage, Finset.card_image_of_injective _ hinj, Finset.card_range]

/-- the ranges found from one expected close to the next are exact -/
theorem gapsFrom_exact {step stop next grid startAt endAt : ℕ} {closes : List ℕ}
    (h : Expecting step stop next closes) (hgrid : next ≡ grid [MOD step])
    (hrange : ∀ t, t ≡ grid [MOD step] → ((startAt ≤ t ∧ t ≤ endAt) ↔ (next ≤ t ∧ t < stop))) :
    ExactGaps step grid startAt endAt closes (gapsFrom step stop next closes) := by
  have hunion : ∀ t, t ≡ grid [MOD step] →
      ((∃ r ∈ gapsFrom step stop next closes, r.1 ≤ t ∧ t ≤ r.2.1) ↔
        Missing step grid startAt endAt closes t) := by
    intro t ht
    rw [gapsFrom_union h (ht.trans hgrid.symm), Missing, ← and_assoc, ← and_assoc, hrange t ht]
    simp [ht]
  refine ⟨gapsFrom_ascending h, fun r hr => ?_, hunion, fun r hr => ?_⟩
  · have hrun := gapsFrom_run h r hr
    have hfirst : r.1 ≡ grid [MOD step] := hrun.grid.trans hgrid
    have hlast : r.2.1 ≡ grid [MOD step] := by
      have hsame : r.2.1 + step ≡ r.1 [MOD step] := by
        rw [hrun.length]
        simp [Nat.ModEq]
      exact ((add_step_modEq step r.2.1).symm.trans hsame).trans hfirst
    exact ⟨(hunion _ hfirst).1 ⟨r, hr, le_rfl, hrun.le⟩, (hunion _ hlast).1 ⟨r, hr, hrun.le, le_rfl⟩,
      hrun.le⟩
  · exact (gapsFrom_run h r hr).card h.pos hgrid

/-! ## The detected ranges -/

/-- the first close of a grid behind a range -/
structure StopsAt (step endAt close stop : ℕ) : Prop where
  behind : endAt < stop
  le : stop ≤ endAt + step
  mod : stop ≡ close [MOD step]

theorem StopsAt.eq {step endAt close stop : ℕ} (hpos : 0 < step) (h : StopsAt step endAt close stop)
    (hle : close ≤ endAt) : close + step + step * ((endAt - close) / step) = stop := by
  obtain ⟨k, hk⟩ := (Nat.modEq_iff_dvd' (hle.trans h.behind.le)).1 h.mod.symm
  have hbehind := h.behind
  have hle' := h.le
  have hpos' : 0 < k := by
    rcases Nat.eq_zero_or_pos k with rfl | hk'
    · omega
    · exact hk'
  obtain ⟨j, rfl⟩ : ∃ j, k = j + 1 := ⟨k - 1, by omega⟩
  rw [Nat.mul_succ] at hk
  have hquotient : (endAt - close) / step = j := by
    apply Nat.div_eq_of_lt_le
    · rw [Nat.mul_comm]
      omega
    · rw [Nat.succ_mul, Nat.mul_comm]
      omega
  rw [hquotient]
  omega

theorem exists_stop {step endAt close : ℕ} (hpos : 0 < step) (hle : close ≤ endAt) :
    ∃ stop, StopsAt step endAt close stop := by
  have hdiv := Nat.div_add_mod (endAt - close) step
  have hmod := Nat.mod_lt (endAt - close) hpos
  refine ⟨close + step + step * ((endAt - close) / step), by omega, by omega, ?_⟩
  simp [Nat.ModEq]

/-- between and after the stored closes, the ranges run from one expected close to the next -/
theorem inner_eq_gapsFrom {step endAt stop : ℕ} (hpos : 0 < step) {c : ℕ} {closes : List ℕ}
    (hsorted : (c :: closes).Pairwise (· < ·)) (hgrid : ∀ x ∈ closes, x ≡ c [MOD step])
    (hend : ∀ x ∈ c :: closes, x ≤ endAt) (hstop : StopsAt step endAt c stop) :
    ((neighbours (c :: closes)).flatMap fun p =>
        missingRange step (p.1 + step) (missingBetween step p.1 p.2)) ++
      (if (c :: closes).getLast (List.cons_ne_nil c closes) < endAt then
        missingRange step ((c :: closes).getLast (List.cons_ne_nil c closes) + step)
          ((endAt - (c :: closes).getLast (List.cons_ne_nil c closes)) / step) else []) =
      gapsFrom step stop (c + step) closes := by
  induction closes generalizing c with
  | nil =>
    have hle := hend c List.mem_cons_self
    have heq := hstop.eq hpos hle
    have hquotient : (stop - (c + step)) / step = (endAt - c) / step := by
      rw [← heq, Nat.add_sub_cancel_left, Nat.mul_div_cancel_left _ hpos]
    show (if c < endAt then missingRange step (c + step) ((endAt - c) / step) else []) =
      missingRange step (c + step) ((stop - (c + step)) / step)
    rw [hquotient]
    by_cases hlt : c < endAt
    · rw [if_pos hlt]
    · have hzero : endAt - c = 0 := by omega
      rw [if_neg hlt, hzero, Nat.zero_div, missingRange, if_pos rfl]
  | cons d closes ih =>
    have hcd := (List.pairwise_cons.1 hsorted).1 d List.mem_cons_self
    have hmod := hgrid d List.mem_cons_self
    have hbetween := missingBetween_grid hpos hcd hmod
    have hquotient : (d - (c + step)) / step = missingBetween step c d := by
      conv_lhs => rw [← hbetween]
      rw [Nat.add_sub_cancel_left, Nat.mul_div_cancel_left _ hpos]
    have hrest := ih (List.pairwise_cons.1 hsorted).2
      (fun x hx => (hgrid x (List.mem_cons_of_mem d hx)).trans hmod.symm)
      (fun x hx => hend x (List.mem_cons_of_mem c hx))
      ⟨hstop.behind, hstop.le, hstop.mod.trans hmod.symm⟩
    rw [neighbours_cons_cons, List.flatMap_cons, gapsFrom, hquotient, ← hrest, List.append_assoc]
    rfl

/-! ## Alignment -/

/-- the scan starts on the grid, or a candle closes less than a step after its start -/
def Aligned (step grid startAt : ℕ) (closes : List ℕ) : Prop :=
  startAt ≡ grid [MOD step] ∨ ∃ t ∈ closes, startAt ≤ t ∧ t < startAt + step

/-- the close times of a series -/
def closeTimes (candles : List Candle) (series : Series) : List ℕ :=
  (candles.filter fun c => c.series == series).map Candle.closedAt

/-- a gap record as a range -/
def rangeOf (g : MarketDataGap) : ℕ × ℕ × ℕ := (g.startAt, g.endAt, g.missingCount.toNat)

variable {step grid startAt endAt first : ℕ} {rest : List ℕ}

/-- stored closes of a grid inside a scanned range -/
structure ScannedCloses (step grid startAt endAt : ℕ) (closes : List ℕ) : Prop where
  pos : 0 < step
  sorted : closes.Pairwise (· < ·)
  inside : ∀ c ∈ closes, startAt ≤ c ∧ c ≤ endAt
  grid : ∀ c ∈ closes, c ≡ grid [MOD step]

/-- an aligned scan finds the missing closes -/
theorem missingRanges_exact (h : ScannedCloses step grid startAt endAt (first :: rest))
    (ha : Aligned step grid startAt (first :: rest)) :
    ExactGaps step grid startAt endAt (first :: rest)
      (missingRanges step startAt endAt (first :: rest)) := by
  have hfirst := h.inside first List.mem_cons_self
  have hmod := h.grid first List.mem_cons_self
  have hlater : ∀ x ∈ rest, first < x := (List.pairwise_cons.1 h.sorted).1
  have hpos := h.pos
  have hsame : ∀ x ∈ rest, x ≡ first [MOD step] := fun x hx =>
    (h.grid x (List.mem_cons_of_mem first hx)).trans hmod.symm
  obtain ⟨stop, hstop⟩ := exists_stop h.pos hfirst.2
  have hinner := inner_eq_gapsFrom h.pos h.sorted hsame (fun x hx => (h.inside x hx).2) hstop
  -- the first expected close: the start of the scan, or the first candle
  obtain ⟨next, hnext, hlead, hbelow⟩ : ∃ next, (next ≤ first ∧ next ≡ grid [MOD step]) ∧
      (if startAt < first then missingRange step startAt ((first - startAt) / step) else []) =
        missingRange step next ((first - next) / step) ∧
      ∀ t, t ≡ grid [MOD step] → (startAt ≤ t ↔ next ≤ t) := by
    by_cases hstart : startAt ≡ grid [MOD step]
    · refine ⟨startAt, ⟨hfirst.1, hstart⟩, ?_, fun t _ => Iff.rfl⟩
      split_ifs with hlt
      · rfl
      · have hzero : first - startAt = 0 := by omega
        rw [hzero, Nat.zero_div, missingRange, if_pos rfl]
    · obtain ⟨t, ht, hge, hlt⟩ := ha.resolve_left hstart
      have hnear : first < startAt + step := by
        rcases List.mem_cons.1 ht with rfl | hmem
        · exact hlt
        · exact (hlater t hmem).trans hlt
      have hnone : ∀ a, missingRange step a 0 = [] := fun a => if_pos rfl
      refine ⟨first, ⟨le_rfl, hmod⟩, ?_, fun x hx => ⟨fun hx' => ?_, fun hx' => hfirst.1.trans hx'⟩⟩
      · rw [Nat.sub_self, Nat.zero_div, hnone, Nat.div_eq_of_lt (by omega), hnone, ite_self]
      · -- the grid has no close between the start and the first candle
        by_contra hlt'
        have hle := add_step_le (not_le.1 hlt') (hmod.trans hx.symm)
        omega
  have hranges : missingRanges step startAt endAt (first :: rest) =
      gapsFrom step stop next (first :: rest) := by
    rw [missingRanges, gapsFrom, ← hinner, ← hlead]
    exact List.append_assoc _ _ _
  rw [hranges]
  have hstop_grid : stop ≡ grid [MOD step] := hstop.mod.trans hmod
  have hexpecting : Expecting step stop next (first :: rest) := by
    have hbehind := hstop.behind
    refine ⟨h.pos, by omega, hstop_grid.trans hnext.2.symm, h.sorted, fun c hc => ?_, fun c hc => ?_⟩
    · exact ⟨(hbelow c (h.grid c hc)).1 (h.inside c hc).1, (h.inside c hc).2.trans_lt hbehind⟩
    · exact (h.grid c hc).trans hnext.2.symm
  refine gapsFrom_exact hexpecting hnext.2 fun t ht => ?_
  refine and_congr (hbelow t ht) ⟨fun hle => hle.trans_lt hstop.behind, fun hlt => ?_⟩
  -- the grid has no close between the end and the stop
  have hle := add_step_le hlt (hstop_grid.trans ht.symm)
  have hle' := hstop.le
  omega

/-- a scan that is not aligned reports a range that starts off the grid -/
theorem not_exact_of_not_aligned (h : ScannedCloses step grid startAt endAt (first :: rest))
    (ha : ¬ Aligned step grid startAt (first :: rest)) :
    ¬ ExactGaps step grid startAt endAt (first :: rest)
      (missingRanges step startAt endAt (first :: rest)) := by
  intro hexact
  obtain ⟨hoff, hfar⟩ := not_or.1 ha
  have hfirst := h.inside first List.mem_cons_self
  have hdistance : startAt + step ≤ first := by
    by_contra hlt
    exact hfar ⟨first, List.mem_cons_self, hfirst.1, by omega⟩
  have hpos := h.pos
  have hmissing : (first - startAt) / step ≠ 0 := by
    rw [Nat.div_ne_zero_iff]
    omega
  have hmem : (startAt, startAt + step * ((first - startAt) / step - 1), (first - startAt) / step) ∈
      missingRanges step startAt endAt (first :: rest) := by
    refine mem_missingRanges_cons.2 (.inl ⟨by omega, ?_⟩)
    rw [missingRange, if_neg hmissing]
    exact List.mem_singleton_self _
  obtain ⟨⟨-, -, hgrid, -⟩, -⟩ := hexact.ends _ hmem
  exact hoff hgrid

/-- exactness and alignment only depend on the closes inside the range -/
theorem exactGaps_congr {closes closes' : List ℕ} {ranges : List (ℕ × ℕ × ℕ)}
    (hsame : ∀ t, startAt ≤ t → t ≤ endAt → (t ∈ closes ↔ t ∈ closes')) :
    ExactGaps step grid startAt endAt closes ranges ↔
      ExactGaps step grid startAt endAt closes' ranges := by
  have hmissing : ∀ t, Missing step grid startAt endAt closes t ↔
      Missing step grid startAt endAt closes' t := by
    intro t
    refine and_congr_right fun hge => and_congr_right fun hle => and_congr_right fun _ => ?_
    exact not_congr (hsame t hge hle)
  constructor
  · intro h
    exact ⟨h.ascending, fun r hr => by simpa only [hmissing] using h.ends r hr,
      fun t ht => (h.union t ht).trans (hmissing t), h.counts⟩
  · intro h
    exact ⟨h.ascending, fun r hr => by simpa only [hmissing] using h.ends r hr,
      fun t ht => (h.union t ht).trans (hmissing t).symm, h.counts⟩

variable {candles : List Candle} {series : Series}

theorem mem_closeTimes {t : ℕ} :
    t ∈ closeTimes candles series ↔ ∃ c ∈ candles, c.series = series ∧ c.closedAt = t := by
  simp only [closeTimes, List.mem_map, List.mem_filter, beq_iff_eq, and_assoc]

theorem scanned_iff {t : ℕ} : t ∈ scannedTimestamps candles series startAt endAt ↔
    t ∈ closeTimes candles series ∧ startAt ≤ t ∧ t ≤ endAt := by
  rw [mem_scannedTimestamps, mem_closeTimes]
  constructor
  · rintro ⟨c, hc, hs, h1, h2, rfl⟩
    exact ⟨⟨c, hc, hs, rfl⟩, h1, h2⟩
  · rintro ⟨⟨c, hc, hs, rfl⟩, h1, h2⟩
    exact ⟨c, hc, hs, h1, h2, rfl⟩

/-- distinct closes stay distinct in a range -/
theorem scanned_nodup (hd : (closeTimes candles series).Nodup) :
    (scannedTimestamps candles series startAt endAt).Nodup := by
  refine (List.perm_insertionSort _ _).nodup_iff.2 (hd.sublist ?_)
  refine List.Sublist.map _ ?_
  have hcomm : candles.filter (fun c => c.series == series &&
      decide (startAt ≤ c.closedAt ∧ c.closedAt ≤ endAt)) =
      (candles.filter fun c => c.series == series).filter
        fun c => decide (startAt ≤ c.closedAt ∧ c.closedAt ≤ endAt) := by
    rw [List.filter_filter]
    apply List.filter_congr
    intro c _
    exact Bool.and_comm _ _
  rw [hcomm]
  exact List.filter_sublist

theorem rangeOf_gapOfRange (series : Series) (r : ℕ × ℕ × ℕ) : rangeOf (gapOfRange series r) = r := rfl

/-- **Gap detection.** Over a range in which the series has a candle, and candles whose closes lie on a
grid, the detected ranges are exactly the missing closes if and only if the scan starts on the grid or
a candle closes within a step of its start; closes that occur twice in the range are rejected. -/
theorem detection_exact_iff (hstep : series.step = some step) (hpos : 0 < step)
    (hle : startAt ≤ endAt) (hgrid : ∀ t ∈ closeTimes candles series, t ≡ grid [MOD step])
    (hsome : ∃ t ∈ closeTimes candles series, startAt ≤ t ∧ t ≤ endAt) :
    ((closeTimes candles series).Nodup →
      ((∃ gaps, detectCandleGaps candles series startAt endAt = .ok gaps ∧
          ExactGaps step grid startAt endAt (closeTimes candles series) (gaps.map rangeOf)) ↔
        Aligned step grid startAt (closeTimes candles series))) ∧
    (¬ (scannedTimestamps candles series startAt endAt).Nodup →
      ∃ e, detectCandleGaps candles series startAt endAt = .error e ∧ e.kind = .dataQuality) := by
  constructor
  · intro hd
    have hnodup : (scannedTimestamps candles series startAt endAt).Nodup := scanned_nodup hd
    have hok := detectCandleGaps_ok.2 ⟨step, hstep, hle, hnodup, rfl⟩
    have hgaps : ((missingRanges step startAt endAt
        (scannedTimestamps candles series startAt endAt)).map (gapOfRange series)).map rangeOf =
        missingRanges step startAt endAt (scannedTimestamps candles series startAt endAt) := by
      rw [List.map_map]
      exact List.map_id'' (rangeOf_gapOfRange series) _
    have hscanned : ScannedCloses step grid startAt endAt (scannedTimestamps candles series startAt endAt) :=
      ⟨hpos, scannedTimestamps_sorted hnodup, fun c hc => (scanned_iff.1 hc).2,
        fun c hc => hgrid c (scanned_iff.1 hc).1⟩
    have hsame : ∀ t, startAt ≤ t → t ≤ endAt →
        (t ∈ scannedTimestamps candles series startAt endAt ↔ t ∈ closeTimes candles series) :=
      fun t h1 h2 => by simp only [scanned_iff, h1, h2, and_true]
    obtain ⟨x, hx, hx1, hx2⟩ := hsome
    have hmem : x ∈ scannedTimestamps candles series startAt endAt := scanned_iff.2 ⟨hx, hx1, hx2⟩
    have haligned : Aligned step grid startAt (scannedTimestamps candles series startAt endAt) ↔
        Aligned step grid startAt (closeTimes candles series) := by
      refine or_congr_right ⟨fun ⟨t, ht, h⟩ => ⟨t, (scanned_iff.1 ht).1, h⟩, fun ⟨t, ht, h⟩ => ?_⟩
      rcases Nat.lt_or_ge endAt t with hafter | hbefore
      · exact ⟨x, hmem, hx1, by omega⟩
      · exact ⟨t, scanned_iff.2 ⟨ht, h.1, hbefore⟩, h⟩
    have hexact : (∃ gaps, detectCandleGaps candles series startAt endAt = .ok gaps ∧
        ExactGaps step grid startAt endAt (closeTimes candles series) (gaps.map rangeOf)) ↔
        ExactGaps step grid startAt endAt (scannedTimestamps candles series startAt endAt)
          (missingRanges step startAt endAt (scannedTimestamps candles series startAt endAt)) := by
      rw [exactGaps_congr hsame, ← hgaps]
      constructor
      · rintro ⟨gaps, hgaps', h⟩
        rw [hok] at hgaps'
        cases hgaps'
        exact h
      · exact fun h => ⟨_, hok, h⟩
    rw [hexact, ← haligned]
    generalize scannedTimestamps candles series startAt endAt = timestamps at hscanned hmem
    cases timestamps with
    | nil => cases hmem
    | cons first rest =>
      refine ⟨fun h => ?_, missingRanges_exact hscanned⟩
      by_contra hnot
      exact not_exact_of_not_aligned hscanned hnot h
  · intro hd
    refine ⟨⟨.dataQuality, "Cannot scan gaps in a series with duplicate timestamps"⟩, ?_, rfl⟩
    rw [detectCandleGaps, if_neg (not_lt.2 hle), hstep]
    exact if_pos hd

/-- the minutes of one market -/
def bitcoinMinutes : Series := ⟨.binance, "BTCUSDT", "1m"⟩

/-- a candle that closes on a whole minute -/
def wholeMinute (minute : ℕ) : Candle where
  exchange := .binance
  symbol := "BTCUSDT"
  timeframe := "1m"
  openPrice := 100
  high := 100
  low := 100
  close := 100
  volume := 1
  closedAt := minute * 60000000
  receivedAt := minute * 60000000

theorem closeTimes_wholeMinute (minute : ℕ) :
    closeTimes [wholeMinute minute] bitcoinMinutes = [minute * 60000000] := rfl

/-- a scan from a whole minute -/
theorem detection_exact_minutes :
    ((closeTimes [wholeMinute 3] bitcoinMinutes).Nodup →
      ((∃ gaps, detectCandleGaps [wholeMinute 3] bitcoinMinutes 60000000 240000000 = .ok gaps ∧
          ExactGaps 60000000 0 60000000 240000000 (closeTimes [wholeMinute 3] bitcoinMinutes)
            (gaps.map rangeOf)) ↔
        Aligned 60000000 0 60000000 (closeTimes [wholeMinute 3] bitcoinMinutes))) ∧
    (¬ (scannedTimestamps [wholeMinute 3] bitcoinMinutes 60000000 240000000).Nodup →
      ∃ e, detectCandleGaps [wholeMinute 3] bitcoinMinutes 60000000 240000000 = .error e ∧
        e.kind = .dataQuality) :=
  detection_exact_iff rfl (by decide) (by decide) (by decide +kernel)
    ⟨180000000, by decide +kernel, by decide, by decide⟩

/-- minutes 1, 2 and 4 have no candle, and the scan starts half a minute before minute 1: two closes
are reported at half minutes -/
theorem misaligned_range :
    closeTimes [wholeMinute 3] bitcoinMinutes = [180000000] ∧
    detectCandleGaps [wholeMinute 3] bitcoinMinutes 30000000 240000000 =
      .ok [gapOfRange bitcoinMinutes (30000000, 90000000, 2),
        gapOfRange bitcoinMinutes (240000000, 240000000, 1)] ∧
    ¬ ExactGaps 60000000 0 30000000 240000000 (closeTimes [wholeMinute 3] bitcoinMinutes)
      [(30000000, 90000000, 2), (240000000, 240000000, 1)] := by
  have hscanned : scannedTimestamps [wholeMinute 3] bitcoinMinutes 30000000 240000000 = [180000000] := by
    decide +kernel
  refine ⟨closeTimes_wholeMinute 3, ?_, fun h => ?_⟩
  · refine detectCandleGaps_ok.2 ⟨60000000, rfl, by decide, ?_, ?_⟩
    · rw [hscanned]
      exact List.nodup_singleton _
    · rw [hscanned]
      rfl
  · obtain ⟨⟨-, -, hgrid, -⟩, -⟩ := h.ends _ List.mem_cons_self
    exact absurd hgrid (by decide)

end CapitalCipher
