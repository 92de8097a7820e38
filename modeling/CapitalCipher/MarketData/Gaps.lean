/-
Gap detection of `market_data/gaps.py`: the close times a series misses in a range, and the scan
that files them.

The gap id digests the series and the boundaries, so the id is taken to be them. A scan awaits
three transactions one after the other; each commits on its own, and any of them may be lost.

  • `missingRange_covers`, `missingRange_inside`: a range of missing closes and nothing else.
  • `missingRanges_covers`, `missingRanges_inside`: on a grid, the detected ranges hold every close
    that is missing and stay inside the scanned range.
  • `detectCandleGaps_ok`: what an accepted detection returns; every gap passes its own check.
-/
import CapitalCipher.Lib.Neighbours
import CapitalCipher.Lib.Result
import CapitalCipher.Database.Market

namespace CapitalCipher

open Lib

/-- the timeframe's step in microseconds -/
def Series.step (s : Series) : Option ℕ := (timeframeSeconds s.timeframe).map (· * 1000000)

/-- `(start, start + step * (missing - 1), missing)`, when anything is missing -/
def missingRange (step start missing : ℕ) : List (ℕ × ℕ × ℕ) :=
  if missing = 0 then [] else [(start, start + step * (missing - 1), missing)]

/-- `max(0, int(round(ratio)) - 1)` -/
def missingBetween (step : ℕ) (previous current : ℕ) : ℕ :=
  (Decimal.nearest (((current - previous : ℕ) : ℚ) / step) - 1).toNat

/-- the `ranges` of `detect_candle_gaps`, over the sorted close times -/
def missingRanges (step : ℕ) (startAt endAt : ℕ) :
    (timestamps : List ℕ) → List (ℕ × ℕ × ℕ)
  | [] => missingRange step startAt ((endAt - startAt) / step + 1)
  | first :: rest =>
    let last := (first :: rest).getLast (List.cons_ne_nil first rest)
    (if startAt < first then missingRange step startAt ((first - startAt) / step) else []) ++
    ((neighbours (first :: rest)).flatMap fun p =>
      missingRange step (p.1 + step) (missingBetween step p.1 p.2)) ++
    (if last < endAt then missingRange step (last + step) ((endAt - last) / step) else [])

/-- the sorted close times of the series inside the range -/
def scannedTimestamps (candles : List Candle) (series : Series) (startAt endAt : ℕ) :
    List Time :=
  ((candles.filter fun c =>
    c.series == series && decide (startAt ≤ c.closedAt ∧ c.closedAt ≤ endAt)).map
      Candle.closedAt).insertionSort (· ≤ ·)

/-- `detect_candle_gaps` -/
def detectCandleGaps (candles : List Candle) (series : Series) (startAt endAt : ℕ) :
    Except Error (List MarketDataGap) :=
  if endAt < startAt then .error ⟨.transport, "start_at must not be after end_at"⟩
  else match series.step with
  | none =>
    .error ⟨.dataQuality, "Unsupported timeframe for gap detection: " ++ series.timeframe⟩
  | some step =>
    let timestamps := scannedTimestamps candles series startAt endAt
    if ¬ timestamps.Nodup then
      .error ⟨.dataQuality, "Cannot scan gaps in a series with duplicate timestamps"⟩
    else (missingRanges step startAt endAt timestamps).mapM fun r =>
      MarketDataGap.check
        { series := series, startAt := r.1, endAt := r.2.1, missingCount := r.2.2 }

/-- the transactions a scan awaits -/
inductive GapCall where
  | listCandles | saveMarketDataGaps | resolveMarketDataGaps
  deriving DecidableEq, Repr

/-- a service over the database: what it committed stays when it raises later -/
abbrev Service := ExceptT Error (StateM Db)

namespace Service

/-- one awaited transaction; a lost one changes nothing and raises -/
def await {α : Type} (lost : Bool) (x : Txn α) : Service α := fun db =>
  if lost then (.error ⟨.database, "connection lost"⟩, db)
  else match x.run db with
  | .ok (a, db') => (.ok a, db')
  | .error e => (.error e, db)

/-- no await: a pure step that may raise -/
def lift {α : Type} (x : Except Error α) : Service α := fun db => (x, db)

end Service

open Service in
/-- `GapService.scan` -/
def GapService.scan (lost : GapCall → Bool) (now : Time) (series : Series) (startAt endAt : Time)
    (limit : ℕ) : Service (List MarketDataGap) := do
  let step ← lift (match series.step with
    | none =>
      .error ⟨.dataQuality, "Unsupported timeframe for gap detection: " ++ series.timeframe⟩
    | some step => .ok step)
  let expectedCount : ℤ := ((endAt : ℤ) - startAt) / step + 1
  lift (if limit < expectedCount then
    .error ⟨.dataQuality, "Gap scan limit is smaller than the requested range"⟩ else .ok ())
  lift (if limit < 1 ∨ 1000000 < limit then
    .error ⟨.transport, "limit must be between 1 and 1000000"⟩ else .ok ())
  let candles ← await (lost .listCandles) (Repository.listCandles series startAt endAt limit)
  let gaps ← lift (detectCandleGaps candles series startAt endAt)
  await (lost .saveMarketDataGaps) (Repository.saveMarketDataGaps gaps)
  await (lost .resolveMarketDataGaps)
    (Repository.resolveMarketDataGaps now series startAt endAt (gaps.map MarketDataGap.gapId))
  pure gaps

/-! ## Ranges on a grid -/

theorem missingRange_covers {step start missing t : ℕ} (hge : start ≤ t)
    (hmod : t ≡ start [MOD step]) (hlt : t < start + step * missing) :
    ∃ r ∈ missingRange step start missing, r.1 ≤ t ∧ t ≤ r.2.1 := by
  obtain ⟨k, hk⟩ : step ∣ t - start := (Nat.modEq_iff_dvd' hge).1 hmod.symm
  have ht : t = start + step * k := by omega
  have hkm : k < missing := by
    have : step * k < step * missing := by omega
    exact Nat.lt_of_mul_lt_mul_left this
  have hne : missing ≠ 0 := by omega
  refine ⟨(start, start + step * (missing - 1), missing), by simp [missingRange, hne], hge, ?_⟩
  have : step * k ≤ step * (missing - 1) := Nat.mul_le_mul_left step (by omega)
  dsimp only
  omega

theorem missingRange_inside {step start missing : ℕ} {r : ℕ × ℕ × ℕ}
    (hr : r ∈ missingRange step start missing) :
    r.1 = start ∧ r.1 ≤ r.2.1 ∧ r.2.1 + step = start + step * missing ∧ 0 < r.2.2 := by
  unfold missingRange at hr
  split_ifs at hr with h0
  · simp at hr
  · rw [List.mem_singleton] at hr
    subst hr
    have : step * (missing - 1) + step = step * missing := by
      rw [← Nat.mul_succ]
      congr 1
      omega
    refine ⟨rfl, ?_, ?_, ?_⟩ <;> dsimp only <;> omega

theorem nearest_intCast (n : ℤ) : Decimal.nearest (n : ℚ) = n := by
  unfold Decimal.nearest
  rw [Int.floor_intCast, if_pos (by norm_num)]

/-- between two closes of a grid the missing count is exact -/
theorem missingBetween_grid {step : ℕ} (hpos : 0 < step) {p c : ℕ} (hlt : p < c)
    (hmod : c ≡ p [MOD step]) : p + step + step * missingBetween step p c = c := by
  obtain ⟨k, hk⟩ : step ∣ c - p := (Nat.modEq_iff_dvd' hlt.le).1 hmod.symm
  have hk0 : 0 < k := by
    rcases Nat.eq_zero_or_pos k with rfl | h
    · omega
    · exact h
  have hratio : (((c - p : ℕ) : ℚ) / step) = ((k : ℤ) : ℚ) := by
    have hs : (step : ℚ) ≠ 0 := by positivity
    rw [hk]
    push_cast
    field_simp
  have hm : missingBetween step p c = k - 1 := by
    unfold missingBetween
    rw [hratio, nearest_intCast]
    omega
  rw [hm]
  have : step * (k - 1) + step = step * k := by
    rw [← Nat.mul_succ]
    congr 1
    omega
  omega

theorem mem_missingRanges_cons {step startAt endAt first : ℕ} {rest : List ℕ} {r : ℕ × ℕ × ℕ} :
    r ∈ missingRanges step startAt endAt (first :: rest) ↔
      (startAt < first ∧ r ∈ missingRange step startAt ((first - startAt) / step)) ∨
      (∃ p ∈ neighbours (first :: rest),
        r ∈ missingRange step (p.1 + step) (missingBetween step p.1 p.2)) ∨
      ((first :: rest).getLast (List.cons_ne_nil first rest) < endAt ∧
        r ∈ missingRange step ((first :: rest).getLast (List.cons_ne_nil first rest) + step)
          ((endAt - (first :: rest).getLast (List.cons_ne_nil first rest)) / step)) := by
  rw [missingRanges]
  simp only [List.mem_append, List.mem_flatMap, List.mem_ite_nil_right, or_assoc]

/-- every detected range is one run of steps -/
theorem mem_missingRanges {step startAt endAt : ℕ} {timestamps : List ℕ} {r : ℕ × ℕ × ℕ}
    (h : r ∈ missingRanges step startAt endAt timestamps) :
    ∃ start missing, r ∈ missingRange step start missing := by
  cases timestamps with
  | nil => exact ⟨_, _, h⟩
  | cons first rest =>
    rcases mem_missingRanges_cons.1 h with ⟨-, h⟩ | ⟨p, -, h⟩ | ⟨-, h⟩
    · exact ⟨_, _, h⟩
    · exact ⟨_, _, h⟩
    · exact ⟨_, _, h⟩

/-- a range and the close times found in it, all on one grid -/
structure ScannedGrid (step startAt endAt : ℕ) (timestamps : List ℕ) : Prop where
  pos : 0 < step
  le : startAt ≤ endAt
  ends : endAt ≡ startAt [MOD step]
  sorted : timestamps.Pairwise (· < ·)
  inside : ∀ c ∈ timestamps, startAt ≤ c ∧ c ≤ endAt
  grid : ∀ c ∈ timestamps, c ≡ startAt [MOD step]

/-- on a grid the whole steps between two closes reach from one to the other -/
theorem step_mul_div {step a b : ℕ} (hle : a ≤ b) (hmod : b ≡ a [MOD step]) :
    a + step * ((b - a) / step) = b := by
  have hdvd : step ∣ b - a := (Nat.modEq_iff_dvd' hle).1 hmod.symm
  rw [Nat.mul_div_cancel' hdvd]
  omega

theorem add_step_modEq (step a : ℕ) : a + step ≡ a [MOD step] := by
  simp [Nat.ModEq]

/-- two closes of a grid are a step apart -/
theorem add_step_le {step a b : ℕ} (hlt : a < b) (hmod : b ≡ a [MOD step]) : a + step ≤ b := by
  obtain ⟨k, hk⟩ : step ∣ b - a := (Nat.modEq_iff_dvd' hlt.le).1 hmod.symm
  have hk0 : 0 < k := by
    rcases Nat.eq_zero_or_pos k with rfl | h
    · omega
    · exact h
  have : step * 1 ≤ step * k := Nat.mul_le_mul_left step hk0
  omega

/-- the detected ranges hold every missing close of the scanned range -/
theorem missingRanges_covers {step startAt endAt : ℕ} {timestamps : List ℕ}
    (g : ScannedGrid step startAt endAt timestamps) {t : ℕ} (hge : startAt ≤ t) (hle : t ≤ endAt)
    (hmod : t ≡ startAt [MOD step]) (hmiss : t ∉ timestamps) :
    ∃ r ∈ missingRanges step startAt endAt timestamps, r.1 ≤ t ∧ t ≤ r.2.1 := by
  cases timestamps with
  | nil =>
    refine missingRange_covers hge hmod ?_
    have := step_mul_div g.le g.ends
    have := g.pos
    rw [Nat.mul_succ]
    omega
  | cons first rest =>
    have hlast := List.getLast_mem (List.cons_ne_nil first rest)
    set last := (first :: rest).getLast (List.cons_ne_nil first rest) with hl
    have hfirst : first ∈ first :: rest := by simp
    rcases lt_trichotomy t first with ht | ht | ht
    · -- before the first stored close
      have hbound : t < startAt + step * ((first - startAt) / step) := by
        rw [step_mul_div (g.inside first hfirst).1 (g.grid first hfirst)]
        exact ht
      obtain ⟨r, hr, hcov⟩ := missingRange_covers hge hmod hbound
      exact ⟨r, mem_missingRanges_cons.2 (.inl ⟨by omega, hr⟩), hcov⟩
    · exact absurd (ht ▸ hfirst) hmiss
    · rcases lt_trichotomy t last with ht' | ht' | ht'
      · -- between two neighbours
        obtain ⟨p, hp, hpt, htp⟩ := exists_neighbours_around ht hmiss ⟨last, hlast, ht'⟩
        obtain ⟨h1, h2⟩ := mem_of_mem_neighbours hp
        have hmodp : t ≡ p.1 [MOD step] := hmod.trans (g.grid _ h1).symm
        have hbound : t < p.1 + step + step * missingBetween step p.1 p.2 := by
          rw [missingBetween_grid g.pos (hpt.trans htp) ((g.grid _ h2).trans (g.grid _ h1).symm)]
          exact htp
        obtain ⟨r, hr, hcov⟩ := missingRange_covers (add_step_le hpt hmodp)
          (hmodp.trans (add_step_modEq step p.1).symm) hbound
        exact ⟨r, mem_missingRanges_cons.2 (.inr (.inl ⟨p, hp, hr⟩)), hcov⟩
      · exact absurd (ht' ▸ hlast) hmiss
      · -- after the last stored close
        have hmodl : t ≡ last [MOD step] := hmod.trans (g.grid _ hlast).symm
        have hbound : t < last + step + step * ((endAt - last) / step) := by
          have := step_mul_div (g.inside _ hlast).2 (g.ends.trans (g.grid _ hlast).symm)
          have := g.pos
          omega
        obtain ⟨r, hr, hcov⟩ := missingRange_covers (add_step_le ht' hmodl)
          (hmodl.trans (add_step_modEq step last).symm) hbound
        exact ⟨r, mem_missingRanges_cons.2 (.inr (.inr ⟨by omega, hr⟩)), hcov⟩

/-- and they stay inside it -/
theorem missingRanges_inside {step startAt endAt : ℕ} {timestamps : List ℕ}
    (g : ScannedGrid step startAt endAt timestamps) {r : ℕ × ℕ × ℕ}
    (hr : r ∈ missingRanges step startAt endAt timestamps) : startAt ≤ r.1 ∧ r.2.1 ≤ endAt := by
  cases timestamps with
  | nil =>
    obtain ⟨h1, h2, h3, -⟩ := missingRange_inside hr
    have := step_mul_div g.le g.ends
    rw [Nat.mul_succ] at h3
    omega
  | cons first rest =>
    have hlast := List.getLast_mem (List.cons_ne_nil first rest)
    have hfirst : first ∈ first :: rest := by simp
    rcases mem_missingRanges_cons.1 hr with ⟨-, h⟩ | ⟨p, hp, h⟩ | ⟨hlt, h⟩
    · obtain ⟨h1, h2, h3, -⟩ := missingRange_inside h
      rw [step_mul_div (g.inside first hfirst).1 (g.grid first hfirst)] at h3
      have := (g.inside first hfirst).2
      omega
    · obtain ⟨h1, h2, h3, -⟩ := missingRange_inside h
      obtain ⟨m1, m2⟩ := mem_of_mem_neighbours hp
      rw [missingBetween_grid g.pos (neighbours_lt g.sorted hp)
        ((g.grid _ m2).trans (g.grid _ m1).symm)] at h3
      have := (g.inside _ m1).1
      have := (g.inside _ m2).2
      omega
    · obtain ⟨h1, h2, h3, -⟩ := missingRange_inside h
      have := step_mul_div hlt.le (g.ends.trans (g.grid _ hlast).symm)
      have := (g.inside _ hlast).1
      omega

/-! ## Detection -/

/-- the gap record of a detected range -/
def gapOfRange (series : Series) (r : ℕ × ℕ × ℕ) : MarketDataGap :=
  { series := series, startAt := r.1, endAt := r.2.1, missingCount := r.2.2 }

/-- every detected gap passes its own check -/
theorem gapOfRange_check {series : Series} {step startAt endAt : ℕ} {timestamps : List ℕ}
    {r : ℕ × ℕ × ℕ} (hr : r ∈ missingRanges step startAt endAt timestamps) :
    (gapOfRange series r).check = .ok (gapOfRange series r) := by
  obtain ⟨start, missing, h⟩ := mem_missingRanges hr
  obtain ⟨-, hle, -, hpos⟩ := missingRange_inside h
  rw [MarketDataGap.check, validateModel_ok]
  refine ⟨?_, ?_, rfl⟩
  · simp [gapOfRange, hpos]
  · simp [gapOfRange, hle]

/-- an accepted detection returns the missing ranges of the stored closes -/
theorem detectCandleGaps_ok {candles : List Candle} {series : Series} {startAt endAt : Time}
    {gaps : List MarketDataGap} :
    detectCandleGaps candles series startAt endAt = .ok gaps ↔
      ∃ step, series.step = some step ∧ startAt ≤ endAt ∧
        (scannedTimestamps candles series startAt endAt).Nodup ∧
        gaps = (missingRanges step startAt endAt
          (scannedTimestamps candles series startAt endAt)).map (gapOfRange series) := by
  have hall : ∀ step, (missingRanges step startAt endAt
      (scannedTimestamps candles series startAt endAt)).mapM (fun r => MarketDataGap.check
        { series := series, startAt := r.1, endAt := r.2.1, missingCount := r.2.2 }) =
      .ok ((missingRanges step startAt endAt
        (scannedTimestamps candles series startAt endAt)).map (gapOfRange series)) :=
    fun step => Result.mapM_ok fun r hr => gapOfRange_check hr
  unfold detectCandleGaps
  split_ifs with hlt
  · simp [Nat.not_le.2 hlt]
  · cases series.step with
    | none => simp
    | some step =>
      dsimp only
      split_ifs with hnd
      · rw [hall]
        simp [Nat.not_lt.1 hlt, hnd, eq_comm]
      · simp [hnd]

theorem mem_scannedTimestamps {candles : List Candle} {series : Series} {startAt endAt : Time}
    {t : ℕ} : t ∈ scannedTimestamps candles series startAt endAt ↔
      ∃ c ∈ candles, c.series = series ∧ startAt ≤ c.closedAt ∧ c.closedAt ≤ endAt ∧
        c.closedAt = t := by
  simp only [scannedTimestamps, List.mem_insertionSort, List.mem_map, List.mem_filter,
    Bool.and_eq_true, beq_iff_eq, decide_eq_true_eq]
  constructor
  · rintro ⟨c, ⟨hc, hs, h1, h2⟩, rfl⟩
    exact ⟨c, hc, hs, h1, h2, rfl⟩
  · rintro ⟨c, hc, hs, h1, h2, rfl⟩
    exact ⟨c, ⟨hc, hs, h1, h2⟩, rfl⟩

theorem scannedTimestamps_sorted {candles : List Candle} {series : Series} {startAt endAt : Time}
    (h : (scannedTimestamps candles series startAt endAt).Nodup) :
    (scannedTimestamps candles series startAt endAt).Pairwise (· < ·) := by
  have hs : (scannedTimestamps candles series startAt endAt).Pairwise (· ≤ ·) :=
    List.pairwise_insertionSort (· ≤ ·) _
  exact hs.imp₂ (fun a b hle hne => lt_of_le_of_ne hle hne) h

end CapitalCipher
