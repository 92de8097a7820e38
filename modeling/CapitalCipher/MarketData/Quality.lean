/-
The quality verdict of `market_data/data_quality.py` on a window of candles, and what it says about
the store the window comes from.

Clock readings are an argument; a close time is a microsecond count, so differences are exact.

  • `holds_of_after`: what a store gives out of a series is in strict order and of that series.
  • `quality_decides`: for a candle that follows what its store holds, the verdict and the store agree:
    it is refused as out of order by both, called a duplicate by both, or new to both.
-/
import CapitalCipher.MarketData.Store

namespace CapitalCipher

open Lib

def microsecondsPerSecond : ℚ := 1000000

/-- whether two candles lie more than one and a half steps apart -/
def gapBetween (step : ℕ) (previous current : Candle) : Bool :=
  decide ((step : ℚ) * (3 / 2) <
    ((current.closedAt : ℚ) - previous.closedAt) / microsecondsPerSecond)

/-- the timeframe has a known step and two neighbours lie too far apart -/
def hasGap (timeframe : String) (candles : List Candle) : Bool :=
  (timeframeSeconds timeframe).elim false fun step =>
    (candles.zip candles.tail).any fun pair => gapBetween step pair.1 pair.2

/-- the last candle lies too far back -/
def isStale (timeframe : String) (maxDelayMs : ℤ) (now : Time) (candles : List Candle) : Bool :=
  (timeframeSeconds timeframe).elim false fun step =>
    candles.getLast?.elim false fun last =>
      decide ((step : ℚ) * 1000 + maxDelayMs <
        ((now : ℚ) - last.closedAt) / microsecondsPerSecond * 1000)

/-- the range of the last candle is far beyond the mean range of the nine before it -/
def hasAnomaly (candles : List Candle) : Bool :=
  if 10 ≤ candles.length then
    let ranges := (lastOf 10 candles).map fun c => c.high - c.low
    let mean := ranges.dropLast.sum / max (ranges.length - 1) 1
    decide (0 < mean) && (ranges.getLast?.elim false fun last => decide (mean * 5 < last))
  else false

/-- `timestamps != sorted(timestamps)` -/
def outOfOrder (candles : List Candle) : Bool :=
  decide (candles.map Candle.closedAt ≠ (candles.map Candle.closedAt).insertionSort (· ≤ ·))

/-- `(exchange, symbol, timeframe, closed_at)` -/
def Candle.identity (c : Candle) : Series × Time := (c.series, c.closedAt)

def hasDuplicates (candles : List Candle) : Bool :=
  decide ((candles.map Candle.identity).dedup.length ≠ candles.length)

/-- the warnings, each with what it costs -/
def qualityWarnings (timeframe : String) (maxDelayMs : ℤ) (now : Time) (checkStaleness : Bool)
    (candles : List Candle) : List (String × ℤ) :=
  (if hasDuplicates candles then [("DUPLICATE_CANDLES", 10)] else []) ++
  (if hasGap timeframe candles then [("GAP_DETECTED", 15)] else []) ++
  (if checkStaleness && isStale timeframe maxDelayMs now candles then [("STALE_DATA", 20)] else []) ++
  (if hasAnomaly candles then [("DATA_ANOMALY", 10)] else [])

/-- the errors, each with what it costs -/
def qualityErrors (candles : List Candle) : List (String × ℤ) :=
  if outOfOrder candles then [("CANDLES_OUT_OF_ORDER", 50)] else []

def qualityStatus (score : ℤ) (warnings errors : List String) : DataQualityStatus :=
  if errors ≠ [] ∨ score < 60 then if errors ≠ [] then .invalid else .suspect
  else if warnings ≠ [] then .warning
  else .valid

/-- `evaluate_candles` -/
def evaluateCandles (candles : List Candle) (timeframe : String) (maxDelayMs : ℤ) (now : Time)
    (checkStaleness : Bool := true) : DataQualityReport :=
  if candles = [] then
    { dataQualityScore := 0, status := .invalid, errors := ["NO_CANDLES"] }
  else
    let warnings := qualityWarnings timeframe maxDelayMs now checkStaleness candles
    let errors := qualityErrors candles
    let score := max 0 (min 100
      (100 - (errors.map Prod.snd).sum - (warnings.map Prod.snd).sum))
    { dataQualityScore := score
      status := qualityStatus score (warnings.map Prod.fst) (errors.map Prod.fst)
      warnings := warnings.map Prod.fst
      errors := errors.map Prod.fst }

/-! ## The verdict against the store -/

theorem outOfOrder_iff {candles : List Candle} : outOfOrder candles = false ↔
    (candles.map Candle.closedAt).Pairwise (· ≤ ·) := by
  rw [outOfOrder, decide_eq_false_iff_not, not_not]
  constructor
  · intro h
    rw [h]
    exact List.pairwise_insertionSort _ _
  · intro h
    exact (List.Pairwise.insertionSort_eq h).symm

theorem hasDuplicates_iff {candles : List Candle} :
    hasDuplicates candles = false ↔ (candles.map Candle.identity).Nodup := by
  rw [hasDuplicates, decide_eq_false_iff_not, not_not]
  constructor
  · intro h
    rw [← List.dedup_eq_self]
    refine (List.dedup_sublist _).eq_of_length ?_
    rw [h, List.length_map]
  · intro h
    rw [h.dedup, List.length_map]

theorem isLower_iff {c : Char} : c.isLower = true ↔ 'a'.val ≤ c.val ∧ c.val ≤ 'z'.val := by
  have hlower : c.isLower = (decide ('a'.val ≤ c.val) && decide (c.val ≤ 'z'.val)) := rfl
  rw [hlower, Bool.and_eq_true, decide_eq_true_eq, decide_eq_true_eq]

theorem toUpper_eq_self {c : Char} (h : c.isLower = false) : c.toUpper = c := by
  have hval : ¬('a'.val ≤ c.val ∧ c.val ≤ 'z'.val) := by
    intro hval
    rw [isLower_iff.2 hval] at h
    cases h
  exact dif_neg hval

theorem isLower_of_symbolChar {c : Char}
    (h : (c.isUpper || c.isDigit || decide (c ∈ ['.', '_', '-'])) = true) : c.isLower = false := by
  rw [Bool.or_eq_true, Bool.or_eq_true, decide_eq_true_eq] at h
  rw [Bool.eq_false_iff]
  intro hlower
  -- a lower-case character is above every upper-case one and every digit
  have habove : 'a'.val ≤ c.val := (isLower_iff.1 hlower).1
  have hbelow : ∀ {high : Char}, c.val ≤ high.val → high.val < 'a'.val → False := fun hc hhigh =>
    UInt32.not_lt.2 habove (UInt32.lt_of_le_of_lt hc hhigh)
  rcases h with (h | h) | h
  · have hupper : decide (c.val ≥ 'A'.val ∧ c.val ≤ 'Z'.val) = true := h
    exact hbelow (of_decide_eq_true hupper).2 (by decide)
  · have hdigit : (decide (c.val ≥ '0'.val) && decide (c.val ≤ '9'.val)) = true := h
    exact hbelow (of_decide_eq_true (Bool.and_eq_true_iff.1 hdigit).2) (by decide)
  · rcases List.mem_cons.1 h with rfl | h
    · simp at hlower
    · rcases List.mem_cons.1 h with rfl | h
      · simp at hlower
      · rw [List.mem_singleton.1 h] at hlower
        simp at hlower

/-- an upper-case symbol is its own key -/
theorem toUpper_of_validSymbol {s : String} (h : validSymbol s = true) : s.toUpper = s := by
  apply String.toList_inj.1
  rw [String.toUpper, String.toList_map]
  have hall : ∀ c ∈ s.toList, c.toUpper = c := by
    intro c hc
    apply toUpper_eq_self
    apply isLower_of_symbolChar
    exact List.all_eq_true.1 (Bool.and_eq_true_iff.1 h).2 c hc
  calc s.toList.map Char.toUpper = s.toList.map id := List.map_congr_left hall
    _ = s.toList := List.map_id _

theorem series_of_storeKey {b c : Candle} (hb : validSymbol b.symbol = true)
    (hc : validSymbol c.symbol = true) (h : b.storeKey = c.storeKey) : b.series = c.series := by
  have hdiffer : Exchange.binance.value.toUpper ≠ Exchange.bybit.value.toUpper := by decide +kernel
  have hexchange : ∀ e e' : Exchange, e.value.toUpper = e'.value.toUpper → e = e' := by
    intro e e' heq
    cases e <;> cases e'
    · rfl
    · exact absurd heq hdiffer
    · exact absurd heq.symm hdiffer
    · rfl
  simp only [Candle.storeKey, storeKey, Prod.mk.injEq] at h
  rw [toUpper_of_validSymbol hb, toUpper_of_validSymbol hc] at h
  rw [Candle.series, Candle.series, hexchange _ _ h.1, h.2.1, h.2.2]

/-- what a store holds of a series, the candle's own -/
structure Holds (candles : List Candle) (c : Candle) : Prop where
  strict : candles.Pairwise fun a b => a.closedAt < b.closedAt
  series : ∀ b ∈ candles, b.series = c.series

variable {candles : List Candle} {c : Candle}

/-- no candle held is above the last one -/
theorem Holds.le_last (h : Holds candles c) {b last : Candle} (hb : b ∈ candles)
    (hlast : last ∈ candles.getLast?) : b.closedAt ≤ last.closedAt := by
  obtain ⟨init, rfl⟩ := List.getLast?_eq_some_iff.1 hlast
  rcases List.mem_append.1 hb with hb | hb
  · exact ((List.pairwise_append.1 h.strict).2.2 b hb last (List.mem_singleton_self last)).le
  · rw [List.mem_singleton.1 hb]

theorem Holds.outOfOrder_iff (h : Holds candles c) : outOfOrder (candles ++ [c]) = false ↔
    ∀ last ∈ candles.getLast?, last.closedAt ≤ c.closedAt := by
  rw [CapitalCipher.outOfOrder_iff, List.map_append, List.pairwise_append]
  constructor
  · rintro ⟨-, -, hle⟩ last hlast
    refine hle _ (List.mem_map.2 ⟨last, List.mem_of_getLast? hlast, rfl⟩) _ ?_
    simp
  · intro hle
    refine ⟨List.pairwise_map.2 (h.strict.imp fun hlt => hlt.le), by simp, ?_⟩
    intro t ht t' ht'
    obtain ⟨b, hb, rfl⟩ := List.mem_map.1 ht
    obtain rfl : t' = c.closedAt := by simpa using ht'
    cases hlast : candles.getLast? with
    | none => simp [List.getLast?_eq_none_iff.1 hlast] at hb
    | some last => exact (h.le_last hb hlast).trans (hle last hlast)

theorem Holds.hasDuplicates_iff (h : Holds candles c)
    (hle : ∀ last ∈ candles.getLast?, last.closedAt ≤ c.closedAt) :
    hasDuplicates (candles ++ [c]) = true ↔ ∃ last ∈ candles.getLast?, last.closedAt = c.closedAt := by
  rw [← not_iff_not, Bool.not_eq_true, CapitalCipher.hasDuplicates_iff, List.map_append,
    List.nodup_append]
  constructor
  · rintro ⟨-, -, hne⟩ ⟨last, hlast, hsame⟩
    have hmem := List.mem_of_getLast? hlast
    refine hne last.identity (List.mem_map.2 ⟨last, hmem, rfl⟩) c.identity (by simp) ?_
    rw [Candle.identity, Candle.identity, h.series last hmem, hsame]
  · intro hnone
    refine ⟨?_, by simp, ?_⟩
    · refine List.pairwise_map.2 (h.strict.imp fun hlt heq => ?_)
      exact hlt.ne (congrArg Prod.snd heq)
    · intro i hi i' hi' heq
      obtain ⟨b, hb, rfl⟩ := List.mem_map.1 hi
      obtain rfl : i' = c.identity := by simpa using hi'
      have hsame : b.closedAt = c.closedAt := congrArg Prod.snd heq
      cases hlast : candles.getLast? with
      | none => simp [List.getLast?_eq_none_iff.1 hlast] at hb
      | some last =>
        have hbl := h.le_last hb hlast
        have hlc := hle last hlast
        exact hnone ⟨last, hlast, le_antisymm hlc (hsame ▸ hbl)⟩

theorem evaluateCandles_errors (hne : candles ≠ []) (timeframe : String) (delay : ℤ) (now : Time) :
    (evaluateCandles candles timeframe delay now).errors = [] ↔ outOfOrder candles = false := by
  rw [evaluateCandles, if_neg hne]
  cases horder : outOfOrder candles <;> simp [qualityErrors, horder]

theorem evaluateCandles_duplicate (hne : candles ≠ []) (timeframe : String) (delay : ℤ) (now : Time) :
    "DUPLICATE_CANDLES" ∈ (evaluateCandles candles timeframe delay now).warnings ↔
      hasDuplicates candles = true := by
  have hnames : "DUPLICATE_CANDLES" ≠ "GAP_DETECTED" ∧ "DUPLICATE_CANDLES" ≠ "STALE_DATA" ∧
      "DUPLICATE_CANDLES" ≠ "DATA_ANOMALY" := by decide +kernel
  rw [evaluateCandles, if_neg hne]
  simp only [qualityWarnings, List.map_append, List.mem_append]
  constructor
  · intro h
    rcases h with ((h | h) | h) | h
    · by_contra hdup
      simp [hdup] at h
    · split_ifs at h <;> simp [hnames] at h
    · split_ifs at h <;> simp [hnames] at h
    · split_ifs at h <;> simp [hnames] at h
  · intro hdup
    exact Or.inl (Or.inl (Or.inl (by simp [hdup])))

/-- what a verdict says of a delivery -/
structure Foretells (report : DataQualityReport) (r : Except Error (CandleBuckets × Bool)) : Prop where
  refused : report.errors ≠ [] ↔ ∃ e, r = .error e
  duplicate : report.errors = [] →
    ("DUPLICATE_CANDLES" ∈ report.warnings ↔ ∃ s, r = .ok (s, false))

/-- what a store gives out of a candle's series, after any deliveries the schema accepts -/
theorem holds_of_after {n limit : ℕ} {history : List Candle}
    (hvalid : ∀ b ∈ c :: history, b.check = .ok b) :
    Holds ((CandleBuckets.after (n + 1) history).get c.exchange.value c.symbol c.timeframe limit) c := by
  have hsymbol : ∀ b ∈ c :: history, validSymbol b.symbol = true := fun b hb =>
    (validateModel_ok.1 (hvalid b hb)).1 ("symbol", validSymbol b.symbol) (by simp)
  have hget : (CandleBuckets.after (n + 1) history).get c.exchange.value c.symbol c.timeframe limit =
      lastOf limit ((CandleBuckets.after (n + 1) history).buckets c.storeKey) := rfl
  rw [hget, CandleBuckets.after_buckets]
  have hsub : (lastOf limit (BoundedQueue.newest (n + 1)
      (CandleBuckets.accepted history c.storeKey))).Sublist
      (CandleBuckets.accepted history c.storeKey) :=
    (List.drop_sublist _ _).trans (List.drop_sublist _ _)
  refine ⟨(records_strict _).sublist hsub, fun b hb => ?_⟩
  have hmem := List.mem_filter.1 (mem_of_mem_records (hsub.subset hb))
  exact series_of_storeKey (hsymbol b (List.mem_cons_of_mem c hmem.1))
    (hsymbol c List.mem_cons_self) (by simpa using hmem.2)

/-- **The verdict decides.** After any deliveries, the quality verdict on the window with a candle put
at its end foretells what the store does with it: refused as out of order, a duplicate, or new. -/
theorem quality_decides {n limit : ℕ} {history : List Candle}
    (hvalid : ∀ b ∈ c :: history, b.check = .ok b) (delay : ℤ) (now : Time) :
    Foretells
      (evaluateCandles ((CandleBuckets.after (n + 1) history).get c.exchange.value c.symbol
        c.timeframe (limit + 1) ++ [c]) c.timeframe delay now)
      ((CandleBuckets.after (n + 1) history).add (n + 1) c) := by
  have hlast : ((CandleBuckets.after (n + 1) history).buckets c.storeKey).getLast? =
      ((CandleBuckets.after (n + 1) history).get c.exchange.value c.symbol
        c.timeframe (limit + 1)).getLast? := by
    have hget : (CandleBuckets.after (n + 1) history).get c.exchange.value c.symbol c.timeframe
        (limit + 1) = lastOf (limit + 1) ((CandleBuckets.after (n + 1) history).buckets c.storeKey) :=
      rfl
    rw [hget, lastOf, List.getLast?_drop]
    split_ifs with hlen
    · have hnil : (CandleBuckets.after (n + 1) history).buckets c.storeKey = [] :=
        List.length_eq_zero_iff.1 (by omega)
      rw [hnil]
      rfl
    · rfl
  have hholds : Holds ((CandleBuckets.after (n + 1) history).get c.exchange.value c.symbol
      c.timeframe (limit + 1)) c := holds_of_after hvalid
  generalize (CandleBuckets.after (n + 1) history).get c.exchange.value c.symbol c.timeframe
    (limit + 1) = existing at hlast hholds ⊢
  have hadd := CandleBuckets.add_cases (n + 1) (CandleBuckets.after (n + 1) history) c
  generalize (CandleBuckets.after (n + 1) history).add (n + 1) c = r at hadd ⊢
  have hne : existing ++ [c] ≠ [] := by simp
  constructor
  · rw [Ne, evaluateCandles_errors hne, hholds.outOfOrder_iff]
    cases hadd with
    | duplicate hsome hsame =>
      rw [hlast] at hsome
      simp [hsome, hsame]
    | late hsome hlate =>
      rw [hlast] at hsome
      simp [hsome, hlate]
    | fresh hfresh =>
      rw [hlast] at hfresh
      simpa using fun last hlast => (hfresh last hlast).le
  · intro herrors
    rw [evaluateCandles_errors hne, hholds.outOfOrder_iff] at herrors
    rw [evaluateCandles_duplicate hne, hholds.hasDuplicates_iff herrors]
    cases hadd with
    | duplicate hsome hsame =>
      rw [hlast] at hsome
      simp [hsome, hsame]
    | late hsome hlate =>
      rw [hlast] at hsome
      exact absurd (herrors _ hsome) hlate.not_ge
    | fresh hfresh =>
      rw [hlast] at hfresh
      refine iff_of_false ?_ (by simp)
      rintro ⟨last, hlast, hsame⟩
      exact (hfresh last hlast).ne hsame

/-- a candle of a quiet market, closing after `k` quarters of an hour -/
def quarterHour (k : ℕ) : Candle where
  exchange := .binance
  symbol := "BTCUSDT"
  timeframe := "15m"
  openPrice := 100
  high := 101
  low := 99
  close := 100
  volume := 1
  closedAt := 900000000 * k
  receivedAt := 900000000 * k

theorem quarterHour_check (k : ℕ) : (quarterHour k).check = .ok (quarterHour k) := by
  have hsymbol : validSymbol "BTCUSDT" = true := by decide +kernel
  have htimeframe : validTimeframe "15m" = true := by decide +kernel
  refine validateModel_ok.2 ⟨?_, ?_, rfl⟩
  · simp [quarterHour, hsymbol, htimeframe]
  · norm_num [quarterHour]

theorem redelivery_foretold : Foretells
    (evaluateCandles ((CandleBuckets.after 500 [quarterHour 2, quarterHour 1]).get
      (quarterHour 2).exchange.value (quarterHour 2).symbol (quarterHour 2).timeframe 200 ++
        [quarterHour 2]) (quarterHour 2).timeframe 5000 1800000000)
    ((CandleBuckets.after 500 [quarterHour 2, quarterHour 1]).add 500 (quarterHour 2)) := by
  have hvalid : ∀ b ∈ [quarterHour 2, quarterHour 2, quarterHour 1], b.check = .ok b := by
    simp [quarterHour_check]
  exact quality_decides hvalid 5000 1800000000

end CapitalCipher
