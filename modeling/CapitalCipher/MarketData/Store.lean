/-
The in-memory candle window of `market_data/store.py`, against all that was ever delivered to it.

  • `add_cases`: what one delivery does to a bucket.
  • `get_records`: in every run, whatever is delivered twice, late or for another series, the store
    gives out the newest of the candles that were newer than all before them in their series.
-/
import CapitalCipher.Agents.Quant
import CapitalCipher.Lib.BoundedQueue
import CapitalCipher.Lib.Records

namespace CapitalCipher

open Lib

/-- `_key` -/
def storeKey (exchange symbol timeframe : String) : String × String × String :=
  (exchange.toUpper, symbol.toUpper, timeframe)

def Candle.storeKey (c : Candle) : String × String × String :=
  CapitalCipher.storeKey c.exchange.value c.symbol c.timeframe

namespace CandleBuckets

/-- a store nothing was added to -/
def empty : CandleBuckets := ⟨fun _ => []⟩

def put (maxCandles : ℕ) (s : CandleBuckets) (c : Candle) : CandleBuckets :=
  ⟨Function.update s.buckets c.storeKey
    (BoundedQueue.append maxCandles (s.buckets c.storeKey) c)⟩

/-- `add`: whether the candle is new to its series -/
def add (maxCandles : ℕ) (s : CandleBuckets) (c : Candle) : Except Error (CandleBuckets × Bool) :=
  match (s.buckets c.storeKey).getLast? with
  | some last =>
    if last.closedAt = c.closedAt then .ok (s, false)
    else if c.closedAt < last.closedAt then .error ⟨.dataQuality, "Out-of-order candle rejected"⟩
    else .ok (s.put maxCandles c, true)
  | none => .ok (s.put maxCandles c, true)

/-- `latest` -/
def latest (s : CandleBuckets) (exchange symbol timeframe : String) : Option Candle :=
  (s.buckets (storeKey exchange symbol timeframe)).getLast?

/-- the store after a delivery, accepted or not -/
def fed (maxCandles : ℕ) (s : CandleBuckets) (c : Candle) : CandleBuckets :=
  match s.add maxCandles c with
  | .ok (s', _) => s'
  | .error _ => s

/-- what a delivery does to a bucket -/
inductive Added (maxCandles : ℕ) (s : CandleBuckets) (c : Candle) :
    Except Error (CandleBuckets × Bool) → Prop where
  | duplicate {last} (hlast : (s.buckets c.storeKey).getLast? = some last)
      (hsame : last.closedAt = c.closedAt) : Added maxCandles s c (.ok (s, false))
  | late {last} (hlast : (s.buckets c.storeKey).getLast? = some last)
      (hlate : c.closedAt < last.closedAt) :
      Added maxCandles s c (.error ⟨.dataQuality, "Out-of-order candle rejected"⟩)
  | fresh (hfresh : ∀ last ∈ (s.buckets c.storeKey).getLast?, last.closedAt < c.closedAt) :
      Added maxCandles s c (.ok (s.put maxCandles c, true))

theorem add_cases (maxCandles : ℕ) (s : CandleBuckets) (c : Candle) :
    Added maxCandles s c (s.add maxCandles c) := by
  unfold add
  split
  · rename_i last hlast
    split_ifs with hsame hlate
    · exact .duplicate hlast hsame
    · exact .late hlast hlate
    · refine .fresh fun last' hlast' => ?_
      obtain rfl : last = last' := Option.some.inj (hlast.symm.trans hlast')
      exact lt_of_le_of_ne (not_lt.1 hlate) hsame
  · rename_i hnone
    exact .fresh (by simp [hnone])

@[simp] theorem put_self (n : ℕ) (s : CandleBuckets) (c : Candle) :
    (s.put n c).buckets c.storeKey = BoundedQueue.append n (s.buckets c.storeKey) c := by
  simp [put]

theorem put_other {n : ℕ} {s : CandleBuckets} {c : Candle} {k : String × String × String}
    (h : k ≠ c.storeKey) : (s.put n c).buckets k = s.buckets k := by
  simp [put, h]

/-! ## The store after any deliveries -/

/-- the store after a history of deliveries, the latest first -/
def after (maxCandles : ℕ) : List Candle → CandleBuckets
  | [] => empty
  | c :: older => (after maxCandles older).fed maxCandles c

/-- the candles of a bucket's series that were newer than all before them -/
def accepted (history : List Candle) (k : String × String × String) : List Candle :=
  records Candle.closedAt (history.filter fun c => c.storeKey = k)

/-- a bucket against the deliveries -/
theorem after_buckets (n : ℕ) (history : List Candle) (k : String × String × String) :
    (after (n + 1) history).buckets k = BoundedQueue.newest (n + 1) (accepted history k) := by
  induction history generalizing k with
  | nil => simp [after, empty, accepted, records, BoundedQueue.newest]
  | cons c older ih =>
    have hlast : ((after (n + 1) older).buckets c.storeKey).getLast? =
        (accepted older c.storeKey).getLast? := by
      rw [ih c.storeKey, BoundedQueue.newest, List.getLast?_drop]
      split_ifs with hlen
      · have hnil : accepted older c.storeKey = [] := List.length_eq_zero_iff.1 (by omega)
        rw [hnil]
        rfl
      · rfl
    by_cases hk : c.storeKey = k
    · subst hk
      have hstep : accepted (c :: older) c.storeKey =
          if ∀ b ∈ older.filter (fun b => b.storeKey = c.storeKey), b.closedAt < c.closedAt
          then accepted older c.storeKey ++ [c] else accepted older c.storeKey := by
        simp [accepted, records]
      have hadd := add_cases (n + 1) (after (n + 1) older) c
      rw [after, fed]
      generalize (after (n + 1) older).add (n + 1) c = r at hadd ⊢
      cases hadd with
      | duplicate hsome hsame =>
        rw [hlast] at hsome
        rw [hstep, if_neg fun h => (record_iff hsome c).1 h |>.ne hsame, ← ih]
      | late hsome hlate =>
        rw [hlast] at hsome
        rw [hstep, if_neg fun h => (record_iff hsome c).1 h |>.asymm hlate, ← ih]
      | fresh hfresh =>
        have hrecord : ∀ b ∈ older.filter (fun b => b.storeKey = c.storeKey),
            b.closedAt < c.closedAt := by
          rw [hlast] at hfresh
          cases hsome : (accepted older c.storeKey).getLast? with
          | none =>
            have hnil := records_eq_nil.1 (List.getLast?_eq_none_iff.1 hsome)
            simp [hnil]
          | some last => exact (record_iff hsome c).2 (hfresh last hsome)
        rw [hstep, if_pos hrecord, put_self, ih, BoundedQueue.append_newest]
    · have hstep : accepted (c :: older) k = accepted older k := by simp [accepted, hk]
      have hother : (after (n + 1) (c :: older)).buckets k = (after (n + 1) older).buckets k := by
        have hadd := add_cases (n + 1) (after (n + 1) older) c
        rw [after, fed]
        generalize (after (n + 1) older).add (n + 1) c = r at hadd ⊢
        cases hadd with
        | duplicate _ _ => rfl
        | late _ _ => rfl
        | fresh _ => exact put_other (Ne.symm hk)
      rw [hother, hstep, ih k]

end CandleBuckets

end CapitalCipher
