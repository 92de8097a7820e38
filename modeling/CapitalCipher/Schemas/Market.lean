/-
The market schemas of `schemas/market.py`: a closed candle and the report of its quality.

A candle's close time keeps the UTC offset it was sent with: two candles that close at the same
instant may close on different calendar dates.

  • `Candle.date`, `Candle.utcDay`: the date at the candle's own offset, and the date in UTC.
-/
import CapitalCipher.Schemas.Common

namespace CapitalCipher

structure Candle where
  exchange : Exchange
  symbol : String
  timeframe : String
  openPrice : ℚ
  high : ℚ
  low : ℚ
  close : ℚ
  volume : ℚ
  closedAt : Time
  /-- microseconds east of UTC -/
  utcOffset : ℤ := 0
  receivedAt : Time
  deriving DecidableEq

/-- `^[A-Z0-9._-]{2,32}$` -/
def validSymbol (s : String) : Bool :=
  decide (2 ≤ s.length ∧ s.length ≤ 32) &&
  s.toList.all fun c => c.isUpper || c.isDigit || c ∈ ['.', '_', '-']

/-- `^[1-9][0-9]*[mhdw]$` -/
def validTimeframe (s : String) : Bool :=
  match s.toList, s.toList.getLast? with
  | first :: _, some last =>
    first.isDigit && first != '0' && last ∈ ['m', 'h', 'd', 'w'] &&
    s.toList.dropLast.all Char.isDigit
  | _, _ => false

/-- the field constraints and `validate_invariants` -/
def Candle.check (c : Candle) : Except Error Candle :=
  validateModel
    [("symbol", validSymbol c.symbol),
     ("timeframe", validTimeframe c.timeframe),
     ("open", decide (0 < c.openPrice)),
     ("high", decide (0 < c.high)),
     ("low", decide (0 < c.low)),
     ("close", decide (0 < c.close)),
     ("volume", decide (0 ≤ c.volume))]
    [("Invalid candle: high must be >= open, close and low",
       decide (c.openPrice ≤ c.high ∧ c.close ≤ c.high ∧ c.low ≤ c.high)),
     ("Invalid candle: low must be <= open, close and high",
       decide (c.low ≤ c.openPrice ∧ c.low ≤ c.close ∧ c.low ≤ c.high))] c

def dayMicroseconds : ℤ := 86400000000

/-- `closed_at.date()` -/
def Candle.date (c : Candle) : ℤ := (c.closedAt + c.utcOffset) / dayMicroseconds

/-- the UTC day the candle closed on -/
def Candle.utcDay (c : Candle) : ℤ := c.closedAt / dayMicroseconds

theorem Candle.date_utc {c : Candle} (h : c.utcOffset = 0) : c.date = c.utcDay := by
  rw [Candle.date, h, add_zero, Candle.utcDay]

/-- one venue, symbol and timeframe -/
structure Series where
  exchange : Exchange
  symbol : String
  timeframe : String
  deriving DecidableEq

/-- `CandleStore._key` -/
def Candle.series (c : Candle) : Series := ⟨c.exchange, c.symbol, c.timeframe⟩

/-- `canonical_candle_payload`: the market facts, which `candle_event_id` digests -/
def Candle.facts (c : Candle) : Candle := { c with utcOffset := 0, receivedAt := 0 }

/-- `TIMEFRAME_SECONDS` -/
def timeframeSeconds : String → Option ℕ
  | "1m" => some 60
  | "5m" => some 300
  | "15m" => some 900
  | "1h" => some 3600
  | "4h" => some 14400
  | "1d" => some 86400
  | _ => none

inductive DataQualityStatus where
  | valid | warning | suspect | invalid
  deriving DecidableEq, Repr

structure DataQualityReport where
  dataQualityScore : ℤ
  status : DataQualityStatus
  warnings : List String := []
  errors : List String := []
  deriving DecidableEq, Repr

inductive GapStatus where
  | open_ | filling | resolved | failed
  deriving DecidableEq, Repr

/-- a range of missing close times of a series -/
structure MarketDataGap where
  series : Series
  startAt : Time
  endAt : Time
  missingCount : ℤ
  status : GapStatus := .open_
  resolvedAt : Option Time := none
  deriving DecidableEq

/-- what `_gap_id` digests, so what the gap id is taken to be -/
def MarketDataGap.gapId (g : MarketDataGap) : Series × Time × Time := (g.series, g.startAt, g.endAt)

/-- the field constraint and `validate_gap` -/
def MarketDataGap.check (g : MarketDataGap) : Except Error MarketDataGap :=
  validateModel [("missing_count", decide (0 < g.missingCount))]
    [("start_at must not be after end_at", decide (g.startAt ≤ g.endAt)),
     ("resolved gaps require resolved_at", g.status != .resolved || g.resolvedAt.isSome)] g

end CapitalCipher
