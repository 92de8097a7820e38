/-
The transactions of `database/repositories/repository.py` that a candle cycle awaits, as one family
of requests.

  • `MarketRequest.transaction`: what each runs.
  • `market_frame`: whichever it is, it writes candles and gaps only.
-/
import CapitalCipher.Database.Effects

namespace CapitalCipher

open Lib Txn

namespace Repository

/-- `save_candle`: whether the candle is new -/
def saveCandle (candle : Candle) (quality : DataQualityReport) : Txn Bool :=
  failing "Failed to persist candle batch: " [] do
    let db ← get
    match db.candles.get? candle.facts with
    | some _ => pure false
    | none => do
      onCandles (·.insert ⟨candle, quality⟩)
      pure true

/-- `list_candles`, in close-time order -/
def listCandles (series : Series) (startAt endAt : Time) (limit : ℕ) : Txn (List Candle) := do
  let db ← get
  let rows := db.candles.rows.filter fun r =>
    r.candle.series == series && decide (startAt ≤ r.candle.closedAt ∧ r.candle.closedAt ≤ endAt)
  let sorted := rows.insertionSort fun a b => a.candle.closedAt ≤ b.candle.closedAt
  pure ((sorted.take limit).map fun r => { r.candle with utcOffset := 0 })

/-- one gap of `save_market_data_gaps` -/
def upsertGap (gap : MarketDataGap) : Txn Unit := do
  let db ← get
  match db.gaps.get? gap.gapId with
  | none => onGaps (·.insert gap)
  | some _ => onGaps (·.update (fun g => g.gapId == gap.gapId) fun g =>
      { g with missingCount := gap.missingCount, status := gap.status, resolvedAt := gap.resolvedAt })

def saveMarketDataGaps (gaps : List MarketDataGap) : Txn Unit :=
  failing "Failed to persist market-data gaps: " [] (Tx.forEach gaps upsertGap)

/-- `resolve_market_data_gaps`: the open gaps of the range that a scan did not find again -/
def resolveMarketDataGaps (now : Time) (series : Series) (startAt endAt : Time)
    (unresolved : List (Series × Time × Time)) : Txn Unit :=
  failing "Failed to resolve market-data gaps: " [] <|
    onGaps (·.update
      (fun g => g.series == series && g.status != .resolved &&
        decide (startAt ≤ g.endAt ∧ g.startAt ≤ endAt) && g.gapId ∉ unresolved)
      fun g => { g with status := .resolved, resolvedAt := some now })

end Repository

/-- an awaited call of a candle cycle -/
inductive MarketRequest where
  | saveCandle (candle : Candle) (quality : DataQualityReport)
  | listCandles (series : Series) (startAt endAt : Time) (limit : ℕ)
  | saveMarketDataGaps (gaps : List MarketDataGap)
  | resolveMarketDataGaps (series : Series) (startAt endAt : Time)
      (unresolved : List (Series × Time × Time))
  | saveSystemEvent (eventType : String)
  /-- the journal of the event bus -/
  | publish (eventType : String)

namespace MarketRequest

@[reducible] def Reply : MarketRequest → Type
  | saveCandle _ _ => Bool
  | listCandles _ _ _ _ => List Candle
  | saveMarketDataGaps _ => Unit
  | resolveMarketDataGaps _ _ _ _ => Unit
  | saveSystemEvent _ => Unit
  | publish _ => Unit

def transaction (now : Time) : (q : MarketRequest) → Txn q.Reply
  | saveCandle c quality => Repository.saveCandle c quality
  | listCandles s a b limit => Repository.listCandles s a b limit
  | saveMarketDataGaps gaps => Repository.saveMarketDataGaps gaps
  | resolveMarketDataGaps s a b unresolved => Repository.resolveMarketDataGaps now s a b unresolved
  -- both tables are append-only and nothing modelled reads them
  | saveSystemEvent _ => pure ()
  | publish _ => pure ()

end MarketRequest

/-- only the market tables differ -/
def Db.MarketOnly (db db' : Db) : Prop :=
  ∃ candles gaps, db' = { db with candles := candles, gaps := gaps }

namespace Db.MarketOnly

theorem refl (db : Db) : db.MarketOnly db := ⟨_, _, rfl⟩

theorem trans {a b c : Db} : a.MarketOnly b → b.MarketOnly c → a.MarketOnly c := by
  rintro ⟨x, y, rfl⟩ ⟨z, w, rfl⟩
  exact ⟨z, w, rfl⟩

instance : IsPreorder Db Db.MarketOnly where
  refl := refl
  trans _ _ _ := trans

theorem omsFrame {db db' : Db} : db.MarketOnly db' → db.OmsFrame db' := by
  rintro ⟨x, y, rfl⟩
  exact ⟨rfl, rfl, rfl, rfl, rfl, .refl _⟩

theorem extended {db db' : Db} : db.MarketOnly db' → db.Extends db' := by
  rintro ⟨x, y, rfl⟩
  exact ⟨.refl _, .refl _, .refl _, .refl _, .refl _, .refl _, .refl _, .refl _, .refl _, .refl _⟩

end Db.MarketOnly

open Tx Repository in
/-- a candle cycle writes candles and gaps only -/
theorem market_frame {now : Time} (q : MarketRequest) : Keeps Db.MarketOnly (q.transaction now) := by
  have hgaps : ∀ op, Keeps Db.MarketOnly (onGaps op) := fun op => .write fun s t _ => ⟨_, _, rfl⟩
  cases q with
  | saveCandle c quality =>
    refine .wrap (.bind .get fun db => ?_)
    split
    · exact .pure
    · exact .bind (.write fun s t _ => ⟨_, _, rfl⟩) fun _ => .pure
  | listCandles s a b limit => exact .bind .get fun _ => .pure
  | saveMarketDataGaps gaps =>
    refine .wrap (.forEach fun g _ => .bind .get fun db => ?_)
    split <;> exact hgaps _
  | resolveMarketDataGaps s a b unresolved => exact .wrap (hgaps _)
  | saveSystemEvent e => exact .pure
  | publish e => exact .pure

end CapitalCipher
