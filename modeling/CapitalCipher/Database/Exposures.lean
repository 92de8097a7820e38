/-
`_durable_position_exposures`: the portfolio as the durable tables tell it.

Open paper orders, the unfilled remainder of every order that still reserves capacity, the positions
and balances of the latest successful reconciliation run of each venue, and the fills of orders
whose symbol no run has reconciled.

  • `mem_reservation`, `mem_fill`: which orders have an entry of their own, and what it says.
  • `reconciled_iff`: when the fills of a venue's symbol are left to the venue's evidence. A Binance
    symbol counts as reconciled as soon as any venue has a successful run.
  • `durablePositionExposures_ok`: the read returns the entries, all of them valid exposures.
-/
import CapitalCipher.Database.Models

namespace CapitalCipher

open Lib

/-- `a or b` on an optional float: `None` and zero fall through -/
def orElse (a : Option ℚ) (b : ℚ) : ℚ :=
  match a with
  | some x => if x = 0 then b else x
  | none => b

/-- the quote assets `_spot_base_asset` knows, in its order -/
def quoteAssets : List String := ["USDT", "USDC", "FDUSD", "TUSD", "BUSD", "BTC", "ETH", "BNB"]

def upper (s : String) : List Char := s.toList.map Char.toUpper

/-- `_spot_base_asset` -/
def spotBaseAsset (symbol : String) : Option (List Char) :=
  match quoteAssets.find? fun q => q.toList.isSuffixOf (upper symbol) with
  | none => none
  | some q =>
    match (upper symbol).take ((upper symbol).length - q.toList.length) with
    | [] => none
    | base => some base

/-- the statuses that still reserve capacity -/
def OmsOrderStatus.reserving : OmsOrderStatus → Bool
  | .created | .pendingSubmission | .submitted | .partiallyFilled | .cancelPending | .unknown => true
  | _ => false

theorem OmsOrderStatus.reserving_eq (s : OmsOrderStatus) : s.reserving = !s.terminal := by
  cases s <;> rfl

namespace Exposures

/-! ## Entries -/

/-- the exposure of a paper row -/
def ofPaper (row : PaperOrder) : PositionExposure where
  paperOrderId := .paper row.paperOrderId
  symbol := row.symbol
  timeframe := (row.timeframe.filter (· ≠ "")).getD "unknown"
  strategy := row.strategy
  side := row.side
  notional := row.positionSize
  leverage := row.leverage

def remainingQuantity (row : OmsOrder) : ℚ := max 0 (row.quantity - row.cumulativeFilledQuantity)

/-- what a row still reserves, if anything -/
def ofReservation (row : OmsOrder) : Option PositionExposure :=
  if row.status.reserving ∧ 0 < remainingQuantity row * row.referencePrice then
    some
      { paperOrderId := .reservation row.omsOrderId
        symbol := row.symbol
        timeframe := row.timeframe
        strategy := row.strategy
        side := row.side
        notional := remainingQuantity row * row.referencePrice
        leverage := row.leverage }
  else none

/-- the exposure of a row's cumulative fill -/
def ofFill (row : OmsOrder) : PositionExposure where
  paperOrderId := .oms row.omsOrderId
  symbol := row.symbol
  timeframe := row.timeframe
  strategy := row.strategy
  side := row.side
  notional := row.cumulativeFilledQuantity * orElse row.averageFillPrice row.referencePrice
  leverage := row.leverage

def venuePrice (p : VenuePositionSnapshot) : ℚ := orElse p.markPrice (orElse p.entryPrice 0)

/-- what a reconciled venue position adds, if anything -/
def ofPosition (p : VenuePositionSnapshot) : Option PositionExposure :=
  if 0 < p.quantity ∧ 0 < venuePrice p then
    some
      { paperOrderId := .venue p.exchange p.environment p.symbol p.side
        symbol := p.symbol
        timeframe := "venue"
        strategy := "OMS_RECONCILED"
        side := p.side
        notional := p.quantity * venuePrice p
        leverage := 1 }
  else none

/-- what a Binance spot balance adds, priced by the symbol's latest order -/
def ofBalance (order : OmsOrder) (balance : Option VenueBalanceSnapshot) : Option PositionExposure :=
  let quantity := (balance.map VenueBalanceSnapshot.equity).getD 0
  let price := orElse order.averageFillPrice order.referencePrice
  if quantity ≤ 0 ∨ price ≤ 0 then none
  else some
    { paperOrderId := .venue .binance .testnet order.symbol .buy
      symbol := order.symbol
      timeframe := "venue"
      strategy := "OMS_RECONCILED"
      side := .buy
      notional := quantity * price
      leverage := 1 }

/-! ## The rows the view is stitched from -/

def openPaper (db : Db) : List PaperOrder := db.paperOrders.rows.filter fun o => o.status == .filled

def testnetOrders (db : Db) : List OmsOrder :=
  db.omsOrders.rows.filter fun o => o.environment == .testnet

/-- the later of two runs; a tie keeps the row the scan met first -/
def later (best : Option ReconciliationRun) (r : ReconciliationRun) : Option ReconciliationRun :=
  match best with
  | none => some r
  | some b => if b.completedAt < r.completedAt then some r else some b

/-- the successful TESTNET run of a venue that completed last -/
def latestRun (db : Db) (exchange : Exchange) : Option ReconciliationRun :=
  (db.runs.rows.filter fun r =>
    r.exchange == exchange && r.environment == .testnet && r.status != .failed).foldl later none

def latestRuns (db : Db) : List ReconciliationRun :=
  [Exchange.binance, Exchange.bybit].filterMap (latestRun db)

def isLatest (db : Db) (runId : String) : Bool := (latestRuns db).any fun r => r.runId == runId

def latestPositions (db : Db) : List VenuePositionSnapshot :=
  (db.positions.filter fun row => isLatest db row.runId).map VenuePositionRow.position

def latestBalances (db : Db) : List VenueBalanceSnapshot :=
  ((db.balances.filter fun row => isLatest db row.runId).map VenueBalanceRow.balance).filter
    fun b => b.exchange == .binance

/-- keep the first order of each symbol -/
def setDefaults (acc : List OmsOrder) (o : OmsOrder) : List OmsOrder :=
  if acc.any fun x => x.symbol == o.symbol then acc else acc ++ [o]

/-- `latest_binance_orders`: per symbol the order updated last -/
def latestBinanceOrders (db : Db) : List OmsOrder :=
  (((testnetOrders db).filter fun o => o.exchange == .binance).insertionSort
    fun a b => b.updatedAt ≤ a.updatedAt).foldl setDefaults []

/-- `balances_by_asset.get(asset)`: the last row of the asset -/
def balanceOf (db : Db) (asset : List Char) : Option VenueBalanceSnapshot :=
  (latestBalances db).reverse.find? fun b => upper b.asset == asset

/-- the Binance symbols with a base asset, each with its latest order -/
def spotOrders (db : Db) : List OmsOrder :=
  (latestBinanceOrders db).filter fun o => (spotBaseAsset o.symbol).isSome

/-- `(exchange, symbol) in reconciled_symbols` -/
def reconciled (db : Db) (exchange : Exchange) (symbol : String) : Bool :=
  !(latestRuns db).isEmpty &&
  ((latestPositions db).any (fun p => p.exchange == exchange && p.symbol == symbol) ||
    (exchange == .bybit && (latestRun db .bybit).isSome &&
      (testnetOrders db).any fun o => o.exchange == .bybit && o.symbol == symbol) ||
    (exchange == .binance && (spotOrders db).any fun o => o.symbol == symbol))

def venueEntries (db : Db) : List PositionExposure :=
  if (latestRuns db).isEmpty then []
  else (latestPositions db).filterMap ofPosition ++
    (spotOrders db).filterMap fun o =>
      ofBalance o ((spotBaseAsset o.symbol).bind (balanceOf db))

/-- the list `_durable_position_exposures` builds -/
def entries (db : Db) : List PositionExposure :=
  (openPaper db).map ofPaper ++
  (testnetOrders db).filterMap ofReservation ++
  venueEntries db ++
  ((testnetOrders db).filter fun o =>
    decide (0 < o.cumulativeFilledQuantity) && !reconciled db o.exchange o.symbol).map ofFill

/-- every exposure is constructed through its model, which may refuse it -/
def checkAll : List PositionExposure → Except Error Unit
  | [] => .ok ()
  | p :: ps =>
    match p.check with
    | .ok _ => checkAll ps
    | .error e => .error e

end Exposures

open Exposures

/-- `_durable_position_exposures` -/
def durablePositionExposures (db : Db) : Except Error (List PositionExposure) :=
  match checkAll (entries db) with
  | .ok () => .ok (entries db)
  | .error e => .error e

theorem checkAll_ok {ps : List PositionExposure} :
    checkAll ps = .ok () ↔ ∀ p ∈ ps, 0 < p.notional ∧ 1 ≤ p.leverage := by
  induction ps with
  | nil => simp [checkAll]
  | cons p ps ih =>
    rw [checkAll, List.forall_mem_cons]
    cases hp : p.check with
    | error e =>
      refine ⟨fun h => (nomatch h), fun h => ?_⟩
      have : p.check = .ok p := validateModel_ok.2 ⟨by simpa using h.1, by simp, rfl⟩
      rw [hp] at this
      cases this
    | ok p' =>
      have := (PositionExposure.check_ok hp).2
      exact ⟨fun h => ⟨this, ih.1 h⟩, fun h => ih.2 h.2⟩

theorem durablePositionExposures_ok {db : Db} {ps : List PositionExposure}
    (h : durablePositionExposures db = .ok ps) : ps = entries db := by
  unfold durablePositionExposures at h
  split at h
  · cases h
    rfl
  · cases h

namespace Exposures

/-! ## Which orders have an entry -/

theorem mem_testnetOrders {db : Db} {o : OmsOrder} :
    o ∈ testnetOrders db ↔ o ∈ db.omsOrders.rows ∧ o.environment = .testnet := by
  simp [testnetOrders]

theorem mem_entries {db : Db} {p : PositionExposure} : p ∈ entries db ↔
    (∃ o ∈ openPaper db, ofPaper o = p) ∨ (∃ o ∈ testnetOrders db, ofReservation o = some p) ∨
    p ∈ venueEntries db ∨ ∃ o ∈ testnetOrders db,
      (0 < o.cumulativeFilledQuantity ∧ reconciled db o.exchange o.symbol = false) ∧ ofFill o = p := by
  simp only [entries, List.mem_append, List.mem_map, List.mem_filterMap, List.mem_filter,
    Bool.and_eq_true, decide_eq_true_eq, Bool.not_eq_true', and_assoc, or_assoc]

theorem ofReservation_eq {o : OmsOrder} {p : PositionExposure} (h : ofReservation o = some p) :
    p.paperOrderId = .reservation o.omsOrderId ∧ 0 < p.notional ∧ p.leverage = o.leverage := by
  unfold ofReservation at h
  split_ifs at h with hpos
  cases h
  exact ⟨rfl, hpos.2, rfl⟩

/-- a venue's entries are named after the venue, and are positive -/
theorem venueEntries_eq {db : Db} {p : PositionExposure} (h : p ∈ venueEntries db) :
    (∃ e v s d, p.paperOrderId = .venue e v s d) ∧ 0 < p.notional ∧ p.leverage = 1 := by
  unfold venueEntries at h
  split_ifs at h
  · cases h
  · rcases List.mem_append.1 h with h | h
    · obtain ⟨v, -, hv⟩ := List.mem_filterMap.1 h
      unfold ofPosition at hv
      split_ifs at hv with hpos
      cases hv
      exact ⟨⟨_, _, _, _, rfl⟩, mul_pos hpos.1 hpos.2, rfl⟩
    · obtain ⟨o, -, ho⟩ := List.mem_filterMap.1 h
      unfold ofBalance at ho
      dsimp only at ho
      split_ifs at ho with hneg
      cases ho
      rw [not_or, not_le, not_le] at hneg
      exact ⟨⟨_, _, _, _, rfl⟩, mul_pos hneg.1 hneg.2, rfl⟩

/-- the reservation under an order's id -/
theorem mem_reservation {db : Db} {p : PositionExposure} {i : String} :
    p ∈ entries db ∧ p.paperOrderId = .reservation i ↔
      ∃ o ∈ testnetOrders db, o.omsOrderId = i ∧ ofReservation o = some p := by
  rw [mem_entries]
  constructor
  · rintro ⟨⟨o, -, rfl⟩ | ⟨o, ho, hp⟩ | hv | ⟨o, -, -, rfl⟩, hi⟩
    · cases hi
    · rw [(ofReservation_eq hp).1, ExposureId.reservation.injEq] at hi
      exact ⟨o, ho, hi, hp⟩
    · obtain ⟨⟨e, v, s, d, he⟩, -⟩ := venueEntries_eq hv
      rw [he] at hi
      cases hi
    · cases hi
  · rintro ⟨o, ho, rfl, hp⟩
    exact ⟨.inr (.inl ⟨o, ho, hp⟩), (ofReservation_eq hp).1⟩

/-- the fill under an order's id -/
theorem mem_fill {db : Db} {p : PositionExposure} {i : String} :
    p ∈ entries db ∧ p.paperOrderId = .oms i ↔ ∃ o ∈ testnetOrders db, o.omsOrderId = i ∧
      (0 < o.cumulativeFilledQuantity ∧ reconciled db o.exchange o.symbol = false) ∧
      ofFill o = p := by
  rw [mem_entries]
  constructor
  · rintro ⟨⟨o, -, rfl⟩ | ⟨o, -, hp⟩ | hv | ⟨o, ho, hcond, rfl⟩, hi⟩
    · cases hi
    · rw [(ofReservation_eq hp).1] at hi
      cases hi
    · obtain ⟨⟨e, v, s, d, he⟩, -⟩ := venueEntries_eq hv
      rw [he] at hi
      cases hi
    · exact ⟨o, ho, ExposureId.oms.inj hi, hcond, rfl⟩
  · rintro ⟨o, ho, rfl, hcond, rfl⟩
    exact ⟨.inr (.inr (.inr ⟨o, ho, hcond, rfl⟩)), rfl⟩

theorem mem_setDefaults {acc : List OmsOrder} {o x : OmsOrder} (h : x ∈ setDefaults acc o) :
    x ∈ acc ∨ x = o := by
  unfold setDefaults at h
  split_ifs at h
  · exact .inl h
  · simpa using h

theorem foldl_setDefaults_mem {l acc : List OmsOrder} {x : OmsOrder}
    (h : x ∈ l.foldl setDefaults acc) : x ∈ acc ∨ x ∈ l := by
  induction l generalizing acc with
  | nil => exact .inl h
  | cons o l ih =>
    rcases ih h with hacc | hl
    · rcases mem_setDefaults hacc with hx | rfl
      · exact .inl hx
      · exact .inr (by simp)
    · exact .inr (List.mem_cons_of_mem _ hl)

/-- every symbol of the list or of the accumulator keeps an order -/
theorem foldl_setDefaults_symbol {l acc : List OmsOrder} {o : OmsOrder} (h : o ∈ acc ∨ o ∈ l) :
    ∃ x ∈ l.foldl setDefaults acc, x.symbol = o.symbol := by
  induction l generalizing acc o with
  | nil =>
    rcases h with h | h
    · exact ⟨o, h, rfl⟩
    · cases h
  | cons a l ih =>
    -- the order itself, or the one that already stands for its symbol
    have hacc : ∃ y ∈ setDefaults acc a, y.symbol = a.symbol := by
      unfold setDefaults
      split_ifs with hany
      · obtain ⟨y, hy, he⟩ := List.any_eq_true.1 hany
        exact ⟨y, hy, by simpa using he⟩
      · exact ⟨a, by simp, rfl⟩
    have hsub : ∀ y ∈ acc, y ∈ setDefaults acc a := by
      intro y hy
      unfold setDefaults
      split_ifs
      · exact hy
      · exact List.mem_append_left _ hy
    rcases h with h | h
    · exact ih (.inl (hsub o h))
    · rcases List.mem_cons.1 h with rfl | h
      · obtain ⟨y, hy, he⟩ := hacc
        obtain ⟨x, hx, hxe⟩ := ih (o := y) (.inl hy)
        exact ⟨x, hx, hxe.trans he⟩
      · exact ih (.inr h)

theorem mem_latestBinanceOrders {db : Db} {o : OmsOrder} (h : o ∈ latestBinanceOrders db) :
    o ∈ testnetOrders db ∧ o.exchange = .binance := by
  rcases foldl_setDefaults_mem h with h | h
  · cases h
  · rw [List.mem_insertionSort, List.mem_filter, beq_iff_eq] at h
    exact h

theorem latestBinanceOrders_symbol {db : Db} {o : OmsOrder} (h : o ∈ testnetOrders db)
    (he : o.exchange = .binance) : ∃ x ∈ latestBinanceOrders db, x.symbol = o.symbol := by
  refine foldl_setDefaults_symbol (.inr ?_)
  rw [List.mem_insertionSort, List.mem_filter, beq_iff_eq]
  exact ⟨h, he⟩

theorem latestRuns_isEmpty (db : Db) :
    (latestRuns db).isEmpty = true ↔ ∀ e, latestRun db e = none := by
  rw [List.isEmpty_iff, latestRuns]
  constructor
  · intro h e
    by_contra hne
    obtain ⟨r, hr⟩ := Option.ne_none_iff_exists'.1 hne
    have : r ∈ [Exchange.binance, Exchange.bybit].filterMap (latestRun db) :=
      List.mem_filterMap.2 ⟨e, by cases e <;> simp, hr⟩
    rw [h] at this
    cases this
  · intro h
    simp [h]

/-- when the fills of an order's symbol are left to the evidence of a reconciliation run -/
theorem reconciled_iff {db : Db} {o : OmsOrder} (ho : o ∈ testnetOrders db) :
    reconciled db o.exchange o.symbol = true ↔
      (∃ p ∈ latestPositions db, p.exchange = o.exchange ∧ p.symbol = o.symbol) ∨
      (o.exchange = .bybit ∧ (latestRun db .bybit).isSome) ∨
      (o.exchange = .binance ∧ (spotBaseAsset o.symbol).isSome ∧
        ∃ e, (latestRun db e).isSome) := by
  have hsome : (latestRuns db).isEmpty = false ↔ ∃ e, (latestRun db e).isSome = true := by
    rw [← Bool.not_eq_true, latestRuns_isEmpty]
    simp [Option.isSome_iff_ne_none]
  simp only [reconciled, Bool.and_eq_true, Bool.not_eq_true', Bool.or_eq_true, List.any_eq_true,
    beq_iff_eq, hsome]
  constructor
  · rintro ⟨hrun, (hp | ⟨⟨hb, hr⟩, -⟩) | ⟨hb, x, hx, hs⟩⟩
    · exact .inl hp
    · exact .inr (.inl ⟨hb, hr⟩)
    · have hx' := (List.mem_filter.1 hx).2
      rw [hs] at hx'
      exact .inr (.inr ⟨hb, hx', hrun⟩)
  · rintro (⟨p, hp, he⟩ | ⟨hb, hr⟩ | ⟨hb, hbase, hrun⟩)
    · refine ⟨?_, .inl (.inl ⟨p, hp, he⟩)⟩
      obtain ⟨row, hrow, rfl⟩ := List.mem_map.1 hp
      obtain ⟨r, hr, -⟩ := List.any_eq_true.1 (List.mem_filter.1 hrow).2
      obtain ⟨e, -, hre⟩ := List.mem_filterMap.1 hr
      exact ⟨e, by simp [hre]⟩
    · exact ⟨⟨_, hr⟩, .inl (.inr ⟨⟨hb, hr⟩, o, ho, hb, rfl⟩)⟩
    · obtain ⟨x, hx, hs⟩ := latestBinanceOrders_symbol ho hb
      exact ⟨hrun, .inr ⟨hb, x, List.mem_filter.2 ⟨hx, by rwa [hs]⟩, hs⟩⟩

end Exposures

end CapitalCipher
