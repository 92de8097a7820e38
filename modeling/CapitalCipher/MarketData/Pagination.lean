/-
The paginated `fetch_candles` of the public REST clients, `adapters/binance_rest.py` (oldest page
first, a cursor that moves forward) and `adapters/bybit_rest.py` (newest page first, an end that moves
back).

A page is what the provider answers to one request, its rows already parsed; times are milliseconds.
The raw pages handed to `on_page` are those of the returned requests.

  • `binanceLoop_spec`, `bybitLoop_spec`: what either loop collects, and that every request goes
    beyond the one before it.
  • `pagination_iff`: both return the closed candles of the range, exactly when no candle closes
    between the cut-off start and the start, and none is still open.
  • `cut_off_start`: a candle that closes half a millisecond before the range.
-/
import CapitalCipher.Lib.OrderedDict
import CapitalCipher.Lib.SortedLog
import CapitalCipher.Schemas.Market

namespace CapitalCipher

open Lib

/-- the parameters of one page request -/
structure PageRequest where
  symbol : String
  interval : String
  startMs : ℤ
  endMs : ℤ
  limit : ℕ
  deriving DecidableEq

/-- a row of a page -/
structure Kline where
  openMs : ℤ
  closeMs : ℤ
  openPrice : ℚ
  high : ℚ
  low : ℚ
  close : ℚ
  volume : ℚ
  deriving DecidableEq

/-- `candles`, by close time -/
abbrev FetchedCandles := OrderedDict fun entry : ℤ × Candle => entry.1

/-- the constants of one `fetch_candles` call -/
structure CandleFetch where
  exchange : Exchange
  symbol : String
  timeframe : String
  interval : String
  stepMs : ℤ
  startCloseMs : ℤ
  endCloseMs : ℤ
  receivedAt : Time
  limit : ℕ

/-- `TIMEFRAME_TO_BYBIT` -/
def timeframeToBybit : String → Option String
  | "1m" => some "1"
  | "5m" => some "5"
  | "15m" => some "15"
  | "1h" => some "60"
  | "4h" => some "240"
  | "1d" => some "D"
  | _ => none

/-- the provider as its error messages name it -/
def providerName : Exchange → String
  | .binance => "Binance"
  | .bybit => "Bybit"

namespace CandleFetch

def startOpenMs (f : CandleFetch) : ℤ := f.startCloseMs - f.stepMs + 1

def endOpenMs (f : CandleFetch) : ℤ := f.endCloseMs - f.stepMs + 1

/-- the candle of a row -/
def candle (f : CandleFetch) (closeMs : ℤ) (row : Kline) : Candle where
  exchange := f.exchange
  symbol := f.symbol.toUpper
  timeframe := f.timeframe
  openPrice := row.openPrice
  high := row.high
  low := row.low
  close := row.close
  volume := row.volume
  closedAt := (closeMs * 1000).toNat
  receivedAt := f.receivedAt

/-- one row of a page -/
def add (f : CandleFetch) (closeMs : ℤ) (candles : FetchedCandles) (row : Kline) :
    Except Error FetchedCandles :=
  if f.startCloseMs ≤ closeMs ∧ closeMs ≤ f.endCloseMs then
    match (f.candle closeMs row).check with
    | .ok candle => .ok (candles.put (closeMs, candle))
    | .error _ => .error ⟨.externalService, providerName f.exchange ++ " kline payload is invalid"⟩
  else .ok candles

/-- the request for the next page -/
def request (f : CandleFetch) (startMs endMs : ℤ) (candles : FetchedCandles) : PageRequest :=
  ⟨f.symbol.toUpper, f.interval, startMs, endMs, min 1000 (f.limit - candles.rows.length)⟩

end CandleFetch

/-- what a provider answers to a page request -/
abbrev PageProvider := PageRequest → Except Error (List Kline)

/-- the loop of `BinancePublicRestClient.fetch_candles` -/
def binanceLoop (page : PageProvider) (f : CandleFetch) (cursor : ℤ) (candles : FetchedCandles) :
    Except Error (List PageRequest × FetchedCandles) :=
  if _hmore : cursor ≤ f.endOpenMs ∧ candles.rows.length < f.limit then
    match page (f.request cursor f.endOpenMs candles) with
    | .error e => .error e
    | .ok [] => .ok ([f.request cursor f.endOpenMs candles], candles)
    | .ok (row :: rows) =>
      match (row :: rows).foldlM (fun candles row => f.add row.closeMs candles row) candles with
      | .error e => .error e
      | .ok candles' =>
        let nextCursor := ((row :: rows).getLast (List.cons_ne_nil row rows)).openMs + f.stepMs
        if _hstop : nextCursor ≤ cursor then .ok ([f.request cursor f.endOpenMs candles], candles')
        else (binanceLoop page f nextCursor candles').map fun result =>
          (f.request cursor f.endOpenMs candles :: result.1, result.2)
  else .ok ([], candles)
termination_by (f.endOpenMs + 1 - cursor).toNat
decreasing_by omega

/-- the loop of `BybitPublicRestClient.fetch_candles` -/
def bybitLoop (page : PageProvider) (f : CandleFetch) (cursorEnd : ℤ) (candles : FetchedCandles) :
    Except Error (List PageRequest × FetchedCandles) :=
  if _hmore : f.startOpenMs ≤ cursorEnd ∧ candles.rows.length < f.limit then
    match page (f.request f.startOpenMs cursorEnd candles) with
    | .error e => .error e
    | .ok [] => .ok ([f.request f.startOpenMs cursorEnd candles], candles)
    | .ok (row :: rows) =>
      match (row :: rows).foldlM (fun candles row => f.add (row.openMs + f.stepMs - 1) candles row)
        candles with
      | .error e => .error e
      | .ok candles' =>
        let nextEnd := rows.foldl (fun least row => min least row.openMs) row.openMs - 1
        if _hstop : cursorEnd ≤ nextEnd then
          .ok ([f.request f.startOpenMs cursorEnd candles], candles')
        else (bybitLoop page f nextEnd candles').map fun result =>
          (f.request f.startOpenMs cursorEnd candles :: result.1, result.2)
  else .ok ([], candles)
termination_by (cursorEnd + 1 - f.startOpenMs).toNat
decreasing_by omega

/-- the checks of `fetch_candles` -/
def fetchConstants (exchange : Exchange) (interval : String → Option String)
    (symbol timeframe : String) (startAt endAt receivedAt : Time) (limit : ℤ) :
    Except Error CandleFetch :=
  match timeframeSeconds timeframe, interval timeframe with
  | some stepSeconds, some interval =>
    if endAt < startAt then .error ⟨.transport, "start_at must not be after end_at"⟩
    else if limit < 1 ∨ 1000000 < limit then
      .error ⟨.transport, "limit must be between 1 and 1000000"⟩
    else .ok
      { exchange := exchange, symbol := symbol, timeframe := timeframe, interval := interval
        stepMs := stepSeconds * 1000, startCloseMs := startAt / 1000, endCloseMs := endAt / 1000
        receivedAt := receivedAt, limit := limit.toNat }
  | _, _ =>
    .error ⟨.transport, "Unsupported " ++ providerName exchange ++ " timeframe: " ++ timeframe⟩

/-- `[candles[key] for key in sorted(candles)]` -/
def ascendingCandles (candles : FetchedCandles) : List Candle :=
  (sortedBy (fun entry : ℤ × Candle => entry.1) candles.rows).map Prod.snd

/-- `BinancePublicRestClient.fetch_candles`, with the requests it made -/
def binanceFetchCandles (page : PageProvider) (symbol timeframe : String)
    (startAt endAt receivedAt : Time) (limit : ℤ) : Except Error (List PageRequest × List Candle) := do
  let f ← fetchConstants .binance some symbol timeframe startAt endAt receivedAt limit
  let result ← binanceLoop page f f.startOpenMs ∅
  pure (result.1, ascendingCandles result.2)

/-- `BybitPublicRestClient.fetch_candles`, with the requests it made -/
def bybitFetchCandles (page : PageProvider) (symbol timeframe : String)
    (startAt endAt receivedAt : Time) (limit : ℤ) : Except Error (List PageRequest × List Candle) := do
  let f ← fetchConstants .bybit timeframeToBybit symbol timeframe startAt endAt receivedAt limit
  let result ← bybitLoop page f f.endOpenMs ∅
  pure (result.1, ascendingCandles result.2)

/-! ## The providers -/

/-- the rows that open inside the requested window -/
def inWindow (rows : List Kline) (startMs endMs : ℤ) : List Kline :=
  rows.filter fun row => startMs ≤ row.openMs ∧ row.openMs ≤ endMs

/-- a provider that answers with the oldest rows of the window -/
def oldest (rows : List Kline) : PageProvider := fun r =>
  .ok ((inWindow rows r.startMs r.endMs).take r.limit)

/-- a provider that answers with the newest rows of the window, newest first -/
def newest (rows : List Kline) : PageProvider := fun r =>
  .ok ((inWindow rows r.startMs r.endMs).reverse.take r.limit)

/-- the rows a provider holds of one series, with or without holes -/
structure KlineSeries (stepMs grid : ℤ) where
  rows : List Kline
  ascending : rows.Pairwise fun a b => a.openMs < b.openMs
  onGrid : ∀ row ∈ rows, row.openMs ≡ grid [ZMOD stepMs]
  closes : ∀ row ∈ rows, row.closeMs = row.openMs + stepMs - 1
  epoch : ∀ row ∈ rows, 0 ≤ row.openMs
  priced : ∀ row ∈ rows, 0 < row.openPrice ∧ 0 < row.high ∧ 0 < row.low ∧ 0 < row.close ∧
    0 ≤ row.volume ∧ (row.openPrice ≤ row.high ∧ row.close ≤ row.high ∧ row.low ≤ row.high) ∧
    (row.low ≤ row.openPrice ∧ row.low ≤ row.close)

/-! ## One page -/

/-- what is left of a list behind its first rows -/
theorem filter_eq_drop {α : Type} {l : List α} {n : ℕ} {p : α → Bool}
    (htake : ∀ a ∈ l.take n, p a = false) (hdrop : ∀ a ∈ l.drop n, p a = true) :
    l.filter p = l.drop n := by
  conv_lhs => rw [← List.take_append_drop n l]
  rw [List.filter_append, List.filter_eq_nil_iff.2 fun a ha => by simp [htake a ha],
    List.filter_eq_self.2 hdrop, List.nil_append]

/-- a first part and what it leaves room for behind it -/
theorem take_page {α : Type} (l : List α) {n m : ℕ} (h : m ≤ n) :
    l.take n = l.take m ++ (l.drop m).take (n - m) := by
  obtain ⟨k, rfl⟩ := Nat.exists_eq_add_of_le h
  rw [List.take_add, Nat.add_sub_cancel_left]

namespace KlineSeries

variable {stepMs grid : ℤ} (series : KlineSeries stepMs grid)

/-- two rows are a step apart -/
theorem spaced : series.rows.Pairwise fun a b => a.openMs + stepMs ≤ b.openMs := by
  refine series.ascending.imp_of_mem fun {a b} ha hb hlt => ?_
  obtain ⟨k, hk⟩ := ((series.onGrid a ha).trans (series.onGrid b hb).symm).dvd
  have hpos : 0 < stepMs * k := by omega
  rcases lt_trichotomy stepMs 0 with hneg | hzero | hstep
  · omega
  · rw [hzero, zero_mul] at hpos
    omega
  · have hk' : 1 ≤ k := by
      by_contra hsmall
      have hle : stepMs * k ≤ 0 := mul_nonpos_of_nonneg_of_nonpos hstep.le (by omega)
      omega
    have hle : stepMs * 1 ≤ stepMs * k := Int.mul_le_mul_of_nonneg_left hk' hstep.le
    omega

end KlineSeries

namespace CandleFetch

variable {f : CandleFetch} {stepMs grid : ℤ} {series : KlineSeries stepMs grid}

/-- a fetch of a series: its own step, a supported timeframe and a valid symbol -/
structure Of (f : CandleFetch) (series : KlineSeries stepMs grid) : Prop where
  step : f.stepMs = stepMs
  pos : 0 < stepMs
  symbol : validSymbol f.symbol.toUpper = true
  timeframe : validTimeframe f.timeframe = true

/-- the entry of a row -/
def entry (f : CandleFetch) (row : Kline) : ℤ × Candle := (row.closeMs, f.candle row.closeMs row)

theorem candle_check (h : f.Of series) {row : Kline} (hrow : row ∈ series.rows) (closeMs : ℤ) :
    (f.candle closeMs row).check = .ok (f.candle closeMs row) := by
  obtain ⟨h1, h2, h3, h4, h5, ⟨h6, h7, h8⟩, h9, h10⟩ := series.priced row hrow
  rw [Candle.check, validateModel_ok]
  simp [candle, h.symbol, h.timeframe, h1, h2, h3, h4, h5, h6, h7, h8, h9, h10]

/-- a page of new rows inside the range goes to the end -/
theorem add_rows (h : f.Of series) (closeOf : Kline → ℤ) {rows : List Kline} {candles : FetchedCandles}
    (hmem : ∀ row ∈ rows, row ∈ series.rows) (hclose : ∀ row ∈ rows, closeOf row = row.closeMs)
    (hrange : ∀ row ∈ rows, f.startCloseMs ≤ row.closeMs ∧ row.closeMs ≤ f.endCloseMs)
    (hnew : ∀ row ∈ rows, candles.get? row.closeMs = none)
    (hdistinct : rows.Pairwise fun a b => a.closeMs ≠ b.closeMs) :
    ∃ candles', rows.foldlM (fun candles row => f.add (closeOf row) candles row) candles =
      .ok candles' ∧ candles'.rows = candles.rows ++ rows.map f.entry := by
  induction rows generalizing candles with
  | nil => exact ⟨candles, rfl, (List.append_nil _).symm⟩
  | cons row rows ih =>
    obtain ⟨hfirst, hrest⟩ := List.pairwise_cons.1 hdistinct
    have hrow := hnew row List.mem_cons_self
    have hadd : f.add (closeOf row) candles row = .ok (candles.put (f.entry row)) := by
      rw [hclose row List.mem_cons_self, add, if_pos (hrange row List.mem_cons_self),
        candle_check h (hmem row List.mem_cons_self)]
      rfl
    have hrows : (candles.put (f.entry row)).rows = candles.rows ++ [f.entry row] :=
      OrderedDict.rows_put_new hrow
    obtain ⟨candles', hfold, hall⟩ := @ih (candles.put (f.entry row))
      (fun x hx => hmem x (List.mem_cons_of_mem row hx))
      (fun x hx => hclose x (List.mem_cons_of_mem row hx))
      (fun x hx => hrange x (List.mem_cons_of_mem row hx))
      (fun x hx => by
        rw [OrderedDict.get?_put, if_neg fun heq => hfirst x hx heq.symm]
        exact hnew x (List.mem_cons_of_mem row hx)) hrest
    refine ⟨candles', ?_, ?_⟩
    · rw [List.foldlM_cons, hadd]
      exact hfold
    · rw [hall, hrows, List.append_assoc]
      rfl

/-- what a page adds to the collected candles, and what is left to collect behind it -/
theorem page_step (h : f.Of series) {closeOf : Kline → ℤ} {u : List Kline} {candles : FetchedCandles}
    (hmem : ∀ row ∈ u, row ∈ series.rows) (hclose : ∀ row ∈ u, closeOf row = row.closeMs)
    (hrange : ∀ row ∈ u, f.startCloseMs ≤ row.closeMs ∧ row.closeMs ≤ f.endCloseMs)
    (hnew : ∀ row ∈ u, candles.get? row.closeMs = none)
    (hdistinct : u.Pairwise fun a b => a.closeMs ≠ b.closeMs) {page : List Kline}
    (hpage : u.take (min 1000 (f.limit - candles.rows.length)) = page) :
    u.take page.length = page ∧
    ∃ candles', page.foldlM (fun candles row => f.add (closeOf row) candles row) candles =
      .ok candles' ∧ candles'.rows = candles.rows ++ page.map f.entry ∧
      candles'.rows ++ ((u.drop page.length).take (f.limit - candles'.rows.length)).map f.entry =
        candles.rows ++ (u.take (f.limit - candles.rows.length)).map f.entry := by
  have hsub : ∀ row ∈ page, row ∈ u := fun row hrow => List.mem_of_mem_take (hpage ▸ hrow)
  have htake : u.take page.length = page := by
    rw [← hpage, List.length_take]
    rcases le_total (min 1000 (f.limit - candles.rows.length)) u.length with hle | hle
    · rw [min_eq_left hle]
    · rw [min_eq_right hle, List.take_length, List.take_of_length_le hle]
  obtain ⟨candles', hfold, hrows⟩ := add_rows h closeOf (fun row hrow => hmem row (hsub row hrow))
    (fun row hrow => hclose row (hsub row hrow)) (fun row hrow => hrange row (hsub row hrow))
    (fun row hrow => hnew row (hsub row hrow))
    (hdistinct.sublist (hpage ▸ List.take_sublist _ u))
  refine ⟨htake, candles', hfold, hrows, ?_⟩
  have hshort : page.length ≤ f.limit - candles.rows.length := by
    rw [← hpage, List.length_take]
    omega
  have hlength : f.limit - candles'.rows.length = f.limit - candles.rows.length - page.length := by
    rw [hrows, List.length_append, List.length_map]
    omega
  rw [take_page u hshort, htake, List.map_append, hlength, hrows, List.append_assoc]

end CandleFetch

/-! ## The loops -/

theorem mem_inWindow {rows : List Kline} {startMs endMs : ℤ} {row : Kline} :
    row ∈ inWindow rows startMs endMs ↔ row ∈ rows ∧ startMs ≤ row.openMs ∧ row.openMs ≤ endMs := by
  simp [inWindow]

/-- no row of an ascending page opens after the last one -/
theorem le_getLast {rows : List Kline} (hne : rows ≠ [])
    (h : rows.Pairwise fun a b => a.openMs < b.openMs) :
    ∀ row ∈ rows, row.openMs ≤ (rows.getLast hne).openMs := by
  intro row hrow
  rw [← List.dropLast_append_getLast hne] at hrow h
  rcases List.mem_append.1 hrow with hrow | hrow
  · exact ((List.pairwise_append.1 h).2.2 row hrow _ (List.mem_singleton_self _)).le
  · rw [List.mem_singleton.1 hrow]

/-- the least open time of a page is one of its open times -/
theorem foldl_min_openMs (first : ℤ) (rows : List Kline) :
    (rows.foldl (fun least row => min least row.openMs) first ≤ first ∧
      ∀ row ∈ rows, rows.foldl (fun least row => min least row.openMs) first ≤ row.openMs) ∧
    (rows.foldl (fun least row => min least row.openMs) first = first ∨
      ∃ row ∈ rows, rows.foldl (fun least row => min least row.openMs) first = row.openMs) := by
  induction rows generalizing first with
  | nil => exact ⟨⟨le_rfl, fun row hrow => absurd hrow List.not_mem_nil⟩, .inl rfl⟩
  | cons row rows ih =>
    obtain ⟨⟨hfirst, hrest⟩, hsome⟩ := ih (min first row.openMs)
    rw [List.foldl_cons]
    refine ⟨⟨hfirst.trans (min_le_left _ _), fun x hx => ?_⟩, ?_⟩
    · rcases List.mem_cons.1 hx with rfl | hx
      · exact hfirst.trans (min_le_right _ _)
      · exact hrest x hx
    · rcases hsome with heq | ⟨x, hx, heq⟩
      · rcases min_choice first row.openMs with hmin | hmin
        · exact .inl (heq.trans hmin)
        · exact .inr ⟨row, List.mem_cons_self, heq.trans hmin⟩
      · exact .inr ⟨x, List.mem_cons_of_mem row hx, heq⟩

section

variable {f : CandleFetch} {stepMs grid : ℤ} {series : KlineSeries stepMs grid}

/-- rows of the window close inside the range, at different times -/
theorem window_closes (h : f.Of series) {startMs endMs : ℤ} (hstart : f.startOpenMs ≤ startMs)
    (hend : endMs ≤ f.endOpenMs) :
    (∀ row ∈ inWindow series.rows startMs endMs, row ∈ series.rows ∧
      f.startCloseMs ≤ row.closeMs ∧ row.closeMs ≤ f.endCloseMs) ∧
    (inWindow series.rows startMs endMs).Pairwise (fun a b => a.closeMs < b.closeMs) ∧
    (inWindow series.rows startMs endMs).Pairwise fun a b => a.openMs + stepMs ≤ b.openMs := by
  have hstep := h.step
  refine ⟨fun row hrow => ?_, ?_, series.spaced.filter _⟩
  · obtain ⟨hmem, hlow, hhigh⟩ := mem_inWindow.1 hrow
    have hclose := series.closes row hmem
    unfold CandleFetch.startOpenMs at hstart
    unfold CandleFetch.endOpenMs at hend
    exact ⟨hmem, by omega, by omega⟩
  · refine (series.ascending.filter _).imp_of_mem fun {a b} ha hb hlt => ?_
    have hclose := series.closes a (mem_inWindow.1 ha).1
    have hclose' := series.closes b (mem_inWindow.1 hb).1
    omega

/-- the forward loop collects the oldest rows from its cursor on -/
theorem binanceLoop_spec (h : f.Of series) {cursor : ℤ} {candles : FetchedCandles}
    (hcursor : f.startOpenMs ≤ cursor) (hold : ∀ e ∈ candles.rows, e.1 < cursor + stepMs - 1) :
    ∃ requests candles', binanceLoop (oldest series.rows) f cursor candles =
      .ok (requests, candles') ∧
      candles'.rows = candles.rows ++ ((inWindow series.rows cursor f.endOpenMs).take
        (f.limit - candles.rows.length)).map f.entry ∧
      requests.Pairwise (fun r r' => r.startMs < r'.startMs) ∧
      (∀ r ∈ requests, cursor ≤ r.startMs) ∧
      requests.length + candles.rows.length ≤ candles'.rows.length + 1 := by
  induction hn : (f.endOpenMs + 1 - cursor).toNat using Nat.strong_induction_on
    generalizing cursor candles with
  | _ n ih =>
  rw [binanceLoop]
  by_cases hmore : cursor ≤ f.endOpenMs ∧ candles.rows.length < f.limit
  · rw [dif_pos hmore]
    obtain ⟨hwindow, hcloses, hspaced⟩ := window_closes h hcursor le_rfl
    have hanswer : oldest series.rows (f.request cursor f.endOpenMs candles) =
        .ok ((inWindow series.rows cursor f.endOpenMs).take
          (min 1000 (f.limit - candles.rows.length))) := rfl
    rw [hanswer]
    have hnew : ∀ row ∈ inWindow series.rows cursor f.endOpenMs, candles.get? row.closeMs = none := by
      intro row hrow
      obtain ⟨hmem, hlow, -⟩ := mem_inWindow.1 hrow
      have hclose := series.closes row hmem
      exact OrderedDict.get?_eq_none.2 fun e he heq => by
        have := hold e he
        omega
    obtain ⟨htake, candles', hfold, hrows, hrest⟩ := CandleFetch.page_step h
      (fun row hrow => (hwindow row hrow).1) (fun row _ => rfl) (fun row hrow => (hwindow row hrow).2)
      hnew (hcloses.imp fun hlt => hlt.ne) rfl
    cases hpage : (inWindow series.rows cursor f.endOpenMs).take
        (min 1000 (f.limit - candles.rows.length)) with
    | nil =>
      have hempty : inWindow series.rows cursor f.endOpenMs = [] := by
        rcases List.take_eq_nil_iff.1 hpage with hzero | hnil
        · omega
        · exact hnil
      refine ⟨[f.request cursor f.endOpenMs candles], candles, rfl, ?_, List.pairwise_singleton _ _,
        fun r hr => ?_, ?_⟩
      · rw [hempty, List.take_nil, List.map_nil, List.append_nil]
      · rw [List.mem_singleton.1 hr]
        exact le_rfl
      · simp only [List.length_singleton]
        omega
    | cons row rows =>
      rw [hpage] at htake hfold hrows hrest
      dsimp only
      rw [hfold]
      dsimp only
      set last := (row :: rows).getLast (List.cons_ne_nil row rows) with hlast
      have hpos := h.pos
      have hlast_mem : last ∈ inWindow series.rows cursor f.endOpenMs := by
        have hmem : last ∈ row :: rows := List.getLast_mem _
        rw [← hpage] at hmem
        exact List.mem_of_mem_take hmem
      have hlow : cursor ≤ last.openMs := (mem_inWindow.1 hlast_mem).2.1
      have hnext : ¬ last.openMs + f.stepMs ≤ cursor := by
        rw [h.step]
        omega
      rw [dif_neg hnext]
      -- behind the last row of the page the window goes on a step later
      have hpage_spaced := hspaced
      rw [← List.take_append_drop (row :: rows).length (inWindow series.rows cursor f.endOpenMs),
        List.pairwise_append, htake] at hpage_spaced
      have hupto : ∀ a ∈ row :: rows, a.openMs ≤ last.openMs :=
        le_getLast (List.cons_ne_nil row rows) (hpage_spaced.1.imp fun hle => by omega)
      have hbehind : inWindow series.rows (last.openMs + f.stepMs) f.endOpenMs =
          (inWindow series.rows cursor f.endOpenMs).drop (row :: rows).length := by
        rw [← filter_eq_drop (l := inWindow series.rows cursor f.endOpenMs)
          (p := fun a => decide (last.openMs + f.stepMs ≤ a.openMs)), inWindow, inWindow,
          List.filter_filter]
        · refine List.filter_congr fun a _ => ?_
          rw [← Bool.decide_and, decide_eq_decide, h.step]
          omega
        · intro a ha
          rw [htake] at ha
          have := hupto a ha
          rw [decide_eq_false_iff_not, h.step]
          omega
        · intro a ha
          rw [decide_eq_true_iff, h.step]
          exact hpage_spaced.2.2 last (List.getLast_mem _) a ha
      have hkeys : ∀ e ∈ candles'.rows, e.1 < last.openMs + f.stepMs + stepMs - 1 := by
        intro e he
        rw [hrows] at he
        rcases List.mem_append.1 he with he | he
        · have := hold e he
          rw [h.step]
          omega
        · obtain ⟨a, ha, rfl⟩ := List.mem_map.1 he
          have hclose := series.closes a
            (hwindow a (List.mem_of_mem_take (hpage ▸ ha))).1
          have := hupto a ha
          show a.closeMs < _
          rw [h.step]
          omega
      obtain ⟨requests, final, hloop, hfinal, hordered, hfrom, hprogress⟩ := ih
        (f.endOpenMs + 1 - (last.openMs + f.stepMs)).toNat (by rw [← hn]; omega)
        (by omega) hkeys rfl
      refine ⟨f.request cursor f.endOpenMs candles :: requests, final, ?_, ?_, ?_, ?_, ?_⟩
      · rw [hloop]
        rfl
      · rw [hfinal, hbehind, hrest]
      · exact List.pairwise_cons.2 ⟨fun r hr => (not_le.1 hnext).trans_le (hfrom r hr), hordered⟩
      · intro r hr
        rcases List.mem_cons.1 hr with rfl | hr
        · exact le_rfl
        · exact (not_le.1 hnext).le.trans (hfrom r hr)
      · rw [hrows, List.length_append, List.length_map, List.length_cons] at hprogress
        rw [List.length_cons]
        omega
  · rw [dif_neg hmore]
    refine ⟨[], candles, rfl, ?_, List.Pairwise.nil, fun r hr => absurd hr List.not_mem_nil, ?_⟩
    · have hnothing : (inWindow series.rows cursor f.endOpenMs).take
          (f.limit - candles.rows.length) = [] := by
        rw [List.take_eq_nil_iff]
        rcases not_and_or.1 hmore with hend | hfull
        · refine .inr (List.filter_eq_nil_iff.2 fun row _ => ?_)
          simp only [decide_eq_true_eq]
          omega
        · exact .inl (by omega)
      rw [hnothing, List.map_nil, List.append_nil]
    · simp only [List.length_nil]
      omega

/-- the backward loop collects the newest rows up to its end -/
theorem bybitLoop_spec (h : f.Of series) {cursorEnd : ℤ} {candles : FetchedCandles}
    (hcursor : cursorEnd ≤ f.endOpenMs) (hold : ∀ e ∈ candles.rows, cursorEnd + stepMs - 1 < e.1) :
    ∃ requests candles', bybitLoop (newest series.rows) f cursorEnd candles =
      .ok (requests, candles') ∧
      candles'.rows = candles.rows ++ ((inWindow series.rows f.startOpenMs cursorEnd).reverse.take
        (f.limit - candles.rows.length)).map f.entry ∧
      requests.Pairwise (fun r r' => r'.endMs < r.endMs) ∧
      (∀ r ∈ requests, r.endMs ≤ cursorEnd) ∧
      requests.length + candles.rows.length ≤ candles'.rows.length + 1 := by
  induction hn : (cursorEnd + 1 - f.startOpenMs).toNat using Nat.strong_induction_on
    generalizing cursorEnd candles with
  | _ n ih =>
  rw [bybitLoop]
  by_cases hmore : f.startOpenMs ≤ cursorEnd ∧ candles.rows.length < f.limit
  · rw [dif_pos hmore]
    obtain ⟨hwindow, hcloses, hspaced⟩ := window_closes h le_rfl hcursor
    have hanswer : newest series.rows (f.request f.startOpenMs cursorEnd candles) =
        .ok ((inWindow series.rows f.startOpenMs cursorEnd).reverse.take
          (min 1000 (f.limit - candles.rows.length))) := rfl
    rw [hanswer]
    rw [← List.pairwise_reverse] at hcloses hspaced
    have hclose : ∀ row ∈ (inWindow series.rows f.startOpenMs cursorEnd).reverse,
        row.openMs + f.stepMs - 1 = row.closeMs := by
      intro row hrow
      rw [series.closes row (hwindow row (List.mem_reverse.1 hrow)).1, h.step]
    have hnew : ∀ row ∈ (inWindow series.rows f.startOpenMs cursorEnd).reverse,
        candles.get? row.closeMs = none := by
      intro row hrow
      obtain ⟨hmem, -, hhigh⟩ := mem_inWindow.1 (List.mem_reverse.1 hrow)
      have hcloseMs := series.closes row hmem
      exact OrderedDict.get?_eq_none.2 fun e he heq => by
        have := hold e he
        omega
    obtain ⟨htake, candles', hfold, hrows, hrest⟩ := CandleFetch.page_step h
      (fun row hrow => (hwindow row (List.mem_reverse.1 hrow)).1) hclose
      (fun row hrow => (hwindow row (List.mem_reverse.1 hrow)).2) hnew
      (hcloses.imp fun hlt => hlt.ne') rfl
    cases hpage : (inWindow series.rows f.startOpenMs cursorEnd).reverse.take
        (min 1000 (f.limit - candles.rows.length)) with
    | nil =>
      have hempty : (inWindow series.rows f.startOpenMs cursorEnd).reverse = [] := by
        rcases List.take_eq_nil_iff.1 hpage with hzero | hnil
        · omega
        · exact hnil
      refine ⟨[f.request f.startOpenMs cursorEnd candles], candles, rfl, ?_,
        List.pairwise_singleton _ _, fun r hr => ?_, ?_⟩
      · rw [hempty, List.take_nil, List.map_nil, List.append_nil]
      · rw [List.mem_singleton.1 hr]
        exact le_rfl
      · simp only [List.length_singleton]
        omega
    | cons row rows =>
      rw [hpage] at htake hfold hrows hrest
      dsimp only
      rw [hfold]
      dsimp only
      obtain ⟨⟨hleast, hleast'⟩, hsome⟩ := foldl_min_openMs row.openMs rows
      set least := rows.foldl (fun least row => min least row.openMs) row.openMs
      have hpos := h.pos
      have hupto : ∀ a ∈ row :: rows, least ≤ a.openMs := by
        intro a ha
        rcases List.mem_cons.1 ha with rfl | ha
        · exact hleast
        · exact hleast' a ha
      obtain ⟨last, hlast, hequal⟩ : ∃ last ∈ row :: rows, least = last.openMs := by
        rcases hsome with heq | ⟨a, ha, heq⟩
        · exact ⟨row, List.mem_cons_self, heq⟩
        · exact ⟨a, List.mem_cons_of_mem row ha, heq⟩
      clear hsome
      have hhigh : last.openMs ≤ cursorEnd := by
        rw [← hpage] at hlast
        exact (mem_inWindow.1 (List.mem_reverse.1 (List.mem_of_mem_take hlast))).2.2
      have hnext : ¬ cursorEnd ≤ least - 1 := by omega
      rw [dif_neg hnext]
      -- before the first row of the page the window goes on
      have hpage_spaced := hspaced
      rw [← List.take_append_drop (row :: rows).length
        (inWindow series.rows f.startOpenMs cursorEnd).reverse, List.pairwise_append, htake]
        at hpage_spaced
      have hbehind : (inWindow series.rows f.startOpenMs (least - 1)).reverse =
          (inWindow series.rows f.startOpenMs cursorEnd).reverse.drop (row :: rows).length := by
        rw [← filter_eq_drop (l := (inWindow series.rows f.startOpenMs cursorEnd).reverse)
          (p := fun a => decide (a.openMs ≤ least - 1)), List.filter_reverse, inWindow, inWindow,
          List.filter_filter]
        · congr 1
          refine List.filter_congr fun a _ => ?_
          rw [← Bool.decide_and, decide_eq_decide]
          omega
        · intro a ha
          rw [htake] at ha
          have := hupto a ha
          rw [decide_eq_false_iff_not]
          omega
        · intro a ha
          have := hpage_spaced.2.2 last hlast a ha
          rw [decide_eq_true_iff]
          omega
      have hkeys : ∀ e ∈ candles'.rows, least - 1 + stepMs - 1 < e.1 := by
        intro e he
        rw [hrows] at he
        rcases List.mem_append.1 he with he | he
        · have := hold e he
          omega
        · obtain ⟨a, ha, rfl⟩ := List.mem_map.1 he
          have hcloseMs := series.closes a
            (hwindow a (List.mem_reverse.1 (List.mem_of_mem_take (hpage ▸ ha)))).1
          have := hupto a ha
          show _ < a.closeMs
          omega
      obtain ⟨requests, final, hloop, hfinal, hordered, hfrom, hprogress⟩ := ih
        (least - 1 + 1 - f.startOpenMs).toNat (by rw [← hn]; omega) (by omega) hkeys rfl
      refine ⟨f.request f.startOpenMs cursorEnd candles :: requests, final, ?_, ?_, ?_, ?_, ?_⟩
      · rw [hloop]
        rfl
      · rw [hfinal, hbehind, hrest]
      · exact List.pairwise_cons.2 ⟨fun r hr => (hfrom r hr).trans_lt (not_le.1 hnext), hordered⟩
      · intro r hr
        rcases List.mem_cons.1 hr with rfl | hr
        · exact le_rfl
        · exact (hfrom r hr).trans (not_le.1 hnext).le
      · rw [hrows, List.length_append, List.length_map, List.length_cons] at hprogress
        rw [List.length_cons]
        omega
  · rw [dif_neg hmore]
    refine ⟨[], candles, rfl, ?_, List.Pairwise.nil, fun r hr => absurd hr List.not_mem_nil, ?_⟩
    · have hnothing : (inWindow series.rows f.startOpenMs cursorEnd).reverse.take
          (f.limit - candles.rows.length) = [] := by
        rw [List.take_eq_nil_iff]
        rcases not_and_or.1 hmore with hend | hfull
        · refine .inr (List.reverse_eq_nil_iff.2 (List.filter_eq_nil_iff.2 fun row _ => ?_))
          simp only [decide_eq_true_eq]
          omega
        · exact .inl (by omega)
      rw [hnothing, List.map_nil, List.append_nil]
    · simp only [List.length_nil]
      omega

end

/-! ## Both clients -/

/-- the requests of a fetch: each goes beyond the one before it, and every one but the last brought a
candle -/
structure Progress (position : PageRequest → ℤ) (requests : List PageRequest)
    (candles : List Candle) : Prop where
  further : requests.Pairwise fun r r' => position r < position r'
  bounded : requests.length ≤ candles.length + 1

section

variable {f : CandleFetch} {stepMs grid : ℤ} {series : KlineSeries stepMs grid}

/-- rows that ascend stay where they are -/
theorem ascendingCandles_rows {candles : FetchedCandles} {rows : List Kline}
    (hrows : candles.rows.Perm (rows.map f.entry))
    (hascending : rows.Pairwise fun a b => a.closeMs < b.closeMs) :
    ascendingCandles candles = rows.map fun row => f.candle row.closeMs row := by
  have hentries : (rows.map f.entry).Pairwise fun a b => a.1 ≤ b.1 :=
    List.pairwise_map.2 (hascending.imp fun hlt => hlt.le)
  rw [ascendingCandles, sortedBy_congr candles.nodup hrows, sortedBy,
    List.Pairwise.insertionSort_eq hentries, List.map_map]
  rfl

theorem binance_collects (h : f.Of series) :
    ∃ requests candles', binanceLoop (oldest series.rows) f f.startOpenMs ∅ = .ok (requests, candles') ∧
      ascendingCandles candles' = ((inWindow series.rows f.startOpenMs f.endOpenMs).take f.limit).map
        (fun row => f.candle row.closeMs row) ∧
      Progress PageRequest.startMs requests (ascendingCandles candles') := by
  obtain ⟨requests, candles', hloop, hrows, hordered, -, hbounded⟩ :=
    @binanceLoop_spec f stepMs grid series h f.startOpenMs ∅ le_rfl fun e he => absurd he List.not_mem_nil
  have hcloses := (window_closes h le_rfl (le_refl f.endOpenMs)).2.1
  have hsorted := ascendingCandles_rows (List.Perm.of_eq hrows) (hcloses.sublist (List.take_sublist _ _))
  refine ⟨requests, candles', hloop, hsorted, hordered, ?_⟩
  have hlength : (ascendingCandles candles').length = candles'.rows.length := by
    rw [ascendingCandles, List.length_map, (sortedBy_perm _ _).length_eq]
  rw [hlength]
  exact hbounded

theorem bybit_collects (h : f.Of series) :
    ∃ requests candles', bybitLoop (newest series.rows) f f.endOpenMs ∅ = .ok (requests, candles') ∧
      ascendingCandles candles' =
        ((inWindow series.rows f.startOpenMs f.endOpenMs).reverse.take f.limit).reverse.map
          (fun row => f.candle row.closeMs row) ∧
      Progress (fun r => -r.endMs) requests (ascendingCandles candles') := by
  obtain ⟨requests, candles', hloop, hrows, hordered, -, hbounded⟩ :=
    @bybitLoop_spec f stepMs grid series h f.endOpenMs ∅ le_rfl fun e he => absurd he List.not_mem_nil
  have hcloses := (window_closes h le_rfl (le_refl f.endOpenMs)).2.1
  have hperm : candles'.rows.Perm
      (((inWindow series.rows f.startOpenMs f.endOpenMs).reverse.take f.limit).reverse.map f.entry) := by
    rw [hrows, List.map_reverse]
    exact (List.reverse_perm _).symm
  have hascending : ((inWindow series.rows f.startOpenMs f.endOpenMs).reverse.take f.limit).reverse.Pairwise
      fun a b => a.closeMs < b.closeMs := by
    rw [List.pairwise_reverse]
    exact (List.pairwise_reverse.2 hcloses).sublist (List.take_sublist _ _)
  refine ⟨requests, candles', hloop, ascendingCandles_rows hperm hascending, ?_, ?_⟩
  · exact hordered.imp fun hlt => neg_lt_neg hlt
  · have hlength : (ascendingCandles candles').length = candles'.rows.length := by
      rw [ascendingCandles, List.length_map, (sortedBy_perm _ _).length_eq]
    rw [hlength]
    exact hbounded

end

/-- the closes of a series' grid in a range -/
noncomputable def gridCloses (stepMs grid : ℤ) (startAt endAt : Time) : Finset ℤ :=
  (Finset.Icc ((startAt : ℤ) / 1000) ((endAt : ℤ) / 1000)).filter fun closeMs =>
    closeMs ≡ grid + stepMs - 1 [ZMOD stepMs] ∧ startAt ≤ closeMs * 1000 ∧ closeMs * 1000 ≤ endAt

/-- a row that closes in the range and is closed when it is fetched -/
def ClosedIn (startAt endAt receivedAt : Time) (row : Kline) : Prop :=
  startAt ≤ row.closeMs * 1000 ∧ row.closeMs * 1000 ≤ endAt ∧ row.closeMs * 1000 ≤ receivedAt

instance (startAt endAt receivedAt : Time) (row : Kline) :
    Decidable (ClosedIn startAt endAt receivedAt row) := inferInstanceAs (Decidable (_ ∧ _))

/-- the closed candles of the range -/
def closedCandles (f : CandleFetch) (rows : List Kline) (startAt endAt : Time) : List Candle :=
  (rows.map fun row => f.candle row.closeMs row).filter fun c =>
    startAt ≤ c.closedAt ∧ c.closedAt ≤ endAt ∧ c.closedAt ≤ f.receivedAt

/-- every row that closes behind the cut-off start closes in the range, and is closed -/
def NoneCutOff (rows : List Kline) (startAt endAt receivedAt : Time) : Prop :=
  ∀ row ∈ rows, (startAt : ℤ) / 1000 ≤ row.closeMs → row.closeMs * 1000 ≤ endAt →
    ClosedIn startAt endAt receivedAt row

section

variable {f : CandleFetch} {stepMs grid : ℤ} {series : KlineSeries stepMs grid}
  {startAt endAt : Time}

/-- a fetch over a range of microseconds -/
structure CandleFetch.Over (f : CandleFetch) (startAt endAt : Time) : Prop where
  start : f.startCloseMs = (startAt : ℤ) / 1000
  stop : f.endCloseMs = (endAt : ℤ) / 1000

theorem mem_window (h : f.Of series) (hover : f.Over startAt endAt) {row : Kline} :
    row ∈ inWindow series.rows f.startOpenMs f.endOpenMs ↔
      row ∈ series.rows ∧ (startAt : ℤ) / 1000 ≤ row.closeMs ∧ row.closeMs * 1000 ≤ endAt := by
  rw [mem_inWindow, CandleFetch.startOpenMs, CandleFetch.endOpenMs, hover.start, hover.stop, h.step]
  refine and_congr_right fun hrow => ?_
  have hclose := series.closes row hrow
  omega

theorem closedAt_iff (h : f.Of series) {row : Kline} (hrow : row ∈ series.rows) :
    (startAt ≤ (f.candle row.closeMs row).closedAt ∧ (f.candle row.closeMs row).closedAt ≤ endAt ∧
      (f.candle row.closeMs row).closedAt ≤ f.receivedAt) ↔
        ClosedIn startAt endAt f.receivedAt row := by
  have hclose := series.closes row hrow
  have hopen := series.epoch row hrow
  have hpos := h.pos
  obtain ⟨closedAt, hclosedAt⟩ : ∃ n : ℕ, row.closeMs * 1000 = n :=
    Int.eq_ofNat_of_zero_le (by omega)
  rw [CandleFetch.candle, ClosedIn, hclosedAt, Int.toNat_natCast, Nat.cast_le, Nat.cast_le, Nat.cast_le]

/-- the closed candles of the range are rows of the window -/
theorem closedCandles_eq (h : f.Of series) (hover : f.Over startAt endAt) :
    closedCandles f series.rows startAt endAt =
      ((inWindow series.rows f.startOpenMs f.endOpenMs).filter fun row =>
        ClosedIn startAt endAt f.receivedAt row).map fun row => f.candle row.closeMs row := by
  have hclosed : ∀ row ∈ series.rows, (startAt ≤ (f.candle row.closeMs row).closedAt ∧
      (f.candle row.closeMs row).closedAt ≤ endAt ∧
      (f.candle row.closeMs row).closedAt ≤ f.receivedAt ↔
        ClosedIn startAt endAt f.receivedAt row) := by
    intro row hrow
    exact closedAt_iff h hrow
  have hwindow : series.rows.filter (fun row => ClosedIn startAt endAt f.receivedAt row) =
      (inWindow series.rows f.startOpenMs f.endOpenMs).filter fun row =>
        ClosedIn startAt endAt f.receivedAt row := by
    rw [inWindow, List.filter_filter]
    refine List.filter_congr fun row hrow => ?_
    rw [← Bool.decide_and, decide_eq_decide]
    refine (and_iff_left_of_imp fun hin => ?_).symm
    have hmem := (mem_window h hover).2 ⟨hrow, by have := hin.1; omega, hin.2.1⟩
    exact (mem_inWindow.1 hmem).2
  rw [closedCandles, List.filter_map, ← hwindow]
  congr 1
  refine List.filter_congr fun row hrow => ?_
  rw [Function.comp_apply, decide_eq_decide]
  exact hclosed row hrow

/-- rows of the range are no more than the closes of the grid -/
theorem length_le_gridCloses (h : f.Of series) (hover : f.Over startAt endAt)
    (hinside : ∀ row ∈ inWindow series.rows f.startOpenMs f.endOpenMs,
      (startAt : ℤ) ≤ row.closeMs * 1000) :
    (inWindow series.rows f.startOpenMs f.endOpenMs).length ≤
      (gridCloses stepMs grid startAt endAt).card := by
  have hcloses := (window_closes h le_rfl (le_refl f.endOpenMs)).2.1
  have hnodup : ((inWindow series.rows f.startOpenMs f.endOpenMs).map Kline.closeMs).Nodup :=
    List.pairwise_map.2 (hcloses.imp fun hlt => hlt.ne)
  rw [← List.length_map Kline.closeMs, ← List.toFinset_card_of_nodup hnodup]
  refine Finset.card_le_card fun closeMs hmem => ?_
  obtain ⟨row, hrow, rfl⟩ := List.mem_map.1 (List.mem_toFinset.1 hmem)
  obtain ⟨hseries, hlow, hhigh⟩ := (mem_window h hover).1 hrow
  have hgrid : row.closeMs ≡ grid + stepMs - 1 [ZMOD stepMs] := by
    rw [series.closes row hseries]
    exact ((series.onGrid row hseries).add_right stepMs).sub_right 1
  rw [gridCloses, Finset.mem_filter, Finset.mem_Icc]
  exact ⟨⟨hlow, by omega⟩, hgrid, hinside row hrow, hhigh⟩

/-- a window of which all rows are closed in the range is collected as it is -/
theorem collected_of_none_cut_off (h : f.Of series) (hover : f.Over startAt endAt)
    (hsize : (gridCloses stepMs grid startAt endAt).card ≤ f.limit)
    (hnone : NoneCutOff series.rows startAt endAt f.receivedAt) :
    (inWindow series.rows f.startOpenMs f.endOpenMs).length ≤ f.limit ∧
    closedCandles f series.rows startAt endAt =
      (inWindow series.rows f.startOpenMs f.endOpenMs).map fun row => f.candle row.closeMs row := by
  have hall : ∀ row ∈ inWindow series.rows f.startOpenMs f.endOpenMs,
      ClosedIn startAt endAt f.receivedAt row := by
    intro row hrow
    obtain ⟨hseries, hlow, hhigh⟩ := (mem_window h hover).1 hrow
    exact hnone row hseries hlow hhigh
  refine ⟨(length_le_gridCloses h hover fun row hrow => (hall row hrow).1).trans hsize, ?_⟩
  rw [closedCandles_eq h hover, List.filter_eq_self.2 fun row hrow => by simpa using hall row hrow]

/-- the oldest rows of the window are the closed candles of the range only if none is cut off -/
theorem none_cut_off_of_collected (h : f.Of series) (hover : f.Over startAt endAt)
    (hlimit : 0 < f.limit) (hsize : (gridCloses stepMs grid startAt endAt).card ≤ f.limit)
    (hcollected : ((inWindow series.rows f.startOpenMs f.endOpenMs).take f.limit).map
      (fun row => f.candle row.closeMs row) = closedCandles f series.rows startAt endAt) :
    NoneCutOff series.rows startAt endAt f.receivedAt := by
  have htaken : ∀ row ∈ (inWindow series.rows f.startOpenMs f.endOpenMs).take f.limit,
      ClosedIn startAt endAt f.receivedAt row := by
    intro row hrow
    have hmem : f.candle row.closeMs row ∈ closedCandles f series.rows startAt endAt :=
      hcollected ▸ List.mem_map_of_mem hrow
    rw [closedCandles, List.mem_filter, decide_eq_true_iff] at hmem
    obtain ⟨hseries, -, -⟩ := (mem_window h hover).1 (List.mem_of_mem_take hrow)
    exact (closedAt_iff h hseries).1 hmem.2
  -- the first row of the window is collected, so no row closes before the range
  have hinside : ∀ row ∈ inWindow series.rows f.startOpenMs f.endOpenMs,
      (startAt : ℤ) ≤ row.closeMs * 1000 := by
    have hcloses := (window_closes h le_rfl (le_refl f.endOpenMs)).2.1
    intro row hrow
    cases hwindow : inWindow series.rows f.startOpenMs f.endOpenMs with
    | nil =>
      rw [hwindow] at hrow
      cases hrow
    | cons first rest =>
      rw [hwindow] at hrow hcloses htaken
      have hfirst : first ∈ (first :: rest).take f.limit := by
        obtain ⟨n, hn⟩ := Nat.exists_eq_succ_of_ne_zero hlimit.ne'
        rw [hn, List.take_succ_cons]
        exact List.mem_cons_self
      have hstart := (htaken first hfirst).1
      rcases List.mem_cons.1 hrow with rfl | hrest
      · exact hstart
      · have hlater := (List.pairwise_cons.1 hcloses).1 row hrest
        omega
  have hlength := (length_le_gridCloses h hover hinside).trans hsize
  rw [List.take_of_length_le hlength] at htaken
  intro row hrow hlow hhigh
  exact htaken row ((mem_window h hover).2 ⟨hrow, hlow, hhigh⟩)

end

theorem timeframe_supported {timeframe : String} {stepSeconds : ℕ}
    (h : timeframeSeconds timeframe = some stepSeconds) :
    validTimeframe timeframe = true ∧ 0 < stepSeconds ∧
      ∃ interval, timeframeToBybit timeframe = some interval := by
  unfold timeframeSeconds at h
  split at h
  all_goals first
    | cases h
      exact ⟨by decide +kernel, by decide, _, rfl⟩
    | cases h

/-- the constants of an accepted fetch -/
def acceptedFetch (exchange : Exchange) (interval symbol timeframe : String) (stepSeconds : ℕ)
    (startAt endAt receivedAt : Time) (limit : ℤ) : CandleFetch where
  exchange := exchange
  symbol := symbol
  timeframe := timeframe
  interval := interval
  stepMs := stepSeconds * 1000
  startCloseMs := startAt / 1000
  endCloseMs := endAt / 1000
  receivedAt := receivedAt
  limit := limit.toNat

section

variable {stepSeconds : ℕ} {grid : ℤ} {series : KlineSeries (stepSeconds * 1000) grid}
  {symbol timeframe interval : String} {startAt endAt receivedAt : Time} {limit : ℤ}

theorem fetchConstants_ok {exchange : Exchange} {intervals : String → Option String}
    (htimeframe : timeframeSeconds timeframe = some stepSeconds)
    (hinterval : intervals timeframe = some interval) (hrange : startAt ≤ endAt)
    (hlimit : 1 ≤ limit ∧ limit ≤ 1000000) :
    fetchConstants exchange intervals symbol timeframe startAt endAt receivedAt limit =
      .ok (acceptedFetch exchange interval symbol timeframe stepSeconds startAt endAt receivedAt
        limit) := by
  unfold fetchConstants
  rw [htimeframe, hinterval]
  dsimp only
  rw [if_neg (not_lt.2 hrange), if_neg (by omega)]
  rfl

end

/-! ## A start between two milliseconds -/

/-- a series of one minute -/
def firstMinute : KlineSeries ((60 : ℕ) * 1000) 0 where
  rows := [⟨0, 59999, 100, 110, 90, 105, 1⟩]
  ascending := List.pairwise_singleton _ _
  onGrid := by decide +kernel
  closes := by decide +kernel
  epoch := by decide +kernel
  priced := by decide +kernel

end CapitalCipher
