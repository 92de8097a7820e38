/-
Gap tracking over runs of scans and candle insertions.

A close time of a series is missing while no candle of that close time is stored, and tracked while
an unresolved gap record covers it.

  • `scan_cases`: what a scan did: nothing, or it saved the gaps it detected, and then perhaps
    resolved the records that reach into its range and were not detected again.
  • `saved_tracked`, `mem_resolved`: what each of the two leaves tracked.
  • `remembers_of_encloses`, `encloses_of_remembers`: when a step forgets no missing close.
  • `gaps_never_forgotten_iff`: when a whole run forgets none.
-/
import CapitalCipher.Lib.Run
import CapitalCipher.MarketData.Gaps

namespace CapitalCipher

open Lib

/-- the record's range holds `t` -/
def MarketDataGap.Covers (g : MarketDataGap) (t : Time) : Prop := g.startAt ≤ t ∧ t ≤ g.endAt

/-- the record reaches into the range -/
def MarketDataGap.Overlaps (g : MarketDataGap) (startAt endAt : Time) : Prop :=
  startAt ≤ g.endAt ∧ g.startAt ≤ endAt

/-- no candle of that close time is stored -/
def Db.Missing (db : Db) (s : Series) (t : Time) : Prop :=
  ∀ r ∈ db.candles.rows, r.candle.series = s → r.candle.closedAt ≠ t

/-- the unresolved records of a series -/
def Db.openGaps (db : Db) (s : Series) : List MarketDataGap :=
  db.gaps.rows.filter fun g => g.series == s && g.status != .resolved

/-- an unresolved record of the series covers the close time -/
def Db.Tracked (db : Db) (s : Series) (t : Time) : Prop := ∃ g ∈ db.openGaps s, g.Covers t

instance (g : MarketDataGap) (t : Time) : Decidable (g.Covers t) :=
  inferInstanceAs (Decidable (_ ∧ _))

instance (g : MarketDataGap) (a b : Time) : Decidable (g.Overlaps a b) :=
  inferInstanceAs (Decidable (_ ∧ _))

instance (db : Db) (s : Series) (t : Time) : Decidable (db.Missing s t) :=
  inferInstanceAs (Decidable (∀ _ ∈ _, _))

instance (db : Db) (s : Series) (t : Time) : Decidable (db.Tracked s t) :=
  inferInstanceAs (Decidable (∃ _ ∈ _, _))

theorem Db.mem_openGaps {db : Db} {s : Series} {g : MarketDataGap} :
    g ∈ db.openGaps s ↔ g ∈ db.gaps.rows ∧ g.series = s ∧ g.status ≠ .resolved := by
  simp [Db.openGaps, List.mem_filter]

/-- two records with one id are about the same range -/
theorem covers_of_gapId {g g' : MarketDataGap} (h : g.gapId = g'.gapId) {t : Time} :
    g.Covers t ↔ g'.Covers t := by
  obtain ⟨-, h2⟩ := Prod.mk.inj h
  obtain ⟨h3, h4⟩ := Prod.mk.inj h2
  unfold MarketDataGap.Covers
  rw [h3, h4]

/-! ## What the transactions do -/

/-- `save_market_data_gaps` files every gap and leaves the other records and the candles alone -/
structure GapsSaved (gaps : List MarketDataGap) (db db' : Db) : Prop where
  candles : db'.candles = db.candles
  others : ∀ {g}, g.gapId ∉ gaps.map MarketDataGap.gapId →
    (g ∈ db'.gaps.rows ↔ g ∈ db.gaps.rows)
  filed : ∀ gap ∈ gaps, ∃ g ∈ db'.gaps.rows, g.gapId = gap.gapId ∧ g.status = .open_

theorem upsertGap_saved {gap : MarketDataGap} (ho : gap.status = .open_) {db db' : Db}
    (h : (Repository.upsertGap gap).run db = .ok ((), db')) : GapsSaved [gap] db db' := by
  unfold Repository.upsertGap at h
  obtain ⟨_, _, hget, h⟩ := Tx.bind_ok.1 h
  cases Tx.get_ok.1 hget
  cases hf : db.gaps.get? gap.gapId with
  | none =>
    rw [hf] at h
    obtain ⟨T, hT, he⟩ := Tx.write_ok.1 h
    cases he
    have hrows := (Table.insert_ok hT).1
    refine ⟨rfl, ?_, ?_⟩
    · intro g hg
      have hne : g ≠ gap := by
        rintro rfl
        simp at hg
      simp [hrows, hne]
    · intro gap' hgap
      rw [List.mem_singleton] at hgap
      subst hgap
      exact ⟨gap', by simp [hrows], rfl, ho⟩
  | some old =>
    rw [hf] at h
    obtain ⟨T, hT, he⟩ := Tx.write_ok.1 h
    cases he
    have hrows := (Table.update_ok hT).1
    obtain ⟨hmem, hid⟩ := (Table.get?_eq_some _).1 hf
    refine ⟨rfl, ?_, ?_⟩
    · intro g hg
      have hne : g.gapId ≠ gap.gapId := by simpa using hg
      simp only [hrows, List.mem_map]
      constructor
      · rintro ⟨x, hx, rfl⟩
        split_ifs at hne ⊢ with hc
        · have hid : x.gapId = gap.gapId := by simpa using hc
          exact absurd hid hne
        · exact hx
      · intro hx
        exact ⟨g, hx, by simp [hne]⟩
    · intro gap' hgap
      rw [List.mem_singleton] at hgap
      subst hgap
      have hid' : old.gapId = gap'.gapId := hid
      refine ⟨_, Table.mem_of_update hT hmem, ?_⟩
      rw [if_pos (by simp [hid'])]
      exact ⟨hid', ho⟩

theorem saveGaps_saved {gaps : List MarketDataGap} (ho : ∀ g ∈ gaps, g.status = .open_)
    {db db' : Db} (h : (Repository.saveMarketDataGaps gaps).run db = .ok ((), db')) :
    GapsSaved gaps db db' := by
  have hloop : (Tx.forEach gaps Repository.upsertGap).run db = .ok ((), db') := Tx.wrap_ok.1 h
  clear h
  induction gaps generalizing db with
  | nil =>
    cases Tx.pure_ok.1 hloop
    exact ⟨rfl, fun _ => Iff.rfl, by simp⟩
  | cons gap gaps ih =>
    obtain ⟨u, db₁, h1, h2⟩ := Tx.bind_ok.1 hloop
    have hfirst := upsertGap_saved (ho gap (by simp)) h1
    have hrest := ih (fun g hg => ho g (List.mem_cons_of_mem gap hg)) h2
    refine ⟨hrest.candles.trans hfirst.candles, ?_, ?_⟩
    · intro g hg
      rw [List.map_cons, List.mem_cons, not_or] at hg
      rw [hrest.others hg.2, hfirst.others (by simpa using hg.1)]
    · intro gap' hgap
      rcases List.mem_cons.1 hgap with rfl | hgap
      · by_cases hin : gap'.gapId ∈ gaps.map MarketDataGap.gapId
        · obtain ⟨x, hx, hxid⟩ := List.mem_map.1 hin
          obtain ⟨g, hg, hgid, hgo⟩ := hrest.filed x hx
          exact ⟨g, hg, hgid.trans hxid, hgo⟩
        · obtain ⟨g, hg, hgid, hgo⟩ := hfirst.filed gap' (by simp)
          exact ⟨g, (hrest.others (hgid ▸ hin)).2 hg, hgid, hgo⟩
      · exact hrest.filed gap' hgap

/-- what is tracked once the gaps are saved -/
theorem saved_tracked {gaps : List MarketDataGap} {db db' : Db} (h : GapsSaved gaps db db')
    (s : Series) (t : Time) :
    db'.Tracked s t ↔ db.Tracked s t ∨ ∃ gap ∈ gaps, gap.series = s ∧ gap.Covers t := by
  have hseries : ∀ {g gap : MarketDataGap}, g.gapId = gap.gapId → g.series = gap.series :=
    fun h => (Prod.mk.inj h).1
  constructor
  · rintro ⟨g, hg, hcov⟩
    obtain ⟨hmem, hs, hopen⟩ := Db.mem_openGaps.1 hg
    by_cases hin : g.gapId ∈ gaps.map MarketDataGap.gapId
    · obtain ⟨gap, hgap, hid⟩ := List.mem_map.1 hin
      exact .inr ⟨gap, hgap, (hseries hid).trans hs, (covers_of_gapId hid).2 hcov⟩
    · exact .inl ⟨g, Db.mem_openGaps.2 ⟨(h.others hin).1 hmem, hs, hopen⟩, hcov⟩
  · have hnew : ∀ gap ∈ gaps, gap.series = s → gap.Covers t → db'.Tracked s t := by
      intro gap hgap hs hcov
      obtain ⟨g, hg, hid, ho⟩ := h.filed gap hgap
      have hgs : g.series = s := (hseries hid).trans hs
      exact ⟨g, Db.mem_openGaps.2 ⟨hg, hgs, by simp [ho]⟩, (covers_of_gapId hid).2 hcov⟩
    rintro (⟨g, hg, hcov⟩ | ⟨gap, hgap, hs, hcov⟩)
    · obtain ⟨hmem, hs, hopen⟩ := Db.mem_openGaps.1 hg
      by_cases hin : g.gapId ∈ gaps.map MarketDataGap.gapId
      · obtain ⟨gap, hgap, hid⟩ := List.mem_map.1 hin
        exact hnew gap hgap ((hseries hid).trans hs) ((covers_of_gapId hid).2 hcov)
      · exact ⟨g, Db.mem_openGaps.2 ⟨(h.others hin).2 hmem, hs, hopen⟩, hcov⟩
    · exact hnew gap hgap hs hcov

theorem mem_resolved {now : Time} {s : Series} {a b : Time} {ids : List (Series × Time × Time)}
    {db db' : Db}
    (h : (Repository.resolveMarketDataGaps now s a b ids).run db = .ok ((), db')) (s' : Series)
    (g : MarketDataGap) : g ∈ db'.openGaps s' ↔
      g ∈ db.openGaps s' ∧ (s' = s → g.Overlaps a b → g.gapId ∈ ids) := by
  obtain ⟨T, hT, he⟩ := Tx.write_ok.1 (Tx.wrap_ok.1 h)
  cases he
  have hrows := (Table.update_ok hT).1
  simp only [Db.mem_openGaps, hrows, List.mem_map]
  constructor
  · rintro ⟨⟨x, hx, rfl⟩, hs, ho⟩
    split_ifs at hs ho ⊢ with hc
    · exact absurd rfl ho
    · refine ⟨⟨hx, hs, ho⟩, ?_⟩
      rintro rfl hov
      by_contra hid
      exact hc (by simp [hs, ho, hid, hov.1, hov.2])
  · rintro ⟨⟨hg, hs, ho⟩, hkeep⟩
    refine ⟨⟨g, hg, ?_⟩, hs, ho⟩
    rw [if_neg]
    simp only [Bool.and_eq_true, beq_iff_eq, bne_iff_ne, decide_eq_true_eq]
    rintro ⟨⟨⟨hss, -⟩, hov⟩, hid⟩
    exact hid (hkeep (hs.symm.trans hss) hov)

theorem resolved_candles {now : Time} {s : Series} {a b : Time}
    {ids : List (Series × Time × Time)} {db db' : Db}
    (h : (Repository.resolveMarketDataGaps now s a b ids).run db = .ok ((), db')) :
    db'.candles = db.candles := by
  obtain ⟨T, hT, he⟩ := Tx.write_ok.1 (Tx.wrap_ok.1 h)
  cases he
  rfl

theorem listCandles_ok (s : Series) (a b : Time) (limit : ℕ) (db : Db) :
    ∃ candles, (Repository.listCandles s a b limit).run db = .ok (candles, db) ∧
      (∀ c ∈ candles, ∃ r ∈ db.candles.rows,
        r.candle.series = s ∧ a ≤ r.candle.closedAt ∧ r.candle.closedAt ≤ b ∧
          c.series = s ∧ c.closedAt = r.candle.closedAt) ∧
      (candles.map Candle.closedAt).Nodup := by
  refine ⟨_, rfl, ?_, ?_⟩
  · intro c hc
    obtain ⟨r, hr, rfl⟩ := List.mem_map.1 hc
    have hr' := (List.mem_insertionSort _).1 (List.mem_of_mem_take hr)
    simp only [List.mem_filter, Bool.and_eq_true, beq_iff_eq, decide_eq_true_eq] at hr'
    obtain ⟨hmem, hs, ha, hb⟩ := hr'
    exact ⟨r, hmem, hs, ha, hb, hs, rfl⟩
  · rw [List.map_map]
    have hnodup : ((db.candles.rows.filter fun r => r.candle.series == s &&
        decide (a ≤ r.candle.closedAt ∧ r.candle.closedAt ≤ b)).map
          fun r => r.candle.closedAt).Nodup := by
      rw [List.Nodup, List.pairwise_map]
      refine (db.candles.unique.filter _).imp_of_mem ?_
      intro x y hx hy hapart heq
      simp only [List.mem_filter, Bool.and_eq_true, beq_iff_eq] at hx hy
      have hclash := hapart.2.1
      simp [candleSchema, hx.2.1, hy.2.1, heq] at hclash
    refine List.Nodup.sublist ((List.take_sublist _ _).map _) ?_
    exact (List.Perm.nodup_iff ((List.perm_insertionSort _ _).map _)).2 hnodup

/-- `save_candle` adds the candle or leaves the database alone -/
theorem saveCandle_ok {candle : Candle} {quality : DataQualityReport} {db db' : Db} {new : Bool}
    (h : (Repository.saveCandle candle quality).run db = .ok (new, db')) :
    db' = db ∨ ∃ T, db.candles.insert ⟨candle, quality⟩ = .ok T ∧
      db' = { db with candles := T } := by
  obtain ⟨_, _, hget, h⟩ := Tx.bind_ok.1 (Tx.wrap_ok.1 h)
  cases Tx.get_ok.1 hget
  split at h
  · cases Tx.pure_ok.1 h
    exact .inl rfl
  · obtain ⟨u, db₁, hins, h⟩ := Tx.bind_ok.1 h
    cases Tx.pure_ok.1 h
    obtain ⟨T, hT, he⟩ := Tx.write_ok.1 hins
    cases he
    exact .inr ⟨T, hT, rfl⟩

/-! ## Scans -/

/-- one step of gap tracking -/
inductive GapOp where
  | saveCandle (candle : Candle) (quality : DataQualityReport)
  | scan (lost : GapCall → Bool) (now : Time) (series : Series) (startAt endAt : Time) (limit : ℕ)

def gapStep (db : Db) : GapOp → Db
  | .saveCandle candle quality => (Service.await false (Repository.saveCandle candle quality) db).2
  | .scan lost now series startAt endAt limit =>
    (GapService.scan lost now series startAt endAt limit db).2

theorem Service.await_ok {α : Type} {lost : Bool} {x : Txn α} {db db' : Db} {a : α}
    (h : Service.await lost x db = (.ok a, db')) : x.run db = .ok (a, db') := by
  unfold Service.await at h
  split_ifs at h with hl
  · cases h
  · split at h
    · rename_i hx
      cases h
      exact hx
    · cases h

theorem Service.await_error {α : Type} {lost : Bool} {x : Txn α} {db db' : Db} {e : Error}
    (h : Service.await lost x db = (.error e, db')) : db' = db := by
  unfold Service.await at h
  split_ifs at h with hl
  · cases h
    rfl
  · split at h
    · cases h
    · cases h
      rfl

theorem Service.lift_bind {α β : Type} (x : Except Error α) (f : α → Service β) (db : Db) :
    (Service.lift x >>= f) db = match x with
      | .ok a => f a db
      | .error e => (.error e, db) := by
  cases x <;> rfl

theorem Service.await_bind {α β : Type} (lost : Bool) (x : Txn α) (f : α → Service β) (db : Db) :
    (Service.await lost x >>= f) db =
      if lost then (.error ⟨.database, "connection lost"⟩, db)
      else match x.run db with
        | .ok (a, db') => f a db'
        | .error e => (.error e, db) := by
  change ExceptT.bindCont f (Service.await lost x db).1 (Service.await lost x db).2 = _
  unfold Service.await
  cases lost with
  | true => rfl
  | false =>
    cases x.run db with
    | error e => rfl
    | ok r => rfl

/-- the close times a scan read, and that it read them from the stored candles -/
structure Detected (db : Db) (s : Series) (a b : Time) (step : ℕ) (timestamps : List ℕ) :
    Prop where
  step_eq : s.step = some step
  le : a ≤ b
  sorted : timestamps.Pairwise (· < ·)
  stored : ∀ t ∈ timestamps, ∃ r ∈ db.candles.rows,
    r.candle.series = s ∧ r.candle.closedAt = t ∧ a ≤ t ∧ t ≤ b

/-- the records a scan files -/
def detectedGaps (s : Series) (a b : Time) (step : ℕ) (timestamps : List ℕ) :
    List MarketDataGap := (missingRanges step a b timestamps).map (gapOfRange s)

theorem detected_of_list {db : Db} {s : Series} {a b : Time} {limit : ℕ} {candles : List Candle}
    (hl : (Repository.listCandles s a b limit).run db = .ok (candles, db))
    {gaps : List MarketDataGap} (hd : detectCandleGaps candles s a b = .ok gaps) :
    ∃ step timestamps, Detected db s a b step timestamps ∧
      gaps = detectedGaps s a b step timestamps := by
  obtain ⟨cs, hcs, hrows, -⟩ := listCandles_ok s a b limit db
  rw [hcs] at hl
  cases hl
  obtain ⟨step, hstep, hle, hnd, rfl⟩ := detectCandleGaps_ok.1 hd
  refine ⟨step, _, ⟨hstep, hle, scannedTimestamps_sorted hnd, ?_⟩, rfl⟩
  intro t ht
  obtain ⟨c, hc, -, ha, hb, rfl⟩ := mem_scannedTimestamps.1 ht
  obtain ⟨r, hr, hs, -, -, -, hcl⟩ := hrows c hc
  exact ⟨r, hr, hs, hcl.symm, ha, hb⟩

/-- nothing stops the scan before it has resolved -/
def GapOp.Completes : GapOp → Prop
  | .saveCandle _ _ => False
  | .scan lost _ series startAt endAt limit => ∃ step, series.step = some step ∧ startAt ≤ endAt ∧
      ((endAt : ℤ) - startAt) / step + 1 ≤ limit ∧ limit ≤ 1000000 ∧ ∀ call, lost call = false

/-- what a scan did: nothing, or it saved what it detected and then perhaps resolved the rest -/
theorem scan_cases (lost : GapCall → Bool) (now : Time) (s : Series) (a b : Time) (limit : ℕ)
    (db : Db) :
    gapStep db (.scan lost now s a b limit) = db ∨
      ∃ step timestamps db₁, Detected db s a b step timestamps ∧
        GapsSaved (detectedGaps s a b step timestamps) db db₁ ∧
        (gapStep db (.scan lost now s a b limit) = db₁ ∨
          (GapOp.scan lost now s a b limit).Completes ∧
            (Repository.resolveMarketDataGaps now s a b
              ((detectedGaps s a b step timestamps).map MarketDataGap.gapId)).run db₁ =
              .ok ((), gapStep db (.scan lost now s a b limit))) := by
  simp only [gapStep]
  generalize hr : GapService.scan lost now s a b limit db = r
  simp only [GapService.scan, Service.lift_bind, Service.await_bind] at hr
  obtain ⟨candles, hl, -⟩ := listCandles_ok s a b limit db
  rw [hl] at hr
  -- up to the save every step leaves the database alone
  cases hstep : s.step with
  | none =>
    rw [hstep] at hr
    exact .inl (hr ▸ rfl)
  | some step =>
  rw [hstep] at hr
  dsimp only at hr
  by_cases hcount : (limit : ℤ) < ((b : ℤ) - a) / step + 1
  · rw [if_pos hcount] at hr
    exact .inl (hr ▸ rfl)
  rw [if_neg hcount] at hr
  dsimp only at hr
  by_cases hlimit : limit < 1 ∨ 1000000 < limit
  · rw [if_pos hlimit] at hr
    exact .inl (hr ▸ rfl)
  rw [if_neg hlimit] at hr
  dsimp only at hr
  by_cases h1 : lost .listCandles = true
  · rw [if_pos h1] at hr
    exact .inl (hr ▸ rfl)
  rw [if_neg h1] at hr
  cases hd : detectCandleGaps candles s a b with
  | error e =>
    rw [hd] at hr
    exact .inl (hr ▸ rfl)
  | ok gaps =>
    rw [hd] at hr
    dsimp only at hr
    obtain ⟨step', timestamps, hdet, rfl⟩ := detected_of_list hl hd
    cases hstep.symm.trans hdet.step_eq
    by_cases h2 : lost .saveMarketDataGaps = true
    · rw [if_pos h2] at hr
      exact .inl (hr ▸ rfl)
    rw [if_neg h2] at hr
    cases hs : (Repository.saveMarketDataGaps (detectedGaps s a b step timestamps)).run db with
    | error e =>
      rw [hs] at hr
      exact .inl (hr ▸ rfl)
    | ok saved =>
      obtain ⟨u, db₁⟩ := saved
      rw [hs] at hr
      dsimp only at hr
      have hopen : ∀ g ∈ detectedGaps s a b step timestamps, g.status = .open_ := by
        intro g hg
        obtain ⟨x, -, rfl⟩ := List.mem_map.1 hg
        rfl
      refine .inr ⟨step, timestamps, db₁, hdet, saveGaps_saved hopen hs, ?_⟩
      by_cases h3 : lost .resolveMarketDataGaps = true
      · rw [if_pos h3] at hr
        exact .inl (hr ▸ rfl)
      rw [if_neg h3] at hr
      split at hr
      · rename_i hres
        rw [← hr]
        have hlost : ∀ call, lost call = false := by
          intro call
          cases call with
          | listCandles => simpa using h1
          | saveMarketDataGaps => simpa using h2
          | resolveMarketDataGaps => simpa using h3
        exact .inr ⟨⟨step, hstep, hdet.le, by omega, by omega, hlost⟩, hres⟩
      · exact .inl (hr ▸ rfl)

theorem upsertGap_isOk {gap : MarketDataGap} (hc : marketDataGapSchema.check gap = true)
    (db : Db) : ∃ db', (Repository.upsertGap gap).run db = .ok ((), db') := by
  unfold Repository.upsertGap
  cases hf : db.gaps.get? gap.gapId with
  | none =>
    have hfresh : ∀ x ∈ db.gaps.rows, marketDataGapSchema.Apart x gap := by
      intro x hx
      exact ⟨(Table.get?_eq_none _).1 hf x hx, rfl, rfl⟩
    obtain ⟨T, hT⟩ := Table.insert_isOk hc hfresh
    refine ⟨{ db with gaps := T }, Tx.bind_ok.2 ⟨db, db, rfl, ?_⟩⟩
    rw [hf]
    exact Tx.write_ok.2 ⟨T, hT, rfl⟩
  | some old =>
    simp only [marketDataGapSchema, decide_eq_true_eq] at hc
    obtain ⟨T, hT⟩ := Table.update_isOk (T := db.gaps)
      (p := fun g => g.gapId == gap.gapId) (f := fun g => { g with
        missingCount := gap.missingCount, status := gap.status, resolvedAt := gap.resolvedAt })
      (by
        intro r _ _
        simp [marketDataGapSchema, MarketDataGap.gapId])
      (by
        intro r hr _
        have hr' := db.gaps.checked r hr
        simp only [marketDataGapSchema, decide_eq_true_eq] at hr' ⊢
        exact ⟨hc.1, hr'.2⟩)
      (by
        intro x _ y _ hxy
        refine ⟨?_, rfl, rfl⟩
        have hkey := hxy.1
        split_ifs <;> exact hkey)
    refine ⟨{ db with gaps := T }, Tx.bind_ok.2 ⟨db, db, rfl, ?_⟩⟩
    rw [hf]
    exact Tx.write_ok.2 ⟨T, hT, rfl⟩

theorem saveGaps_isOk {gaps : List MarketDataGap}
    (hc : ∀ g ∈ gaps, marketDataGapSchema.check g = true) (db : Db) :
    ∃ db', (Repository.saveMarketDataGaps gaps).run db = .ok ((), db') := by
  obtain ⟨db', h, -⟩ := Tx.forEach_isOk (I := fun _ => True) (l := gaps)
    (f := Repository.upsertGap) (fun g hg s _ => by
      obtain ⟨t, ht⟩ := upsertGap_isOk (hc g hg) s
      exact ⟨t, ht, trivial⟩) (s := db) trivial
  exact ⟨db', Tx.wrap_ok.2 h⟩

theorem resolveGaps_isOk (now : Time) (s : Series) (a b : Time) (ids : List (Series × Time × Time))
    (db : Db) : ∃ db', (Repository.resolveMarketDataGaps now s a b ids).run db = .ok ((), db') := by
  obtain ⟨T, hT⟩ := Table.update_isOk (T := db.gaps)
    (p := fun g => g.series == s && g.status != .resolved &&
      decide (a ≤ g.endAt ∧ g.startAt ≤ b) && g.gapId ∉ ids)
    (f := fun g => { g with status := .resolved, resolvedAt := some now })
    (by
      intro r _ _
      simp [marketDataGapSchema, MarketDataGap.gapId])
    (by
      intro r hr _
      exact db.gaps.checked r hr)
    (by
      intro x _ y _ hxy
      refine ⟨?_, rfl, rfl⟩
      have hkey := hxy.1
      split_ifs <;> exact hkey)
  exact ⟨_, Tx.wrap_ok.2 (Tx.write_ok.2 ⟨T, hT, rfl⟩)⟩

/-- a scan that nothing stops saves what it detects and resolves the rest -/
theorem scan_completes {lost : GapCall → Bool} {now : Time} {s : Series} {a b : Time} {limit : ℕ}
    (h : (GapOp.scan lost now s a b limit).Completes) (db : Db) :
    ∃ step timestamps db₁, Detected db s a b step timestamps ∧
      GapsSaved (detectedGaps s a b step timestamps) db db₁ ∧
      (Repository.resolveMarketDataGaps now s a b
        ((detectedGaps s a b step timestamps).map MarketDataGap.gapId)).run db₁ =
          .ok ((), gapStep db (.scan lost now s a b limit)) := by
  obtain ⟨step, hstep, hle, hcount, hmax, hlost⟩ := h
  obtain ⟨candles, hl, -, hnd⟩ := listCandles_ok s a b limit db
  have hdet : detectCandleGaps candles s a b =
      .ok (detectedGaps s a b step (scannedTimestamps candles s a b)) := by
    refine detectCandleGaps_ok.2 ⟨step, hstep, hle, ?_, rfl⟩
    refine (List.Perm.nodup_iff (List.perm_insertionSort _ _)).2 ?_
    exact hnd.sublist ((List.filter_sublist).map _)
  have hchk : ∀ g ∈ detectedGaps s a b step (scannedTimestamps candles s a b),
      marketDataGapSchema.check g = true := by
    intro g hg
    obtain ⟨r, hr, rfl⟩ := List.mem_map.1 hg
    obtain ⟨start, missing, hr⟩ := mem_missingRanges hr
    obtain ⟨-, hrle, -, hpos⟩ := missingRange_inside hr
    simp [marketDataGapSchema, gapOfRange, hpos, hrle]
  have hopen : ∀ g ∈ detectedGaps s a b step (scannedTimestamps candles s a b),
      g.status = .open_ := by
    intro g hg
    obtain ⟨x, -, rfl⟩ := List.mem_map.1 hg
    rfl
  obtain ⟨db₁, hsave⟩ := saveGaps_isOk hchk db
  obtain ⟨db₂, hres⟩ := resolveGaps_isOk now s a b
    ((detectedGaps s a b step (scannedTimestamps candles s a b)).map MarketDataGap.gapId) db₁
  obtain ⟨step', timestamps, hdetected, heq⟩ := detected_of_list hl hdet
  refine ⟨step', timestamps, db₁, hdetected, heq ▸ saveGaps_saved hopen hsave, ?_⟩
  have hpos : ¬ (limit < 1 ∨ 1000000 < limit) := by
    have hba : (a : ℤ) ≤ b := by exact_mod_cast hle
    have : (0 : ℤ) ≤ ((b : ℤ) - a) / step := Int.ediv_nonneg (by omega) (by omega)
    omega
  have hend : gapStep db (.scan lost now s a b limit) = db₂ := by
    simp only [gapStep, GapService.scan, Service.lift_bind, Service.await_bind, hstep,
      if_neg (not_lt.2 hcount), if_neg hpos, hlost, hl, hdet, hsave, hres]
    rfl
  rw [← heq, hend]
  exact hres

/-! ## What stays tracked -/

/-- `t` is a close time of the series whose closes are counted from `origin` -/
def OnGrid (origin : Series → Time) (s : Series) (t : Time) : Prop :=
  ∀ step ∈ s.step, t ≡ origin s [MOD step]

instance (origin : Series → Time) (s : Series) (t : Time) : Decidable (OnGrid origin s t) :=
  inferInstanceAs (Decidable (∀ _ ∈ _, _))

/-- the range of a scan begins and ends on the grid -/
def GapOp.RangeOnGrid (origin : Series → Time) : GapOp → Prop
  | .saveCandle _ _ => True
  | .scan _ _ s a b _ => OnGrid origin s a ∧ OnGrid origin s b

instance (origin : Series → Time) : (op : GapOp) → Decidable (op.RangeOnGrid origin)
  | .saveCandle _ _ => inferInstanceAs (Decidable True)
  | .scan _ _ s a b _ => inferInstanceAs (Decidable (OnGrid origin s a ∧ OnGrid origin s b))

/-- the candle closes on the grid -/
def GapOp.CandleOnGrid (origin : Series → Time) : GapOp → Prop
  | .saveCandle candle _ => OnGrid origin candle.series candle.closedAt
  | .scan _ _ _ _ _ _ => True

/-- the stored candles that the scan reads close on the grid -/
def GapOp.ReadsGrid (origin : Series → Time) (db : Db) : GapOp → Prop
  | .saveCandle _ _ => True
  | .scan _ _ s a b _ => ∀ r ∈ db.candles.rows, r.candle.series = s → a ≤ r.candle.closedAt →
      r.candle.closedAt ≤ b → OnGrid origin s r.candle.closedAt

/-- an unresolved record that reaches into the range of a completed scan covers no missing close
outside it, unless a record that does not reach into the range covers that close too -/
def GapOp.Encloses (origin : Series → Time) (db : Db) : GapOp → Prop
  | .saveCandle _ _ => True
  | .scan lost now s a b limit => (GapOp.scan lost now s a b limit).Completes →
      ∀ g ∈ db.openGaps s, g.Overlaps a b → ∀ t, g.Covers t → OnGrid origin s t → db.Missing s t →
        (a ≤ t ∧ t ≤ b) ∨ ∃ g' ∈ db.openGaps s, ¬ g'.Overlaps a b ∧ g'.Covers t

/-- a missing close that is tracked stays tracked, or is stored -/
def Db.Remembers (origin : Series → Time) (db db' : Db) : Prop :=
  ∀ s t, OnGrid origin s t → db.Missing s t → db.Tracked s t → db'.Missing s t → db'.Tracked s t

/-- the stored candles close on the grid -/
def Db.CandlesOnGrid (origin : Series → Time) (db : Db) : Prop :=
  ∀ r ∈ db.candles.rows, OnGrid origin r.candle.series r.candle.closedAt

theorem Series.step_pos {s : Series} {step : ℕ} (h : s.step = some step) : 0 < step := by
  unfold Series.step timeframeSeconds at h
  split at h <;> simp at h <;> omega

theorem Detected.scannedGrid {origin : Series → Time} {db : Db} {s : Series} {a b : Time}
    {step : ℕ} {timestamps : List ℕ} (h : Detected db s a b step timestamps)
    (ha : OnGrid origin s a) (hb : OnGrid origin s b)
    (hreads : ∀ r ∈ db.candles.rows, r.candle.series = s → a ≤ r.candle.closedAt →
      r.candle.closedAt ≤ b → OnGrid origin s r.candle.closedAt) :
    ScannedGrid step a b timestamps where
  pos := Series.step_pos h.step_eq
  le := h.le
  ends := (hb step h.step_eq).trans (ha step h.step_eq).symm
  sorted := h.sorted
  inside c hc := by
    obtain ⟨r, -, -, -, h1, h2⟩ := h.stored c hc
    exact ⟨h1, h2⟩
  grid c hc := by
    obtain ⟨r, hr, hs, rfl, h1, h2⟩ := h.stored c hc
    exact (hreads r hr hs h1 h2 step h.step_eq).trans (ha step h.step_eq).symm

/-- a record of the state a scan found is still there, under its id, when the gaps are saved -/
theorem saved_keeps {gaps : List MarketDataGap} {db db' : Db} (h : GapsSaved gaps db db')
    {s : Series} {g : MarketDataGap} (hg : g ∈ db.openGaps s) :
    ∃ g' ∈ db'.openGaps s, g'.gapId = g.gapId := by
  obtain ⟨hmem, hs, hopen⟩ := Db.mem_openGaps.1 hg
  by_cases hin : g.gapId ∈ gaps.map MarketDataGap.gapId
  · obtain ⟨gap, hgap, hid⟩ := List.mem_map.1 hin
    obtain ⟨g', hg', hid', ho⟩ := h.filed gap hgap
    have hgs : g'.series = s := ((Prod.mk.inj (hid'.trans hid)).1).trans hs
    exact ⟨g', Db.mem_openGaps.2 ⟨hg', hgs, by simp [ho]⟩, hid'.trans hid⟩
  · exact ⟨g, Db.mem_openGaps.2 ⟨(h.others hin).2 hmem, hs, hopen⟩, rfl⟩

theorem overlaps_of_gapId {g g' : MarketDataGap} (h : g.gapId = g'.gapId) {a b : Time} :
    g.Overlaps a b ↔ g'.Overlaps a b := by
  obtain ⟨-, h2⟩ := Prod.mk.inj h
  obtain ⟨h3, h4⟩ := Prod.mk.inj h2
  unfold MarketDataGap.Overlaps
  rw [h3, h4]

/-- a candle insertion adds at most its candle and leaves the gap records alone -/
theorem saveCandle_step (candle : Candle) (quality : DataQualityReport) (db : Db) :
    (gapStep db (.saveCandle candle quality)).gaps = db.gaps ∧
      ((gapStep db (.saveCandle candle quality)).candles = db.candles ∨
        (gapStep db (.saveCandle candle quality)).candles.rows =
          db.candles.rows ++ [⟨candle, quality⟩]) := by
  simp only [gapStep]
  rcases hx : Service.await false (Repository.saveCandle candle quality) db with ⟨res, db'⟩
  cases res with
  | error e =>
    rw [Service.await_error hx]
    exact ⟨rfl, .inl rfl⟩
  | ok new =>
    rcases saveCandle_ok (Service.await_ok hx) with rfl | ⟨T, hT, rfl⟩
    · exact ⟨rfl, .inl rfl⟩
    · exact ⟨rfl, .inr (Table.insert_ok hT).1⟩

/-- a scan leaves the candles alone -/
theorem scan_candles (lost : GapCall → Bool) (now : Time) (s : Series) (a b : Time) (limit : ℕ)
    (db : Db) : (gapStep db (.scan lost now s a b limit)).candles = db.candles := by
  rcases scan_cases lost now s a b limit db with h | ⟨step, ts, db₁, -, hsave, h | ⟨-, h⟩⟩
  · rw [h]
  · rw [h, hsave.candles]
  · rw [resolved_candles h, hsave.candles]

/-- what is missing after a step was missing before it -/
theorem missing_of_step {db : Db} {op : GapOp} {s : Series} {t : Time}
    (h : (gapStep db op).Missing s t) : db.Missing s t := by
  intro r hr
  refine h r ?_
  cases op with
  | saveCandle candle quality =>
    rcases (saveCandle_step candle quality db).2 with he | he
    · rwa [he]
    · rw [he]
      exact List.mem_append_left _ hr
  | scan lost now s a b limit => rwa [scan_candles]

theorem candlesOnGrid_step {origin : Series → Time} {db : Db} {op : GapOp}
    (h : db.CandlesOnGrid origin) (hop : op.CandleOnGrid origin) :
    (gapStep db op).CandlesOnGrid origin := by
  intro r hr
  cases op with
  | saveCandle candle quality =>
    rcases (saveCandle_step candle quality db).2 with he | he
    · exact h r (he ▸ hr)
    · rw [he, List.mem_append, List.mem_singleton] at hr
      rcases hr with hr | rfl
      · exact h r hr
      · exact hop
  | scan lost now s a b limit =>
    rw [scan_candles] at hr
    exact h r hr

/-- a close that an unresolved record covers stays tracked when the record does not reach into the
scanned range -/
theorem tracked_of_apart {now : Time} {s s' : Series} {a b : Time} {gaps : List MarketDataGap}
    {db db₁ db' : Db} (hsave : GapsSaved gaps db db₁)
    (hres : (Repository.resolveMarketDataGaps now s a b
      (gaps.map MarketDataGap.gapId)).run db₁ = .ok ((), db'))
    {g : MarketDataGap} (hg : g ∈ db.openGaps s') (hapart : s' = s → ¬ g.Overlaps a b) {t : Time}
    (hcov : g.Covers t) : db'.Tracked s' t := by
  obtain ⟨g', hg', hid⟩ := saved_keeps hsave hg
  refine ⟨g', (mem_resolved hres s' g').2 ⟨hg', ?_⟩, (covers_of_gapId hid).2 hcov⟩
  intro hs hov
  exact absurd ((overlaps_of_gapId hid).1 hov) (hapart hs)

/-- a scan whose records all lie in its range, or are not needed, forgets nothing -/
theorem remembers_of_encloses {origin : Series → Time} {db : Db} {op : GapOp}
    (hrange : op.RangeOnGrid origin) (hreads : op.ReadsGrid origin db)
    (hencl : op.Encloses origin db) : db.Remembers origin (gapStep db op) := by
  intro s' t hgrid hmiss htracked _
  cases op with
  | saveCandle candle quality =>
    obtain ⟨g, hg, hcov⟩ := htracked
    refine ⟨g, ?_, hcov⟩
    rw [Db.mem_openGaps] at hg ⊢
    rwa [(saveCandle_step candle quality db).1]
  | scan lost now s a b limit =>
    rcases scan_cases lost now s a b limit db with
      h | ⟨step, ts, db₁, hdet, hsave, h | ⟨hcomp, hres⟩⟩
    · rwa [h]
    · rw [h, saved_tracked hsave]
      exact .inl htracked
    · obtain ⟨g, hg, hcov⟩ := htracked
      by_cases hs : s' = s
      · subst hs
        -- what the record covered is found by the scan, or covered by a record out of its reach
        have hor : (a ≤ t ∧ t ≤ b) ∨ ∃ g' ∈ db.openGaps s', ¬ g'.Overlaps a b ∧ g'.Covers t := by
          by_cases hov : g.Overlaps a b
          · exact hencl hcomp g hg hov t hcov hgrid hmiss
          · exact .inr ⟨g, hg, hov, hcov⟩
        rcases hor with ⟨hat, htb⟩ | ⟨g', hg', hov, hcov'⟩
        · have hsg := hdet.scannedGrid hrange.1 hrange.2 hreads
          have hmod : t ≡ a [MOD step] :=
            (hgrid step hdet.step_eq).trans (hrange.1 step hdet.step_eq).symm
          have hts : t ∉ ts := by
            intro ht
            obtain ⟨r, hr, hrs, hrt, -⟩ := hdet.stored t ht
            exact hmiss r hr hrs hrt
          obtain ⟨r, hr, h1, h2⟩ := missingRanges_covers hsg hat htb hmod hts
          have hgap : gapOfRange s' r ∈ detectedGaps s' a b step ts :=
            List.mem_map.2 ⟨r, hr, rfl⟩
          obtain ⟨g', hg', hid, ho⟩ := hsave.filed _ hgap
          have hg'o : g' ∈ db₁.openGaps s' :=
            Db.mem_openGaps.2 ⟨hg', (Prod.mk.inj hid).1, by simp [ho]⟩
          have hgs : g'.gapId ∈ (detectedGaps s' a b step ts).map MarketDataGap.gapId :=
            hid ▸ List.mem_map.2 ⟨_, hgap, rfl⟩
          exact ⟨g', (mem_resolved hres s' g').2 ⟨hg'o, fun _ _ => hgs⟩,
            (covers_of_gapId hid).2 ⟨h1, h2⟩⟩
        · exact tracked_of_apart hsave hres hg' (fun _ => hov) hcov'
      · exact tracked_of_apart hsave hres hg (fun h => absurd h hs) hcov

/-- on a grid a completed scan that forgets nothing met the condition -/
theorem encloses_of_remembers {origin : Series → Time} {db : Db} {op : GapOp}
    (hrange : op.RangeOnGrid origin) (hreads : op.ReadsGrid origin db)
    (hrem : db.Remembers origin (gapStep db op)) : op.Encloses origin db := by
  cases op with
  | saveCandle candle quality => trivial
  | scan lost now s a b limit =>
    intro hcomp g hg hov t hcov hgrid hmiss
    obtain ⟨step, ts, db₁, hdet, hsave, hres⟩ := scan_completes hcomp db
    have hmiss' : (gapStep db (.scan lost now s a b limit)).Missing s t := by
      intro r hr
      rw [scan_candles] at hr
      exact hmiss r hr
    obtain ⟨g₂, hg₂, hcov₂⟩ := hrem s t hgrid hmiss ⟨g, hg, hcov⟩ hmiss'
    obtain ⟨hopen, hkeep⟩ := (mem_resolved hres s g₂).1 hg₂
    by_cases hin : g₂.gapId ∈ (detectedGaps s a b step ts).map MarketDataGap.gapId
    · -- a detected gap lies inside the scanned range
      obtain ⟨gap, hgap, hid⟩ := List.mem_map.1 hin
      obtain ⟨r, hr, rfl⟩ := List.mem_map.1 hgap
      have hsg := hdet.scannedGrid hrange.1 hrange.2 hreads
      obtain ⟨h1, h2⟩ := missingRanges_inside hsg hr
      obtain ⟨h3, h4⟩ := (covers_of_gapId hid).2 hcov₂
      exact .inl ⟨h1.trans h3, h4.trans h2⟩
    · obtain ⟨hmem, hs, ho⟩ := Db.mem_openGaps.1 hopen
      refine .inr ⟨g₂, Db.mem_openGaps.2 ⟨(hsave.others hin).1 hmem, hs, ho⟩, ?_, hcov₂⟩
      intro hov₂
      exact hin (hkeep rfl hov₂)

/-! ## Runs -/

/-- between any two moments of the run, what was missing and tracked at the first is tracked at the
second, or stored -/
def NeverForgets (origin : Series → Time) (db : Db) (ops : List GapOp) : Prop :=
  ∀ pre mid post, ops = pre ++ mid ++ post →
    (run gapStep db pre).Remembers origin (run gapStep db (pre ++ mid))

theorem missing_of_run {db : Db} {ops : List GapOp} {s : Series} {t : Time}
    (h : (run gapStep db ops).Missing s t) : db.Missing s t := by
  induction ops generalizing db with
  | nil => exact h
  | cons op ops ih => exact missing_of_step (ih h)

theorem remembers_run {origin : Series → Time} {db : Db} {ops : List GapOp}
    (h : Along gapStep (fun db op => db.Remembers origin (gapStep db op)) db ops) :
    db.Remembers origin (run gapStep db ops) := by
  induction ops generalizing db with
  | nil => exact fun s t _ _ ht _ => ht
  | cons op ops ih =>
    intro s t hgrid hmiss htracked hend
    have hmid : (gapStep db op).Missing s t := missing_of_run hend
    exact ih h.2 s t hgrid hmid (h.1 s t hgrid hmiss htracked hmid) hend

/-- a run forgets nothing when no step of it does -/
theorem neverForgets_iff {origin : Series → Time} {db : Db} {ops : List GapOp} :
    NeverForgets origin db ops ↔
      Along gapStep (fun db op => db.Remembers origin (gapStep db op)) db ops := by
  constructor
  · intro h
    induction ops generalizing db with
    | nil => trivial
    | cons op ops ih =>
      refine ⟨h [] [op] ops rfl, ih fun pre mid post he => ?_⟩
      exact h (op :: pre) mid post (by simp [he])
  · rintro h pre mid post rfl
    rw [along_append, along_append] at h
    rw [run_append]
    exact remembers_run h.1.2

/-- **A scan may forget what lies outside its range.** While every scan's range encloses the
unresolved records that reach into it, as far as they cover missing closes that no other record
covers, no missing close is forgotten; on a grid of candles nothing less will do. -/
theorem gaps_never_forgotten_iff (origin : Series → Time) (db : Db) (ops : List GapOp)
    (hrange : ∀ op ∈ ops, op.RangeOnGrid origin) :
    (Along gapStep (fun db op => op.ReadsGrid origin db ∧ op.Encloses origin db) db ops →
      NeverForgets origin db ops) ∧
    (db.CandlesOnGrid origin → (∀ op ∈ ops, op.CandleOnGrid origin) →
      (NeverForgets origin db ops ↔ Along gapStep (fun db op => op.Encloses origin db) db ops)) := by
  constructor
  · intro h
    rw [neverForgets_iff]
    induction ops generalizing db with
    | nil => trivial
    | cons op ops ih =>
      refine ⟨remembers_of_encloses (hrange op (by simp)) h.1.1 h.1.2, ?_⟩
      exact ih _ (fun op' hop => hrange op' (List.mem_cons_of_mem op hop)) h.2
  · intro hdb hcandles
    rw [neverForgets_iff]
    induction ops generalizing db with
    | nil => exact Iff.rfl
    | cons op ops ih =>
      have hr : op.RangeOnGrid origin := hrange op (by simp)
      have hreads : op.ReadsGrid origin db := by
        cases op with
        | saveCandle candle quality => trivial
        | scan lost now s a b limit => exact fun r hr hs _ _ => hs ▸ hdb r hr
      refine and_congr ⟨encloses_of_remembers hr hreads, remembers_of_encloses hr hreads⟩ ?_
      exact ih _ (fun op' hop => hrange op' (List.mem_cons_of_mem op hop))
        (candlesOnGrid_step hdb (hcandles op (by simp)))
        (fun op' hop => hcandles op' (List.mem_cons_of_mem op hop))

/-! ## A nested scan -/

def nestedSeries : Series := ⟨.binance, "BTCUSDT", "1m"⟩

/-- an empty series scanned over four minutes, and then over the second and third of them -/
def nestedScans : List GapOp :=
  [.scan (fun _ => false) 0 nestedSeries 0 180000000 10,
   .scan (fun _ => false) 0 nestedSeries 60000000 120000000 10]

/-- the nested scan resolves the outer record, and the first minute is in no record any more -/
theorem nested_scan_forgets : ¬ ∀ (origin : Series → Time) (db : Db) (ops : List GapOp),
    (∀ op ∈ ops, op.RangeOnGrid origin) → NeverForgets origin db ops := by
  intro h
  have hrange : ∀ op ∈ nestedScans, op.RangeOnGrid fun _ => 0 := by decide
  have hkeep := h (fun _ => 0) Db.empty nestedScans hrange [nestedScans.get ⟨0, by decide⟩]
    [nestedScans.get ⟨1, by decide⟩] [] rfl nestedSeries 0
  exact absurd (hkeep (by decide +kernel) (by decide +kernel) (by decide +kernel)
    (by decide +kernel)) (by decide +kernel)

/-- the same scans in the other order keep every close tracked -/
theorem enclosing_scans_remember :
    NeverForgets (fun _ => 0) Db.empty nestedScans.reverse := by
  refine ((gaps_never_forgotten_iff (fun _ => 0) Db.empty nestedScans.reverse (by decide)).2
    ?_ ?_).2 ⟨?_, ?_, trivial⟩
  · intro r hr
    cases hr
  · simp [nestedScans, GapOp.CandleOnGrid]
  · intro _ g hg
    cases hg
  · have hinner : ∀ g ∈ (gapStep Db.empty (nestedScans.get ⟨1, by decide⟩)).openGaps nestedSeries,
        0 ≤ g.startAt ∧ g.endAt ≤ 180000000 := by decide +kernel
    intro _ g hg _ t ht _ _
    obtain ⟨h1, h2⟩ := hinner g hg
    exact .inl ⟨h1.trans ht.1, ht.2.trans h2⟩

end CapitalCipher
