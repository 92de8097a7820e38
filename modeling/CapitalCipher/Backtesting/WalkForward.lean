/-
The temporal splits of `backtesting/walk_forward.py`: train, validation and test windows of a candle
series, fold after fold.

A dataset hash is taken to be the market facts it digests. The quality summary of a manifest is left
out: nothing here reads it.

  • `planFrom_length`: the folds planned are those whose test segment ends inside the series.
  • `Fold`: what a fold promises: bounds, order in time, embargoes.
  • `walk_forward_never_leaks`: when planning raises, and what it returns otherwise.
-/
import CapitalCipher.Lib.Result
import CapitalCipher.Schemas.Market

namespace CapitalCipher

open Lib

/-! ## Schemas -/

structure WalkForwardProtocol where
  trainCandles : ℕ := 250
  validationCandles : ℕ := 100
  testCandles : ℕ := 100
  embargoCandles : ℕ := 1
  stepCandles : Option ℕ := none
  anchoredTrain : Bool := false
  maxFolds : ℕ := 20
  deriving DecidableEq

namespace WalkForwardProtocol

/-- the field constraints and `validate_non_overlapping_test_windows` -/
def check (p : WalkForwardProtocol) : Except Error WalkForwardProtocol :=
  validateModel
    [("train_candles", decide (1 ≤ p.trainCandles ∧ p.trainCandles ≤ 1000000)),
     ("validation_candles", decide (1 ≤ p.validationCandles ∧ p.validationCandles ≤ 1000000)),
     ("test_candles", decide (1 ≤ p.testCandles ∧ p.testCandles ≤ 1000000)),
     ("embargo_candles", decide (p.embargoCandles ≤ 100000)),
     ("step_candles", decide (∀ s ∈ p.stepCandles, 1 ≤ s ∧ s ≤ 1000000)),
     ("max_folds", decide (1 ≤ p.maxFolds ∧ p.maxFolds ≤ 100))]
    [("step_candles must be at least test_candles so test windows cannot overlap",
       decide (∀ s ∈ p.stepCandles, p.testCandles ≤ s))] p

/-- every default passes its own check -/
theorem default_check : WalkForwardProtocol.check {} = .ok {} := by decide +kernel

/-- `step_candles or test_candles` -/
def resolvedStepCandles (p : WalkForwardProtocol) : ℕ :=
  match p.stepCandles with
  | some s => if s = 0 then p.testCandles else s
  | none => p.testCandles

end WalkForwardProtocol

structure CandleDatasetManifest where
  datasetHash : List Candle
  series : Series
  startAt : Time
  endAt : Time
  rowCount : ℕ
  deriving DecidableEq

/-- candles by close time; sorting keeps the order of equal ones -/
def sortedCandles (candles : List Candle) : List Candle :=
  candles.insertionSort fun a b => a.closedAt ≤ b.closedAt

/-- `build_candle_dataset_manifest`; within the one series it accepts, the other sort keys tie -/
def buildCandleDatasetManifest (candles : List Candle) : Except Error CandleDatasetManifest :=
  match sortedCandles candles with
  | [] => .error ⟨.dataQuality, "Cannot catalog an empty candle dataset"⟩
  | first :: rest =>
    if ∃ c ∈ rest, c.series ≠ first.series then
      .error ⟨.dataQuality, "A candle manifest must contain exactly one series"⟩
    else if ¬ ((first :: rest).map Candle.closedAt).Nodup then
      .error ⟨.dataQuality, "A candle manifest cannot contain duplicate timestamps"⟩
    else
      .ok
        { datasetHash := (first :: rest).map Candle.facts
          series := first.series
          startAt := first.closedAt
          endAt := ((first :: rest).getLast (List.cons_ne_nil first rest)).closedAt
          rowCount := (first :: rest).length }

inductive SegmentRole where
  | train | validation | test
  deriving DecidableEq, Repr

structure WalkForwardSegment where
  role : SegmentRole
  startIndex : ℕ
  endIndexExclusive : ℕ
  candles : ℕ
  startAt : Time
  endAt : Time
  datasetHash : List Candle
  deriving DecidableEq

def WalkForwardSegment.check (s : WalkForwardSegment) : Except Error WalkForwardSegment :=
  validateModel
    [("end_index_exclusive", decide (0 < s.endIndexExclusive)), ("candles", decide (0 < s.candles))]
    [] s

/-! ## Planning -/

/-- `ordered[start:end]` -/
def sliceOf (ordered : List Candle) (start stop : ℕ) : List Candle := (ordered.take stop).drop start

/-- `_build_segment` -/
def buildSegment (role : SegmentRole) (ordered : List Candle) (start stop : ℕ) :
    Except Error WalkForwardSegment := do
  let selected := sliceOf ordered start stop
  let manifest ← buildCandleDatasetManifest selected
  match selected.head?, selected.getLast? with
  | some first, some last =>
    WalkForwardSegment.check
      { role, startIndex := start, endIndexExclusive := stop, candles := selected.length
        startAt := first.closedAt, endAt := last.closedAt, datasetHash := manifest.datasetHash }
  | _, _ => .error ⟨.transport, "IndexError"⟩

namespace WalkForwardProtocol

variable (p : WalkForwardProtocol)

def trainStart (fold : ℕ) : ℕ := if p.anchoredTrain then 0 else fold * p.resolvedStepCandles

def trainEnd (fold : ℕ) : ℕ :=
  if p.anchoredTrain then p.trainCandles + fold * p.resolvedStepCandles
  else p.trainStart fold + p.trainCandles

def validationStart (fold : ℕ) : ℕ := p.trainEnd fold + p.embargoCandles
def validationEnd (fold : ℕ) : ℕ := p.validationStart fold + p.validationCandles
def testStart (fold : ℕ) : ℕ := p.validationEnd fold + p.embargoCandles
def testEnd (fold : ℕ) : ℕ := p.testStart fold + p.testCandles

end WalkForwardProtocol

/-- a fold's three segments -/
structure Window where
  train : WalkForwardSegment
  validation : WalkForwardSegment
  test : WalkForwardSegment
  deriving DecidableEq

def buildWindow (p : WalkForwardProtocol) (ordered : List Candle) (fold : ℕ) :
    Except Error Window := do
  let train ← buildSegment .train ordered (p.trainStart fold) (p.trainEnd fold)
  let validation ← buildSegment .validation ordered (p.validationStart fold) (p.validationEnd fold)
  let test ← buildSegment .test ordered (p.testStart fold) (p.testEnd fold)
  .ok { train, validation, test }

/-- the loop over the folds, with the number of rounds left and the next fold's index -/
def planFrom (p : WalkForwardProtocol) (ordered : List Candle) :
    (rounds fold : ℕ) → Except Error (List Window)
  | 0, _ => .ok []
  | rounds + 1, fold =>
    if ordered.length < p.testEnd fold then .ok []
    else do
      let window ← buildWindow p ordered fold
      let windows ← planFrom p ordered rounds (fold + 1)
      .ok (window :: windows)

/-- `plan_walk_forward_windows` -/
def planWalkForwardWindows (candles : List Candle) (p : WalkForwardProtocol) :
    Except Error (List Candle × List Window) :=
  if candles = [] then .error ⟨.transport, "Walk-forward evaluation requires candles"⟩
  else do
    let ordered := sortedCandles candles
    let _ ← buildCandleDatasetManifest ordered
    let windows ← planFrom p ordered p.maxFolds 0
    if windows = [] then
      .error ⟨.transport, "Insufficient candles for one walk-forward fold: requires at least " ++
        toString (p.trainCandles + p.validationCandles + p.testCandles + 2 * p.embargoCandles) ++
        ", received " ++ toString ordered.length⟩
    else .ok (ordered, windows)

/-! ## A series in order -/

/-- candles of one series, each closed after the one before -/
structure InOrder (series : Series) (l : List Candle) : Prop where
  series : ∀ c ∈ l, c.series = series
  times : l.Pairwise fun a b => a.closedAt < b.closedAt

variable {series : Series} {candles ordered l : List Candle}

theorem sortedCandles_perm (candles : List Candle) : (sortedCandles candles).Perm candles :=
  List.perm_insertionSort _ _

theorem sortedCandles_inOrder (hs : ∀ c ∈ candles, c.series = series)
    (hd : (candles.map Candle.closedAt).Nodup) : InOrder series (sortedCandles candles) := by
  have hperm := sortedCandles_perm candles
  refine ⟨fun c hc => hs c (hperm.mem_iff.1 hc), ?_⟩
  have : Std.Total fun a b : Candle => a.closedAt ≤ b.closedAt := ⟨fun a b => le_total _ _⟩
  have : IsTrans Candle fun a b => a.closedAt ≤ b.closedAt := ⟨fun _ _ _ => le_trans⟩
  have hle : (sortedCandles candles).Pairwise fun a b => a.closedAt ≤ b.closedAt :=
    List.pairwise_insertionSort _ _
  have hne : (sortedCandles candles).Pairwise fun a b => a.closedAt ≠ b.closedAt :=
    List.pairwise_map.1 ((hperm.map Candle.closedAt).nodup_iff.2 hd)
  exact hle.imp₂ (fun _ _ h h' => lt_of_le_of_ne h h') hne

namespace InOrder

theorem nodup (h : InOrder series l) : (l.map Candle.closedAt).Nodup :=
  List.pairwise_map.2 (h.times.imp ne_of_lt)

theorem sublist {l' : List Candle} (h : InOrder series l) (hsub : l'.Sublist l) :
    InOrder series l' :=
  ⟨fun c hc => h.series c (hsub.subset hc), h.times.sublist hsub⟩

theorem slice (h : InOrder series l) (start stop : ℕ) : InOrder series (sliceOf l start stop) :=
  h.sublist ((List.drop_sublist _ _).trans (List.take_sublist _ _))

/-- no candle series in order is refused by the manifest -/
theorem manifest_ok (h : InOrder series l) (hne : l ≠ []) :
    ∃ m, buildCandleDatasetManifest l = .ok m := by
  have hsorted := sortedCandles_inOrder h.series h.nodup
  unfold buildCandleDatasetManifest
  cases hl : sortedCandles l with
  | nil =>
    have hnil := sortedCandles_perm l
    rw [hl, List.nil_perm] at hnil
    exact absurd hnil hne
  | cons first rest =>
    rw [hl] at hsorted
    have hone : ¬ ∃ c ∈ rest, c.series ≠ first.series := by
      rintro ⟨c, hc, hdiff⟩
      exact hdiff ((hsorted.series c (List.mem_cons_of_mem _ hc)).trans
        (hsorted.series first List.mem_cons_self).symm)
    dsimp only
    rw [if_neg hone, if_neg (not_not.2 hsorted.nodup)]
    exact ⟨_, rfl⟩

/-- an earlier index is an earlier close -/
theorem lt_of_lt (h : InOrder series l) {i j : ℕ} (hij : i < j) {a b : Candle}
    (ha : l[i]? = some a) (hb : l[j]? = some b) : a.closedAt < b.closedAt := by
  obtain ⟨hi, rfl⟩ := List.getElem?_eq_some_iff.1 ha
  obtain ⟨hj, rfl⟩ := List.getElem?_eq_some_iff.1 hb
  exact List.pairwise_iff_getElem.1 h.times i j hi hj hij

theorem time_lt (h : InOrder series l) {i j : ℕ} (hij : i < j) {x y : Time}
    (hx : l[i]?.map Candle.closedAt = some x) (hy : l[j]?.map Candle.closedAt = some y) : x < y := by
  obtain ⟨a, ha, rfl⟩ := Option.map_eq_some_iff.1 hx
  obtain ⟨b, hb, rfl⟩ := Option.map_eq_some_iff.1 hy
  exact h.lt_of_lt hij ha hb

theorem time_le (h : InOrder series l) {i j : ℕ} (hij : i ≤ j) {x y : Time}
    (hx : l[i]?.map Candle.closedAt = some x) (hy : l[j]?.map Candle.closedAt = some y) : x ≤ y := by
  rcases Nat.eq_or_lt_of_le hij with rfl | hlt
  · exact (Option.some.inj (hx.symm.trans hy)).le
  · exact (h.time_lt hlt hx hy).le

end InOrder

theorem length_sliceOf {start stop : ℕ} (hstop : stop ≤ l.length) :
    (sliceOf l start stop).length = stop - start := by
  rw [sliceOf, List.length_drop, List.length_take, min_eq_left hstop]

theorem mem_sliceOf {start stop : ℕ} {c : Candle} :
    c ∈ sliceOf l start stop ↔ ∃ i, start ≤ i ∧ i < stop ∧ l[i]? = some c := by
  rw [List.mem_iff_getElem?]
  simp only [sliceOf, List.getElem?_drop, List.getElem?_take]
  constructor
  · rintro ⟨i, hi⟩
    split_ifs at hi with hlt
    exact ⟨start + i, Nat.le_add_right _ _, hlt, hi⟩
  · rintro ⟨i, hge, hlt, hi⟩
    refine ⟨i - start, ?_⟩
    rw [if_pos (by omega), Nat.add_sub_cancel' hge, hi]

/-! ## Segments -/

/-- the segment of a role between two indices of a series -/
structure SegmentAt (ordered : List Candle) (role : SegmentRole) (start stop : ℕ)
    (s : WalkForwardSegment) : Prop where
  role : s.role = role
  startIndex : s.startIndex = start
  endIndexExclusive : s.endIndexExclusive = stop
  candles : s.candles = stop - start
  first : ordered[start]?.map Candle.closedAt = some s.startAt
  last : ordered[stop - 1]?.map Candle.closedAt = some s.endAt

theorem buildSegment_ok (h : InOrder series ordered) (role : SegmentRole) {start stop : ℕ}
    (hlt : start < stop) (hstop : stop ≤ ordered.length) :
    ∃ s, buildSegment role ordered start stop = .ok s ∧ SegmentAt ordered role start stop s := by
  have hlength : (sliceOf ordered start stop).length = stop - start := length_sliceOf hstop
  have hne : sliceOf ordered start stop ≠ [] := by
    rw [← List.length_pos_iff, hlength]
    omega
  obtain ⟨m, hm⟩ := (h.slice start stop).manifest_ok hne
  have hhead : (sliceOf ordered start stop).head? = ordered[start]? := by
    rw [List.head?_eq_getElem?, sliceOf, List.getElem?_drop, List.getElem?_take, if_pos (by omega),
      Nat.add_zero]
  have hlast : (sliceOf ordered start stop).getLast? = ordered[stop - 1]? := by
    rw [List.getLast?_eq_getElem?, hlength, sliceOf, List.getElem?_drop, List.getElem?_take,
      if_pos (by omega)]
    congr 1
    omega
  obtain ⟨first, hfirst⟩ : ∃ c, ordered[start]? = some c :=
    ⟨_, List.getElem?_eq_getElem (by omega)⟩
  obtain ⟨last, hlast'⟩ : ∃ c, ordered[stop - 1]? = some c :=
    ⟨_, List.getElem?_eq_getElem (by omega)⟩
  unfold buildSegment
  simp only [hm, Except.bind, bind, hhead, hlast, hfirst, hlast', hlength]
  refine ⟨_, validateModel_ok.2 ⟨?_, by simp, rfl⟩, ⟨rfl, rfl, rfl, rfl, ?_, ?_⟩⟩
  · simp only [List.forall_mem_cons, decide_eq_true_eq]
    refine ⟨by omega, by omega, by simp⟩
  · rw [hfirst]
    rfl
  · rw [hlast']
    rfl

/-- the candles of a segment -/
def WalkForwardSegment.candlesOf (s : WalkForwardSegment) (ordered : List Candle) : List Candle :=
  sliceOf ordered s.startIndex s.endIndexExclusive

/-! ## Folds -/

/-- the window of a fold -/
structure WindowAt (p : WalkForwardProtocol) (ordered : List Candle) (fold : ℕ) (w : Window) :
    Prop where
  train : SegmentAt ordered .train (p.trainStart fold) (p.trainEnd fold) w.train
  validation :
    SegmentAt ordered .validation (p.validationStart fold) (p.validationEnd fold) w.validation
  test : SegmentAt ordered .test (p.testStart fold) (p.testEnd fold) w.test
  bounded : p.testEnd fold ≤ ordered.length

/-- what a fold promises -/
structure Fold (p : WalkForwardProtocol) (ordered : List Candle) (w : Window) : Prop where
  train : w.train.startIndex < w.train.endIndexExclusive
  embargo : w.train.endIndexExclusive + p.embargoCandles ≤ w.validation.startIndex
  validation : w.validation.startIndex < w.validation.endIndexExclusive
  embargo' : w.validation.endIndexExclusive + p.embargoCandles ≤ w.test.startIndex
  test : w.test.startIndex < w.test.endIndexExclusive
  bounded : w.test.endIndexExclusive ≤ ordered.length
  counted : w.train.candles = (w.train.candlesOf ordered).length ∧
    w.validation.candles = (w.validation.candlesOf ordered).length ∧
    w.test.candles = (w.test.candlesOf ordered).length
  trainFirst : ∀ a ∈ w.train.candlesOf ordered, ∀ b ∈ w.validation.candlesOf ordered,
    a.closedAt < b.closedAt
  testLast : ∀ a ∈ w.validation.candlesOf ordered, ∀ b ∈ w.test.candlesOf ordered,
    a.closedAt < b.closedAt
  times : w.train.startAt ≤ w.train.endAt ∧ w.train.endAt < w.validation.startAt ∧
    w.validation.startAt ≤ w.validation.endAt ∧ w.validation.endAt < w.test.startAt ∧
    w.test.startAt ≤ w.test.endAt

namespace WalkForwardProtocol

variable {p : WalkForwardProtocol}

/-- what the bounds of an accepted protocol give: windows are not empty, steps not below a test -/
theorem bounds_of_check (hp : p.check = .ok p) :
    0 < p.trainCandles ∧ 0 < p.validationCandles ∧ 0 < p.testCandles ∧
      p.testCandles ≤ p.resolvedStepCandles ∧ 0 < p.maxFolds := by
  obtain ⟨hfields, hrules, -⟩ := validateModel_ok.1 hp
  simp only [List.forall_mem_cons, decide_eq_true_eq] at hfields hrules
  obtain ⟨htrain, hvalidation, htest, -, -, hfolds, -⟩ := hfields
  refine ⟨by omega, by omega, by omega, ?_, by omega⟩
  unfold resolvedStepCandles
  cases hs : p.stepCandles with
  | none => exact le_rfl
  | some step =>
    have hle := hrules.1 step hs
    dsimp only
    split_ifs
    · exact le_rfl
    · exact hle

/-- train windows start inside the series and are not empty -/
theorem trainStart_lt (htrain : 0 < p.trainCandles) (fold : ℕ) : p.trainStart fold < p.trainEnd fold := by
  unfold trainEnd trainStart
  split_ifs
  · omega
  · omega

/-- each fold is one step behind the next -/
theorem testStart_succ (fold : ℕ) :
    p.testStart (fold + 1) = p.testStart fold + p.resolvedStepCandles := by
  have hstep : (fold + 1) * p.resolvedStepCandles =
      fold * p.resolvedStepCandles + p.resolvedStepCandles := Nat.succ_mul _ _
  simp only [testStart, validationEnd, validationStart, trainEnd, trainStart]
  split_ifs <;> omega

theorem testEnd_le_testStart (hstep : p.testCandles ≤ p.resolvedStepCandles) {i j : ℕ}
    (hij : i < j) : p.testEnd i ≤ p.testStart j := by
  induction j, hij using Nat.le_induction with
  | base =>
    rw [testStart_succ, testEnd]
    omega
  | succ j _ ih =>
    rw [testStart_succ]
    omega

theorem testEnd_mono (hstep : p.testCandles ≤ p.resolvedStepCandles) {i j : ℕ} (hij : i ≤ j) :
    p.testEnd i ≤ p.testEnd j := by
  rcases Nat.eq_or_lt_of_le hij with rfl | hlt
  · exact le_rfl
  · exact (testEnd_le_testStart hstep hlt).trans (Nat.le_add_right _ _)

/-- the order of a fold's indices -/
theorem ends_le (p : WalkForwardProtocol) (fold : ℕ) :
    p.trainEnd fold ≤ p.validationStart fold ∧ p.validationStart fold ≤ p.validationEnd fold ∧
      p.validationEnd fold ≤ p.testStart fold ∧ p.testStart fold ≤ p.testEnd fold := by
  unfold testEnd testStart validationEnd validationStart
  omega

end WalkForwardProtocol

variable {p : WalkForwardProtocol}

open WalkForwardProtocol

theorem buildWindow_ok (h : InOrder series ordered) (hp : p.check = .ok p) {fold : ℕ}
    (hfits : p.testEnd fold ≤ ordered.length) :
    ∃ w, buildWindow p ordered fold = .ok w ∧ WindowAt p ordered fold w := by
  obtain ⟨htrain, hvalidation, htest, -⟩ := bounds_of_check hp
  obtain ⟨h1, -, h3, -⟩ := ends_le p fold
  have hv : p.validationStart fold < p.validationEnd fold := Nat.lt_add_of_pos_right hvalidation
  have ht : p.testStart fold < p.testEnd fold := Nat.lt_add_of_pos_right htest
  obtain ⟨train, htrain', hT⟩ := buildSegment_ok h .train (trainStart_lt htrain fold)
    (by omega : p.trainEnd fold ≤ ordered.length)
  obtain ⟨validation, hvalidation', hV⟩ := buildSegment_ok h .validation hv (by omega)
  obtain ⟨test, htest', hE⟩ := buildSegment_ok h .test ht hfits
  refine ⟨⟨train, validation, test⟩, ?_, hT, hV, hE, hfits⟩
  simp only [buildWindow, htrain', hvalidation', htest', Except.bind, bind]

/-- the folds planned: as many as fit, each at its place -/
theorem planFrom_spec (h : InOrder series ordered) (hp : p.check = .ok p) (rounds fold : ℕ) :
    ∃ windows, planFrom p ordered rounds fold = .ok windows ∧
      List.Forall₂ (WindowAt p ordered) (List.range' fold windows.length) windows ∧
      windows.length ≤ rounds ∧
      (windows.length = rounds ∨ ordered.length < p.testEnd (fold + windows.length)) := by
  induction rounds generalizing fold with
  | zero => exact ⟨[], rfl, .nil, le_rfl, .inl rfl⟩
  | succ rounds ih =>
    unfold planFrom
    split_ifs with hshort
    · exact ⟨[], rfl, .nil, Nat.zero_le _, .inr hshort⟩
    · obtain ⟨w, hw, hat⟩ := buildWindow_ok h hp (not_lt.1 hshort)
      obtain ⟨ws, hws, hall, hle, hend⟩ := ih (fold + 1)
      refine ⟨w :: ws, ?_, .cons hat hall, Nat.succ_le_succ hle, ?_⟩
      · simp only [hw, hws, Except.bind, bind]
      · rw [List.length_cons]
        rcases hend with heq | hlt
        · left
          omega
        · right
          rwa [Nat.add_assoc, Nat.add_comm 1] at hlt

/-- the candles of an earlier segment close before those of a later one -/
theorem SegmentAt.closes_before (h : InOrder series ordered) {role role' : SegmentRole}
    {start stop start' stop' : ℕ} {s s' : WalkForwardSegment}
    (hs : SegmentAt ordered role start stop s) (hs' : SegmentAt ordered role' start' stop' s')
    (hle : stop ≤ start') : ∀ a ∈ s.candlesOf ordered, ∀ b ∈ s'.candlesOf ordered,
      a.closedAt < b.closedAt := by
  intro a ha b hb
  rw [WalkForwardSegment.candlesOf, hs.startIndex, hs.endIndexExclusive] at ha
  rw [WalkForwardSegment.candlesOf, hs'.startIndex, hs'.endIndexExclusive] at hb
  obtain ⟨i, -, hi, hia⟩ := mem_sliceOf.1 ha
  obtain ⟨j, hj, -, hjb⟩ := mem_sliceOf.1 hb
  exact h.lt_of_lt (by omega) hia hjb

theorem SegmentAt.counted {role : SegmentRole} {start stop : ℕ} {s : WalkForwardSegment}
    (hs : SegmentAt ordered role start stop s) (hstop : stop ≤ ordered.length) :
    s.candles = (s.candlesOf ordered).length := by
  rw [WalkForwardSegment.candlesOf, hs.startIndex, hs.endIndexExclusive, length_sliceOf hstop,
    hs.candles]

theorem WindowAt.fold (h : InOrder series ordered) (hp : p.check = .ok p) {i : ℕ} {w : Window}
    (hw : WindowAt p ordered i w) : Fold p ordered w := by
  obtain ⟨htrain, hvalidation, htest, -⟩ := bounds_of_check hp
  have hT : p.trainStart i < p.trainEnd i := trainStart_lt htrain i
  have hV : p.validationStart i < p.validationEnd i := Nat.lt_add_of_pos_right hvalidation
  have hE : p.testStart i < p.testEnd i := Nat.lt_add_of_pos_right htest
  obtain ⟨h1, -, h3, -⟩ := ends_le p i
  have hbounded := hw.bounded
  constructor
  case train => rwa [hw.train.startIndex, hw.train.endIndexExclusive]
  case embargo =>
    rw [hw.train.endIndexExclusive, hw.validation.startIndex]
    exact le_rfl
  case validation => rwa [hw.validation.startIndex, hw.validation.endIndexExclusive]
  case embargo' =>
    rw [hw.validation.endIndexExclusive, hw.test.startIndex]
    exact le_rfl
  case test => rwa [hw.test.startIndex, hw.test.endIndexExclusive]
  case bounded => rwa [hw.test.endIndexExclusive]
  case counted =>
    exact ⟨hw.train.counted (by omega), hw.validation.counted (by omega), hw.test.counted hbounded⟩
  case trainFirst => exact hw.train.closes_before h hw.validation h1
  case testLast => exact hw.validation.closes_before h hw.test h3
  case times =>
    exact ⟨h.time_le (by omega) hw.train.first hw.train.last,
      h.time_lt (by omega) hw.train.last hw.validation.first,
      h.time_le (by omega) hw.validation.first hw.validation.last,
      h.time_lt (by omega) hw.validation.last hw.test.first,
      h.time_le (by omega) hw.test.first hw.test.last⟩

/-! ## The plan -/

/-- **Walk-forward windows.** Planning an admitted protocol over a series without duplicate times
raises exactly when the first fold does not fit; otherwise it returns as many folds as fit, each with
its segments in order and embargoed, and their test segments one after the other. -/
theorem walk_forward_never_leaks (hp : p.check = .ok p) (hs : ∀ c ∈ candles, c.series = series)
    (hd : (candles.map Candle.closedAt).Nodup) :
    ((∃ e, planWalkForwardWindows candles p = .error e) ↔ candles.length < p.testEnd 0) ∧
    ∀ ordered windows, planWalkForwardWindows candles p = .ok (ordered, windows) →
      ordered.Perm candles ∧ InOrder series ordered ∧
      IsGreatest {k | 0 < k ∧ k ≤ p.maxFolds ∧ p.testEnd (k - 1) ≤ candles.length} windows.length ∧
      (∀ w ∈ windows, Fold p ordered w) ∧
      windows.Pairwise fun v w => v.test.endIndexExclusive ≤ w.test.startIndex := by
  obtain ⟨htrain, -, -, hstep, hfolds⟩ := bounds_of_check hp
  have hperm := sortedCandles_perm candles
  have hordered := sortedCandles_inOrder hs hd
  obtain ⟨windows, hplan, hall, hle, hend⟩ := planFrom_spec hordered hp p.maxFolds 0
  rw [Nat.zero_add, hperm.length_eq] at hend
  have hfits : ∀ k < windows.length, p.testEnd k ≤ candles.length := by
    intro k hk
    obtain ⟨w, -, hw⟩ := Result.forall₂_mem (List.Forall₂.flip hall)
      (List.mem_range'_1.2 ⟨Nat.zero_le k, by omega⟩)
    exact hperm.length_eq ▸ hw.bounded
  have hpos : 0 < p.testEnd 0 := by
    have hlt := trainStart_lt htrain 0
    obtain ⟨h1, h2, h3, h4⟩ := ends_le p 0
    omega
  by_cases hempty : candles = []
  · -- no candles at all
    subst hempty
    have hraise : planWalkForwardWindows [] p =
        .error ⟨.transport, "Walk-forward evaluation requires candles"⟩ := rfl
    refine ⟨⟨fun _ => hpos, fun _ => ⟨_, hraise⟩⟩, fun ordered windows hok => ?_⟩
    rw [hraise] at hok
    cases hok
  have hne : sortedCandles candles ≠ [] := by
    rwa [Ne, ← List.length_eq_zero_iff, hperm.length_eq, List.length_eq_zero_iff]
  obtain ⟨m, hm⟩ := hordered.manifest_ok hne
  unfold planWalkForwardWindows
  rw [if_neg hempty]
  simp only [hm, hplan, Except.bind, bind]
  by_cases hnone : windows = []
  · -- not even the first fold fits
    rw [if_pos hnone]
    have hshort : candles.length < p.testEnd 0 := by
      rw [hnone, List.length_nil] at hend
      rcases hend with heq | hlt
      · omega
      · exact hlt
    exact ⟨⟨fun _ => hshort, fun _ => ⟨_, rfl⟩⟩, fun ordered windows hok => by cases hok⟩
  · rw [if_neg hnone]
    have hlength : 0 < windows.length := List.length_pos_iff.2 hnone
    have hfirst := hfits 0 hlength
    refine ⟨⟨fun h => ?_, fun h => absurd h (not_lt.2 hfirst)⟩, ?_⟩
    · obtain ⟨e, he⟩ := h
      cases he
    · intro ordered windows' hok
      cases hok
      refine ⟨hperm, hordered, ⟨⟨hlength, hle, hfits _ (by omega)⟩, ?_⟩, ?_, ?_⟩
      · -- a further fold would end behind the series
        rintro k ⟨hk, hkmax, hkfits⟩
        by_contra hlt
        rcases hend with heq | hshort
        · omega
        · have hmono := testEnd_mono (p := p) hstep (by omega : windows.length ≤ k - 1)
          omega
      · intro w hw
        obtain ⟨i, -, hat⟩ := Result.forall₂_mem hall hw
        exact hat.fold hordered hp
      · refine Result.pairwise_of_forall₂ ?_ hall List.pairwise_lt_range'
        intro i j v w hv hw hij
        rw [hv.test.endIndexExclusive, hw.test.startIndex]
        exact testEnd_le_testStart hstep hij

/-- closes one minute after the other -/
def minuteCandles (n : ℕ) : List Candle :=
  (List.range n).map fun i =>
    { exchange := .binance, symbol := "BTCUSDT", timeframe := "1m", openPrice := 1, high := 1, low := 1
      close := 1, volume := 1, closedAt := i * 60000000, receivedAt := 0 }

def shortProtocol : WalkForwardProtocol :=
  { trainCandles := 3, validationCandles := 1, testCandles := 1 }

/-- ten candles hold four folds of three, one and one with an embargo of one -/
theorem walk_forward_never_leaks_ten :
    ((∃ e, planWalkForwardWindows (minuteCandles 10) shortProtocol = .error e) ↔
      (minuteCandles 10).length < shortProtocol.testEnd 0) ∧
    ∀ ordered windows, planWalkForwardWindows (minuteCandles 10) shortProtocol =
        .ok (ordered, windows) →
      ordered.Perm (minuteCandles 10) ∧ InOrder ⟨.binance, "BTCUSDT", "1m"⟩ ordered ∧
      IsGreatest {k | 0 < k ∧ k ≤ shortProtocol.maxFolds ∧
        shortProtocol.testEnd (k - 1) ≤ (minuteCandles 10).length} windows.length ∧
      (∀ w ∈ windows, Fold shortProtocol ordered w) ∧
      windows.Pairwise fun v w => v.test.endIndexExclusive ≤ w.test.startIndex :=
  walk_forward_never_leaks (by decide +kernel) (by decide +kernel) (by decide +kernel)

example : ((planWalkForwardWindows (minuteCandles 10) shortProtocol).toOption.map fun r =>
    r.2.map fun w => (w.train.startIndex, w.test.startIndex, w.test.endIndexExclusive)) =
    some [(0, 6, 7), (1, 7, 8), (2, 8, 9), (3, 9, 10)] := by
  decide +kernel

end CapitalCipher
