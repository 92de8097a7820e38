/-
Funding from observed rates: what `HistoricalExecutionResolver.funding_cost` adds up is the time
integral of the rate in force.

  • `fundingFrom_spec`: the loop, from one observation to the next.
  • `fundingCost_raises`, `fundingCost_integral`: when the cost is refused, and what it is.
  • `fundingCost_split`: the cost of an interval is the sum of the costs of its parts.
  • `fundingCost_past`: only observations before the end of the interval matter.
  • `funding_is_integral`: all of it, for every dataset and every interval.
-/
import CapitalCipher.Lib.Neighbours
import CapitalCipher.Lib.Result
import CapitalCipher.Lib.StepFunction
import CapitalCipher.Paper.Execution

namespace CapitalCipher

open Lib

namespace HistoricalExecutionResolver

variable {r : HistoricalExecutionResolver} {notional direction : ℚ}

/-- the latest observation at or before an instant -/
noncomputable def observation (r : HistoricalExecutionResolver) (t : ℝ) :
    Option HistoricalExecutionObservation :=
  inForce (fun o : HistoricalExecutionObservation => (o.observedAt : ℝ)) r.observations t

/-- what a position costs per microsecond at an instant -/
noncomputable def costRate (r : HistoricalExecutionResolver) (notional direction : ℚ) (t : ℝ) : ℝ :=
  (r.observation t).elim 0 fun o =>
    direction * notional * (o.fundingRateBpsPer8h / 10000) / (8 * 3600 * 1000000)

/-- an instant of the interval at which the observation in force is beyond its age -/
def OutdatedIn (r : HistoricalExecutionResolver) (startAt endAt : ℝ) : Prop :=
  ∃ t, startAt ≤ t ∧ t < endAt ∧
    ∃ o, r.observation t = some o ∧ (o.observedAt : ℝ) + r.maxAgeSeconds * 1000000 < t

theorem outdatedIn_append {a b c : ℝ} (hab : a ≤ b) (hbc : b ≤ c) :
    r.OutdatedIn a c ↔ r.OutdatedIn a b ∨ r.OutdatedIn b c := by
  constructor
  · rintro ⟨t, hge, hlt, h⟩
    rcases lt_or_ge t b with hb | hb
    · exact .inl ⟨t, hge, hb, h⟩
    · exact .inr ⟨t, hb, hlt, h⟩
  · rintro (⟨t, hge, hlt, h⟩ | ⟨t, hge, hlt, h⟩)
    · exact ⟨t, hge, hlt.trans_le hbc, h⟩
    · exact ⟨t, hab.trans hge, hlt, h⟩

/-! ## One observation -/

/-- an observation stays in force until the next one -/
theorem observation_eq {before rest : List HistoricalExecutionObservation}
    {current : HistoricalExecutionObservation} {t : ℝ}
    (hsplit : r.observations = before ++ current :: rest) (hcurrent : (current.observedAt : ℝ) ≤ t)
    (hrest : ∀ o ∈ rest.head?, t < o.observedAt) : r.observation t = some current := by
  have hordered := r.ordered
  rw [hsplit, List.map_append, List.map_cons, List.pairwise_append] at hordered
  rw [observation, hsplit]
  refine inForce_append (fun o ho => ?_) hrest
  rcases List.mem_append.1 ho with ho | ho
  · have hlt : o.observedAt < current.observedAt :=
      hordered.2.2 _ (List.mem_map_of_mem ho) _ List.mem_cons_self
    have hcast : (o.observedAt : ℝ) ≤ current.observedAt := by exact_mod_cast hlt.le
    exact hcast.trans hcurrent
  · rwa [List.mem_singleton.1 ho]

/-- the age at the end of a segment decides -/
theorem segmentCost_cases (current : HistoricalExecutionObservation) (startAt endAt : Time) :
    ((∃ e, r.segmentCost notional direction current startAt endAt = .error e) ∧
      (current.observedAt : ℝ) + r.maxAgeSeconds * 1000000 < endAt) ∨
    (∃ x, r.segmentCost notional direction current startAt endAt = .ok x ∧
      (x : ℝ) = ((endAt : ℝ) - startAt) *
        (direction * notional * (current.fundingRateBpsPer8h / 10000) / (8 * 3600 * 1000000)) ∧
      (endAt : ℝ) ≤ (current.observedAt : ℝ) + r.maxAgeSeconds * 1000000) := by
  by_cases hstale : r.maxAgeSeconds - secondsBetween current.observedAt startAt <
      secondsBetween startAt endAt
  · refine .inl ⟨⟨_, if_pos hstale⟩, ?_⟩
    have hage : (current.observedAt : ℚ) + r.maxAgeSeconds * 1000000 < endAt := by
      unfold secondsBetween at hstale
      linarith
    exact_mod_cast hage
  · refine .inr ⟨_, if_neg hstale, ?_, ?_⟩
    · unfold secondsBetween
      push_cast
      ring
    · have hage : (endAt : ℚ) ≤ current.observedAt + r.maxAgeSeconds * 1000000 := by
        unfold secondsBetween at hstale
        linarith
      exact_mod_cast hage

/-- a cost is refused, or an integral of the rate in force -/
def Settles (r : HistoricalExecutionResolver) (notional direction : ℚ) (startAt endAt : ℝ)
    (cost : Except Error ℚ) : Prop :=
  ((∃ e, cost = .error e) ∧ r.OutdatedIn startAt endAt) ∨
  (∃ x, cost = .ok x ∧ IntegralIs (r.costRate notional direction) startAt endAt x ∧
    ¬ r.OutdatedIn startAt endAt)

theorem segmentCost_settles {before rest : List HistoricalExecutionObservation}
    {current : HistoricalExecutionObservation} {startAt endAt : Time}
    (hsplit : r.observations = before ++ current :: rest) (hcurrent : current.observedAt ≤ startAt)
    (hlt : startAt < endAt) (hrest : ∀ o ∈ rest.head?, endAt ≤ o.observedAt) :
    r.Settles notional direction startAt endAt
      (r.segmentCost notional direction current startAt endAt) := by
  have hlt' : (startAt : ℝ) < endAt := by exact_mod_cast hlt
  have hforce : ∀ t : ℝ, startAt ≤ t → t < endAt → r.observation t = some current := by
    intro t hge ht
    refine observation_eq hsplit ?_ fun o ho => ht.trans_le ?_
    · exact le_trans (by exact_mod_cast hcurrent) hge
    · exact_mod_cast hrest o ho
  rcases segmentCost_cases current startAt endAt with ⟨herror, hage⟩ | ⟨x, hok, hx, hage⟩
  · refine .inl ⟨herror, ?_⟩
    -- an instant late in the segment
    obtain ⟨t, ht, hend⟩ := exists_between (max_lt hlt' hage)
    have hstart : (startAt : ℝ) ≤ t := ((le_max_left _ _).trans_lt ht).le
    exact ⟨t, hstart, hend, current, hforce t hstart hend, (le_max_right _ _).trans_lt ht⟩
  · refine .inr ⟨x, hok, ?_, ?_⟩
    · rw [hx]
      refine IntegralIs.of_constant hlt'.le fun t hge ht => ?_
      rw [costRate, hforce t hge.le ht]
      rfl
    · rintro ⟨t, hge, ht, o, ho, hbeyond⟩
      rw [hforce t hge ht] at ho
      cases ho
      linarith

/-! ## The loop -/

/-- two settled costs, one after the other -/
theorem Settles.append {a b c : ℝ} {cost more : Except Error ℚ} (hab : a ≤ b) (hbc : b ≤ c)
    (h : r.Settles notional direction a b cost) (h' : r.Settles notional direction b c more) :
    r.Settles notional direction a c (do
      let x ← cost
      let y ← more
      .ok (x + y)) := by
  rcases h with ⟨⟨e, rfl⟩, hold⟩ | ⟨x, rfl, hx, hnew⟩
  · exact .inl ⟨⟨e, rfl⟩, (outdatedIn_append hab hbc).2 (.inl hold)⟩
  · rcases h' with ⟨⟨e, rfl⟩, hold⟩ | ⟨y, rfl, hy, hnew'⟩
    · exact .inl ⟨⟨e, rfl⟩, (outdatedIn_append hab hbc).2 (.inr hold)⟩
    · refine .inr ⟨x + y, rfl, ?_, ?_⟩
      · rw [Rat.cast_add]
        exact hx.append hy
      · rw [outdatedIn_append hab hbc, not_or]
        exact ⟨hnew, hnew'⟩

/-- the loop settles what lies between its current time and the end -/
theorem fundingFrom_spec {before rest : List HistoricalExecutionObservation}
    {current : HistoricalExecutionObservation} {currentAt endAt : Time}
    (hsplit : r.observations = before ++ current :: rest) (hcurrent : current.observedAt ≤ currentAt)
    (hlt : currentAt < endAt) (hrest : ∀ o ∈ rest, currentAt < o.observedAt) :
    r.Settles notional direction currentAt endAt
      (r.fundingFrom notional direction endAt current currentAt rest) := by
  induction rest generalizing before current currentAt with
  | nil =>
    exact segmentCost_settles hsplit hcurrent hlt fun o ho => by cases ho
  | cons next rest ih =>
    have hnext := hrest next List.mem_cons_self
    rw [fundingFrom]
    by_cases hbefore : next.observedAt < endAt
    · rw [if_pos hbefore]
      have hordered := r.ordered
      rw [hsplit, List.map_append, List.map_cons, List.map_cons, List.pairwise_append,
        List.pairwise_cons, List.pairwise_cons] at hordered
      have hsplit' : r.observations = (before ++ [current]) ++ next :: rest := by
        rw [hsplit, List.append_assoc]
        rfl
      have hlater : ∀ o ∈ rest, next.observedAt < o.observedAt := fun o ho =>
        hordered.2.1.2.1 _ (List.mem_map_of_mem ho)
      refine Settles.append (by exact_mod_cast hnext.le) (by exact_mod_cast hbefore.le)
        (segmentCost_settles hsplit hcurrent hnext fun o ho => ?_) (ih hsplit' le_rfl hbefore hlater)
      cases ho
      exact le_rfl
    · rw [if_neg hbefore]
      refine segmentCost_settles hsplit hcurrent hlt fun o ho => ?_
      cases ho
      exact not_lt.1 hbefore

/-! ## The interval -/

theorem observation_cast (t : Time) : r.observation t = (r.known t).getLast? := by
  rw [observation, inForce, known]
  simp only [Nat.cast_le]

theorem observation_none_of_le {a b : ℝ} (hle : a ≤ b) (h : r.observation b = none) :
    r.observation a = none :=
  inForce_eq_none.2 fun o ho => hle.trans_lt (inForce_eq_none.1 h o ho)

/-- the observations split at an instant -/
theorem observations_split (r : HistoricalExecutionResolver) (t : Time) :
    r.observations = r.known t ++ r.observations.drop (r.known t).length ∧
      ∀ o ∈ r.observations.drop (r.known t).length, t < o.observedAt := by
  have hlater : ∀ l : List HistoricalExecutionObservation,
      (l.map HistoricalExecutionObservation.observedAt).Pairwise (· < ·) →
      ∀ o ∈ l.dropWhile (fun o => decide (o.observedAt ≤ t)), t < o.observedAt := by
    intro l hl o ho
    induction l with
    | nil => cases ho
    | cons a l ih =>
      rw [List.map_cons, List.pairwise_cons] at hl
      by_cases ha : a.observedAt ≤ t
      · rw [List.dropWhile_cons_of_pos (by simpa using ha)] at ho
        exact ih hl.2 ho
      · rw [List.dropWhile_cons_of_neg (by simpa using ha)] at ho
        rcases List.mem_cons.1 ho with rfl | ho
        · exact not_le.1 ha
        · exact (not_le.1 ha).trans (hl.1 _ (List.mem_map_of_mem ho))
  have hdrop : r.observations.drop (r.known t).length =
      r.observations.dropWhile fun o => decide (o.observedAt ≤ t) := by
    conv_lhs =>
      rw [← List.takeWhile_append_dropWhile (p := fun o => decide (o.observedAt ≤ t))
        (l := r.observations)]
    exact List.drop_left
  rw [hdrop]
  exact ⟨(List.takeWhile_append_dropWhile).symm, hlater _ r.ordered⟩

/-- an interval that is not empty has no observation at its start, or settles -/
theorem fundingCost_cases {startAt endAt : Time} (hlt : startAt < endAt) :
    (r.observation startAt = none ∧
      ∃ e, r.fundingCost notional direction startAt endAt = .error e) ∨
    (r.observation startAt ≠ none ∧ r.Settles notional direction startAt endAt
      (r.fundingCost notional direction startAt endAt)) := by
  obtain ⟨hsplit, hlater⟩ := r.observations_split startAt
  rw [observation_cast, fundingCost, if_neg (not_le.2 hlt), resolve]
  cases hknown : (r.known startAt).getLast? with
  | none => exact .inl ⟨rfl, _, rfl⟩
  | some o =>
    refine .inr ⟨Option.some_ne_none o, ?_⟩
    have hmem : o ∈ r.known startAt := List.mem_of_getLast? hknown
    have hbefore : o.observedAt ≤ startAt := by
      simpa using List.mem_takeWhile_imp hmem
    dsimp only
    by_cases hage : r.maxAgeSeconds < secondsBetween o.observedAt startAt
    · rw [if_pos hage]
      refine .inl ⟨⟨_, rfl⟩, startAt, le_rfl, by exact_mod_cast hlt, o, ?_, ?_⟩
      · rw [observation_cast, hknown]
      · have hbeyond : (o.observedAt : ℚ) + r.maxAgeSeconds * 1000000 < startAt := by
          unfold secondsBetween at hage
          linarith
        exact_mod_cast hbeyond
    · rw [if_neg hage]
      obtain ⟨before, hknown'⟩ : ∃ before, r.known startAt = before ++ [o] := by
        have hne : r.known startAt ≠ [] := List.ne_nil_of_mem hmem
        refine ⟨(r.known startAt).dropLast, ?_⟩
        rw [List.getLast?_eq_some_getLast hne, Option.some.injEq] at hknown
        rw [← hknown, List.dropLast_append_getLast hne]
      have hparts : r.observations =
          before ++ o :: r.observations.drop (r.known startAt).length := by
        conv_lhs => rw [hsplit, hknown']
        rw [hknown', List.append_assoc]
        rfl
      exact fundingFrom_spec hparts hbefore hlt hlater

/-- a cost is refused exactly when the interval is not empty and there is no observation at its start,
or one is held beyond its age -/
theorem fundingCost_raises {startAt endAt : Time} :
    (∃ e, r.fundingCost notional direction startAt endAt = .error e) ↔
      startAt < endAt ∧ (r.observation startAt = none ∨ r.OutdatedIn startAt endAt) := by
  rcases le_or_gt endAt startAt with hle | hlt
  · rw [fundingCost, if_pos hle]
    exact iff_of_false (fun ⟨e, he⟩ => by cases he) fun h => absurd h.1 (not_lt.2 hle)
  · rw [and_iff_right hlt]
    rcases @fundingCost_cases r notional direction startAt endAt hlt with
      ⟨hnone, herror⟩ | ⟨hsome, ⟨herror, hold⟩ | ⟨x, hok, -, hnew⟩⟩
    · exact iff_of_true herror (.inl hnone)
    · exact iff_of_true herror (.inr hold)
    · refine iff_of_false ?_ (not_or.2 ⟨hsome, hnew⟩)
      rintro ⟨e, he⟩
      rw [hok] at he
      cases he

/-- a cost that is not refused is the integral of the rate in force -/
theorem fundingCost_integral {startAt endAt : Time} {cost : ℚ} (hle : startAt ≤ endAt)
    (h : r.fundingCost notional direction startAt endAt = .ok cost) :
    IntegralIs (r.costRate notional direction) startAt endAt cost := by
  rcases hle.lt_or_eq with hlt | rfl
  · rcases @fundingCost_cases r notional direction startAt endAt hlt with
      ⟨-, e, he⟩ | ⟨-, ⟨⟨e, he⟩, -⟩ | ⟨x, hok, hx, -⟩⟩
    · rw [h] at he
      cases he
    · rw [h] at he
      cases he
    · rw [h] at hok
      cases hok
      exact hx
  · rw [fundingCost, if_pos le_rfl] at h
    cases h
    rw [Rat.cast_zero]
    exact IntegralIs.empty _ _

theorem fundingCost_ok {startAt endAt : Time} :
    (∃ cost, r.fundingCost notional direction startAt endAt = .ok cost) ↔
      (startAt < endAt → r.observation startAt ≠ none ∧ ¬ r.OutdatedIn startAt endAt) := by
  have hraises := @fundingCost_raises r notional direction startAt endAt
  cases hcost : r.fundingCost notional direction startAt endAt with
  | error e =>
    refine iff_of_false (fun ⟨cost, hok⟩ => by cases hok) fun h => ?_
    obtain ⟨hlt, hbad⟩ := hraises.1 ⟨e, hcost⟩
    obtain ⟨hsome, hnew⟩ := h hlt
    exact hbad.elim hsome hnew
  | ok cost =>
    refine iff_of_true ⟨cost, rfl⟩ fun hlt => ?_
    rw [← not_or]
    intro hbad
    obtain ⟨e, he⟩ := hraises.2 ⟨hlt, hbad⟩
    rw [hcost] at he
    cases he

/-! ## Parts of an interval -/

/-- the cost of an interval is the sum of the costs of its two parts -/
theorem fundingCost_split {a b c : Time} (hab : a ≤ b) (hbc : b ≤ c) {cost : ℚ} :
    r.fundingCost notional direction a c = .ok cost ↔
      ∃ x y, r.fundingCost notional direction a b = .ok x ∧
        r.fundingCost notional direction b c = .ok y ∧ cost = x + y := by
  have hab' : (a : ℝ) ≤ b := by exact_mod_cast hab
  have hbc' : (b : ℝ) ≤ c := by exact_mod_cast hbc
  have hsum : ∀ x y z, r.fundingCost notional direction a b = .ok x →
      r.fundingCost notional direction b c = .ok y →
      r.fundingCost notional direction a c = .ok z → z = x + y := by
    intro x y z hx hy hz
    have hparts := (fundingCost_integral hab hx).append (fundingCost_integral hbc hy)
    have hequal := (fundingCost_integral (hab.trans hbc) hz).unique hparts
    exact_mod_cast hequal
  constructor
  · intro hcost
    have hok := fundingCost_ok.1 ⟨cost, hcost⟩
    obtain ⟨x, hx⟩ : ∃ x, r.fundingCost notional direction a b = .ok x := by
      refine fundingCost_ok.2 fun hlt => ?_
      obtain ⟨hsome, hnew⟩ := hok (hlt.trans_le hbc)
      exact ⟨hsome, fun hold => hnew ((outdatedIn_append hab' hbc').2 (.inl hold))⟩
    obtain ⟨y, hy⟩ : ∃ y, r.fundingCost notional direction b c = .ok y := by
      refine fundingCost_ok.2 fun hlt => ?_
      obtain ⟨hsome, hnew⟩ := hok (hab.trans_lt hlt)
      exact ⟨fun hnone => hsome (observation_none_of_le hab' hnone),
        fun hold => hnew ((outdatedIn_append hab' hbc').2 (.inr hold))⟩
    exact ⟨x, y, hx, hy, hsum x y cost hx hy hcost⟩
  · rintro ⟨x, y, hx, hy, rfl⟩
    obtain ⟨z, hz⟩ : ∃ z, r.fundingCost notional direction a c = .ok z := by
      refine fundingCost_ok.2 fun hlt => ?_
      have hfirst := fundingCost_ok.1 ⟨x, hx⟩
      have hsecond := fundingCost_ok.1 ⟨y, hy⟩
      rcases hab.lt_or_eq with hab'' | rfl
      · refine ⟨(hfirst hab'').1, fun hold => ?_⟩
        rcases (outdatedIn_append hab' hbc').1 hold with hold | ⟨t, hge, hlt', h⟩
        · exact (hfirst hab'').2 hold
        · have hbc'' : (b : ℝ) < c := hge.trans_lt hlt'
          exact (hsecond (by exact_mod_cast hbc'')).2 ⟨t, hge, hlt', h⟩
      · exact hsecond hlt
    rw [hz, hsum x y z hx hy hz]

/-- the cost of an interval is the sum of the costs of its parts, however it is split -/
theorem fundingCost_parts {startAt : Time} {points : List Time}
    (hordered : (startAt :: points).Pairwise (· ≤ ·)) {cost : ℚ} :
    r.fundingCost notional direction startAt
      ((startAt :: points).getLast (List.cons_ne_nil startAt points)) = .ok cost ↔
      ∃ costs, (neighbours (startAt :: points)).mapM
        (fun p => r.fundingCost notional direction p.1 p.2) = .ok costs ∧ cost = costs.sum := by
  induction points generalizing startAt cost with
  | nil =>
    have hempty : r.fundingCost notional direction startAt startAt = .ok 0 := if_pos le_rfl
    rw [List.getLast_singleton, hempty]
    constructor
    · intro h
      cases h
      exact ⟨[], rfl, rfl⟩
    · rintro ⟨costs, hcosts, rfl⟩
      cases hcosts
      rfl
  | cons next points ih =>
    obtain ⟨hfirst, hrest⟩ := List.pairwise_cons.1 hordered
    have hnext : startAt ≤ next := hfirst next List.mem_cons_self
    have hlast : next ≤ (next :: points).getLast (List.cons_ne_nil next points) := by
      have hmem := List.getLast_mem (List.cons_ne_nil next points)
      rcases List.mem_cons.1 hmem with heq | hmem
      · exact heq.ge
      · exact (List.pairwise_cons.1 hrest).1 _ hmem
    rw [List.getLast_cons (List.cons_ne_nil next points), fundingCost_split hnext hlast,
      neighbours_cons_cons, List.mapM_cons]
    constructor
    · rintro ⟨x, y, hx, hy, rfl⟩
      obtain ⟨costs, hcosts, rfl⟩ := (ih hrest).1 hy
      refine ⟨x :: costs, ?_, List.sum_cons.symm⟩
      rw [hx, hcosts]
      rfl
    · rintro ⟨costs, hcosts, rfl⟩
      obtain ⟨x, hx, htail⟩ := Result.bind_ok.1 hcosts
      obtain ⟨more, hmore, hpure⟩ := Result.bind_ok.1 htail
      cases hpure
      exact ⟨x, more.sum, hx, (ih hrest).2 ⟨more, hmore, rfl⟩, List.sum_cons⟩

/-! ## The past, and the other side -/

/-- datasets that agree before an instant have the same observation in force until then -/
theorem observation_past {r' : HistoricalExecutionResolver} {endAt : Time}
    (hpast : r.observations.takeWhile (fun o => o.observedAt < endAt) =
      r'.observations.takeWhile fun o => o.observedAt < endAt) {t : ℝ} (ht : t < endAt) :
    r.observation t = r'.observation t := by
  have hkeeps : ∀ o : HistoricalExecutionObservation, (o.observedAt : ℝ) ≤ t →
      decide (o.observedAt < endAt) = true := by
    intro o ho
    have hlt : (o.observedAt : ℝ) < endAt := ho.trans_lt ht
    exact decide_eq_true (by exact_mod_cast hlt)
  rw [observation, observation, ← inForce_takeWhile fun o _ ho => hkeeps o ho, hpast,
    inForce_takeWhile fun o _ ho => hkeeps o ho]

/-- observations at or after the end of the interval make no difference -/
theorem fundingCost_past {r' : HistoricalExecutionResolver} {startAt endAt : Time} (hle : startAt ≤ endAt)
    (hage : r.maxAgeSeconds = r'.maxAgeSeconds)
    (hpast : r.observations.takeWhile (fun o => o.observedAt < endAt) =
      r'.observations.takeWhile fun o => o.observedAt < endAt) (cost : ℚ) :
    r.fundingCost notional direction startAt endAt = .ok cost ↔
      r'.fundingCost notional direction startAt endAt = .ok cost := by
  have hsame : ∀ t : ℝ, t < endAt → r.observation t = r'.observation t :=
    fun t ht => observation_past hpast ht
  have hok : (∃ x, r.fundingCost notional direction startAt endAt = .ok x) ↔
      ∃ x, r'.fundingCost notional direction startAt endAt = .ok x := by
    rw [fundingCost_ok, fundingCost_ok]
    refine imp_congr_right fun hlt => ?_
    have hstart : r.observation startAt = r'.observation startAt := hsame _ (by exact_mod_cast hlt)
    have hold : r.OutdatedIn startAt endAt ↔ r'.OutdatedIn startAt endAt := by
      refine exists_congr fun t => and_congr_right fun _ => and_congr_right fun ht => ?_
      rw [hsame t ht, hage]
    rw [hstart, hold]
  have hvalue : ∀ x y, r.fundingCost notional direction startAt endAt = .ok x →
      r'.fundingCost notional direction startAt endAt = .ok y → x = y := by
    intro x y hx hy
    have hle' : (startAt : ℝ) ≤ endAt := by exact_mod_cast hle
    have hequal := (fundingCost_integral hle hx).congr hle' (fundingCost_integral hle hy)
      fun t _ ht => by rw [costRate, costRate, hsame t ht]
    exact_mod_cast hequal
  constructor
  · intro hx
    obtain ⟨y, hy⟩ := hok.1 ⟨cost, hx⟩
    rw [hy, hvalue cost y hx hy]
  · intro hy
    obtain ⟨x, hx⟩ := hok.2 ⟨cost, hy⟩
    rw [hx, hvalue x cost hx hy]

theorem segmentCost_neg (current : HistoricalExecutionObservation) (startAt endAt : Time) :
    r.segmentCost notional (-direction) current startAt endAt =
      (r.segmentCost notional direction current startAt endAt).map fun cost => -cost := by
  unfold segmentCost
  split_ifs
  · rfl
  · rw [mul_neg]
    rfl

theorem fundingFrom_neg (endAt : Time) (current : HistoricalExecutionObservation) (currentAt : Time)
    (rest : List HistoricalExecutionObservation) :
    r.fundingFrom notional (-direction) endAt current currentAt rest =
      (r.fundingFrom notional direction endAt current currentAt rest).map fun cost => -cost := by
  induction rest generalizing current currentAt with
  | nil => exact segmentCost_neg current currentAt endAt
  | cons next rest ih =>
    rw [fundingFrom, fundingFrom]
    split_ifs
    · rw [segmentCost_neg, ih]
      cases r.segmentCost notional direction current currentAt next.observedAt with
      | error e => rfl
      | ok x =>
        cases r.fundingFrom notional direction endAt next next.observedAt rest with
        | error e => rfl
        | ok y =>
          show Except.ok (-x + -y) = Except.ok (-(x + y))
          rw [neg_add]
    · exact segmentCost_neg current currentAt endAt

/-- the two directions have opposite costs -/
theorem fundingCost_neg (startAt endAt : Time) :
    r.fundingCost notional (-direction) startAt endAt =
      (r.fundingCost notional direction startAt endAt).map fun cost => -cost := by
  unfold fundingCost
  split_ifs
  · show Except.ok (0 : ℚ) = Except.ok (-0)
    rw [neg_zero]
  · cases r.resolve startAt with
    | error e => rfl
    | ok current => exact fundingFrom_neg endAt current startAt _

/-- **Historical funding.** For every dataset, position and interval: the cost is refused exactly when
the interval is not empty and there is no observation at or before its start, or one is held beyond its
age; otherwise it is the time integral of the rate in force, the sum of the costs of any parts, and the
same whatever is observed from the end on; the other direction costs the opposite. -/
theorem funding_is_integral (r : HistoricalExecutionResolver) (notional direction : ℚ)
    {startAt endAt : Time} (hle : startAt ≤ endAt) :
    ((∃ e, r.fundingCost notional direction startAt endAt = .error e) ↔
      startAt < endAt ∧ (r.observation startAt = none ∨ r.OutdatedIn startAt endAt)) ∧
    (∀ cost, r.fundingCost notional direction startAt endAt = .ok cost →
      IntervalIntegrable (r.costRate notional direction) MeasureTheory.volume startAt endAt ∧
      (cost : ℝ) = ∫ t in (startAt : ℝ)..endAt, r.costRate notional direction t) ∧
    (∀ points : List Time, (startAt :: points).Pairwise (· ≤ ·) →
      (startAt :: points).getLast (List.cons_ne_nil startAt points) = endAt → ∀ cost,
      (r.fundingCost notional direction startAt endAt = .ok cost ↔
        ∃ costs, (neighbours (startAt :: points)).mapM
          (fun p => r.fundingCost notional direction p.1 p.2) = .ok costs ∧ cost = costs.sum)) ∧
    (∀ r' : HistoricalExecutionResolver, r.maxAgeSeconds = r'.maxAgeSeconds →
      r.observations.takeWhile (fun o => o.observedAt < endAt) =
        r'.observations.takeWhile (fun o => o.observedAt < endAt) → ∀ cost,
      (r.fundingCost notional direction startAt endAt = .ok cost ↔
        r'.fundingCost notional direction startAt endAt = .ok cost)) ∧
    r.fundingCost notional (-direction) startAt endAt =
      (r.fundingCost notional direction startAt endAt).map fun cost => -cost := by
  refine ⟨fundingCost_raises, fun cost hcost => ?_, fun points hordered hlast cost => ?_,
    fun r' hage hpast cost => fundingCost_past hle hage hpast cost, fundingCost_neg startAt endAt⟩
  · have hintegral := fundingCost_integral hle hcost
    exact ⟨hintegral.integrable, hintegral.value.symm⟩
  · rw [← hlast]
    exact fundingCost_parts hordered

/-- two observations, an hour apart -/
def twoObservations : HistoricalExecutionResolver where
  maxAgeSeconds := 7200
  observations := [⟨0, 1, 10⟩, ⟨3600000000, 1, -10⟩]
  ordered := by decide +kernel

/-- a position of 1000 over the first two hours, whose two halves cancel -/
theorem funding_is_integral_two_hours :
    ((∃ e, twoObservations.fundingCost 1000 1 0 7200000000 = .error e) ↔
      (0 : Time) < 7200000000 ∧ (twoObservations.observation (0 : Time) = none ∨
        twoObservations.OutdatedIn (0 : Time) (7200000000 : Time))) ∧
    (∀ cost, twoObservations.fundingCost 1000 1 0 7200000000 = .ok cost →
      IntervalIntegrable (twoObservations.costRate 1000 1) MeasureTheory.volume (0 : Time)
        (7200000000 : Time) ∧
      (cost : ℝ) = ∫ t in ((0 : Time) : ℝ)..((7200000000 : Time) : ℝ),
        twoObservations.costRate 1000 1 t) ∧
    (∀ points : List Time, (0 :: points).Pairwise (· ≤ ·) →
      (0 :: points).getLast (List.cons_ne_nil 0 points) = 7200000000 → ∀ cost,
      (twoObservations.fundingCost 1000 1 0 7200000000 = .ok cost ↔
        ∃ costs, (neighbours (0 :: points)).mapM
          (fun p => twoObservations.fundingCost 1000 1 p.1 p.2) = .ok costs ∧ cost = costs.sum)) ∧
    (∀ r' : HistoricalExecutionResolver, twoObservations.maxAgeSeconds = r'.maxAgeSeconds →
      twoObservations.observations.takeWhile (fun o => o.observedAt < 7200000000) =
        r'.observations.takeWhile (fun o => o.observedAt < 7200000000) → ∀ cost,
      (twoObservations.fundingCost 1000 1 0 7200000000 = .ok cost ↔
        r'.fundingCost 1000 1 0 7200000000 = .ok cost)) ∧
    twoObservations.fundingCost 1000 (-1) 0 7200000000 =
      (twoObservations.fundingCost 1000 1 0 7200000000).map fun cost => -cost :=
  funding_is_integral twoObservations 1000 1 (by decide)

example : twoObservations.fundingCost 1000 1 0 7200000000 = .ok 0 := by decide +kernel

end HistoricalExecutionResolver

end CapitalCipher
