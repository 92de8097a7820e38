/-
Capped proportional shares: one unit is divided in proportion to positive scores, a share above the
cap is fixed at the cap, and what is left is divided again among the others until no share exceeds
the cap.

  • `allot_spec`: the shares are `min cap (rate * score)` for one rate, which is at least the rate of
    the first division, and they sum to one unless every share is the cap.
  • `sum_allot_eq_one`: they do sum to one when the caps together reach one.
  • `sum_allot_bounds`: without that, they miss one by what the caps together miss.
-/
import Mathlib.Tactic

namespace Lib.CappedShares

variable {α : Type} [Field α] [LinearOrder α]

/-- a score, and its share once that is fixed -/
abbrev Slot (α : Type) := α × Option α

/-- the scores still to be given a share -/
def openScores (slots : List (Slot α)) : List α :=
  (slots.filter fun p => p.2.isNone).map Prod.fst

/-- how many shares are fixed -/
def fixedCount (slots : List (Slot α)) : ℕ := slots.countP fun p => p.2.isSome

/-- an open slot whose provisional share is above the cap -/
def exceeds (cap mass total : α) (p : Slot α) : Bool :=
  p.2.isNone && decide (cap < mass * p.1 / total)

def fix (cap mass total : α) (p : Slot α) : Slot α :=
  if exceeds cap mass total p then (p.1, some cap) else p

/-- the rounds of the division; every round but the last fixes a share -/
def allot (cap : α) : ℕ → α → List (Slot α) → List α
  | 0, _, slots => slots.map fun p => p.2.getD 0
  | fuel + 1, mass, slots =>
    let total := (openScores slots).sum
    if slots.all fun p => p.2.isSome then slots.map fun p => p.2.getD 0
    else if slots.any (exceeds cap mass total) then
      allot cap fuel (mass - cap * slots.countP (exceeds cap mass total))
        (slots.map (fix cap mass total))
    else slots.map fun p => p.2.getD (mass * p.1 / total)

/-- the shares of one unit -/
def shares (cap : α) (scores : List α) : List α :=
  allot cap (scores.length + 1) 1 (scores.map fun s => (s, none))

theorem length_allot (cap : α) (fuel : ℕ) (mass : α) (slots : List (Slot α)) :
    (allot cap fuel mass slots).length = slots.length := by
  induction fuel generalizing mass slots with
  | zero => simp [allot]
  | succ fuel ih =>
    simp only [allot]
    split_ifs
    · simp
    · rw [ih, List.length_map]
    · simp

@[simp] theorem length_shares (cap : α) (scores : List α) :
    (shares cap scores).length = scores.length := by
  rw [shares, length_allot, List.length_map]

/-! ## one round -/

section Round

variable {cap mass total : α}

theorem fix_fst (p : Slot α) : (fix cap mass total p).1 = p.1 := by
  unfold fix
  split_ifs <;> rfl

theorem fixedCount_fix (slots : List (Slot α)) :
    fixedCount (slots.map (fix cap mass total)) =
      fixedCount slots + slots.countP (exceeds cap mass total) := by
  induction slots with
  | nil => rfl
  | cons p slots ih =>
    simp only [fixedCount, List.map_cons, List.countP_cons] at ih ⊢
    rw [ih]
    obtain ⟨s, w⟩ := p
    cases w with
    | some w => simp [fix, exceeds]; omega
    | none =>
      by_cases h : cap < mass * s / total
      · simp [fix, exceeds, h]; omega
      · simp [fix, exceeds, h]

omit [Field α] [LinearOrder α] in
theorem length_openScores (slots : List (Slot α)) :
    (openScores slots).length + fixedCount slots = slots.length := by
  rw [openScores, List.length_map, fixedCount, ← List.countP_eq_length_filter,
    List.length_eq_countP_add_countP (fun p : Slot α => p.2.isNone)]
  congr 2
  funext p
  cases p.2 <;> rfl

/-- a round that fixes a share leaves fewer open -/
theorem length_openScores_fix_lt {slots : List (Slot α)}
    (hover : slots.any (exceeds cap mass total) = true) :
    (openScores (slots.map (fix cap mass total))).length < (openScores slots).length := by
  have h1 := length_openScores slots
  have h2 := length_openScores (slots.map (fix cap mass total))
  have hpos : 0 < slots.countP (exceeds cap mass total) := by
    obtain ⟨p, hp, hx⟩ := List.any_eq_true.1 hover
    exact List.countP_pos_iff.2 ⟨p, hp, hx⟩
  rw [fixedCount_fix, List.length_map] at h2
  omega

/-- the open scores are those the round leaves open and those it fixes -/
theorem sum_openScores_fix (cap mass total : α) (slots : List (Slot α)) :
    (openScores slots).sum = (openScores (slots.map (fix cap mass total))).sum +
      ((slots.filter (exceeds cap mass total)).map Prod.fst).sum := by
  induction slots with
  | nil => simp [openScores]
  | cons p slots ih =>
    obtain ⟨s, w⟩ := p
    simp only [openScores, List.map_cons, List.filter_cons] at ih ⊢
    cases w with
    | some w => simpa [fix, exceeds] using ih
    | none =>
      by_cases h : cap < mass * s / total
      · simp only [fix, exceeds, h, decide_true, Bool.and_true, Option.isNone_none, if_true,
          Option.isNone_some, Bool.false_eq_true, if_false, List.map_cons, List.sum_cons] at ih ⊢
        rw [ih]
        ring
      · simp only [fix, exceeds, h, decide_false, Bool.and_false, Option.isNone_none, if_true,
          Bool.false_eq_true, if_false, List.map_cons, List.sum_cons] at ih ⊢
        rw [ih]
        ring

omit [LinearOrder α] in
/-- the shares given so far, and `f` of every open score -/
theorem sum_getD (f : α → α) {slots : List (Slot α)}
    (h : ∀ p ∈ slots, ∀ w ∈ p.2, w = cap) :
    (slots.map fun p => p.2.getD (f p.1)).sum =
      cap * fixedCount slots + ((openScores slots).map f).sum := by
  induction slots with
  | nil => simp [openScores, fixedCount]
  | cons p slots ih =>
    have ih := ih fun p hp => h p (List.mem_cons_of_mem _ hp)
    obtain ⟨s, w⟩ := p
    simp only [openScores, fixedCount, List.map_cons, List.sum_cons, List.filter_cons,
      List.countP_cons] at ih ⊢
    rw [ih]
    cases w with
    | none => simp; ring
    | some w =>
      obtain rfl := h (s, some w) List.mem_cons_self w rfl
      simp
      ring

end Round

/-! ## the invariant of the rounds -/

/-- what holds between rounds: the fixed shares are caps that the rate reached so far exceeds, and
the rate can serve every open score from the mass left -/
structure Divided (cap mass rate : α) (slots : List (Slot α)) : Prop where
  rate_pos : 0 < rate
  scores_pos : ∀ p ∈ slots, 0 < p.1
  fixed : ∀ p ∈ slots, ∀ w ∈ p.2, w = cap ∧ cap < rate * p.1
  mass_eq : mass = 1 - cap * fixedCount slots
  covers : rate * (openScores slots).sum ≤ mass

namespace Divided

variable {cap mass rate : α} {slots : List (Slot α)}

theorem openScores_pos (h : Divided cap mass rate slots) : ∀ s ∈ openScores slots, 0 < s := by
  intro s hs
  obtain ⟨p, hp, rfl⟩ := List.mem_map.1 hs
  exact h.scores_pos p (List.mem_filter.1 hp).1

variable [IsStrictOrderedRing α]

theorem total_pos (h : Divided cap mass rate slots) (hopen : ∃ p ∈ slots, p.2 = none) :
    0 < (openScores slots).sum := by
  obtain ⟨p, hp, hnone⟩ := hopen
  have hmem : p.1 ∈ openScores slots :=
    List.mem_map.2 ⟨p, List.mem_filter.2 ⟨hp, by simp [hnone]⟩, rfl⟩
  exact List.sum_pos _ h.openScores_pos (List.ne_nil_of_mem hmem)

/-- the rate of the next division is no lower -/
theorem rate_le (h : Divided cap mass rate slots) (hopen : ∃ p ∈ slots, p.2 = none) :
    rate ≤ mass / (openScores slots).sum :=
  (le_div_iff₀ (h.total_pos hopen)).2 h.covers

/-- a round that fixes what exceeds the cap keeps the invariant at the rate of its division -/
theorem next (h : Divided cap mass rate slots) (hopen : ∃ p ∈ slots, p.2 = none) :
    Divided cap (mass - cap * slots.countP (exceeds cap mass (openScores slots).sum))
      (mass / (openScores slots).sum)
      (slots.map (fix cap mass (openScores slots).sum)) := by
  have htotal := h.total_pos hopen
  have hrate := h.rate_le hopen
  have hover : ∀ p ∈ slots, exceeds cap mass (openScores slots).sum p = true →
      cap < mass / (openScores slots).sum * p.1 := by
    intro p _ hp
    simp only [exceeds, Bool.and_eq_true, decide_eq_true_eq] at hp
    rw [div_mul_eq_mul_div]
    exact hp.2
  refine ⟨lt_of_lt_of_le h.rate_pos hrate, ?_, ?_, ?_, ?_⟩
  · intro q hq
    obtain ⟨p, hp, rfl⟩ := List.mem_map.1 hq
    rw [fix_fst]
    exact h.scores_pos p hp
  · intro q hq w hw
    obtain ⟨p, hp, rfl⟩ := List.mem_map.1 hq
    rw [fix_fst]
    unfold fix at hw
    split_ifs at hw with hx
    · cases hw
      exact ⟨rfl, hover p hp hx⟩
    · obtain ⟨rfl, hlt⟩ := h.fixed p hp w hw
      exact ⟨rfl, hlt.trans_le (mul_le_mul_of_nonneg_right hrate (h.scores_pos p hp).le)⟩
  · rw [fixedCount_fix, h.mass_eq]
    push_cast
    ring
  · -- the shares fixed in this round take at most what they were to get
    have htaken : cap * slots.countP (exceeds cap mass (openScores slots).sum) ≤
        mass / (openScores slots).sum *
          ((slots.filter (exceeds cap mass (openScores slots).sum)).map Prod.fst).sum := by
      rw [List.countP_eq_length_filter, ← List.sum_map_mul_left, mul_comm cap]
      have hle : ∀ p ∈ slots.filter (exceeds cap mass (openScores slots).sum),
          cap ≤ mass / (openScores slots).sum * p.1 := by
        intro p hp
        have hp := List.mem_filter.1 hp
        exact (hover p hp.1 hp.2).le
      simpa [List.map_map, Function.comp_def] using
        List.sum_le_sum (f := fun _ => cap)
          (g := fun p : Slot α => mass / (openScores slots).sum * p.1) hle
    have hsplit := sum_openScores_fix cap mass (openScores slots).sum slots
    have hmass : mass / (openScores slots).sum * (openScores slots).sum = mass :=
      div_mul_cancel₀ _ htotal.ne'
    rw [hsplit] at hmass
    rw [mul_add] at hmass
    rw [← hsplit] at hmass
    linarith

/-- with nothing above the cap the division stands -/
theorem settle (h : Divided cap mass rate slots) (hopen : ∃ p ∈ slots, p.2 = none)
    (hover : slots.any (exceeds cap mass (openScores slots).sum) = false) :
    slots.map (fun p => p.2.getD (mass * p.1 / (openScores slots).sum)) =
        slots.map (fun p => min cap (mass / (openScores slots).sum * p.1)) ∧
      (slots.map fun p => p.2.getD (mass * p.1 / (openScores slots).sum)).sum = 1 := by
  have htotal := h.total_pos hopen
  constructor
  · refine List.map_congr_left fun p hp => ?_
    rw [← div_mul_eq_mul_div]
    obtain ⟨s, w⟩ := p
    cases w with
    | some w =>
      obtain ⟨rfl, hlt⟩ := h.fixed _ hp w rfl
      have hle := mul_le_mul_of_nonneg_right (h.rate_le hopen) (h.scores_pos _ hp).le
      exact (min_eq_left (hlt.le.trans hle)).symm
    | none =>
      have hx := List.any_eq_false.1 hover _ hp
      simp only [exceeds, Option.isNone_none, Bool.true_and, decide_eq_true_eq, not_lt] at hx
      rw [← div_mul_eq_mul_div] at hx
      exact (min_eq_right hx).symm
  · have hfixed : ∀ p ∈ slots, ∀ w ∈ p.2, w = cap := fun p hp w hw => (h.fixed p hp w hw).1
    have hsum := sum_getD (fun s => mass * s / (openScores slots).sum) hfixed
    have hopenSum : ((openScores slots).map fun s => mass * s / (openScores slots).sum).sum =
        mass := by
      have hfun : (fun s => mass * s / (openScores slots).sum) =
          fun s => mass / (openScores slots).sum * s := by
        funext s
        rw [div_mul_eq_mul_div]
      rw [hfun, List.sum_map_mul_left, List.map_id', div_mul_cancel₀ _ htotal.ne']
    rw [hsum, hopenSum, h.mass_eq]
    ring

end Divided

/-! ## the whole division -/

variable [IsStrictOrderedRing α]

theorem allot_spec {cap : α} (fuel : ℕ) {mass rate : α} {slots : List (Slot α)}
    (h : Divided cap mass rate slots) (hfuel : (openScores slots).length ≤ fuel) :
    ∃ r, rate ≤ r ∧ allot cap fuel mass slots = slots.map (fun p => min cap (r * p.1)) ∧
      ((allot cap fuel mass slots).sum = 1 ∨
        cap * slots.length ≤ 1 ∧ ∀ x ∈ allot cap fuel mass slots, x = cap) := by
  -- with every share fixed the result is the caps
  have hall : ∀ {mass rate : α} {slots : List (Slot α)}, Divided cap mass rate slots →
      (∀ p ∈ slots, p.2.isSome = true) →
      slots.map (fun p => p.2.getD 0) = slots.map (fun p => min cap (rate * p.1)) ∧
      cap * slots.length ≤ 1 ∧ ∀ x ∈ slots.map (fun p => p.2.getD 0), x = cap := by
    intro mass rate slots h hsome
    have hget : ∀ p ∈ slots, p.2.getD 0 = cap ∧ cap < rate * p.1 := by
      intro p hp
      obtain ⟨w, hw⟩ := Option.isSome_iff_exists.1 (hsome p hp)
      obtain ⟨rfl, hlt⟩ := h.fixed p hp w hw
      exact ⟨by simp [hw], hlt⟩
    refine ⟨List.map_congr_left fun p hp => ?_, ?_, ?_⟩
    · rw [(hget p hp).1, min_eq_left (hget p hp).2.le]
    · have hopen : openScores slots = [] := by
        rw [openScores, List.map_eq_nil_iff, List.filter_eq_nil_iff]
        intro p hp
        rw [Option.isNone_iff_eq_none]
        exact Option.isSome_iff_ne_none.1 (hsome p hp)
      have hcount : fixedCount slots = slots.length := List.countP_eq_length.2 hsome
      have hc := h.covers
      rw [hopen, h.mass_eq, hcount] at hc
      simp only [List.sum_nil, mul_zero] at hc
      linarith
    · intro x hx
      obtain ⟨p, hp, rfl⟩ := List.mem_map.1 hx
      exact (hget p hp).1
  induction fuel generalizing mass rate slots with
  | zero =>
    have hnil : openScores slots = [] := List.length_eq_zero_iff.1 (Nat.le_zero.1 hfuel)
    rw [openScores, List.map_eq_nil_iff, List.filter_eq_nil_iff] at hnil
    have hsome : ∀ p ∈ slots, p.2.isSome = true := by
      intro p hp
      have hp := hnil p hp
      rw [Option.isNone_iff_eq_none] at hp
      exact Option.isSome_iff_ne_none.2 hp
    obtain ⟨heq, hcap, hx⟩ := hall h hsome
    exact ⟨rate, le_rfl, heq, .inr ⟨hcap, hx⟩⟩
  | succ fuel ih =>
    simp only [allot]
    split_ifs with hsome hover
    · obtain ⟨heq, hcap, hx⟩ := hall h (List.all_eq_true.1 hsome)
      exact ⟨rate, le_rfl, heq, .inr ⟨hcap, hx⟩⟩
    · have hopen : ∃ p ∈ slots, p.2 = none := by
        obtain ⟨p, hp, hx⟩ := List.any_eq_true.1 hover
        simp only [exceeds, Bool.and_eq_true, Option.isNone_iff_eq_none] at hx
        exact ⟨p, hp, hx.1⟩
      have hless := length_openScores_fix_lt hover
      have hless : (openScores (slots.map (fix cap mass (openScores slots).sum))).length ≤ fuel := by
        omega
      obtain ⟨r, hr, heq, hsum⟩ := ih (h.next hopen) hless
      refine ⟨r, (h.rate_le hopen).trans hr, ?_, ?_⟩
      · rw [heq, List.map_map]
        exact List.map_congr_left fun p _ => by simp [fix_fst]
      · rw [List.length_map] at hsum
        exact hsum
    · have hopen : ∃ p ∈ slots, p.2 = none := by
        by_contra hno
        push Not at hno
        apply hsome
        rw [List.all_eq_true]
        intro p hp
        exact Option.isSome_iff_ne_none.2 (hno p hp)
      obtain ⟨heq, hsum⟩ := h.settle hopen (by simpa using hover)
      exact ⟨_, h.rate_le hopen, heq, .inl hsum⟩

section Shares

variable {cap : α} {scores : List α}

omit [Field α] [LinearOrder α] [IsStrictOrderedRing α] in
theorem openScores_start (scores : List α) :
    openScores (scores.map fun s => ((s, none) : Slot α)) = scores := by
  rw [openScores, List.filter_map, List.map_map]
  simp [Function.comp_def]

/-- before the first round the whole unit is left -/
theorem Divided.start (cap : α) (hne : scores ≠ []) (hpos : ∀ s ∈ scores, 0 < s) :
    Divided cap 1 (1 / scores.sum) (scores.map fun s => ((s, none) : Slot α)) := by
  have htotal : 0 < scores.sum := List.sum_pos _ hpos hne
  refine ⟨by positivity, ?_, ?_, ?_, ?_⟩
  · intro p hp
    obtain ⟨s, hs, rfl⟩ := List.mem_map.1 hp
    exact hpos s hs
  · intro p hp w hw
    obtain ⟨s, hs, rfl⟩ := List.mem_map.1 hp
    cases hw
  · simp [fixedCount, List.countP_map, Function.comp_def]
  · rw [openScores_start, one_div_mul_cancel htotal.ne']

/-- **Shares.** Every share is the cap or its score at one common rate, whichever is less -/
theorem shares_spec (cap : α) (hne : scores ≠ []) (hpos : ∀ s ∈ scores, 0 < s) :
    ∃ r, 1 / scores.sum ≤ r ∧ shares cap scores = scores.map (fun s => min cap (r * s)) ∧
      ((shares cap scores).sum = 1 ∨
        cap * scores.length ≤ 1 ∧ ∀ x ∈ shares cap scores, x = cap) := by
  have hstart := Divided.start cap hne hpos
  obtain ⟨r, hr, heq, hsum⟩ := allot_spec (scores.length + 1) hstart (by rw [openScores_start]; omega)
  rw [List.length_map] at hsum
  exact ⟨r, hr, by rw [shares, heq, List.map_map]; rfl, hsum⟩

theorem sum_shares_eq_one (hne : scores ≠ []) (hpos : ∀ s ∈ scores, 0 < s)
    (hcap : 1 ≤ cap * scores.length) : (shares cap scores).sum = 1 := by
  obtain ⟨r, -, -, hsum | ⟨hle, hx⟩⟩ := shares_spec cap hne hpos
  · exact hsum
  · rw [List.eq_replicate_of_mem hx, List.sum_replicate, length_shares, nsmul_eq_mul, mul_comm]
    exact le_antisymm hle hcap

/-- the shares miss one by at most what the caps together miss -/
theorem sum_shares_bounds (hne : scores ≠ []) (hpos : ∀ s ∈ scores, 0 < s) :
    min 1 (cap * scores.length) ≤ (shares cap scores).sum ∧ (shares cap scores).sum ≤ 1 := by
  obtain ⟨r, -, -, hsum | ⟨hle, hx⟩⟩ := shares_spec cap hne hpos
  · rw [hsum]
    exact ⟨min_le_left _ _, le_rfl⟩
  · have hval : (shares cap scores).sum = cap * scores.length := by
      rw [List.eq_replicate_of_mem hx, List.sum_replicate, length_shares, nsmul_eq_mul, mul_comm]
    rw [hval]
    exact ⟨min_le_right _ _, hle⟩

end Shares

example : shares (1 / 4 : ℚ) [1, 1, 1, 1, 4] = [3 / 16, 3 / 16, 3 / 16, 3 / 16, 1 / 4] := by
  decide +kernel

end Lib.CappedShares
