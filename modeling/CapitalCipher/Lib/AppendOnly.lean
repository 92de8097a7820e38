/-
Append-only stores: a cohort of rows is written in one transaction that keeps the rows it finds and
refuses a row that differs from the one under its key; the environment may refuse the transaction or
lose its acknowledgement.

  • `WriteFate.commit_ok`, `WriteFate.commit_error`: what a write that returned, or raised, did.
  • `append_ok`: an accepted cohort adds its new rows and agrees with the ones it found.
  • `append_holds`: its rows are there afterwards.
  • `append_isOk`: a cohort that agrees with what is stored is accepted.
-/
import CapitalCipher.Lib.Dict
import CapitalCipher.Lib.Result

namespace Lib

/-- what becomes of a write -/
inductive WriteFate where
  | saved
  | refused   -- nothing is stored and the call raises
  | lost      -- the rows are stored and the call raises all the same
  deriving DecidableEq, Repr

namespace WriteFate

variable {α R E : Type} {fate : WriteFate} {failure err : E} {tx : R → Except E (α × R)}
  {rows rows' : R}

/-- a transaction and what becomes of it -/
def commit (fate : WriteFate) (failure : E) (tx : R → Except E (α × R)) (rows : R) :
    Except E α × R :=
  match fate, tx rows with
  | .saved, .ok (a, rows') => (.ok a, rows')
  | .lost, .ok (_, rows') => (.error failure, rows')
  | .refused, _ => (.error failure, rows)
  | _, .error e => (.error e, rows)

/-- a transaction that returns went through -/
theorem commit_ok {a : α} (h : fate.commit failure tx rows = (.ok a, rows')) :
    fate = .saved ∧ tx rows = .ok (a, rows') := by
  cases htx : tx rows with
  | error e => cases fate <;> simp [commit, htx] at h
  | ok p =>
    obtain ⟨b, rows''⟩ := p
    cases fate with
    | saved =>
      simp only [commit, htx, Prod.mk.injEq, Except.ok.injEq] at h
      rw [h.1, h.2]
      exact ⟨rfl, rfl⟩
    | refused => simp [commit] at h
    | lost => simp [commit, htx] at h

/-- one that raises left the rows alone, or went through and was lost -/
theorem commit_error (h : fate.commit failure tx rows = (.error err, rows')) :
    rows' = rows ∨ fate = .lost ∧ ∃ a, tx rows = .ok (a, rows') := by
  cases htx : tx rows with
  | error e =>
    have hrows : (fate.commit failure tx rows).2 = rows := by cases fate <;> simp [commit, htx]
    rw [h] at hrows
    exact Or.inl hrows
  | ok p =>
    obtain ⟨b, rows''⟩ := p
    cases fate with
    | saved => simp [commit, htx] at h
    | refused =>
      simp only [commit, Prod.mk.injEq] at h
      exact Or.inl h.2.symm
    | lost =>
      simp only [commit, htx, Prod.mk.injEq] at h
      exact Or.inr ⟨rfl, b, by rw [h.2]⟩

end WriteFate

namespace AppendOnly

variable {K V E : Type} [DecidableEq K] [DecidableEq V]

/-- one cohort: a row found under its key must read back as the new one, a new row must be admitted -/
def append (key : V → K) (read : V → Except E V) (conflict : E) (admits : V → Except E Unit) :
    List V → Dict K V → Except E (List V × Dict K V)
  | [], d => .ok ([], d)
  | v :: rest, d =>
    match d.lookup (key v) with
    | some row =>
      read row >>= fun current =>
        if current = v then
          append key read conflict admits rest d >>= fun r => pure (current :: r.1, r.2)
        else .error conflict
    | none =>
      admits v >>= fun _ =>
        append key read conflict admits rest (d.insert (key v) v) >>= fun r => pure (v :: r.1, r.2)

variable {key : V → K} {read : V → Except E V} {conflict : E} {admits : V → Except E Unit}
  {vs stored : List V} {d d' : Dict K V}

theorem append_ok (h : append key read conflict admits vs d = .ok (stored, d')) :
    stored = vs ∧
      (∀ k, d'.lookup k = (d.lookup k).or (vs.find? fun v => key v = k)) ∧
      ∀ v ∈ vs, d.lookup (key v) = none ∨ ∃ row, d.lookup (key v) = some row ∧ read row = .ok v := by
  induction vs generalizing d stored with
  | nil =>
    obtain ⟨rfl, rfl⟩ := Prod.mk.inj (Except.ok.inj h)
    exact ⟨rfl, fun k => by simp, by simp⟩
  | cons v rest ih =>
    cases hv : d.lookup (key v) with
    | some row =>
      simp only [append, hv] at h
      obtain ⟨current, hread, hrest⟩ := Result.bind_ok.1 h
      split_ifs at hrest with hcur
      obtain ⟨r, hr, hpure⟩ := Result.bind_ok.1 hrest
      obtain ⟨rfl, rfl⟩ := Prod.mk.inj (Result.pure_ok.1 hpure)
      obtain ⟨hstored, hlookup, hagree⟩ := ih hr
      refine ⟨by rw [hcur, hstored], fun k => ?_, fun x hx => ?_⟩
      · rw [hlookup, List.find?_cons]
        by_cases hk : key v = k
        · rw [← hk, hv]
          rfl
        · simp only [hk, decide_false]
      · rcases List.mem_cons.1 hx with rfl | hx
        · exact Or.inr ⟨row, hv, by rw [hread, hcur]⟩
        · exact hagree x hx
    | none =>
      simp only [append, hv] at h
      obtain ⟨-, -, hrest⟩ := Result.bind_ok.1 h
      obtain ⟨r, hr, hpure⟩ := Result.bind_ok.1 hrest
      obtain ⟨rfl, rfl⟩ := Prod.mk.inj (Result.pure_ok.1 hpure)
      obtain ⟨hstored, hlookup, hagree⟩ := ih hr
      refine ⟨by rw [hstored], fun k => ?_, fun x hx => ?_⟩
      · rw [hlookup, Dict.lookup_insert_eq, List.find?_cons]
        by_cases hk : k = key v
        · rw [if_pos hk, hk, hv]
          simp
        · have hk' : ¬ key v = k := fun he => hk he.symm
          rw [if_neg hk]
          simp only [hk', decide_false]
      · rcases List.mem_cons.1 hx with rfl | hx
        · exact Or.inl hv
        · by_cases hk : key x = key v
          · exact Or.inl (hk ▸ hv)
          · have hx' := hagree x hx
            rw [Dict.lookup_insert_eq, if_neg hk] at hx'
            exact hx'

/-- every row of an accepted cohort is there afterwards, or one that reads back as it -/
theorem append_holds (h : append key read conflict admits vs d = .ok (stored, d')) :
    ∀ v ∈ vs, ∃ row, d'.lookup (key v) = some row ∧ (row = v ∨ read row = .ok v) := by
  induction vs generalizing d stored with
  | nil => simp
  | cons v rest ih =>
    have hkeep : ∀ {d stored}, append key read conflict admits rest d = .ok (stored, d') →
        ∀ {k row}, d.lookup k = some row → d'.lookup k = some row := by
      intro d stored hrest k row hrow
      rw [(append_ok hrest).2.1, hrow]
      rfl
    intro x hx
    cases hv : d.lookup (key v) with
    | some row =>
      simp only [append, hv] at h
      obtain ⟨current, hread, hrest⟩ := Result.bind_ok.1 h
      split_ifs at hrest with hcur
      obtain ⟨r, hr, hpure⟩ := Result.bind_ok.1 hrest
      obtain ⟨rfl, rfl⟩ := Prod.mk.inj (Result.pure_ok.1 hpure)
      rcases List.mem_cons.1 hx with rfl | hx
      · exact ⟨row, hkeep hr hv, Or.inr (by rw [hread, hcur])⟩
      · exact ih hr x hx
    | none =>
      simp only [append, hv] at h
      obtain ⟨-, -, hrest⟩ := Result.bind_ok.1 h
      obtain ⟨r, hr, hpure⟩ := Result.bind_ok.1 hrest
      obtain ⟨rfl, rfl⟩ := Prod.mk.inj (Result.pure_ok.1 hpure)
      rcases List.mem_cons.1 hx with rfl | hx
      · exact ⟨x, hkeep hr (AList.lookup_insert d), Or.inl rfl⟩
      · exact ih hr x hx

theorem append_isOk (hnd : (vs.map key).Nodup)
    (hagree : ∀ v ∈ vs, (d.lookup (key v) = none ∧ admits v = .ok ()) ∨
      ∃ row, d.lookup (key v) = some row ∧ read row = .ok v) :
    ∃ d', append key read conflict admits vs d = .ok (vs, d') := by
  induction vs generalizing d with
  | nil => exact ⟨d, rfl⟩
  | cons v rest ih =>
    rw [List.map_cons, List.nodup_cons] at hnd
    rcases hagree v List.mem_cons_self with ⟨hnone, hadmitted⟩ | ⟨row, hrow, hread⟩
    · obtain ⟨d', hd'⟩ := ih (d := d.insert (key v) v) hnd.2 fun x hx => by
        have hne : key x ≠ key v := fun he => hnd.1 (he ▸ List.mem_map_of_mem hx)
        rw [Dict.lookup_insert_eq, if_neg hne]
        exact hagree x (List.mem_cons_of_mem v hx)
      refine ⟨d', ?_⟩
      simp only [append, hnone, hadmitted, hd']
      rfl
    · obtain ⟨d', hd'⟩ := ih hnd.2 fun x hx => hagree x (List.mem_cons_of_mem v hx)
      refine ⟨d', ?_⟩
      simp only [append, hrow, hread, hd', bind, Except.bind, if_true]
      rfl

end AppendOnly

end Lib
