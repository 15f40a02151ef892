import NodeSwitcher.Choice
/-!
# Which entry is selected again

`lastMatch` searches from the end of the list, and the walk `preselect` takes
every match from the start; both give the index of the last entry whose value is
the wanted one, and nothing when no entry has it. `firstMatch` gives the least
index of an equal value, and nothing when there is none.

Main statement: `lastMatch_firstMatch_rules`.
-/

namespace NodeSwitcher

/-- The walk from index `i` with selection `sel` ends at the last match of the rest,
shifted by `i`, and keeps `sel` when the rest has none. -/
theorem preselectFrom_eq (wanted : String) (i : Nat) (sel : Option Nat) (cs : List Choice) :
    preselectFrom wanted i sel cs =
      match lastMatch cs wanted with
      | some j => some (i + j)
      | none => sel := by
  induction cs generalizing i sel with
  | nil => rfl
  | cons c cs ih =>
    rw [preselectFrom, ih, lastMatch]
    cases h : lastMatch cs wanted with
    | some j => simp only [Option.some.injEq]; omega
    | none => by_cases hc : c.value = wanted <;> simp [hc]

/-- The walk over the whole list finds what the search from the end finds. -/
theorem lastMatch_eq_preselect (cs : List Choice) (wanted : String) :
    lastMatch cs wanted = preselect cs wanted := by
  rw [preselect, preselectFrom_eq]
  cases lastMatch cs wanted <;> simp

/-- No index is found exactly when no entry has the wanted value. -/
theorem lastMatch_eq_none_iff {cs : List Choice} {wanted : String} :
    lastMatch cs wanted = none ↔ ∀ c ∈ cs, c.value ≠ wanted := by
  induction cs with
  | nil => simp [lastMatch]
  | cons c cs ih =>
    rw [lastMatch]
    cases h : lastMatch cs wanted with
    | some j =>
      simp only [reduceCtorEq, false_iff]
      intro hall
      have hnone := ih.mpr fun d hd => hall d (List.mem_cons_of_mem _ hd)
      rw [h] at hnone
      cases hnone
    | none =>
      have hrest := ih.mp h
      by_cases hc : c.value = wanted
      · simp [hc]
      · simpa [hc] using hrest

/-- The index found is that of an entry with the wanted value, and no later entry
has it. -/
theorem lastMatch_eq_some_iff {cs : List Choice} {wanted : String} {i : Nat} :
    lastMatch cs wanted = some i ↔
      ∃ h : i < cs.length, cs[i].value = wanted ∧
        ∀ j (hj : j < cs.length), i < j → cs[j].value ≠ wanted := by
  induction cs generalizing i with
  | nil => simp [lastMatch]
  | cons c cs ih =>
    rw [lastMatch]
    cases h : lastMatch cs wanted with
    | some j =>
      obtain ⟨hj, hv, hlater⟩ := ih.mp h
      constructor
      · intro heq
        cases heq
        refine ⟨by simp; omega, by simpa using hv, ?_⟩
        intro k hk hik
        cases k with
        | zero => omega
        | succ k =>
          exact hlater k (Nat.lt_of_succ_lt_succ hk) (by omega)
      · rintro ⟨hi, hv', hl'⟩
        cases i with
        | zero =>
          exact absurd hv (hl' (j + 1) (Nat.succ_lt_succ hj) (by omega))
        | succ i =>
          have hsome : lastMatch cs wanted = some i :=
            ih.mpr ⟨Nat.lt_of_succ_lt_succ hi, hv', fun k hk hik =>
              hl' (k + 1) (Nat.succ_lt_succ hk) (by omega)⟩
          rw [h] at hsome
          cases hsome
          rfl
    | none =>
      have hrest := lastMatch_eq_none_iff.mp h
      constructor
      · intro heq
        by_cases hc : c.value = wanted
        · rw [if_pos hc] at heq
          cases heq
          refine ⟨by simp, by simpa using hc, ?_⟩
          intro k hk hik
          cases k with
          | zero => omega
          | succ k =>
            exact hrest _ (List.getElem_mem _)
        · rw [if_neg hc] at heq
          cases heq
      · rintro ⟨hi, hv', _⟩
        cases i with
        | zero =>
          have hc : c.value = wanted := by simpa using hv'
          rw [if_pos hc]
        | succ i =>
          exact absurd hv' (hrest _ (List.getElem_mem (Nat.lt_of_succ_lt_succ hi)))

/-- No index is found exactly when the wanted value is not among the values. -/
theorem firstMatch_eq_none_iff {vs : List String} {wanted : String} :
    firstMatch vs wanted = none ↔ wanted ∉ vs := by
  induction vs with
  | nil => simp [firstMatch]
  | cons v vs ih =>
    rw [firstMatch]
    by_cases hv : v = wanted
    · simp [hv]
    · have hne : wanted ≠ v := fun e => hv e.symm
      simp [hv, hne, ih]

/-- The index found is that of a value equal to the wanted one, and no earlier
value is. -/
theorem firstMatch_eq_some_iff {vs : List String} {wanted : String} {i : Nat} :
    firstMatch vs wanted = some i ↔
      ∃ h : i < vs.length, vs[i] = wanted ∧ ∀ j (hj : j < i), vs[j] ≠ wanted := by
  induction vs generalizing i with
  | nil => simp [firstMatch]
  | cons v vs ih =>
    rw [firstMatch]
    by_cases hv : v = wanted
    · rw [if_pos hv]
      constructor
      · intro heq
        cases heq
        exact ⟨by simp, by simpa using hv, fun j hj => absurd hj (Nat.not_lt_zero j)⟩
      · rintro ⟨hi, _, hbefore⟩
        cases i with
        | zero => rfl
        | succ i => exact absurd (by simpa using hv) (hbefore 0 (by omega))
    · rw [if_neg hv]
      constructor
      · intro heq
        obtain ⟨k, hk, rfl⟩ := Option.map_eq_some_iff.mp heq
        obtain ⟨hlt, hkv, hbefore⟩ := ih.mp hk
        refine ⟨by simp; omega, by simpa using hkv, ?_⟩
        intro j hj
        cases j with
        | zero => simpa using hv
        | succ j => simpa using hbefore j (by omega)
      · rintro ⟨hi, hiv, hbefore⟩
        cases i with
        | zero => exact absurd (by simpa using hiv) hv
        | succ i =>
          have hsome : firstMatch vs wanted = some i :=
            ih.mpr ⟨Nat.lt_of_succ_lt_succ hi, hiv, fun j hj =>
              hbefore (j + 1) (by omega)⟩
          rw [hsome]
          rfl

theorem lastMatch_firstMatch_rules (cs : List Choice) (vs : List String) (wanted : String) :
    lastMatch cs wanted = preselect cs wanted ∧
    (∀ i, lastMatch cs wanted = some i ↔
      ∃ h : i < cs.length, cs[i].value = wanted ∧
        ∀ j (hj : j < cs.length), i < j → cs[j].value ≠ wanted) ∧
    (lastMatch cs wanted = none ↔ ∀ c ∈ cs, c.value ≠ wanted) ∧
    (∀ i, firstMatch vs wanted = some i ↔
      ∃ h : i < vs.length, vs[i] = wanted ∧ ∀ j (hj : j < i), vs[j] ≠ wanted) ∧
    (firstMatch vs wanted = none ↔ wanted ∉ vs) :=
  ⟨lastMatch_eq_preselect cs wanted, fun _ => lastMatch_eq_some_iff, lastMatch_eq_none_iff,
    fun _ => firstMatch_eq_some_iff, firstMatch_eq_none_iff⟩

end NodeSwitcher
