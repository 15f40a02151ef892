import NodeSwitcher.Area
import Mathlib.Data.List.Infix
import Mathlib.Data.List.TakeWhile
/-!
# Reading node area ids

`AreaPath.parse` splits an id at its first two dashes. An id splits in one of three ways
(`dash_cases`): it has no dash; it has exactly one, which ends its first segment; or it has a
second one, which ends the second segment. `splitDash` takes off the first segment in each case
(`splitDash_dash_free`, `splitDash_first_dash`), so `AreaPath.parse` gives:

* `AreaPath.parse_dash_free`: an id without a dash is its own area, with no country;
* `AreaPath.parse_dashed`: an id `a-s` or `a-s-r`, with `a` and `s` free of dashes and `a` not
  empty, has the area `a` and the country `a-s`, even when `s` is empty;
* `AreaPath.parse_first_two_segments`: the error exactly for an empty id or one that starts with a dash, the
  result in every other case, and what follows for any result: the area has no dash, and a
  country has exactly one, starts with the area and a dash, and ends the id or a dash of it.
-/

namespace NodeSwitcher

/-- A text either has no dash, or a first dash with no dash before it. -/
theorem dash_cases (cs : List Char) : '-' ∉ cs ∨ ∃ a r, '-' ∉ a ∧ cs = a ++ '-' :: r := by
  induction cs with
  | nil => exact .inl (by simp)
  | cons c cs ih =>
    by_cases hc : c = '-'
    · exact .inr ⟨[], cs, by simp, by simp [hc]⟩
    · rcases ih with h | ⟨a, r, ha, rfl⟩
      · exact .inl (by simp [h, Ne.symm hc])
      · exact .inr ⟨c :: a, r, by simp [Ne.symm hc, ha], rfl⟩

theorem splitDash_dash_free {a : List Char} (ha : '-' ∉ a) : splitDash a = (a, none) := by
  have hall : ∀ x ∈ a, decide (x ≠ '-') = true := fun x hx => by
    simpa using fun h : x = '-' => ha (h ▸ hx)
  have hdrop : a.dropWhile (· ≠ '-') = [] := List.dropWhile_eq_nil_iff.mpr hall
  have htake : a.takeWhile (· ≠ '-') = a := List.takeWhile_eq_self_iff.mpr hall
  simp only [splitDash, hdrop, htake]

theorem splitDash_first_dash {a : List Char} (r : List Char) (ha : '-' ∉ a) :
    splitDash (a ++ '-' :: r) = (a, some r) := by
  have hall : ∀ x ∈ a, decide (x ≠ '-') = true := fun x hx => by
    simpa using fun h : x = '-' => ha (h ▸ hx)
  have hdrop : (a ++ '-' :: r).dropWhile (· ≠ '-') = '-' :: r := by
    rw [List.dropWhile_append_of_pos hall]
    simp
  have htake : (a ++ '-' :: r).takeWhile (· ≠ '-') = a := by
    rw [List.takeWhile_append_of_pos hall]
    simp
  simp only [splitDash, hdrop, htake]

namespace AreaPath

theorem parse_eq (id : String) : parse id =
    if (splitDash id.toList).1.isEmpty then .error (.invalidAreaId id)
    else .ok ⟨String.ofList (splitDash id.toList).1, (splitDash id.toList).2.map
      fun r => String.ofList ((splitDash id.toList).1 ++ '-' :: (splitDash r).1)⟩ := rfl

/-- An id without a dash is its own area, with no country. -/
theorem parse_dash_free {id : String} (h : '-' ∉ id.toList) (hne : id.toList ≠ []) :
    parse id = .ok ⟨id, none⟩ := by
  rw [parse_eq, splitDash_dash_free h]
  simp [List.isEmpty_iff, hne]

/-- An id whose first segment `a` is not empty and is followed by a dash: the area is `a`, and the
country is `a`, a dash and the second segment `s`, up to the next dash or the end. -/
theorem parse_dashed {id : String} {a s r : List Char} (ha : '-' ∉ a) (hne : a ≠ [])
    (hs : '-' ∉ s) (hid : id.toList = a ++ '-' :: s ++ r) (hr : r = [] ∨ r.head? = some '-') :
    parse id = .ok ⟨String.ofList a, some (String.ofList (a ++ '-' :: s))⟩ := by
  have hsplit : splitDash (s ++ r) = (s, none) ∨ ∃ r', splitDash (s ++ r) = (s, some r') := by
    rcases hr with rfl | hr
    · exact .inl (by simpa using splitDash_dash_free hs)
    · obtain ⟨r', rfl⟩ : ∃ r', r = '-' :: r' := by
        cases r with
        | nil => simp at hr
        | cons c r' => exact ⟨r', by simp_all⟩
      exact .inr ⟨r', splitDash_first_dash r' hs⟩
  rw [parse_eq, hid, List.append_assoc, List.cons_append, splitDash_first_dash _ ha]
  rcases hsplit with h | ⟨r', h⟩ <;> simp [List.isEmpty_iff, hne, h]

/-- An id that is empty or starts with a dash names no area. -/
theorem parse_no_area {id : String} (h : id.toList = [] ∨ id.toList.head? = some '-') :
    parse id = .error (.invalidAreaId id) := by
  rw [parse_eq]
  rcases h with h | h
  · simp [h, splitDash]
  · obtain ⟨r, hr⟩ : ∃ r, id.toList = [] ++ '-' :: r := by
      cases hl : id.toList with
      | nil => simp [hl] at h
      | cons c r => exact ⟨r, by simp_all⟩
    rw [hr, splitDash_first_dash r (by simp)]
    simp

/-- The shape of a successful reading: the area `a` is a first segment that is not empty, and the
id ends there, with no country, or goes on with a dash and a second segment `s` that ends the id or
a dash of it, and the country is `a-s`. -/
def Splits (id : String) (p : AreaPath) : Prop :=
  ∃ a, a ≠ [] ∧ '-' ∉ a ∧ p.area = String.ofList a ∧
    ((id.toList = a ∧ p.country = none) ∨
      ∃ s, '-' ∉ s ∧ p.country = some (String.ofList (a ++ '-' :: s)) ∧
        (id.toList = a ++ '-' :: s ∨ ∃ r, id.toList = a ++ '-' :: s ++ '-' :: r))

/-- Every id that does not start with a dash and is not empty is read, as `Splits` says. -/
theorem parse_splits {id : String} (h : ¬ (id.toList = [] ∨ id.toList.head? = some '-')) :
    ∃ p, parse id = .ok p ∧ Splits id p := by
  rcases dash_cases id.toList with hfree | ⟨a, r, ha, hid⟩
  · have hne : id.toList ≠ [] := fun he => h (.inl he)
    exact ⟨_, parse_dash_free hfree hne, id.toList, hne, hfree, by simp, .inl ⟨rfl, rfl⟩⟩
  · have hne : a ≠ [] := fun he => h (.inr (by simp [hid, he]))
    rcases dash_cases r with hs | ⟨s, r', hs, rfl⟩
    · exact ⟨_, parse_dashed ha hne hs (r := []) (by simpa using hid) (.inl rfl),
        a, hne, ha, rfl, .inr ⟨r, hs, rfl, .inl hid⟩⟩
    · exact ⟨_, parse_dashed ha hne hs (r := '-' :: r') (by simpa using hid) (.inr rfl),
        a, hne, ha, rfl, .inr ⟨s, hs, rfl, .inr ⟨r', by simpa using hid⟩⟩⟩

/-- A reading as `Splits` says is the reading. -/
theorem parse_of_splits {id : String} {p : AreaPath} (h : Splits id p) : parse id = .ok p := by
  obtain ⟨a, hne, ha, harea, ⟨hid, hc⟩ | ⟨s, hs, hc, hid⟩⟩ := h
  · have hp : p = ⟨id, none⟩ := by
      cases p
      simp_all [← String.toList_inj]
    exact hp ▸ parse_dash_free (hid ▸ ha) (hid ▸ hne)
  · have hp : p = ⟨String.ofList a, some (String.ofList (a ++ '-' :: s))⟩ := by
      cases p
      simp_all
    rw [hp]
    rcases hid with hid | ⟨r, hid⟩
    · exact parse_dashed ha hne hs (r := []) (by simpa using hid) (.inl rfl)
    · exact parse_dashed ha hne hs (r := '-' :: r) hid (.inr rfl)

/-- What a country read from an id is: it has exactly one dash, starts with the area and a dash,
and is the whole id or is followed in it by a dash. -/
theorem Splits.country {id : String} {p : AreaPath} (h : Splits id p) :
    '-' ∉ p.area.toList ∧ ∀ c, p.country = some c →
      c.toList.count '-' = 1 ∧ (p.area ++ "-").toList <+: c.toList ∧ c.toList <+: id.toList ∧
        (c.toList = id.toList ∨ c.toList ++ ['-'] <+: id.toList) := by
  obtain ⟨a, -, ha, harea, ⟨-, hc⟩ | ⟨s, hs, hc, hid⟩⟩ := h
  · exact ⟨by simpa [harea] using ha, fun c h => by simp [hc] at h⟩
  · refine ⟨by simpa [harea] using ha, fun c hcs => ?_⟩
    obtain rfl : c = String.ofList (a ++ '-' :: s) := by simp_all
    have hcount : (a ++ '-' :: s).count '-' = 1 := by
      simp [List.count_append, List.count_eq_zero_of_not_mem ha, List.count_eq_zero_of_not_mem hs]
    refine ⟨by simpa using hcount, ?_, ?_, ?_⟩
    · simp [harea]
    · rcases hid with hid | ⟨r, hid⟩
      · simp [hid]
      · rw [hid, String.toList_ofList]
        exact List.prefix_append _ _
    · rcases hid with hid | ⟨r, hid⟩
      · exact .inl (by simp [hid])
      · exact .inr ⟨r, by simp [hid]⟩

/-- Reading a node area id. It fails, naming the id, exactly when the id is empty or starts with
a dash. Otherwise it gives the first segment as the area; no country when the id has no dash;
and otherwise the country made of the area, a dash and the second segment, up to the second dash
or the end of the id, even when that segment is empty. So the area has no dash, and a country has
exactly one, starts with the area and a dash, and is the whole id or is followed in it by a dash. -/
theorem parse_first_two_segments (id : String) :
    (∀ e, parse id = .error e ↔ e = .invalidAreaId id ∧ (id.toList = [] ∨ id.toList.head? = some '-')) ∧
    (∀ p, parse id = .ok p ↔ ∃ a, a ≠ [] ∧ '-' ∉ a ∧ p.area = String.ofList a ∧
      ((id.toList = a ∧ p.country = none) ∨
        ∃ s, '-' ∉ s ∧ p.country = some (String.ofList (a ++ '-' :: s)) ∧
          (id.toList = a ++ '-' :: s ∨ ∃ r, id.toList = a ++ '-' :: s ++ '-' :: r))) ∧
    (∀ p, parse id = .ok p → '-' ∉ p.area.toList ∧ ∀ c, p.country = some c →
      c.toList.count '-' = 1 ∧ (p.area ++ "-").toList <+: c.toList ∧ c.toList <+: id.toList ∧
        (c.toList = id.toList ∨ c.toList ++ ['-'] <+: id.toList)) := by
  -- the ok cases, read off `Splits`: a reading is unique, so it is the one `parse_splits` finds
  have hok : ∀ p, parse id = .ok p ↔ Splits id p := by
    intro p
    refine ⟨fun h => ?_, parse_of_splits⟩
    by_cases hbad : id.toList = [] ∨ id.toList.head? = some '-'
    · rw [parse_no_area hbad] at h
      cases h
    · obtain ⟨q, hq, hs⟩ := parse_splits hbad
      rw [hq] at h
      cases h
      exact hs
  refine ⟨fun e => ⟨fun h => ?_, fun ⟨he, hbad⟩ => he ▸ parse_no_area hbad⟩, hok,
    fun p h => ((hok p).mp h).country⟩
  by_cases hbad : id.toList = [] ∨ id.toList.head? = some '-'
  · rw [parse_no_area hbad] at h
    cases h
    exact ⟨rfl, hbad⟩
  · obtain ⟨q, hq, -⟩ := parse_splits hbad
    rw [hq] at h
    cases h

example : parse "eu-" = .ok ⟨"eu", some "eu-"⟩ := by decide

end AreaPath

end NodeSwitcher
