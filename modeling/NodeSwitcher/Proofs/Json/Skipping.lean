import NodeSwitcher.Proofs.Json.Scanning
/-!
# Skipping JSON values

`Cursor.skipValue` checks a value that is read only to be ignored, against `Ignored`. It keeps the
arrays and objects it is inside as a stack and works in four modes; `Skips` says what each mode
reads, and `Closes` what the stack still demands after a value: the rest of each open container,
innermost first.

* `skipFrom_sound`: what the checker reads is a value, whatever its mode and stack;
* `skipFrom_complete`: it reads every such value to its end, when what follows cannot go on with
  it (`Follows`);
* `skipValue_sound` and `skipValue_complete`: the same for a whole value.
-/

namespace NodeSwitcher.Json

theorem map_eq_ok {ε α β : Type} {f : α → β} {r : Except ε α} {b : β} (h : r.map f = .ok b) :
    ∃ a, r = .ok a ∧ f a = b := by
  cases r with
  | error e => cases h
  | ok a => exact ⟨a, rfl, Except.ok.inj h⟩

/-! ### The first character of a value -/

theorem Unsigned.head {x y : List Char} (h : Unsigned x y) : ∃ ch r, x = ch :: r ∧ isDigit ch = true := by
  obtain ⟨x₁, -, hi, -, -⟩ := h
  rcases hi with rfl | ⟨hd, -⟩
  · exact ⟨'0', x₁, rfl, by decide⟩
  · cases hd with
    | one hd => exact ⟨_, _, rfl, hd⟩
    | more hd _ => exact ⟨_, _, rfl, hd⟩

theorem Number.head {x y : List Char} (h : Number x y) :
    ∃ ch r, x = ch :: r ∧ (ch = '-' ∨ isDigit ch = true) := by
  obtain ⟨x', hx, hu⟩ := h
  rcases hx with rfl | rfl
  · exact ⟨'-', x', rfl, .inl rfl⟩
  · obtain ⟨ch, r, rfl, hd⟩ := hu.head
    exact ⟨ch, r, rfl, .inr hd⟩

/-- A value starts with a character that is neither a blank nor a comma nor a closing bracket. -/
def Opens (x : List Char) : Prop :=
  ∃ ch r, x = ch :: r ∧ Cursor.isSpace ch = false ∧ ch ≠ ',' ∧ ch ≠ ']' ∧ ch ≠ '\x7d'

theorem opens_of_digit {ch : Char} (hd : isDigit ch = true) :
    Cursor.isSpace ch = false ∧ ch ≠ ',' ∧ ch ≠ ']' ∧ ch ≠ '\x7d' := by
  refine ⟨?_, ?_, ?_, ?_⟩
  · cases hs : Cursor.isSpace ch
    · rfl
    · simp only [Cursor.isSpace, Bool.or_eq_true, beq_iff_eq] at hs
      rcases hs with ((rfl | rfl) | rfl) | rfl <;> exact absurd hd (by decide)
  all_goals rintro rfl; exact absurd hd (by decide)

theorem Ignored.opens {x y : List Char} (h : Ignored x y) : Opens x := by
  cases h with
  | number hn =>
    obtain ⟨ch, r, rfl, hch⟩ := hn.head
    rcases hch with rfl | hd
    · exact ⟨_, _, rfl, by decide⟩
    · exact ⟨_, _, rfl, opens_of_digit hd⟩
  | _ => exact ⟨_, _, rfl, by decide⟩

theorem Ignored.bracket {x y : List Char} (h : Ignored ('[' :: x) y) : IgnoredElements true x y := by
  cases h with
  | array h => exact h
  | number hn =>
    obtain ⟨ch, r, he, hch⟩ := hn.head
    cases he
    simp [isDigit] at hch

theorem Ignored.brace {x y : List Char} (h : Ignored ('\x7b' :: x) y) : IgnoredMembers true x y := by
  cases h with
  | object h => exact h
  | number hn =>
    obtain ⟨ch, r, he, hch⟩ := hn.head
    cases he
    simp [isDigit] at hch

/-! ### Scalars -/

namespace Cursor

/-- What `skipScalar` reads from the character ahead is a value. -/
theorem skipScalar_sound {c : Cursor} {ch : Char} {before : Past c} {after : After c} {d : After c}
    (hb : before.1.rest = ch :: after.1.rest) (h : skipScalar ch before after = .ok d) :
    Ignored (ch :: after.1.rest) d.1.rest := by
  unfold skipScalar at h
  split at h
  · next hn =>
    subst hn
    obtain ⟨e, he, rfl⟩ := map_eq_ok h
    rw [word_sound he]
    exact .null _
  split at h
  · next ht =>
    subst ht
    obtain ⟨e, he, rfl⟩ := map_eq_ok h
    rw [word_sound he]
    exact .true_ _
  split at h
  · next hf =>
    subst hf
    obtain ⟨e, he, rfl⟩ := map_eq_ok h
    rw [word_sound he]
    exact .false_ _
  split at h
  · next hm =>
    subst hm
    obtain ⟨e, he, rfl⟩ := map_eq_ok h
    obtain ⟨e', he', rfl⟩ := map_eq_ok he
    exact .number ⟨_, .inl rfl, skipNumber_sound he'⟩
  split at h
  · obtain ⟨e, he, rfl⟩ := map_eq_ok h
    exact .number ⟨_, .inr rfl, hb ▸ skipNumber_sound he⟩
  split at h
  · next hq =>
    subst hq
    obtain ⟨e, he, rfl⟩ := map_eq_ok h
    obtain ⟨e', he', rfl⟩ := map_eq_ok he
    exact .string (skipString_sound _ he')
  · simp [fail] at h

/-- `skipScalar` reads every value that is not an array or an object to its end, when what
follows cannot go on with it. -/
theorem skipScalar_complete {c : Cursor} {ch : Char} {before : Past c} {after : After c}
    {x y : List Char} (hb : before.1.rest = ch :: x) (hx : after.1.rest = x)
    (h : Ignored (ch :: x) y) (hch : ch ≠ '[' ∧ ch ≠ '\x7b') (hy : NumberStops y) :
    ∃ d, skipScalar ch before after = .ok d ∧ d.1.rest = y := by
  unfold skipScalar
  cases h with
  | null =>
    obtain ⟨e, he, hey⟩ := word_complete (w := ['u', 'l', 'l']) hx
    rw [if_pos rfl, he]
    exact ⟨_, rfl, hey⟩
  | true_ =>
    obtain ⟨e, he, hey⟩ := word_complete (w := ['r', 'u', 'e']) hx
    rw [if_neg (by decide), if_pos rfl, he]
    exact ⟨_, rfl, hey⟩
  | false_ =>
    obtain ⟨e, he, hey⟩ := word_complete (w := ['a', 'l', 's', 'e']) hx
    rw [if_neg (by decide), if_neg (by decide), if_pos rfl, he]
    exact ⟨_, rfl, hey⟩
  | string hs =>
    obtain ⟨e, he, hey⟩ := skipString_complete hs hx
    rw [if_neg (by decide), if_neg (by decide), if_neg (by decide), if_neg (by decide),
      if_neg (by decide), if_pos rfl, he]
    exact ⟨_, rfl, hey⟩
  | number hn =>
    obtain ⟨x', hx', hu⟩ := hn
    rcases hx' with hm | rfl
    · obtain ⟨rfl, rfl⟩ := List.cons.inj hm
      obtain ⟨e, he, hey⟩ := skipNumber_complete hu hy hx
      rw [if_neg (by decide), if_neg (by decide), if_neg (by decide), if_pos rfl, he]
      exact ⟨_, rfl, hey⟩
    · obtain ⟨ch', r, he, hd⟩ := hu.head
      obtain ⟨rfl, rfl⟩ := List.cons.inj he
      -- a digit is none of the letters and signs tested before it
      have hne : ∀ c', isDigit c' = false → ch ≠ c' := by
        rintro c' hc' rfl
        rw [hd] at hc'
        cases hc'
      obtain ⟨e, he, hey⟩ := skipNumber_complete hu hy hb
      rw [if_neg (hne 'n' (by decide)), if_neg (hne 't' (by decide)), if_neg (hne 'f' (by decide)),
        if_neg (hne '-' (by decide)), if_pos hd, he]
      exact ⟨_, rfl, hey⟩
  | array => exact absurd rfl hch.1
  | object => exact absurd rfl hch.2

end Cursor

/-! ### What the checker reads in each mode -/

/-- The rest of an array (`false`) or an object (`true`) that is only checked, after its opening
bracket (`first`) or after one of its elements or members. -/
def Inside : Bool → Bool → List Char → List Char → Prop
  | true => IgnoredMembers
  | false => IgnoredElements

/-- `Closes stack x y`: `x` is the rest of each open container of `stack`, innermost first, after
one of its elements or members, followed by `y`. -/
def Closes : List Bool → List Char → List Char → Prop
  | [], x, y => x = y
  | b :: up, x, y => ∃ z, Inside b false x z ∧ Closes up z y

/-- `Skips mode stack x y`: `x` is what `skipFrom mode stack` expects, then the rest of the open
containers of `stack`, followed by `y`. In `value` a value, after blanks; in `member` a member
name, a colon and a value; in `opened` the rest of the innermost container after its opening
bracket; in `after` what follows an element or member. -/
def Skips : SkipMode → List Bool → List Char → List Char → Prop
  | .value, stack, x, y => ∃ x₁ x₂, Blanks x x₁ ∧ Ignored x₁ x₂ ∧ Closes stack x₂ y
  | .member, stack, x, y => ∃ x₁ x₂ x₃ x₄ x₅, Blanks x ('"' :: x₁) ∧ LooseChars x₁ x₂ ∧
      Blanks x₂ (':' :: x₃) ∧ Blanks x₃ x₄ ∧ Ignored x₄ x₅ ∧ Closes stack x₅ y
  | .opened, [], x, y => x = y
  | .opened, b :: up, x, y => ∃ z, Inside b true x z ∧ Closes up z y
  | .after, stack, x, y => Closes stack x y

theorem Skips.value_blanks {stack : List Bool} {x x' y : List Char} (hb : Blanks x x')
    (h : Skips .value stack x' y) : Skips .value stack x y := by
  obtain ⟨x₁, x₂, hb', hv, hc⟩ := h
  exact ⟨x₁, x₂, hb.trans hb', hv, hc⟩

theorem Skips.member_blanks {stack : List Bool} {x x' y : List Char} (hb : Blanks x x')
    (h : Skips .member stack x' y) : Skips .member stack x y := by
  obtain ⟨x₁, x₂, x₃, x₄, x₅, hb', h₁, h₂, h₃, h₄, h₅⟩ := h
  exact ⟨x₁, x₂, x₃, x₄, x₅, hb.trans hb', h₁, h₂, h₃, h₄, h₅⟩

/-- A value and the rest of the array around it are the rest of the array from before the value. -/
theorem Skips.elements {first : Bool} {up : List Bool} {x x₀ y : List Char} (hsep : Sep first x x₀)
    (h : Skips .value (false :: up) x₀ y) : ∃ z, IgnoredElements first x z ∧ Closes up z y := by
  obtain ⟨x₁, x₂, hb, hv, z, hz, hup⟩ := h
  exact ⟨z, .element hsep hb hv hz, hup⟩

/-- A member and the rest of the object around it are the rest of the object from before the
member. -/
theorem Skips.members {first : Bool} {up : List Bool} {x x₀ y : List Char} (hsep : Sep first x x₀)
    (h : Skips .member (true :: up) x₀ y) : ∃ z, IgnoredMembers first x z ∧ Closes up z y := by
  obtain ⟨x₁, x₂, x₃, x₄, x₅, hb, hk, hc, hb', hv, z, hz, hup⟩ := h
  exact ⟨z, .member hsep hb hk hc hb' hv hz, hup⟩

/-! ### What may follow -/

theorem Blanks.follows {x r : List Char} {ch : Char} (h : Blanks x (ch :: r))
    (hch : ch = ',' ∨ ch = ']' ∨ ch = '\x7d') : Follows x := by
  cases h with
  | stop => exact .inr hch
  | next hs _ => exact .inl hs

/-- After an element or member comes a comma or the closing bracket, after blanks. -/
theorem Inside.follows {b : Bool} {x z : List Char} (h : Inside b false x z) : Follows x := by
  cases b
  · cases h with
    | close hb => exact hb.follows (.inr (.inl rfl))
    | element hsep _ _ _ => exact Blanks.follows hsep (.inl rfl)
  · cases h with
    | close hb => exact hb.follows (.inr (.inr rfl))
    | member hsep _ _ _ _ _ _ => exact Blanks.follows hsep (.inl rfl)

theorem Closes.follows {stack : List Bool} {x y : List Char} (h : Closes stack x y)
    (hy : Follows y) : Follows x := by
  cases stack with
  | nil => exact (h : x = y) ▸ hy
  | cons b up =>
    obtain ⟨z, hz, -⟩ := h
    exact hz.follows

/-- The rest of a container starts, after blanks, with a character that is not blank. -/
theorem Inside.lead {b first : Bool} {x z : List Char} (h : Inside b first x z) :
    ∃ ch r, Blanks x (ch :: r) ∧ Cursor.isSpace ch = false := by
  -- what follows the separator: a closing bracket, a value, or a member name
  have hsep : ∀ {x₀ x₁ : List Char}, Sep first x x₀ → Blanks x₀ x₁ → Opens x₁ →
      ∃ ch r, Blanks x (ch :: r) ∧ Cursor.isSpace ch = false := by
    intro x₀ x₁ hs hb ho
    obtain ⟨ch, r, rfl, hch, -⟩ := ho
    cases first
    · exact ⟨',', x₀, hs, by decide⟩
    · exact ⟨ch, r, (hs : x₀ = x) ▸ hb, hch⟩
  cases b
  · cases h with
    | close hb => exact ⟨_, _, hb, by decide⟩
    | element hs hb hv _ => exact hsep hs hb hv.opens
  · cases h with
    | close hb => exact ⟨_, _, hb, by decide⟩
    | member hs hb _ _ _ _ _ => exact hsep hs hb ⟨'"', _, rfl, by decide⟩

namespace Cursor

/-- Whatever its mode and stack, what `skipFrom` reads is what the mode expects and the rest of
every open container. -/
theorem skipFrom_sound (mode : SkipMode) (stack : List Bool) (c : Cursor) :
    ∀ {d : Past c}, skipFrom mode stack c = .ok d → Skips mode stack c.rest d.1.rest := by
  fun_induction skipFrom mode stack c with
  | case2 c stack ch before after ha _ hbr ih =>
    intro d h
    obtain ⟨e, he, rfl⟩ := map_eq_ok h
    obtain ⟨hb, -, -⟩ := ahead_char ha
    obtain ⟨z, hz, hup⟩ := ih he
    rcases hbr with rfl | rfl
    · exact ⟨_, z, hb, .array hz, hup⟩
    · exact ⟨_, z, hb, .object hz, hup⟩
  | case4 c stack ch before after ha _ _ d' hd' _ ih =>
    intro d h
    obtain ⟨e, he, rfl⟩ := map_eq_ok h
    obtain ⟨hb, hbefore, -⟩ := ahead_char ha
    exact ⟨_, d'.1.rest, hb, skipScalar_sound hbefore hd', ih he⟩
  | case8 c stack before after d' hs before' after' _ ha ha' ih =>
    intro d h
    obtain ⟨e, he, rfl⟩ := map_eq_ok h
    obtain ⟨hb, -, -⟩ := ahead_char ha
    obtain ⟨hb', -, -⟩ := ahead_char ha'
    obtain ⟨x₄, x₅, h₃, h₄, h₅⟩ := ih he
    exact ⟨_, _, _, x₄, x₅, hb, skipString_sound _ hs, hb', h₃, h₄, h₅⟩
  | case11 c =>
    intro d h
    cases h
    rfl
  | case13 c b up before after _ _ ha ih =>
    intro d h
    obtain ⟨e, he, rfl⟩ := map_eq_ok h
    obtain ⟨hb, -, -⟩ := ahead_char ha
    cases b
    · exact ⟨_, .close hb, ih he⟩
    · exact ⟨_, .close hb, ih he⟩
  | case14 c up ch before after ha _ _ _ ih =>
    intro d h
    obtain ⟨e, he, rfl⟩ := map_eq_ok h
    obtain ⟨hb, hbefore, -⟩ := ahead_char ha
    have hblank : Blanks c.rest before.1.rest := hbefore ▸ hb
    exact Skips.members rfl ((ih he).member_blanks hblank)
  | case15 c b up ch before after ha _ _ _ hb' ih =>
    intro d h
    obtain ⟨e, he, rfl⟩ := map_eq_ok h
    obtain ⟨hb, hbefore, -⟩ := ahead_char ha
    have hblank : Blanks c.rest before.1.rest := hbefore ▸ hb
    cases b
    · exact Skips.elements rfl ((ih he).value_blanks hblank)
    · exact absurd rfl hb'
  | case16 c =>
    intro d h
    cases h
    rfl
  | case18 c up before after _ ha ih =>
    intro d h
    obtain ⟨e, he, rfl⟩ := map_eq_ok h
    obtain ⟨hb, -, -⟩ := ahead_char ha
    exact Skips.members hb (ih he)
  | case19 c b up before after _ hb' ha ih =>
    intro d h
    obtain ⟨e, he, rfl⟩ := map_eq_ok h
    obtain ⟨hb, -, -⟩ := ahead_char ha
    cases b
    · exact Skips.elements hb (ih he)
    · exact absurd rfl hb'
  | case20 c b up before after _ ha _ ih =>
    intro d h
    obtain ⟨e, he, rfl⟩ := map_eq_ok h
    obtain ⟨hb, -, -⟩ := ahead_char ha
    cases b
    · exact ⟨_, .close hb, ih he⟩
    · exact ⟨_, .close hb, ih he⟩
  | case1 | case3 | case5 | case6 | case7 | case9 | case10 | case12 | case17 | case21 =>
    intro d h
    simp [fail] at h

/-- Whatever its mode and stack, `skipFrom` reads every text of what the mode expects and the rest
of every open container to its end, when what follows cannot go on with it. -/
theorem skipFrom_complete (mode : SkipMode) (stack : List Bool) (c : Cursor) :
    ∀ {y : List Char}, Skips mode stack c.rest y → Follows y →
      ∃ d, skipFrom mode stack c = .ok d ∧ d.1.rest = y := by
  fun_induction skipFrom mode stack c with
  | case1 c stack q ha =>
    rintro y ⟨x₁, x₂, hb, hv, -⟩ -
    obtain ⟨ch, r, rfl, hch, -⟩ := hv.opens
    exact (ahead_stop_absurd ha hb hch).elim
  | case2 c stack ch before after ha _ hbr ih =>
    rintro y ⟨x₁, x₂, hb, hv, hup⟩ hy
    obtain ⟨ch', r, rfl, hch, -⟩ := hv.opens
    obtain ⟨rfl, rfl⟩ := ahead_char_eq ha hb hch
    have hin : Skips .opened (decide (ch' = '\x7b') :: stack) after.1.rest y := by
      rcases hbr with rfl | rfl
      · exact ⟨x₂, hv.bracket, hup⟩
      · exact ⟨x₂, hv.brace, hup⟩
    obtain ⟨e, he, hey⟩ := ih hin hy
    exact ⟨_, by rw [he]; rfl, hey⟩
  | case3 c stack ch before after ha _ hbr err herr =>
    rintro y ⟨x₁, x₂, hb, hv, hup⟩ hy
    obtain ⟨ch', r, rfl, hch, -⟩ := hv.opens
    obtain ⟨rfl, rfl⟩ := ahead_char_eq ha hb hch
    obtain ⟨-, hbefore, -⟩ := ahead_char ha
    obtain ⟨d, hd, -⟩ := skipScalar_complete hbefore rfl hv (by simpa [not_or] using hbr)
      (hup.follows hy).numberStops
    rw [herr] at hd
    cases hd
  | case4 c stack ch before after ha _ hbr d' hd' _ ih =>
    rintro y ⟨x₁, x₂, hb, hv, hup⟩ hy
    obtain ⟨ch', r, rfl, hch, -⟩ := hv.opens
    obtain ⟨rfl, rfl⟩ := ahead_char_eq ha hb hch
    obtain ⟨-, hbefore, -⟩ := ahead_char ha
    obtain ⟨d, hd, hdx⟩ := skipScalar_complete hbefore rfl hv (by simpa [not_or] using hbr)
      (hup.follows hy).numberStops
    rw [hd'] at hd
    cases hd
    obtain ⟨e, he, hey⟩ := ih (hdx ▸ hup) hy
    exact ⟨_, by rw [he]; rfl, hey⟩
  | case5 c stack q ha =>
    rintro y ⟨x₁, x₂, x₃, x₄, x₅, hb, -⟩ -
    exact (ahead_stop_absurd ha hb (by decide)).elim
  | case6 c stack before after err herr ha =>
    rintro y ⟨x₁, x₂, x₃, x₄, x₅, hb, hk, -⟩ -
    obtain ⟨-, rfl⟩ := ahead_char_eq ha hb (by decide)
    obtain ⟨d, hd, -⟩ := skipString_complete hk rfl
    rw [herr] at hd
    cases hd
  | case7 c stack before after d' hd' q ha' ha =>
    rintro y ⟨x₁, x₂, x₃, x₄, x₅, hb, hk, hc, -⟩ -
    obtain ⟨-, rfl⟩ := ahead_char_eq ha hb (by decide)
    obtain ⟨d, hd, hdx⟩ := skipString_complete hk rfl
    rw [hd'] at hd
    cases hd
    exact (ahead_stop_absurd ha' (hdx ▸ hc) (by decide)).elim
  | case8 c stack before after d' hd' before' after' _ ha ha' ih =>
    rintro y ⟨x₁, x₂, x₃, x₄, x₅, hb, hk, hc, hb', hv, hup⟩ hy
    obtain ⟨-, rfl⟩ := ahead_char_eq ha hb (by decide)
    obtain ⟨d, hd, hdx⟩ := skipString_complete hk rfl
    rw [hd'] at hd
    cases hd
    obtain ⟨-, rfl⟩ := ahead_char_eq ha' (hdx ▸ hc) (by decide)
    obtain ⟨e, he, hey⟩ := ih ⟨x₄, x₅, hb', hv, hup⟩ hy
    exact ⟨_, by rw [he]; rfl, hey⟩
  | case9 c stack before after d' hd' ch' before' after' ha' hne ha =>
    rintro y ⟨x₁, x₂, x₃, x₄, x₅, hb, hk, hc, -⟩ -
    obtain ⟨-, rfl⟩ := ahead_char_eq ha hb (by decide)
    obtain ⟨d, hd, hdx⟩ := skipString_complete hk rfl
    rw [hd'] at hd
    cases hd
    exact absurd (ahead_char_eq ha' (hdx ▸ hc) (by decide)).1.symm hne
  | case10 c stack ch before after ha hne =>
    rintro y ⟨x₁, x₂, x₃, x₄, x₅, hb, -⟩ -
    exact absurd (ahead_char_eq ha hb (by decide)).1.symm hne
  | case11 c =>
    intro y h _
    exact ⟨c.here, rfl, h⟩
  | case12 c b up q ha =>
    rintro y ⟨z, hz, -⟩ -
    obtain ⟨ch, r, hb, hch⟩ := hz.lead
    exact (ahead_stop_absurd ha hb hch).elim
  | case13 c b up before after _ _ ha ih =>
    rintro y ⟨z, hz, hup⟩ hy
    cases b
    · simp only [Bool.false_eq_true, ↓reduceDIte] at ha
      cases hz with
      | close hb =>
        obtain ⟨-, rfl⟩ := ahead_char_eq ha hb (by decide)
        obtain ⟨e, he, hey⟩ := ih hup hy
        exact ⟨_, by rw [he]; rfl, hey⟩
      | element hsep hb hv _ =>
        obtain ⟨ch', r, rfl, hch, -, hne, -⟩ := hv.opens
        exact absurd (ahead_char_eq ha ((hsep : _ = c.rest) ▸ hb) hch).1 hne
    · simp only [↓reduceDIte] at ha
      cases hz with
      | close hb =>
        obtain ⟨-, rfl⟩ := ahead_char_eq ha hb (by decide)
        obtain ⟨e, he, hey⟩ := ih hup hy
        exact ⟨_, by rw [he]; rfl, hey⟩
      | member hsep hb _ _ _ _ _ =>
        cases (ahead_char_eq ha ((hsep : _ = c.rest) ▸ hb) (by decide)).1
  | case14 c up ch before after ha _ _ hne ih =>
    rintro y ⟨z, hz, hup⟩ hy
    simp only [↓reduceDIte] at hne
    obtain ⟨-, hbefore, -⟩ := ahead_char ha
    cases hz with
    | close hb => exact absurd (ahead_char_eq ha hb (by decide)).1.symm hne
    | member hsep hb hk hc hb' hv hz =>
      obtain ⟨rfl, rfl⟩ := ahead_char_eq ha ((hsep : _ = c.rest) ▸ hb) (by decide)
      obtain ⟨e, he, hey⟩ := ih ⟨_, _, _, _, _, hbefore ▸ .stop _, hk, hc, hb', hv, z, hz, hup⟩ hy
      exact ⟨_, by rw [he]; rfl, hey⟩
  | case15 c b up ch before after ha _ _ hne hb' ih =>
    rintro y ⟨z, hz, hup⟩ hy
    cases b
    · simp only [Bool.false_eq_true, ↓reduceDIte] at hne
      obtain ⟨-, hbefore, -⟩ := ahead_char ha
      cases hz with
      | close hb => exact absurd (ahead_char_eq ha hb (by decide)).1.symm hne
      | element hsep hb hv hz =>
        obtain ⟨ch', r, rfl, hch, -⟩ := hv.opens
        obtain ⟨rfl, rfl⟩ := ahead_char_eq ha ((hsep : _ = c.rest) ▸ hb) hch
        obtain ⟨e, he, hey⟩ := ih ⟨_, _, hbefore ▸ .stop _, hv, z, hz, hup⟩ hy
        exact ⟨_, by rw [he]; rfl, hey⟩
    · exact absurd rfl hb'
  | case16 c =>
    intro y h _
    exact ⟨c.here, rfl, h⟩
  | case17 c b up q ha =>
    rintro y ⟨z, hz, -⟩ -
    obtain ⟨ch, r, hb, hch⟩ := hz.lead
    exact (ahead_stop_absurd ha hb hch).elim
  | case18 c up before after _ ha ih =>
    rintro y ⟨z, hz, hup⟩ hy
    cases hz with
    | close hb => cases (ahead_char_eq ha hb (by decide)).1
    | member hsep hb hk hc hb' hv hz =>
      obtain ⟨-, rfl⟩ := ahead_char_eq ha hsep (by decide)
      obtain ⟨e, he, hey⟩ := ih ⟨_, _, _, _, _, hb, hk, hc, hb', hv, z, hz, hup⟩ hy
      exact ⟨_, by rw [he]; rfl, hey⟩
  | case19 c b up before after _ hb' ha ih =>
    rintro y ⟨z, hz, hup⟩ hy
    cases b
    · cases hz with
      | close hb => cases (ahead_char_eq ha hb (by decide)).1
      | element hsep hb hv hz =>
        obtain ⟨-, rfl⟩ := ahead_char_eq ha hsep (by decide)
        obtain ⟨e, he, hey⟩ := ih ⟨_, _, hb, hv, z, hz, hup⟩ hy
        exact ⟨_, by rw [he]; rfl, hey⟩
    · exact absurd rfl hb'
  | case20 c b up before after _ ha _ ih =>
    rintro y ⟨z, hz, hup⟩ hy
    cases b
    · simp only [Bool.false_eq_true, ↓reduceDIte] at ha
      cases hz with
      | close hb =>
        obtain ⟨-, rfl⟩ := ahead_char_eq ha hb (by decide)
        obtain ⟨e, he, hey⟩ := ih hup hy
        exact ⟨_, by rw [he]; rfl, hey⟩
      | element hsep _ _ _ => cases (ahead_char_eq ha hsep (by decide)).1
    · simp only [↓reduceDIte] at ha
      cases hz with
      | close hb =>
        obtain ⟨-, rfl⟩ := ahead_char_eq ha hb (by decide)
        obtain ⟨e, he, hey⟩ := ih hup hy
        exact ⟨_, by rw [he]; rfl, hey⟩
      | member hsep _ _ _ _ _ _ => cases (ahead_char_eq ha hsep (by decide)).1
  | case21 c b up ch before after ha _ hcomma hclose =>
    rintro y ⟨z, hz, -⟩ -
    cases b
    · simp only [Bool.false_eq_true, ↓reduceDIte] at hclose
      cases hz with
      | close hb => exact (hclose (ahead_char_eq ha hb (by decide)).1.symm).elim
      | element hsep _ _ _ => exact (hcomma (ahead_char_eq ha hsep (by decide)).1.symm).elim
    · simp only [↓reduceDIte] at hclose
      cases hz with
      | close hb => exact (hclose (ahead_char_eq ha hb (by decide)).1.symm).elim
      | member hsep _ _ _ _ _ _ => exact (hcomma (ahead_char_eq ha hsep (by decide)).1.symm).elim

/-- What `skipValue` reads is one value, after blanks. -/
theorem skipValue_sound {c : Cursor} {d : Past c} (h : c.skipValue = .ok d) :
    ∃ x, Blanks c.rest x ∧ Ignored x d.1.rest := by
  obtain ⟨x₁, x₂, hb, hv, rfl⟩ := skipFrom_sound .value [] c h
  exact ⟨x₁, hb, hv⟩

/-- `skipValue` reads every value after blanks to its end, when what follows cannot go on with
it. -/
theorem skipValue_complete {c : Cursor} {x y : List Char} (hb : Blanks c.rest x) (h : Ignored x y)
    (hy : Follows y) : ∃ d, c.skipValue = .ok d ∧ d.1.rest = y :=
  skipFrom_complete .value [] c ⟨x, y, hb, h, rfl⟩ hy

end Cursor

end NodeSwitcher.Json
