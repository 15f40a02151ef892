import NodeSwitcher.Proofs.Json.Grammar
/-!
# Scanning JSON text

The scanners of `NodeSwitcher.Json` against the grammar of `NodeSwitcher.Proofs.Json.Grammar`:
blanks, words, strings and numbers. For each scanner two lemmas: what it reads is a text of its
kind (`_sound`), and it reads every text of its kind to its end (`_complete`). The places a cursor
keeps play no part: every lemma holds of a cursor whatever its place.

Blanks are passed over in full: `skipSpace` stops at the first character that is not blank, so
`Cursor.ahead` finds, after any blanks of the grammar, the character the grammar puts there.
Digits are read in full too, so a number is read to its end only when no digit, point or exponent
letter follows it; `Follows` says what may.
-/

namespace NodeSwitcher.Json

/-! ### Blanks -/

namespace Blanks

theorem trans {x y z : List Char} (h : Blanks x y) (h' : Blanks y z) : Blanks x z := by
  induction h with
  | stop => exact h'
  | next hc _ ih => exact .next hc (ih h')

end Blanks

/-- A run of characters of the kind `p` stops at the start of `x`: `x` is empty or starts with a
character of another kind. -/
def Stops (p : Char → Bool) (x : List Char) : Prop :=
  ∀ ch r, x = ch :: r → p ch = false

theorem stops_nil {p : Char → Bool} : Stops p [] := fun _ _ h => nomatch h

theorem stops_cons {p : Char → Bool} {ch : Char} {r : List Char} (h : p ch = false) :
    Stops p (ch :: r) :=
  fun _ _ e => by cases e; exact h

/-- Of the blanks before a text that does not start with one, none is left out. -/
theorem Blanks.eq_of_stops {x y z : List Char} (h : Blanks x y) (h' : Blanks x z)
    (hy : Stops Cursor.isSpace y) (hz : Stops Cursor.isSpace z) : y = z := by
  induction h with
  | stop x =>
    cases h' with
    | stop => rfl
    | next hc _ => exact absurd hc (by simp [hy _ _ rfl])
  | next hc _ ih =>
    cases h' with
    | stop => exact absurd hc (by simp [hz _ _ rfl])
    | next _ h'' => exact ih h'' hy

/-- The value of four hexadecimal digits, digit by digit. -/
theorem hexQuad_eq_some {a b c d : Char} {n : Nat} :
    hexQuad a b c d = some n ↔ ∃ va vb vc vd, hexValue a = some va ∧ hexValue b = some vb ∧
      hexValue c = some vc ∧ hexValue d = some vd ∧ n = ((va * 16 + vb) * 16 + vc) * 16 + vd := by
  simp only [hexQuad, bind, pure, Option.bind_eq_some_iff, Option.some.injEq]
  grind

/-- Blanks that stop before a text that does not start with one pass over any fewer blanks too. -/
theorem Blanks.between {x y z : List Char} (h : Blanks x y) (h' : Blanks x z)
    (hz : Stops Cursor.isSpace z) : Blanks y z := by
  induction h with
  | stop => exact h'
  | next hc _ ih =>
    cases h' with
    | stop => exact absurd hc (by simp [hz _ _ rfl])
    | next _ h'' => exact ih h''

namespace Cursor

theorem After.val_cast {a b : Cursor} (e : a = b) (d : After b) : (e ▸ d : After a).1 = d.1 := by
  subst e
  rfl

theorem Past.val_cast {a b : Cursor} (e : a = b) (d : Past b) : (e ▸ d : Past a).1 = d.1 := by
  subst e
  rfl

/-! ### Looking past blanks -/

theorem skipSpace_blanks (c : Cursor) : Blanks c.rest c.skipSpace.1.rest := by
  obtain ⟨x, p⟩ := c
  induction x generalizing p with
  | nil => rw [skipSpace.eq_1]; exact .stop _
  | cons ch r ih =>
    rw [skipSpace.eq_2]
    split
    · next hs => exact .next hs (ih _)
    · exact .stop _

theorem skipSpace_stops (c : Cursor) : Stops isSpace c.skipSpace.1.rest := by
  obtain ⟨x, p⟩ := c
  induction x generalizing p with
  | nil => rw [skipSpace.eq_1]; exact stops_nil
  | cons ch r ih =>
    rw [skipSpace.eq_2]
    split
    · exact ih _
    · next hs => exact stops_cons (by simpa using hs)

theorem ahead_char {c : Cursor} {ch : Char} {before : Past c} {after : After c}
    (h : c.ahead = .char ch before after) :
    Blanks c.rest (ch :: after.1.rest) ∧ before.1.rest = ch :: after.1.rest ∧
      isSpace ch = false := by
  rw [ahead.eq_1] at h
  split at h
  · cases h
  · next ch' r q hs =>
    injection h with h1 h2 h3
    subst h1 h2 h3
    have hafter : (c.skipSpace.transAfter (hs ▸ advance ch' r q)).1.rest = r := by
      simp only [Past.transAfter]
      rw [After.val_cast hs]
      rfl
    have hb := skipSpace_blanks c
    have hstops := skipSpace_stops c
    rw [hs] at hb hstops
    refine ⟨?_, ?_, hstops ch' r rfl⟩
    · rw [hafter]
      exact hb
    · rw [hafter, hs]

theorem ahead_stop {c : Cursor} {q : Position} (h : c.ahead = .stop q) : Blanks c.rest [] := by
  rw [ahead.eq_1] at h
  split at h
  · next q' hs =>
    have hb := skipSpace_blanks c
    rwa [hs] at hb
  · cases h

/-- The character `ahead` finds is the first after the blanks of the grammar. -/
theorem ahead_char_eq {c : Cursor} {ch : Char} {before : Past c} {after : After c}
    (ha : c.ahead = .char ch before after) {ch' : Char} {r : List Char}
    (h : Blanks c.rest (ch' :: r)) (hs : isSpace ch' = false) : ch' = ch ∧ r = after.1.rest := by
  obtain ⟨hb, -, hch⟩ := ahead_char ha
  simpa using Blanks.eq_of_stops h hb (stops_cons hs) (stops_cons hch)

theorem ahead_stop_absurd {c : Cursor} {q : Position} (ha : c.ahead = .stop q) {ch : Char}
    {r : List Char} (h : Blanks c.rest (ch :: r)) (hs : isSpace ch = false) : False := by
  cases Blanks.eq_of_stops (ahead_stop ha) h stops_nil (stops_cons hs)

/-- After blanks, `ahead` finds the first character that is not blank. -/
theorem ahead_of_blanks {x y : List Char} {ch : Char} (h : Blanks x (ch :: y))
    (hch : isSpace ch = false) {c : Cursor} (hc : c.rest = x) :
    ∃ before after, c.ahead = .char ch before after ∧ before.1.rest = ch :: y ∧
      after.1.rest = y := by
  have h' : Blanks c.rest (ch :: y) := by rw [hc]; exact h
  cases ha : c.ahead with
  | stop q => cases Blanks.eq_of_stops (ahead_stop ha) h' stops_nil (stops_cons hch)
  | char ch' before after =>
    obtain ⟨hb, hbefore, hch'⟩ := ahead_char ha
    obtain ⟨rfl, hr⟩ : ch' = ch ∧ after.1.rest = y := by
      simpa using Blanks.eq_of_stops hb h' (stops_cons hch') (stops_cons hch)
    exact ⟨before, after, rfl, by rw [hbefore, hr], hr⟩

/-- After blanks to the end, `ahead` finds the end. -/
theorem ahead_of_blanks_end {x : List Char} (h : Blanks x []) {c : Cursor} (hc : c.rest = x) :
    ∃ q, c.ahead = .stop q := by
  cases ha : c.ahead with
  | stop q => exact ⟨q, rfl⟩
  | char ch before after =>
    obtain ⟨hb, -, hch⟩ := ahead_char ha
    cases Blanks.eq_of_stops hb (by rw [hc]; exact h) (stops_cons hch) stops_nil

/-! ### Words -/

theorem word_sound {c : Cursor} {w : List Char} {d : Past c} (h : c.word w = .ok d) :
    c.rest = w ++ d.1.rest := by
  induction w generalizing c with
  | nil =>
    rw [word.eq_1] at h
    cases h
    rfl
  | cons l ls ih =>
    obtain ⟨x, p⟩ := c
    cases x with
    | nil => simp [word, fail] at h
    | cons ch r =>
      rw [word.eq_3] at h
      split at h
      · next hl =>
        split at h
        · next d' hd' =>
          cases h
          simpa [hl] using ih hd'
        · cases h
      · simp [fail] at h

theorem word_complete {w y : List Char} {c : Cursor} (hc : c.rest = w ++ y) :
    ∃ d, c.word w = .ok d ∧ d.1.rest = y := by
  induction w generalizing c with
  | nil => exact ⟨c.here, by rw [word.eq_1], by simpa [Cursor.here] using hc⟩
  | cons l ls ih =>
    obtain ⟨x, p⟩ := c
    obtain rfl : x = l :: (ls ++ y) := hc
    obtain ⟨d, hd, hdy⟩ := ih (c := ⟨ls ++ y, p.step l⟩) rfl
    refine ⟨⟨d.1, ?_⟩, ?_, hdy⟩
    · have := d.2
      simp at this ⊢
      omega
    · rw [word.eq_3, if_pos rfl, hd]

/-! ### Strings -/

theorem hex4_sound {c : Cursor} {n : Nat} {d : After c} (h : c.hex4 = .ok (n, d)) :
    ∃ a b x y, c.rest = a :: b :: x :: y :: d.1.rest ∧ hexQuad a b x y = some n := by
  obtain ⟨cs, p⟩ := c
  match cs with
  | a :: b :: x :: y :: r =>
    rw [hex4.eq_1] at h
    split at h
    · next va vb vx vy ha hb hx hy =>
      cases h
      exact ⟨a, b, x, y, rfl, hexQuad_eq_some.mpr ⟨va, vb, vx, vy, ha, hb, hx, hy, rfl⟩⟩
    · simp [fail] at h
  | [] | [_] | [_, _] | [_, _, _] =>
    rw [hex4.eq_2 _ _ (by simp)] at h
    split at h <;> simp [fail] at h

theorem hex4_complete {c : Cursor} {a b x y : Char} {r : List Char} (hc : c.rest = a :: b :: x :: y :: r)
    {n : Nat} (hn : hexQuad a b x y = some n) : ∃ d, c.hex4 = .ok (n, d) ∧ d.1.rest = r := by
  obtain ⟨cs, p⟩ := c
  obtain rfl : cs = _ := hc
  obtain ⟨va, vb, vx, vy, ha, hb, hx, hy, rfl⟩ := hexQuad_eq_some.mp hn
  rw [hex4.eq_1]
  simp only [ha, hb, hx, hy]
  exact ⟨_, rfl, rfl⟩

theorem unicodeEscape_sound {c : Cursor} {ch : Char} {d : After c}
    (h : c.unicodeEscape = .ok (ch, d)) : Escape ('u' :: c.rest) ch d.1.rest := by
  rw [unicodeEscape.eq_1] at h
  split at h
  · cases h
  · next n d₁ hhex =>
    obtain ⟨a, b, x, y, hc, hq⟩ := hex4_sound hhex
    split at h
    · simp [fail] at h
    next htrail =>
    split at h
    · next hunit =>
      cases h
      generalize d.1.rest = y at hc ⊢
      rw [hc]
      exact .unit hq (by omega)
    next hunit =>
      split at h
      · next r q hd =>
        split at h
        · cases h
        · next m e hhex' =>
          obtain ⟨a', b', x', y', hr, hq'⟩ := hex4_sound hhex'
          split at h
          · next htrail' =>
            obtain ⟨rfl, rfl⟩ := Prod.mk.inj (Except.ok.inj h)
            have hd' : d₁.1.rest = '\\' :: 'u' :: r := congrArg Cursor.rest hd
            simp only [After.trans]
            rw [Past.val_cast hd]
            generalize e.1.rest = y at hr ⊢
            dsimp only at hr
            rw [hc, hd', hr]
            exact .pair hq (by omega) hq' htrail'
          · simp [fail] at h
      all_goals simp [fail] at h

theorem escape_sound {c : Cursor} {ch : Char} {d : After c} (h : c.escape = .ok (ch, d)) :
    Escape c.rest ch d.1.rest := by
  obtain ⟨_ | ⟨e, r⟩, p⟩ := c
  · simp [escape, fail] at h
  rw [escape.eq_2] at h
  split at h
  · next he =>
    subst he
    split at h
    · next ch' d' hu =>
      obtain ⟨rfl, rfl⟩ := Prod.mk.inj (Except.ok.inj h)
      exact unicodeEscape_sound hu
    · cases h
  · split at h
    · next ch' hs =>
      obtain ⟨rfl, rfl⟩ := Prod.mk.inj (Except.ok.inj h)
      exact .simple hs
    · simp [fail] at h

theorem unicodeEscape_complete {c : Cursor} {x : List Char} {ch : Char} {y : List Char}
    (hx : c.rest = x) (h : Escape ('u' :: x) ch y) :
    ∃ d, c.unicodeEscape = .ok (ch, d) ∧ d.1.rest = y := by
  rw [unicodeEscape.eq_1]
  cases h with
  | simple hs => simp [simpleEscape] at hs
  | unit hq hn =>
    obtain ⟨d, hd, hy⟩ := hex4_complete hx hq
    rw [hd]
    simp only
    rw [if_neg (by omega), if_pos (by omega)]
    exact ⟨d, rfl, hy⟩
  | pair hq hn hq' hm =>
    obtain ⟨d, hd, hy⟩ := hex4_complete hx hq
    rw [hd]
    simp only
    rw [if_neg (by omega), if_neg (by omega)]
    split
    · next r q hdq =>
      have hr := congrArg Cursor.rest hdq
      rw [hy] at hr
      obtain ⟨e, he, hey⟩ := hex4_complete (c := ⟨r, (q.step '\\').step 'u'⟩)
        (List.cons.inj (List.cons.inj hr).2).2.symm hq'
      rw [he]
      simp only
      rw [if_pos hm]
      refine ⟨_, rfl, ?_⟩
      simp only [After.trans]
      rw [Past.val_cast hdq]
      exact hey
    -- every other pattern contradicts the text after the leading surrogate
    all_goals
      next hdq =>
      have hr := congrArg Cursor.rest hdq
      rw [hy] at hr
      simp only [List.cons.injEq] at hr
      grind

theorem escape_complete {c : Cursor} {ch : Char} {y : List Char} (h : Escape c.rest ch y) :
    ∃ d, c.escape = .ok (ch, d) ∧ d.1.rest = y := by
  obtain ⟨x, p⟩ := c
  cases h with
  | simple hs =>
    rw [escape.eq_2, if_neg (by rintro rfl; simp [simpleEscape] at hs), hs]
    exact ⟨_, rfl, rfl⟩
  | unit hq hn =>
    obtain ⟨d, hd, hy⟩ := unicodeEscape_complete (c := ⟨_, p.step 'u'⟩) rfl (.unit hq hn)
    rw [escape.eq_2, if_pos rfl, hd]
    exact ⟨_, rfl, hy⟩
  | pair hq hn hq' hm =>
    obtain ⟨d, hd, hy⟩ := unicodeEscape_complete (c := ⟨_, p.step 'u'⟩) rfl (.pair hq hn hq' hm)
    rw [escape.eq_2, if_pos rfl, hd]
    exact ⟨_, rfl, hy⟩

theorem readChars_sound (acc : List Char) (c : Cursor) :
    ∀ {s : String} {d : After c}, readChars acc c = .ok (s, d) →
      ∃ cs, Chars c.rest cs d.1.rest ∧ s = String.ofList (acc.reverse ++ cs) := by
  fun_induction readChars acc c with
  | case2 acc r p =>
    intro s d h
    obtain ⟨rfl, rfl⟩ := Prod.mk.inj (Except.ok.inj h)
    exact ⟨[], .close r, by simp⟩
  | case4 acc r p ch s' _ d₀ hesc _ e hrec =>
    rename_i ih
    intro s d h
    obtain ⟨rfl, rfl⟩ := Prod.mk.inj (Except.ok.inj h)
    obtain ⟨cs, hcs, rfl⟩ := ih hrec
    exact ⟨ch :: cs, .escape (escape_sound hesc) hcs, by simp⟩
  | case7 acc ch r p hq hb hctl _ s' e hrec =>
    rename_i ih
    intro s d h
    obtain ⟨rfl, rfl⟩ := Prod.mk.inj (Except.ok.inj h)
    obtain ⟨cs, hcs, rfl⟩ := ih hrec
    exact ⟨ch :: cs, .plain ⟨hq, hb, by omega⟩ hcs, by simp⟩
  | case1 | case3 | case5 | case6 | case8 => intro s d h; simp [fail] at h

theorem readChars_complete {x cs y : List Char} (h : Chars x cs y) :
    ∀ (acc : List Char) {c : Cursor}, c.rest = x →
      ∃ d, readChars acc c = .ok (String.ofList (acc.reverse ++ cs), d) ∧ d.1.rest = y := by
  induction h with
  | close y =>
    intro acc c hc
    obtain ⟨_, p⟩ := c
    obtain rfl := hc
    rw [readChars.eq_2, if_pos rfl]
    exact ⟨advance '"' y p, by simp, rfl⟩
  | @plain ch _ _ _ hp _ ih =>
    intro acc c hc
    obtain ⟨_, p⟩ := c
    obtain rfl := hc
    obtain ⟨hq, hb, hctl⟩ := hp
    obtain ⟨d, hd, hy⟩ := ih (ch :: acc) (c := ⟨_, p.step ch⟩) rfl
    rw [List.reverse_cons, List.append_assoc, List.singleton_append] at hd
    rw [readChars.eq_2, if_neg hq, if_neg hb, if_neg (by omega)]
    simp only [advance, hd]
    exact ⟨_, rfl, hy⟩
  | @escape ch _ _ _ _ he _ ih =>
    intro acc c hc
    obtain ⟨_, p⟩ := c
    obtain rfl := hc
    obtain ⟨d₀, hd₀, hy₀⟩ := escape_complete (c := ⟨_, p.step '\\'⟩) he
    obtain ⟨d, hd, hy⟩ := ih (ch :: acc) (c := ((advance '\\' _ p).trans d₀.past).1) hy₀
    rw [List.reverse_cons, List.append_assoc, List.singleton_append] at hd
    rw [readChars.eq_2, if_neg (by decide), if_pos rfl, hd₀]
    simp only [hd]
    exact ⟨_, rfl, hy⟩

theorem skipEscape_sound {c : Cursor} {d : After c} (h : c.skipEscape = .ok d) :
    LooseEscape c.rest d.1.rest := by
  obtain ⟨_ | ⟨e, r⟩, p⟩ := c
  · simp [skipEscape, fail] at h
  rw [skipEscape.eq_2] at h
  split at h
  · next he =>
    subst he
    split at h
    · next n d₀ hhex =>
      cases h
      obtain ⟨a, b, x, y, hr, hq⟩ := hex4_sound hhex
      show LooseEscape ('u' :: r) d₀.1.rest
      generalize d₀.1.rest = y at hr
      dsimp only at hr
      rw [hr]
      exact .unit (by simp [hq])
    · cases h
  · split at h
    · next ch hs =>
      cases h
      exact .simple (by simp [hs])
    · simp [fail] at h

theorem skipEscape_complete {c : Cursor} {x y : List Char} (hc : c.rest = x) (h : LooseEscape x y) :
    ∃ d, c.skipEscape = .ok d ∧ d.1.rest = y := by
  obtain ⟨_, p⟩ := c
  cases h with
  | @simple e _ hs =>
    obtain rfl := hc
    obtain ⟨ch, hch⟩ := Option.isSome_iff_exists.mp hs
    rw [skipEscape.eq_2, if_neg (by rintro rfl; simp [simpleEscape] at hch), hch]
    exact ⟨_, rfl, rfl⟩
  | unit hq =>
    obtain rfl := hc
    obtain ⟨n, hn⟩ := Option.isSome_iff_exists.mp hq
    obtain ⟨d, hd, hy⟩ := hex4_complete (c := ⟨_, p.step 'u'⟩) rfl hn
    rw [skipEscape.eq_2, if_pos rfl, hd]
    exact ⟨_, rfl, hy⟩

theorem skipString_sound (c : Cursor) : ∀ {d : After c}, c.skipString = .ok d →
    LooseChars c.rest d.1.rest := by
  fun_induction skipString c with
  | case2 r p =>
    intro d h
    cases h
    exact .close r
  | case4 r p _ d₀ hesc _ e hrec =>
    rename_i ih
    intro d h
    cases h
    exact .escape (skipEscape_sound hesc) (ih hrec)
  | case7 ch r p hq hb hctl _ e hrec =>
    rename_i ih
    intro d h
    cases h
    exact .plain ⟨hq, hb, by omega⟩ (ih hrec)
  | case1 | case3 | case5 | case6 | case8 => intro d h; simp [fail] at h

theorem skipString_complete {x y : List Char} (h : LooseChars x y) :
    ∀ {c : Cursor}, c.rest = x → ∃ d, c.skipString = .ok d ∧ d.1.rest = y := by
  induction h with
  | close y =>
    intro c hc
    obtain ⟨_, p⟩ := c
    obtain rfl := hc
    rw [skipString.eq_2, if_pos rfl]
    exact ⟨_, rfl, rfl⟩
  | @plain ch _ _ hp _ ih =>
    intro c hc
    obtain ⟨_, p⟩ := c
    obtain rfl := hc
    obtain ⟨hq, hb, hctl⟩ := hp
    obtain ⟨d, hd, hy⟩ := ih (c := ⟨_, p.step ch⟩) rfl
    rw [skipString.eq_2, if_neg hq, if_neg hb, if_neg (by omega)]
    simp only [advance, hd]
    exact ⟨_, rfl, hy⟩
  | escape he _ ih =>
    intro c hc
    obtain ⟨_, p⟩ := c
    obtain rfl := hc
    obtain ⟨d₀, hd₀, hy₀⟩ := skipEscape_complete (c := ⟨_, p.step '\\'⟩) rfl he
    obtain ⟨d, hd, hy⟩ := ih (c := ((advance '\\' _ p).trans d₀.past).1) hy₀
    rw [skipString.eq_2, if_neg (by decide), if_pos rfl, hd₀]
    simp only [hd]
    exact ⟨_, rfl, hy⟩

end Cursor

/-! ### Numbers -/

/-- What may follow a number: nothing that would go on with it, no digit, point or exponent
letter. -/
def NumberStops (y : List Char) : Prop :=
  ∀ ch r, y = ch :: r → isDigit ch = false ∧ ch ≠ '.' ∧ ch ≠ 'e' ∧ ch ≠ 'E'

theorem Follows.numberStops {y : List Char} (h : Follows y) : NumberStops y := by
  intro ch r hy
  subst hy
  simp only [Follows, Cursor.isSpace, Bool.or_eq_true, beq_iff_eq] at h
  rcases h with (((rfl | rfl) | rfl) | rfl) | rfl | rfl | rfl <;> decide

theorem NumberStops.stops_digit {y : List Char} (h : NumberStops y) : Stops isDigit y :=
  fun ch r hy => (h ch r hy).1

/-- Before what may follow a number, an exponent neither starts nor ends with a digit, and starts
with no point. -/
theorem ExponentPart.stops {x y : List Char} (h : ExponentPart x y) (hy : NumberStops y) :
    Stops isDigit x ∧ ∀ r, x ≠ '.' :: r := by
  rcases h with rfl | ⟨e, x', x'', rfl, he, -, -⟩
  · exact ⟨hy.stops_digit, fun r hx => (hy _ r hx).2.1 rfl⟩
  · rcases he with rfl | rfl
    · exact ⟨stops_cons (by decide), by simp⟩
    · exact ⟨stops_cons (by decide), by simp⟩

theorem FractionPart.stops {x x₂ y : List Char} (h : FractionPart x x₂) (h₂ : ExponentPart x₂ y)
    (hy : NumberStops y) : Stops isDigit x := by
  rcases h with rfl | ⟨x', rfl, -⟩
  · exact (h₂.stops hy).1
  · exact stops_cons (by decide)

namespace Cursor

theorem digits_stop {c : Cursor} (h : Stops isDigit c.rest) : (digits c).2.1.rest = c.rest := by
  obtain ⟨_ | ⟨ch, r⟩, p⟩ := c
  · rw [digits.eq_1]
  · rw [digits.eq_2, if_neg (by simp [h ch r rfl])]

/-- After a digit, `digits` reads the rest of a run of digits. -/
theorem digits_sound (c : Cursor) {ch : Char} (hd : isDigit ch = true) :
    Digits (ch :: c.rest) (digits c).2.1.rest := by
  obtain ⟨x, p⟩ := c
  induction x generalizing ch p with
  | nil => rw [digits.eq_1]; exact .one hd
  | cons ch' r ih =>
    rw [digits.eq_2]
    split
    · next hd' => exact .more hd (ih hd' _)
    · exact .one hd

theorem digits_ne_nil_sound {c : Cursor} (h : (digits c).1 ≠ []) :
    Digits c.rest (digits c).2.1.rest := by
  obtain ⟨_ | ⟨ch, r⟩, p⟩ := c
  · simp [digits.eq_1] at h
  · rw [digits.eq_2] at h ⊢
    split at h
    · next hd =>
      rw [if_pos hd]
      exact digits_sound ⟨r, p.step ch⟩ hd
    · simp at h

theorem digits_complete {ch : Char} {c : Cursor} {y : List Char} (h : Digits (ch :: c.rest) y)
    (hy : Stops isDigit y) : (digits c).2.1.rest = y := by
  obtain ⟨x, p⟩ := c
  induction x generalizing ch p with
  | nil =>
    cases h with
    | one => rw [digits.eq_1]
    | more _ h' => cases h'
  | cons ch' r ih =>
    cases h with
    | one => exact digits_stop hy
    | more _ h' =>
      have hd' : isDigit ch' = true := by cases h' <;> assumption
      rw [digits.eq_2, if_pos hd']
      exact ih _ h'

theorem digits_complete_ne_nil {c : Cursor} {y : List Char} (h : Digits c.rest y)
    (hy : Stops isDigit y) : (digits c).1 ≠ [] ∧ (digits c).2.1.rest = y := by
  obtain ⟨x, p⟩ := c
  obtain ⟨ch, r, rfl, hd⟩ : ∃ ch r, x = ch :: r ∧ isDigit ch = true := by
    cases h with
    | one hd => exact ⟨_, _, rfl, hd⟩
    | more hd _ => exact ⟨_, _, rfl, hd⟩
  rw [digits.eq_2, if_pos hd]
  exact ⟨by simp, digits_complete (c := ⟨r, p.step ch⟩) h hy⟩


theorem sign_sound (c : Cursor) : c.rest = '+' :: (sign c).2.1.rest ∨
    c.rest = '-' :: (sign c).2.1.rest ∨ c.rest = (sign c).2.1.rest := by
  rw [sign.eq_def]
  split
  · exact .inl rfl
  · exact .inr (.inl rfl)
  · exact .inr (.inr rfl)

theorem sign_of_digit {c : Cursor} {ch : Char} {r : List Char} (hc : c.rest = ch :: r)
    (hd : isDigit ch = true) : (sign c).2.1.rest = c.rest := by
  rcases sign_sound c with h | h | h
  · rw [h] at hc
    cases hc
    simp [isDigit] at hd
  · rw [h] at hc
    cases hc
    simp [isDigit] at hd
  · exact h.symm

theorem skipExponent_sound {c : Cursor} {d : After c} (h : c.skipExponent = .ok d) :
    ∃ e x' x'', c.rest = e :: x' ∧ (x' = '+' :: x'' ∨ x' = '-' :: x'' ∨ x' = x'') ∧
      Digits x'' d.1.rest := by
  obtain ⟨_ | ⟨e, r⟩, p⟩ := c
  · simp [skipExponent.eq_1, fail] at h
  rw [skipExponent.eq_2] at h
  split at h
  · simp [fail] at h
  · next ch r' q hs =>
    split at h
    · next hd =>
      cases h
      have hr := sign_sound ⟨r, p.step e⟩
      rw [hs] at hr
      refine ⟨e, r, ch :: r', rfl, hr, ?_⟩
      simp only [After.trans, Past.trans]
      rw [Past.val_cast hs]
      exact digits_sound ⟨r', q.step ch⟩ hd
    · simp [fail] at h

theorem skipExponentIfAny_sound {c : Cursor} {d : Past c} (h : c.skipExponentIfAny = .ok d) :
    ExponentPart c.rest d.1.rest := by
  obtain ⟨_ | ⟨ch, r⟩, p⟩ := c
  · rw [skipExponentIfAny.eq_2] at h
    cases h
    exact .inl rfl
  rw [skipExponentIfAny.eq_1] at h
  split at h
  · next he =>
    split at h
    · next d' hd' =>
      cases h
      obtain ⟨e, x', x'', hc, hs, hds⟩ := skipExponent_sound hd'
      cases hc
      exact .inr ⟨ch, r, x'', rfl, by simpa using he, hs, hds⟩
    · cases h
  · cases h
    exact .inl rfl

theorem skipNumberTail_sound {c : Cursor} {d : Past c} (h : c.skipNumberTail = .ok d) :
    ∃ x₂, FractionPart c.rest x₂ ∧ ExponentPart x₂ d.1.rest := by
  by_cases hpoint : ∃ r p, c = ⟨'.' :: r, p⟩
  · obtain ⟨r, p, rfl⟩ := hpoint
    rw [skipNumberTail.eq_1] at h
    split at h
    · simp [fail] at h
    · next hne =>
      split at h
      · next d' hd' =>
        cases h
        refine ⟨_, .inr ⟨r, rfl, digits_ne_nil_sound (by simpa using hne)⟩, ?_⟩
        exact skipExponentIfAny_sound hd'
      · cases h
  · rw [skipNumberTail.eq_2 _ (fun r p e => hpoint ⟨r, p, e⟩)] at h
    exact ⟨c.rest, .inl rfl, skipExponentIfAny_sound h⟩

/-- What `skipNumber` reads is a number without its sign. -/
theorem skipNumber_sound {c : Cursor} {d : After c} (h : c.skipNumber = .ok d) :
    Unsigned c.rest d.1.rest := by
  obtain ⟨_ | ⟨ch, r⟩, p⟩ := c
  · simp [skipNumber, fail] at h
  by_cases h0 : ch = '0'
  · subst h0
    cases r with
    | nil =>
      rw [skipNumber.eq_3, if_pos rfl] at h
      cases h
      exact ⟨[], [], .inl rfl, .inl rfl, .inl rfl⟩
    | cons d' tl =>
      rw [skipNumber.eq_2, if_pos rfl] at h
      split at h
      · simp [fail] at h
      · split at h
        · next c₂ hc₂ =>
          cases h
          obtain ⟨x₂, hf, he⟩ := skipNumberTail_sound hc₂
          exact ⟨d' :: tl, x₂, .inl rfl, hf, he⟩
        · cases h
  -- a number that does not start with a zero: its first digit, then all the digits after it
  have hdigit : ∀ {d₂ : Past (digits ⟨r, p.step ch⟩).2.1}, isDigit ch = true →
      (digits ⟨r, p.step ch⟩).2.1.skipNumberTail = .ok d₂ → Unsigned (ch :: r) d₂.1.rest := by
    intro d₂ hd hd₂
    obtain ⟨x₂, hf, he⟩ := skipNumberTail_sound hd₂
    exact ⟨_, x₂, .inr ⟨digits_sound ⟨r, p.step ch⟩ hd, by simp [h0]⟩, hf, he⟩
  cases r with
  | nil =>
    rw [skipNumber.eq_3, if_neg h0] at h
    split at h
    · next hd =>
      dsimp only at h
      split at h
      · next c₂ hc₂ =>
        cases h
        exact hdigit hd hc₂
      · cases h
    · simp [fail] at h
  | cons d' tl =>
    rw [skipNumber.eq_2, if_neg h0] at h
    split at h
    · next hd =>
      dsimp only at h
      split at h
      · next c₂ hc₂ =>
        cases h
        exact hdigit hd hc₂
      · cases h
    · simp [fail] at h

theorem sign_complete {c : Cursor} {x : List Char}
    (h : c.rest = '+' :: x ∨ c.rest = '-' :: x ∨ c.rest = x)
    (hx : ∃ ch r, x = ch :: r ∧ isDigit ch = true) : (sign c).2.1.rest = x := by
  obtain ⟨x₀, p⟩ := c
  obtain ⟨ch, r, rfl, hd⟩ := hx
  rcases h with h | h | h
  · obtain rfl : x₀ = _ := h
    rw [sign.eq_1]
    rfl
  · obtain rfl : x₀ = _ := h
    rw [sign.eq_2]
    rfl
  · exact (sign_of_digit h hd).trans h

theorem skipExponent_complete {c : Cursor} {e : Char} {x' x'' y : List Char}
    (hc : c.rest = e :: x') (hs : x' = '+' :: x'' ∨ x' = '-' :: x'' ∨ x' = x'') (hds : Digits x'' y)
    (hy : Stops isDigit y) : ∃ d, c.skipExponent = .ok d ∧ d.1.rest = y := by
  obtain ⟨x₀, p⟩ := c
  obtain rfl : x₀ = _ := hc
  obtain ⟨ch, r, rfl, hd⟩ : ∃ ch r, x'' = ch :: r ∧ isDigit ch = true := by
    cases hds with
    | one hd => exact ⟨_, _, rfl, hd⟩
    | more hd _ => exact ⟨_, _, rfl, hd⟩
  have hsign := sign_complete (c := ⟨x', p.step e⟩) hs ⟨ch, r, rfl, hd⟩
  rw [skipExponent.eq_2]
  split
  · next q hq =>
    rw [hq] at hsign
    cases hsign
  · next ch' r' q hq =>
    rw [hq] at hsign
    cases hsign
    rw [if_pos hd]
    refine ⟨_, rfl, ?_⟩
    simp only [After.trans, Past.trans]
    rw [Past.val_cast hq]
    exact digits_complete hds hy

theorem skipExponentIfAny_complete {c : Cursor} {x y : List Char} (h : ExponentPart x y)
    (hy : NumberStops y) (hc : c.rest = x) : ∃ d, c.skipExponentIfAny = .ok d ∧ d.1.rest = y := by
  obtain ⟨x₀, p⟩ := c
  obtain rfl : x₀ = x := hc
  rcases h with rfl | ⟨e, x', x'', rfl, he, hs, hds⟩
  · cases x₀ with
    | nil => exact ⟨_, skipExponentIfAny.eq_2 p, rfl⟩
    | cons ch r =>
      obtain ⟨-, -, hne, hnE⟩ := hy ch r rfl
      rw [skipExponentIfAny.eq_1, if_neg (by simp [hne, hnE])]
      exact ⟨_, rfl, rfl⟩
  · obtain ⟨d, hd, hdy⟩ := skipExponent_complete (c := ⟨e :: x', p⟩) rfl hs hds hy.stops_digit
    rw [skipExponentIfAny.eq_1, if_pos (by rcases he with rfl | rfl <;> rfl), hd]
    exact ⟨_, rfl, hdy⟩

theorem skipNumberTail_complete {c : Cursor} {x x₂ y : List Char} (h : FractionPart x x₂)
    (h₂ : ExponentPart x₂ y) (hy : NumberStops y) (hc : c.rest = x) :
    ∃ d, c.skipNumberTail = .ok d ∧ d.1.rest = y := by
  rcases h with rfl | ⟨x', rfl, hds⟩
  · have hpoint : ∀ r p, c ≠ ⟨'.' :: r, p⟩ := by
      rintro r p rfl
      exact (h₂.stops hy).2 r hc.symm
    rw [skipNumberTail.eq_2 _ hpoint]
    exact skipExponentIfAny_complete h₂ hy hc
  · obtain ⟨x₀, p⟩ := c
    obtain rfl : x₀ = _ := hc
    obtain ⟨hne, hrest⟩ := digits_complete_ne_nil (c := ⟨x', p.step '.'⟩) hds (h₂.stops hy).1
    obtain ⟨d, hd, hdy⟩ := skipExponentIfAny_complete h₂ hy hrest
    rw [skipNumberTail.eq_1, if_neg (by simpa using hne), hd]
    exact ⟨_, rfl, hdy⟩

/-- `skipNumber` reads every number without its sign to its end, when what follows cannot go on
with it. -/
theorem skipNumber_complete {c : Cursor} {x y : List Char} (h : Unsigned x y) (hy : NumberStops y)
    (hc : c.rest = x) : ∃ d, c.skipNumber = .ok d ∧ d.1.rest = y := by
  obtain ⟨x₁, x₂, hi, hf, he⟩ := h
  have hx₁ := hf.stops he hy
  obtain ⟨x₀, p⟩ := c
  obtain rfl : x₀ = x := hc
  rcases hi with rfl | ⟨hds, hnz⟩
  · cases x₁ with
    | nil =>
      obtain rfl : x₂ = [] := by rcases hf with rfl | ⟨_, h', _⟩ <;> simp_all
      obtain rfl : y = [] := by rcases he with rfl | ⟨_, _, _, h', _⟩ <;> simp_all
      rw [skipNumber.eq_3, if_pos rfl]
      exact ⟨_, rfl, rfl⟩
    | cons d' tl =>
      obtain ⟨d, hd, hdy⟩ := skipNumberTail_complete (c := ⟨d' :: tl, p.step '0'⟩) hf he hy rfl
      rw [skipNumber.eq_2, if_pos rfl, if_neg (by simp [hx₁ d' tl rfl]), hd]
      exact ⟨_, rfl, hdy⟩
  · obtain ⟨ch, r, rfl, hd⟩ : ∃ ch r, x₀ = ch :: r ∧ isDigit ch = true := by
      cases hds with
      | one hd => exact ⟨_, _, rfl, hd⟩
      | more hd _ => exact ⟨_, _, rfl, hd⟩
    have h0 : ch ≠ '0' := fun e => hnz r (by rw [e])
    -- the first digit, then all the digits after it
    obtain ⟨d, hd₂, hdy⟩ := skipNumberTail_complete hf he hy
      (digits_complete (c := ⟨r, p.step ch⟩) hds hx₁)
    cases r with
    | nil =>
      rw [skipNumber.eq_3, if_neg h0, if_pos hd]
      dsimp only
      rw [hd₂]
      exact ⟨_, rfl, hdy⟩
    | cons d' tl =>
      rw [skipNumber.eq_2, if_neg h0, if_pos hd]
      dsimp only
      rw [hd₂]
      exact ⟨_, rfl, hdy⟩

end Cursor

end NodeSwitcher.Json
