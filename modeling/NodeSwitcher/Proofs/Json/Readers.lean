import NodeSwitcher.Proofs.Json.Skipping
/-!
# Typed readers against the grammar

`Reads read R` says that a reader reads exactly the texts of `R`: what it reads is a text of `R`
after blanks, standing for the value it gives; it reads every text of `R` after blanks to its end,
when what follows cannot go on with it; and the texts of `R` open as values do. Readers built from
readers keep this:

* `Reads.map`: a reader whose values are mapped;
* `Reads.string`: strings, against `Str`;
* `Reads.option`: `null` or a value, against `OptionOf`;
* `Reads.list`: arrays, against `ListOf`, through `elements_sound` and `elements_complete`;
* `Reads.ofText_ok_iff`: reading a whole text succeeds exactly on the texts of `Whole`.
-/

namespace NodeSwitcher.Json

/-- `read` reads exactly the texts of `R`, with the values they stand for. -/
structure Reads {α : Type} (read : Reader α) (R : List Char → α → List Char → Prop) : Prop where
  sound {c : Cursor} {a : α} {d : c.After} :
    read c = .ok (a, d) → ∃ x, Blanks c.rest x ∧ R x a d.1.rest
  complete {c : Cursor} {x : List Char} {a : α} {y : List Char} :
    Blanks c.rest x → R x a y → Follows y → ∃ d, read c = .ok (a, d) ∧ d.1.rest = y
  opens {x : List Char} {a : α} {y : List Char} : R x a y → Opens x

namespace Cursor

theorem mismatch_ne_ok {α : Type} {c : Cursor} {wanted : String} {ch : Char} {before : Past c}
    {after : After c} {a : α} : mismatch wanted ch before after ≠ .ok a := by
  unfold mismatch
  split <;> simp [fail]

/-! ### Separators and closing brackets -/

theorem nextElement_some {first : Bool} {c : Cursor} {d : Past c}
    (h : nextElement first c = .ok (some d)) : ∃ x₀, Sep first c.rest x₀ ∧ Blanks x₀ d.1.rest := by
  unfold nextElement at h
  split at h
  · simp [fail] at h
  · next ch before after ha =>
    obtain ⟨hb, hbefore, -⟩ := ahead_char ha
    split at h
    · cases h
    split at h
    · next hfirst =>
      cases h
      subst hfirst
      exact ⟨c.rest, rfl, hbefore ▸ hb⟩
    · next hfirst =>
      split at h
      · next hcomma =>
        subst hcomma
        split at h
        · simp [fail] at h
        · next ch' before' after' ha' =>
          split at h
          · simp [fail] at h
          · cases h
            obtain ⟨hb', hbefore', -⟩ := ahead_char ha'
            refine ⟨after.1.rest, ?_, hbefore' ▸ hb'⟩
            simpa [Sep, hfirst] using hb
      · simp [fail] at h

theorem nextElement_none {first : Bool} {c : Cursor} (h : nextElement first c = .ok none) :
    ∃ y, Blanks c.rest (']' :: y) := by
  unfold nextElement at h
  split at h
  · simp [fail] at h
  · next ch before after ha =>
    obtain ⟨hb, -, -⟩ := ahead_char ha
    split at h
    · next hclose =>
      subst hclose
      exact ⟨_, hb⟩
    split at h
    · cases h
    split at h
    · split at h
      · simp [fail] at h
      · split at h
        · simp [fail] at h
        · cases h
    · simp [fail] at h

theorem nextElement_complete {first : Bool} {c : Cursor} {x₀ x₁ : List Char}
    (hsep : Sep first c.rest x₀) (hb : Blanks x₀ x₁) (ho : Opens x₁) :
    ∃ d, nextElement first c = .ok (some d) ∧ d.1.rest = x₁ := by
  obtain ⟨ch, r, rfl, hch, -, hne, -⟩ := ho
  unfold nextElement
  cases first
  · have hsep : Blanks c.rest (',' :: x₀) := hsep
    obtain ⟨before, after, ha, -, hr⟩ := ahead_of_blanks hsep (by decide) rfl
    obtain ⟨before', after', ha', hbefore', -⟩ := ahead_of_blanks hb hch hr
    rw [ha]
    simp only [if_neg (show ',' ≠ ']' by decide), Bool.false_eq_true, if_false, ha', if_neg hne]
    exact ⟨_, rfl, hbefore'⟩
  · obtain ⟨before, after, ha, hbefore, -⟩ := ahead_of_blanks ((hsep : x₀ = c.rest) ▸ hb) hch rfl
    rw [ha]
    simp only [if_neg hne, if_true]
    exact ⟨_, rfl, hbefore⟩

theorem nextElement_complete_none {first : Bool} {c : Cursor} {y : List Char}
    (hb : Blanks c.rest (']' :: y)) : nextElement first c = .ok none := by
  obtain ⟨before, after, ha, -, -⟩ := ahead_of_blanks hb (by decide) rfl
  unfold nextElement
  rw [ha]
  simp

theorem closeArray_sound {c : Cursor} {e : Past c} (h : closeArray c = .ok e) :
    Blanks c.rest (']' :: e.1.rest) := by
  unfold closeArray at h
  split at h
  · cases h
  · next ch before after ha =>
    obtain ⟨hb, -, -⟩ := ahead_char ha
    split at h
    · next hclose =>
      cases h
      subst hclose
      exact hb
    split at h
    · split at h <;> cases h
    · cases h

theorem closeArray_complete {c : Cursor} {y : List Char} (hb : Blanks c.rest (']' :: y)) :
    ∃ e, closeArray c = .ok e ∧ e.1.rest = y := by
  obtain ⟨before, after, ha, -, hr⟩ := ahead_of_blanks hb (by decide) rfl
  unfold closeArray
  rw [ha]
  exact ⟨after.past, rfl, hr⟩

theorem closeObject_sound {c : Cursor} {e : Past c} (h : closeObject c = .ok e) :
    Blanks c.rest ('\x7d' :: e.1.rest) := by
  unfold closeObject at h
  split at h
  · cases h
  · next ch before after ha =>
    obtain ⟨hb, -, -⟩ := ahead_char ha
    split at h
    · next hclose =>
      cases h
      subst hclose
      exact hb
    split at h <;> cases h

theorem closeObject_complete {c : Cursor} {y : List Char} (hb : Blanks c.rest ('\x7d' :: y)) :
    ∃ e, closeObject c = .ok e ∧ e.1.rest = y := by
  obtain ⟨before, after, ha, -, hr⟩ := ahead_of_blanks hb (by decide) rfl
  unfold closeObject
  rw [ha]
  exact ⟨after.past, rfl, hr⟩

end Cursor

/-- A reader whose values are mapped by `g` reads the same texts, standing for the mapped values. -/
theorem Reads.map {α β : Type} {read : Reader α} {R : List Char → α → List Char → Prop}
    (hR : Reads read R) (g : α → β) :
    Reads (fun c => (read c).map fun (v, d) => (g v, d)) (fun x b y => ∃ a, R x a y ∧ b = g a) where
  sound {c b d} h := by
    obtain ⟨⟨a, d'⟩, hd', had⟩ := map_eq_ok h
    obtain ⟨rfl, rfl⟩ := Prod.mk.inj had
    obtain ⟨x, hb, hx⟩ := hR.sound hd'
    exact ⟨x, hb, a, hx, rfl⟩
  complete {c x b y} hb h hy := by
    obtain ⟨a, hx, rfl⟩ := h
    obtain ⟨d, hd, hdy⟩ := hR.complete hb hx hy
    exact ⟨d, by simp only [hd]; rfl, hdy⟩
  opens h := by
    obtain ⟨a, hx, -⟩ := h
    exact hR.opens hx

/-! ### Strings and `null` -/

theorem Str.opens {x y : List Char} {s : String} (h : Str x s y) : Opens x := by
  obtain ⟨x', cs, rfl, -⟩ := h
  exact ⟨_, _, rfl, by decide⟩

/-- A string is not `null`. -/
theorem Str.ne_null {x y : List Char} {s : String} (h : Str x s y) (r : List Char) :
    x ≠ 'n' :: r := by
  obtain ⟨x', cs, rfl, -⟩ := h
  simp

/-- `Reader.string` reads exactly the strings, with the text each stands for. -/
theorem Reads.string : Reads Reader.string Str where
  sound {c s d} h := by
    unfold Reader.string at h
    split at h
    · simp [fail] at h
    · next ch before after ha =>
      split at h
      · next hq =>
        subst hq
        obtain ⟨⟨s', d'⟩, hd', hsd⟩ := map_eq_ok h
        obtain ⟨rfl, rfl⟩ := Prod.mk.inj hsd
        obtain ⟨cs, hcs, rfl⟩ := Cursor.readChars_sound [] after.1 hd'
        exact ⟨_, (Cursor.ahead_char ha).1, after.1.rest, cs, rfl, hcs, by simp⟩
      · exact absurd h Cursor.mismatch_ne_ok
  complete {c x s y} hb h _ := by
    obtain ⟨x', cs, rfl, hcs, rfl⟩ := h
    obtain ⟨before, after, ha, -, hr⟩ := Cursor.ahead_of_blanks hb (by decide) rfl
    obtain ⟨d, hd, hdy⟩ := Cursor.readChars_complete hcs [] hr
    unfold Reader.string
    simp only [ha, ↓reduceIte, Cursor.readString, hd]
    exact ⟨_, by simp; rfl, hdy⟩
  opens h := h.opens

/-- `Reader.option` reads `null` as `none` and the texts of `R` as their values, when no text of
`R` starts with the letter of `null`. -/
theorem Reads.option {α : Type} {read : Reader α} {R : List Char → α → List Char → Prop}
    (hR : Reads read R) (hn : ∀ {x a y}, R x a y → ∀ r, x ≠ 'n' :: r) :
    Reads (Reader.option read) (OptionOf R) where
  sound {c a d} h := by
    unfold Reader.option at h
    split at h
    · next before after ha =>
      obtain ⟨e, he, hae⟩ := map_eq_ok h
      obtain ⟨rfl, rfl⟩ := Prod.mk.inj hae
      exact ⟨'n' :: after.1.rest, (Cursor.ahead_char ha).1,
        .inl ⟨rfl, by rw [Cursor.word_sound he]; rfl⟩⟩
    · obtain ⟨⟨b, e⟩, he, hae⟩ := map_eq_ok h
      obtain ⟨rfl, rfl⟩ := Prod.mk.inj hae
      obtain ⟨x, hb, hx⟩ := hR.sound he
      exact ⟨x, hb, .inr ⟨b, rfl, hx⟩⟩
  complete {c x a y} hb h hy := by
    unfold Reader.option
    rcases h with ⟨rfl, rfl⟩ | ⟨b, rfl, hx⟩
    · obtain ⟨before, after, ha, -, hr⟩ := Cursor.ahead_of_blanks hb (by decide) rfl
      obtain ⟨e, he, hey⟩ := Cursor.word_complete (w := ['u', 'l', 'l']) hr
      rw [ha]
      simp only [he]
      exact ⟨_, rfl, hey⟩
    · obtain ⟨d, hd, hdy⟩ := hR.complete hb hx hy
      obtain ⟨ch, r, rfl, hch, -⟩ := hR.opens hx
      obtain ⟨before, after, ha, -, -⟩ := Cursor.ahead_of_blanks hb hch rfl
      have hne : ch ≠ 'n' := fun e => hn hx r (by rw [e])
      split
      · next before' after' ha' =>
        rw [ha] at ha'
        cases ha'
        exact absurd rfl hne
      · rw [hd]
        exact ⟨d, rfl, hdy⟩
  opens h := by
    rcases h with ⟨-, rfl⟩ | ⟨b, -, hx⟩
    · exact ⟨_, _, rfl, by decide⟩
    · exact hR.opens hx

/-! ### Arrays -/

/-- After an element comes a comma or the closing bracket, after blanks. -/
theorem Elements.follows {α : Type} {R : List Char → α → List Char → Prop} {x y : List Char}
    {as : List α} (h : Elements R false x as y) : Follows x := by
  cases h with
  | close hb => exact hb.follows (.inr (.inl rfl))
  | element hsep _ _ _ => exact Blanks.follows hsep (.inl rfl)

section Arrays

variable {α : Type} {read : Reader α} {R : List Char → α → List Char → Prop}

/-- What `elements` reads, up to and with the closing bracket that `closeArray` then reads, is
elements of `R`; it gives them after the ones read before. -/
theorem elements_sound (hR : Reads read R) (first : Bool) (acc : List α) (c : Cursor) :
    ∀ {xs : List α} {d : c.Past}, Cursor.elements read first acc c = .ok (xs, d) →
      ∀ {e : d.1.Past}, Cursor.closeArray d.1 = .ok e →
        ∃ bs, xs = acc.reverse ++ bs ∧ Elements R first c.rest bs e.1.rest := by
  fun_induction Cursor.elements read first acc c with
  | case2 first acc c _ =>
    intro xs d h e he
    obtain ⟨rfl, rfl⟩ := Prod.mk.inj (Except.ok.inj h)
    exact ⟨[], by simp, .close (Cursor.closeArray_sound he)⟩
  | case4 first acc c d₀ hnext a e₀ hread _ ih =>
    intro xs d h e he
    obtain ⟨⟨xs', f⟩, hrec, hxs⟩ := map_eq_ok h
    obtain ⟨rfl, rfl⟩ := Prod.mk.inj hxs
    obtain ⟨x₀, hsep, hb⟩ := Cursor.nextElement_some hnext
    obtain ⟨x₁, hb', hr⟩ := hR.sound hread
    obtain ⟨bs, rfl, hbs⟩ := ih hrec he
    exact ⟨a :: bs, by simp, .element hsep (hb.trans hb') hr hbs⟩
  | case1 | case3 =>
    intro xs d h
    cases h

/-- `elements` reads every run of elements of `R` to the closing bracket, which it leaves
ahead. -/
theorem elements_complete (hR : Reads read R) {first : Bool} {x : List Char} {bs : List α}
    {y : List Char} (h : Elements R first x bs y) :
    ∀ (acc : List α) {c : Cursor}, c.rest = x →
      ∃ d, Cursor.elements read first acc c = .ok (acc.reverse ++ bs, d) ∧
        Blanks d.1.rest (']' :: y) := by
  induction h with
  | close hb =>
    intro acc c hc
    subst hc
    rw [Cursor.elements.eq_1, Cursor.nextElement_complete_none hb]
    exact ⟨c.here, by simp, hb⟩
  | @element first x x₀ x₁ x₂ y a as hsep hb hr hrest ih =>
    intro acc c hc
    subst hc
    obtain ⟨d₀, hd₀, hd₀x⟩ := Cursor.nextElement_complete hsep hb (hR.opens hr)
    obtain ⟨e₀, he₀, he₀x⟩ := hR.complete (c := d₀.1) (by rw [hd₀x]; exact .stop _) hr hrest.follows
    obtain ⟨d, hd, hdy⟩ := ih (a :: acc) (c := (d₀.transAfter e₀).1) he₀x
    rw [Cursor.elements.eq_1, hd₀]
    simp only [he₀, hd]
    exact ⟨_, by simp; rfl, hdy⟩

/-- `Reader.list read` reads exactly the arrays of texts of `R`. -/
theorem Reads.list (hR : Reads read R) : Reads (Reader.list read) (ListOf R) where
  sound {c xs d} h := by
    unfold Reader.list at h
    split at h
    · simp [fail] at h
    · next ch before after ha =>
      split at h
      · next hb =>
        subst hb
        split at h
        · cases h
        · next xs' d' hd' =>
          split at h
          · next e he =>
            obtain ⟨rfl, rfl⟩ := Prod.mk.inj (Except.ok.inj h)
            obtain ⟨bs, hbs, hel⟩ := elements_sound hR true [] after.1 hd' he
            exact ⟨_, (Cursor.ahead_char ha).1, after.1.rest, rfl, by simpa using hbs ▸ hel⟩
          · cases h
      · exact absurd h Cursor.mismatch_ne_ok
  complete {c x xs y} hb h _ := by
    obtain ⟨x', rfl, hel⟩ := h
    obtain ⟨before, after, ha, -, hr⟩ := Cursor.ahead_of_blanks hb (by decide) rfl
    obtain ⟨d, hd, hdy⟩ := elements_complete hR hel [] hr
    obtain ⟨e, he, hey⟩ := Cursor.closeArray_complete hdy
    unfold Reader.list
    simp only [List.reverse_nil, List.nil_append] at hd
    simp only [ha, ↓reduceIte, hd, he]
    exact ⟨_, rfl, hey⟩
  opens h := by
    obtain ⟨x', rfl, -⟩ := h
    exact ⟨_, _, rfl, by decide⟩

end Arrays

/-! ### Whole texts -/

/-- Reading a whole text succeeds exactly on one text of `R` with blanks around it, and gives its
value. -/
theorem Reads.ofText_ok_iff {α : Type} {read : Reader α} {R : List Char → α → List Char → Prop}
    (hR : Reads read R) (s : String) (a : α) : Reader.ofText read s = .ok a ↔ Whole R s a := by
  unfold Reader.ofText
  constructor
  · intro h
    split at h
    · cases h
    · next a' d hd =>
      split at h
      · next q hq =>
        cases h
        obtain ⟨x, hb, hx⟩ := hR.sound hd
        exact ⟨x, d.1.rest, hb, hx, Cursor.ahead_stop hq⟩
      · simp [fail] at h
  · rintro ⟨x, y, hb, hx, hy⟩
    have hfollows : Follows y := by
      cases hy with
      | stop => trivial
      | next hs _ => exact .inl hs
    obtain ⟨d, hd, hdy⟩ := hR.complete (c := Cursor.ofString s) hb hx hfollows
    obtain ⟨q, hq⟩ := Cursor.ahead_of_blanks_end hy hdy
    rw [hd]
    simp only [hq]

end NodeSwitcher.Json
