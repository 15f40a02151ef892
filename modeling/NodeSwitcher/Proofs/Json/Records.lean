import Mathlib.Data.List.Forall2
import NodeSwitcher.Proofs.Json.Readers
/-!
# Records against the grammar

A `Form` reads a record from an object or an array. When each of its fields agrees with a field
of the grammar (`Field.Agrees`: the same member name, the same need, and a reader of exactly the
field's texts), `Form.read` reads exactly the texts of `Record`:

* `member_sound`, `member_complete`: the value of one member, a field's or one only checked;
* `fromMembers_sound`, `fromMembers_complete`: the members of an object, with the two conditions
  the grammar puts on their names (`Fits`);
* `fromElements_sound`, `fromElements_complete`: the fields of an array, in order;
* `Reads.record`: the record, in either form.
-/

namespace NodeSwitcher.Json

variable {σ : Type}

/-- A field of a form and a field of the grammar agree: the same member name, the same need, and
the form's field reads exactly the grammar's texts of the field. -/
structure Field.Agrees (fd : Field σ) (ft : FieldText σ) : Prop where
  name : fd.name = ft.name
  required : fd.required = ft.required
  reads : Reads fd.read ft.rel

section Agreeing

variable {fs : List (Field σ)} {ts : List (FieldText σ)}

/-- Agreeing fields are looked up alike: a name is a field of both or of neither. -/
theorem find?_agrees (h : List.Forall₂ Field.Agrees fs ts) (name : String) :
    (fs.find? (·.name == name) = none ∧ ts.find? (·.name = name) = none) ∨
      ∃ fd ft, fs.find? (·.name == name) = some fd ∧ ts.find? (·.name = name) = some ft ∧
        fd.Agrees ft := by
  induction h with
  | nil => exact .inl ⟨rfl, rfl⟩
  | @cons fd ft fs ts hft _ ih =>
    by_cases hn : fd.name = name
    · exact .inr ⟨fd, ft, by simp [hn], by simp [← hft.name, hn], hft⟩
    · have hn' : ft.name ≠ name := hft.name ▸ hn
      simpa [List.find?_cons, hn, hn'] using ih

theorem any_agrees (h : List.Forall₂ Field.Agrees fs ts) (name : String) :
    fs.any (·.name == name) = (ts.find? (·.name = name)).isSome := by
  rcases find?_agrees h name with ⟨hf, ht⟩ | ⟨fd, ft, hf, ht, -⟩
  · rw [ht]
    simpa using List.find?_eq_none.mp hf
  · rw [ht]
    simpa using List.find?_isSome.mp (by simp [hf] : (fs.find? (·.name == name)).isSome)

theorem firstMissing_eq_none (h : List.Forall₂ Field.Agrees fs ts) {f : Form σ} (hf : f.fields = fs)
    {seen : List String} : f.firstMissing seen = none ↔
      ∀ ft ∈ ts, ft.required = true → ft.name ∈ seen := by
  unfold Form.firstMissing
  rw [hf, Option.map_eq_none_iff, List.find?_eq_none]
  clear hf
  induction h with
  | nil => simp
  | @cons fd ft fs ts hft _ ih =>
    rw [List.forall_mem_cons, List.forall_mem_cons, ih]
    simp [hft.required, hft.name]

end Agreeing

/-! ### Members -/

section Members

variable {f : Form σ} {ts : List (FieldText σ)}

/-- What `Form.member` reads after a member name is a colon and a value of that name. -/
theorem member_sound (h : List.Forall₂ Field.Agrees f.fields ts) {name : String} {c : Cursor}
    {u : Option (σ → σ)} {d : c.Past} (hm : f.member name c = .ok (u, d)) :
    ∃ x₃ x₄, Blanks c.rest (':' :: x₃) ∧ Blanks x₃ x₄ ∧ MemberValue ts name x₄ u d.1.rest := by
  rw [Form.member.eq_1] at hm
  split at hm
  · simp [fail] at hm
  · next ch before after ha =>
    have hb := (Cursor.ahead_char ha).1
    split at hm
    · next hcolon =>
      subst hcolon
      split at hm
      · next fd hfd =>
        obtain ⟨⟨u', d'⟩, hd', hud⟩ := map_eq_ok hm
        obtain ⟨rfl, rfl⟩ := Prod.mk.inj hud
        rcases find?_agrees h name with ⟨hf, -⟩ | ⟨fd', ft, hf, ht, hft⟩
        · rw [hf] at hfd
          cases hfd
        · rw [hf] at hfd
          cases hfd
          obtain ⟨x₄, hb', hx⟩ := hft.reads.sound hd'
          refine ⟨after.1.rest, x₄, hb, hb', ?_⟩
          unfold MemberValue
          rw [ht]
          exact ⟨u', hx, rfl⟩
      · next hfd =>
        obtain ⟨e, he, hue⟩ := map_eq_ok hm
        obtain ⟨rfl, rfl⟩ := Prod.mk.inj hue
        rcases find?_agrees h name with ⟨-, ht⟩ | ⟨fd', ft, hf, -, -⟩
        · obtain ⟨x₄, hb', hx⟩ := Cursor.skipValue_sound he
          refine ⟨after.1.rest, x₄, hb, hb', ?_⟩
          unfold MemberValue
          rw [ht]
          exact ⟨hx, rfl⟩
        · rw [hf] at hfd
          cases hfd
    · simp [fail] at hm

/-- `Form.member` reads every colon and value of a member's name to the value's end, when what
follows cannot go on with it. -/
theorem member_complete (h : List.Forall₂ Field.Agrees f.fields ts) {name : String} {c : Cursor}
    {x₃ x₄ x₅ : List Char} {u : Option (σ → σ)} (hc : Blanks c.rest (':' :: x₃))
    (hb : Blanks x₃ x₄) (hv : MemberValue ts name x₄ u x₅) (hy : Follows x₅) :
    ∃ d, f.member name c = .ok (u, d) ∧ d.1.rest = x₅ := by
  obtain ⟨before, after, ha, -, hr⟩ := Cursor.ahead_of_blanks hc (by decide) rfl
  rw [← hr] at hb
  rw [Form.member.eq_1, ha]
  simp only [↓reduceIte]
  unfold MemberValue at hv
  rcases find?_agrees h name with ⟨hf, ht⟩ | ⟨fd, ft, hf, ht, hft⟩
  · rw [ht] at hv
    obtain ⟨hx, rfl⟩ := hv
    obtain ⟨e, he, hey⟩ := Cursor.skipValue_complete hb hx hy
    simp only [hf, he]
    exact ⟨_, rfl, hey⟩
  · rw [ht] at hv
    obtain ⟨v, hx, rfl⟩ := hv
    obtain ⟨e, he, hey⟩ := hft.reads.complete hb hx hy
    simp only [hf, he]
    exact ⟨_, rfl, hey⟩

/-- The conditions an object puts on the names of its members `ms`, after members that named the
fields `seen`: no field named twice, and every needed field named. -/
def Fits (ts : List (FieldText σ)) (seen : List String) (ms : List (String × Option (σ → σ))) :
    Prop :=
  (fieldNames ms).Nodup ∧ (∀ n ∈ fieldNames ms, n ∉ seen) ∧
    ∀ ft ∈ ts, ft.required = true → ft.name ∈ seen ∨ ft.name ∈ fieldNames ms

theorem fits_nil {seen : List String} :
    Fits ts seen [] ↔ ∀ ft ∈ ts, ft.required = true → ft.name ∈ seen := by
  simp [Fits, fieldNames]

/-- A first member that names a field must name a new one; the rest fit after it. -/
theorem fits_cons {seen : List String} {name : String} {u : Option (σ → σ)}
    {ms : List (String × Option (σ → σ))} :
    Fits ts seen ((name, u) :: ms) ↔
      (u.isSome → name ∉ seen) ∧ Fits ts (if u.isSome then name :: seen else seen) ms := by
  cases u with
  | none => simp [Fits, fieldNames]
  | some v =>
    simp only [Fits, fieldNames, List.filter_cons, Option.isSome_some, if_true, List.map_cons,
      List.nodup_cons, List.mem_cons, forall_eq_or_imp, true_implies]
    grind

/-- A member's value updates the record exactly when its name is a field's. -/
theorem MemberValue.isSome {name : String} {x y : List Char} {u : Option (σ → σ)}
    (h : MemberValue ts name x u y) : u.isSome = (ts.find? (·.name = name)).isSome := by
  unfold MemberValue at h
  split at h
  · next ft hft =>
    obtain ⟨v, -, rfl⟩ := h
    simp [hft]
  · next hft =>
    obtain ⟨-, rfl⟩ := h
    simp [hft]

/-- Where `fromMembers` looks for a member name: at the first member right away, at any other
after a comma. -/
theorem key_sep {first : Bool} {c : Cursor} {ch : Char} {before : c.Past} {after : c.After}
    (ha : c.ahead = .char ch before after) {k : c.Past} {pos : Position}
    (hkey : (if _ : first = true then .ok before
      else if _ : ch = ',' then .ok after.past else fail .expectedObjectCommaOrEnd pos :
        Result c.Past) = .ok k) :
    ∃ x₀, Sep first c.rest x₀ ∧ Blanks x₀ k.1.rest := by
  obtain ⟨hb, hbefore, -⟩ := Cursor.ahead_char ha
  cases first
  · by_cases hcomma : ch = ','
    · simp only [hcomma, Bool.false_eq_true, ↓reduceDIte, Except.ok.injEq] at hkey
      subst hkey hcomma
      exact ⟨after.1.rest, hb, .stop _⟩
    · simp [hcomma, fail] at hkey
  · simp only [↓reduceDIte, Except.ok.injEq] at hkey
    subst hkey
    exact ⟨c.rest, rfl, hbefore ▸ hb⟩

/-- What `fromMembers` reads, up to and with the closing brace that `closeObject` then reads, is
members that fit after the fields `seen`; it gives the record updated by them. -/
theorem fromMembers_sound (h : List.Forall₂ Field.Agrees f.fields ts) (first : Bool)
    (seen : List String) (acc : σ) (c : Cursor) :
    ∀ {v : σ} {d : c.Past}, f.fromMembers first seen acc c = .ok (.ok v, d) →
      ∀ {e : d.1.Past}, Cursor.closeObject d.1 = .ok e →
        ∃ ms, Members ts first c.rest ms e.1.rest ∧ Fits ts seen ms ∧
          v = ms.foldl (fun v m => (m.2.getD id) v) acc := by
  fun_induction f.fromMembers first seen acc c with
  | case3 first seen acc c before after hmiss ha =>
    intro v d₁ hres e₁ he
    obtain ⟨hv, rfl⟩ := Prod.mk.inj (Except.ok.inj hres)
    obtain rfl := Except.ok.inj hv
    obtain ⟨hb, hbefore, -⟩ := Cursor.ahead_char ha
    refine ⟨[], .close ((hbefore ▸ hb).trans (Cursor.closeObject_sound he)), ?_, rfl⟩
    exact fits_nil.mpr ((firstMissing_eq_none h rfl).mp hmiss)
  | case9 first seen acc c ch before after ha hne key k hkey before' after' name d hread e hdup
      update g hmem hlt seen' =>
    rename_i acc' hk ih
    intro v d₁ hres e₁ he
    obtain ⟨⟨x, h'⟩, hrec, hxd⟩ := map_eq_ok hres
    obtain ⟨rfl, rfl⟩ := Prod.mk.inj hxd
    obtain ⟨ms, hms, hfits, rfl⟩ := ih hrec he
    obtain ⟨x₃, x₄, hc, hb', hmv⟩ := member_sound h hmem
    obtain ⟨cs, hcs, rfl⟩ := Cursor.readChars_sound [] after'.1 hread
    obtain ⟨hbk, -, -⟩ := Cursor.ahead_char hk
    obtain ⟨hb, hbefore, -⟩ := Cursor.ahead_char ha
    have hsep := key_sep ha hkey
    obtain ⟨x₀, hs, hbx⟩ := hsep
    simp only [List.reverse_nil, List.nil_append] at hmv hms hfits ⊢
    refine ⟨(String.ofList cs, update) :: ms, .member hs (hbx.trans hbk) hcs hc hb' hmv hms, ?_, ?_⟩
    · have hany : (f.fields.any fun x => x.name == String.ofList cs) = update.isSome := by
        rw [any_agrees h, hmv.isSome]
      refine fits_cons.mpr ⟨fun hu hmem' => hdup ?_, ?_⟩
      · simp [hany, hu, hmem']
      · simpa [seen', hany] using hfits
    · cases update <;> rfl
  | case2 | case7 =>
    intro v d₁ hres
    simp at hres
  | case1 | case4 | case5 | case6 | case8 | case10 | case11 =>
    intro v d₁ hres
    simp [fail] at hres

/-- Members that are not the first begin with a comma, after blanks. -/
theorem Members.follows {x y : List Char} {ms : List (String × Option (σ → σ))}
    (h : Members ts false x ms y) : Follows x := by
  cases h with
  | close hb => exact hb.follows (.inr (.inr rfl))
  | member hsep _ _ _ _ _ _ => exact Blanks.follows hsep (.inl rfl)

theorem Sep.eq {first : Bool} {x x₀ x₀' : List Char} (h : Sep first x x₀) (h' : Sep first x x₀') :
    x₀ = x₀' := by
  cases first
  · have := Blanks.eq_of_stops (h : Blanks x (',' :: x₀)) (h' : Blanks x (',' :: x₀'))
      (stops_cons (by decide)) (stops_cons (by decide))
    simpa using this
  · exact (h : x₀ = x).trans (h' : x₀' = x).symm

/-- After the separator of a member, its name starts after blanks. -/
theorem key_blanks {first : Bool} {c : Cursor} {ch : Char} {before : c.Past} {after : c.After}
    (ha : c.ahead = .char ch before after) {k : c.Past} {pos : Position}
    (hkey : (if _ : first = true then .ok before
      else if _ : ch = ',' then .ok after.past else fail .expectedObjectCommaOrEnd pos :
        Result c.Past) = .ok k)
    {x₀ x₁ : List Char} (hsep : Sep first c.rest x₀) (hb : Blanks x₀ ('"' :: x₁)) :
    Blanks k.1.rest ('"' :: x₁) := by
  obtain ⟨x₀', hs', hb'⟩ := key_sep ha hkey
  rw [Sep.eq hsep hs'] at hb
  exact Blanks.between hb' hb (stops_cons (by decide))

/-- Where the grammar puts a member name after the separator, `readString` reads it. -/
theorem key_read {first : Bool} {c : Cursor} {ch : Char} {before : c.Past} {after : c.After}
    (ha : c.ahead = .char ch before after) {k : c.Past} {pos : Position}
    (hkey : (if _ : first = true then .ok before
      else if _ : ch = ',' then .ok after.past else fail .expectedObjectCommaOrEnd pos :
        Result c.Past) = .ok k)
    {x₀ x₁ kk x₂ : List Char} (hsep : Sep first c.rest x₀) (hb : Blanks x₀ ('"' :: x₁))
    (hkk : Chars x₁ kk x₂) {ch' : Char} {before' : k.1.Past} {after' : k.1.After}
    (hk : k.1.ahead = .char ch' before' after') :
    ∃ d, after'.1.readString = .ok (String.ofList kk, d) ∧ d.1.rest = x₂ := by
  obtain ⟨-, hx₁⟩ := Cursor.ahead_char_eq hk (key_blanks ha hkey hsep hb) (by decide)
  obtain ⟨d, hd, hdx⟩ := Cursor.readChars_complete hkk [] hx₁.symm
  refine ⟨d, ?_, hdx⟩
  rw [Cursor.readString, hd]
  simp

/-- `fromMembers` reads every run of members that fit after the fields `seen` to the closing
brace, which it leaves ahead; it gives the record updated by them. -/
theorem fromMembers_complete (h : List.Forall₂ Field.Agrees f.fields ts) (first : Bool)
    (seen : List String) (acc : σ) (c : Cursor) :
    ∀ {ms : List (String × Option (σ → σ))} {y : List Char}, Members ts first c.rest ms y →
      Fits ts seen ms → ∃ d, f.fromMembers first seen acc c =
        .ok (.ok (ms.foldl (fun v m => (m.2.getD id) v) acc), d) ∧ Blanks d.1.rest ('\x7d' :: y) := by
  fun_induction f.fromMembers first seen acc c with
  | case1 first seen acc c q ha =>
    intro ms y hm _
    cases hm with
    | close hb => exact (Cursor.ahead_stop_absurd ha hb (by decide)).elim
    | member hsep hb _ _ _ _ _ =>
      cases first
      · exact (Cursor.ahead_stop_absurd ha (hsep : Blanks c.rest (',' :: _)) (by decide)).elim
      · exact (Cursor.ahead_stop_absurd ha ((hsep : _ = c.rest) ▸ hb) (by decide)).elim
  | case2 first seen acc c before after name hmiss ha =>
    intro ms y hm hfits
    cases hm with
    | close hb =>
      have := (firstMissing_eq_none h rfl).mpr (fits_nil.mp hfits)
      rw [hmiss] at this
      cases this
    | member hsep hb _ _ _ _ _ =>
      cases first
      · cases (Cursor.ahead_char_eq ha (hsep : Blanks c.rest (',' :: _)) (by decide)).1
      · cases (Cursor.ahead_char_eq ha ((hsep : _ = c.rest) ▸ hb) (by decide)).1
  | case3 first seen acc c before after hmiss ha =>
    intro ms y hm _
    obtain ⟨-, hbefore, -⟩ := Cursor.ahead_char ha
    cases hm with
    | close hb =>
      obtain ⟨-, rfl⟩ := Cursor.ahead_char_eq ha hb (by decide)
      exact ⟨before, rfl, hbefore ▸ .stop _⟩
    | member hsep hb _ _ _ _ _ =>
      cases first
      · cases (Cursor.ahead_char_eq ha (hsep : Blanks c.rest (',' :: _)) (by decide)).1
      · cases (Cursor.ahead_char_eq ha ((hsep : _ = c.rest) ▸ hb) (by decide)).1
  | case4 first seen acc c ch before after ha hne key err =>
    rename_i hkey
    intro ms y hm _
    cases hm with
    | close hb => exact absurd (Cursor.ahead_char_eq ha hb (by decide)).1.symm hne
    | member hsep hb _ _ _ _ _ =>
      cases first
      · obtain ⟨rfl, -⟩ := Cursor.ahead_char_eq ha (hsep : Blanks c.rest (',' :: _)) (by decide)
        simp [key] at hkey
      · simp [key] at hkey
  | case5 first seen acc c ch before after ha hne key k hkey q =>
    rename_i hq
    intro ms y hm _
    cases hm with
    | close hb => exact absurd (Cursor.ahead_char_eq ha hb (by decide)).1.symm hne
    | member hsep hb _ _ _ _ _ =>
      exact (Cursor.ahead_stop_absurd hq (key_blanks ha hkey hsep hb) (by decide)).elim
  | case6 first seen acc c ch before after ha hne key k hkey before' after' err hread =>
    rename_i hk
    intro ms y hm _
    cases hm with
    | close hb => exact absurd (Cursor.ahead_char_eq ha hb (by decide)).1.symm hne
    | member hsep hb hkk _ _ _ _ =>
      obtain ⟨d, hd, -⟩ := key_read ha hkey hsep hb hkk hk
      rw [hd] at hread
      cases hread
  | case7 first seen acc c ch before after ha hne key k hkey before' after' name d hread e =>
    rename_i hdup hk
    intro ms y hm hfits
    cases hm with
    | close hb => exact absurd (Cursor.ahead_char_eq ha hb (by decide)).1.symm hne
    | member hsep hb hkk _ _ hmv _ =>
      obtain ⟨d', hd, -⟩ := key_read ha hkey hsep hb hkk hk
      rw [hd] at hread
      obtain ⟨rfl, -⟩ := Prod.mk.inj (Except.ok.inj hread)
      have hany := (any_agrees h _).trans hmv.isSome.symm
      simp only [hany, Bool.and_eq_true, List.contains_iff_mem] at hdup
      exact absurd hdup.2 ((fits_cons.mp hfits).1 hdup.1)
  | case8 first seen acc c ch before after ha hne key k hkey before' after' name d hread e hdup err =>
    rename_i hmem hk
    intro ms y hm _
    cases hm with
    | close hb => exact absurd (Cursor.ahead_char_eq ha hb (by decide)).1.symm hne
    | member hsep hb hkk hc hb' hmv hrest =>
      obtain ⟨d', hd, hdx⟩ := key_read ha hkey hsep hb hkk hk
      rw [hd] at hread
      obtain ⟨rfl, rfl⟩ := Prod.mk.inj (Except.ok.inj hread)
      obtain ⟨g, hg, -⟩ := member_complete (c := e.1) h (hdx ▸ hc) hb' hmv hrest.follows
      rw [hmem] at hg
      cases hg
  | case9 first seen acc c ch before after ha hne key k hkey before' after' name d hread e hdup
      update g hmem hlt seen' =>
    rename_i acc' hk ih
    intro ms y hm hfits
    cases hm with
    | close hb => exact absurd (Cursor.ahead_char_eq ha hb (by decide)).1.symm hne
    | @member _ _ _ _ _ _ _ _ _ kk u ms' hsep hb hkk hc hb' hmv hrest =>
      obtain ⟨d', hd, hdx⟩ := key_read ha hkey hsep hb hkk hk
      rw [hd] at hread
      obtain ⟨rfl, rfl⟩ := Prod.mk.inj (Except.ok.inj hread)
      obtain ⟨g', hg, hgx⟩ := member_complete (c := e.1) h (hdx ▸ hc) hb' hmv hrest.follows
      rw [hmem] at hg
      obtain ⟨rfl, rfl⟩ := Prod.mk.inj (Except.ok.inj hg)
      have hany := (any_agrees h (String.ofList kk)).trans hmv.isSome.symm
      have hfits' : Fits ts seen' ms' := by
        simpa [seen', hany] using (fits_cons.mp hfits).2
      obtain ⟨d₁, hd₁, hd₁y⟩ := ih (hgx ▸ hrest) hfits'
      refine ⟨(e.trans g).past.trans d₁, ?_, hd₁y⟩
      rw [hd₁]
      cases update <;> rfl
  | case10 first seen acc c ch before after ha hne key k hkey before' after' =>
    rename_i hk _
    intro ms y hm _
    cases hm with
    | close hb => exact absurd (Cursor.ahead_char_eq ha hb (by decide)).1.symm hne
    | member hsep hb _ _ _ _ _ =>
      cases (Cursor.ahead_char_eq hk (key_blanks ha hkey hsep hb) (by decide)).1
  | case11 first seen acc c ch before after ha hne key k hkey ch' before' after' hk =>
    rename_i hq _
    intro ms y hm _
    cases hm with
    | close hb => exact absurd (Cursor.ahead_char_eq ha hb (by decide)).1.symm hne
    | member hsep hb _ _ _ _ _ =>
      exact absurd (Cursor.ahead_char_eq hk (key_blanks ha hkey hsep hb) (by decide)).1.symm hq

end Members

/-! ### Fields in order -/

section Elements

variable {f : Form σ}

/-- Agreeing fields are all optional together. -/
theorem optional_agree {fs : List (Field σ)} {ts : List (FieldText σ)}
    (h : List.Forall₂ Field.Agrees fs ts) :
    (∀ fd ∈ fs, fd.required = false) ↔ ∀ ft ∈ ts, ft.required = false := by
  induction h with
  | nil => simp
  | cons hft _ ih => simp only [List.mem_cons, forall_eq_or_imp, hft.required, ih]

/-- After an element comes a comma or the closing bracket, after blanks. -/
theorem Positional.follows {ts : List (FieldText σ)} {x y : List Char} {us : List (σ → σ)}
    (h : Positional ts false x us y) : Follows x := by
  cases h with
  | close hb _ => exact hb.follows (.inr (.inl rfl))
  | element hsep _ _ _ => exact Blanks.follows hsep (.inl rfl)

/-- At the closing bracket, the fields left are read as absent when none of them is needed. -/
theorem fromElements_at_close {c : Cursor} {y : List Char} (hb : Blanks c.rest (']' :: y))
    {index : Nat} {first : Bool} {acc : σ} {fs : List (Field σ)}
    (hreq : ∀ fd ∈ fs, fd.required = false) :
    f.fromElements index first acc fs c = .ok (.ok acc, c.here) := by
  induction fs generalizing index first with
  | nil => rw [Form.fromElements.eq_1]
  | cons fd more ih =>
    simp only [List.mem_cons, forall_eq_or_imp] at hreq
    rw [Form.fromElements.eq_2, Cursor.nextElement_complete_none hb]
    simp only [hreq.1, Bool.false_eq_true, if_false, ih hreq.2]
    rfl

/-- At the closing bracket, the fields left are all read as absent, or reading fails. -/
theorem fromElements_closed_sound {c : Cursor} {y : List Char} (hb : Blanks c.rest (']' :: y))
    {index : Nat} {first : Bool} {acc v : σ} {fs : List (Field σ)} {d : c.Past}
    (h : f.fromElements index first acc fs c = .ok (.ok v, d)) :
    v = acc ∧ d.1 = c ∧ ∀ fd ∈ fs, fd.required = false := by
  induction fs generalizing index first d with
  | nil =>
    rw [Form.fromElements.eq_1] at h
    obtain ⟨hv, rfl⟩ := Prod.mk.inj (Except.ok.inj h)
    exact ⟨(Except.ok.inj hv).symm, rfl, by simp⟩
  | cons fd more ih =>
    rw [Form.fromElements.eq_2, Cursor.nextElement_complete_none hb] at h
    simp only at h
    split at h
    · simp at h
    · next hreq =>
      obtain ⟨⟨x, d'⟩, h', hxd⟩ := map_eq_ok h
      obtain ⟨rfl, rfl⟩ := Prod.mk.inj hxd
      obtain ⟨rfl, hd, hmore⟩ := ih h'
      exact ⟨rfl, hd, by simpa [hreq] using hmore⟩

/-- What `fromElements` reads, up to and with the closing bracket that `closeArray` then reads, is
values of the fields in order, the ones left out at the end not needed; it gives the record
updated by them. -/
theorem fromElements_sound {fs : List (Field σ)} {ts : List (FieldText σ)}
    (hagree : List.Forall₂ Field.Agrees fs ts) :
    ∀ {index : Nat} {first : Bool} {acc v : σ} {c : Cursor} {d : c.Past},
      f.fromElements index first acc fs c = .ok (.ok v, d) →
      ∀ {e : d.1.Past}, Cursor.closeArray d.1 = .ok e →
        ∃ us, Positional ts first c.rest us e.1.rest ∧ v = us.foldl (fun v u => u v) acc := by
  induction hagree with
  | nil =>
    intro index first acc v c d h e he
    rw [Form.fromElements.eq_1] at h
    obtain ⟨hv, rfl⟩ := Prod.mk.inj (Except.ok.inj h)
    obtain rfl := Except.ok.inj hv
    exact ⟨[], .close (Cursor.closeArray_sound he) (by simp), rfl⟩
  | @cons fd ft more ts' hft hmore ih =>
    intro index first acc v c d h e he
    rw [Form.fromElements.eq_2] at h
    split at h
    · cases h
    · next hnone =>
      split at h
      · simp at h
      · next hreq =>
        obtain ⟨⟨x, d'⟩, h', hxd⟩ := map_eq_ok h
        obtain ⟨rfl, rfl⟩ := Prod.mk.inj hxd
        obtain ⟨z, hz⟩ := Cursor.nextElement_none hnone
        obtain ⟨rfl, hd, hreqs⟩ := fromElements_closed_sound hz h'
        have hb := Cursor.closeArray_sound he
        generalize e.1.rest = w at hb
        rw [show d'.1.rest = c.rest by rw [hd]] at hb
        refine ⟨[], .close hb ?_, rfl⟩
        simp only [List.mem_cons, forall_eq_or_imp]
        exact ⟨by rw [← hft.required]; simpa using hreq, (optional_agree hmore).mp hreqs⟩
    · next d₀ hsome =>
      split at h
      · cases h
      · next u e₀ hread =>
        obtain ⟨⟨x, g⟩, h', hxd⟩ := map_eq_ok h
        obtain ⟨rfl, rfl⟩ := Prod.mk.inj hxd
        obtain ⟨us, hus, rfl⟩ := ih h' he
        obtain ⟨x₀, hsep, hb⟩ := Cursor.nextElement_some hsome
        obtain ⟨x₁, hb', hx⟩ := hft.reads.sound hread
        exact ⟨u :: us, .element hsep (hb.trans hb') hx hus, rfl⟩

/-- `fromElements` reads every run of values of the fields in order, the ones left out at the end
not needed, to the closing bracket, which it leaves ahead. -/
theorem fromElements_complete {ts : List (FieldText σ)} {first : Bool} {x y : List Char}
    {us : List (σ → σ)} (h : Positional ts first x us y) :
    ∀ {fs : List (Field σ)}, List.Forall₂ Field.Agrees fs ts →
      ∀ (index : Nat) (acc : σ) {c : Cursor}, c.rest = x →
        ∃ d, f.fromElements index first acc fs c = .ok (.ok (us.foldl (fun v u => u v) acc), d) ∧
          Blanks d.1.rest (']' :: y) := by
  induction h with
  | close hb hreq =>
    intro fs hagree index acc c hc
    subst hc
    exact ⟨c.here, fromElements_at_close hb ((optional_agree hagree).mpr hreq), hb⟩
  | @element ft ts first x x₀ x₁ x₂ y u us hsep hb hx hrest ih =>
    intro fs hagree index acc c hc
    subst hc
    obtain ⟨fd, more, rfl, hft, hmore⟩ : ∃ fd more, fs = fd :: more ∧ fd.Agrees ft ∧
        List.Forall₂ Field.Agrees more ts := by
      cases hagree with
      | cons hft hmore => exact ⟨_, _, rfl, hft, hmore⟩
    obtain ⟨d₀, hd₀, hd₀x⟩ := Cursor.nextElement_complete hsep hb (hft.reads.opens hx)
    obtain ⟨e₀, he₀, he₀x⟩ := hft.reads.complete (c := d₀.1) (by rw [hd₀x]; exact .stop _) hx
      hrest.follows
    obtain ⟨g, hg, hgy⟩ := ih hmore (index + 1) (u acc) (c := (d₀.transAfter e₀).1) he₀x
    rw [Form.fromElements.eq_2, hd₀]
    simp only [he₀, hg]
    exact ⟨_, rfl, hgy⟩

end Elements

/-! ### Records -/

/-- A field that reads a value with a reader of exactly the texts of `R` and sets it into the
record agrees with the grammar's field of the texts of `R`. -/
theorem Field.agrees_of {α : Type} {read : Reader α} {R : List Char → α → List Char → Prop}
    (hR : Reads read R) (name : String) (required : Bool) (set : σ → α → σ) :
    Field.Agrees ⟨name, required, fun c => (read c).map fun (v, d) => (fun r => set r v, d)⟩
      (FieldText.of name required R set) :=
  ⟨rfl, rfl, hR.map fun v r => set r v⟩

/-- A string field agrees with the grammar's field of strings. -/
theorem Field.string_agrees (name : String) (required : Bool) (set : σ → String → σ) :
    Field.Agrees (Field.string name required set) (FieldText.of name required Str set) :=
  Field.agrees_of Reads.string name required set

/-- A form whose fields agree with the grammar's reads exactly the records of the grammar, from an
object or an array, starting from its own record. -/
theorem Reads.record {f : Form σ} {ts : List (FieldText σ)} (h : List.Forall₂ Field.Agrees f.fields ts) :
    Reads f.read (Record f.start ts) where
  sound {c v d} hr := by
    unfold Form.read at hr
    split at hr
    · simp [fail] at hr
    · next ch before after ha =>
      have hb := (Cursor.ahead_char ha).1
      split at hr
      · next hbr =>
        subst hbr
        split at hr
        · cases hr
        · next x d' hd' =>
          dsimp only at hr
          split at hr
          · simp [fail] at hr
          · next v' e he =>
            obtain ⟨rfl, rfl⟩ := Prod.mk.inj (Except.ok.inj hr)
            obtain ⟨us, hus, rfl⟩ := fromElements_sound h hd' he
            exact ⟨_, hb, .array hus⟩
          · cases hr
      split at hr
      · next hbr =>
        subst hbr
        split at hr
        · cases hr
        · next x d' hd' =>
          dsimp only at hr
          split at hr
          · simp [fail] at hr
          · next v' e he =>
            obtain ⟨rfl, rfl⟩ := Prod.mk.inj (Except.ok.inj hr)
            obtain ⟨ms, hms, ⟨hnodup, -, hreq⟩, rfl⟩ := fromMembers_sound h true [] f.start after.1 hd' he
            exact ⟨_, hb, .object hms hnodup fun ft hft hr' => (hreq ft hft hr').resolve_left (by simp)⟩
          · cases hr
      · exact absurd hr Cursor.mismatch_ne_ok
  complete {c x v y} hb hr _ := by
    unfold Form.read
    cases hr with
    | @object x' y ms hms hnodup hreq =>
      obtain ⟨before, after, ha, -, hx⟩ := Cursor.ahead_of_blanks hb (by decide) rfl
      have hfits : Fits ts [] ms := ⟨hnodup, by simp, fun ft hft hr' => .inr (hreq ft hft hr')⟩
      obtain ⟨d, hd, hdy⟩ := fromMembers_complete h true [] f.start after.1 (hx ▸ hms) hfits
      obtain ⟨e, he, hey⟩ := Cursor.closeObject_complete hdy
      rw [ha]
      simp only [if_neg (show ('\x7b' : Char) ≠ '[' by decide), ↓reduceIte, hd, he]
      exact ⟨after.trans (d.trans e), rfl, hey⟩
    | @array x' y us hus =>
      obtain ⟨before, after, ha, -, hx⟩ := Cursor.ahead_of_blanks hb (by decide) rfl
      obtain ⟨d, hd, hdy⟩ := fromElements_complete (f := f) hus h 0 f.start hx
      obtain ⟨e, he, hey⟩ := Cursor.closeArray_complete hdy
      rw [ha]
      simp only [↓reduceIte, hd, he]
      exact ⟨after.trans (d.trans e), rfl, hey⟩
  opens hr := by
    cases hr with
    | object => exact ⟨_, _, rfl, by decide⟩
    | array => exact ⟨_, _, rfl, by decide⟩

end NodeSwitcher.Json
