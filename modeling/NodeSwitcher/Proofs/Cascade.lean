import NodeSwitcher.Proofs.LoadWrites
/-!
# The cascade from an area

Loading the countries of an area loads the nodes of the country then selected, unless the
country load returned a fault or was superseded. `cascade_ran` states what a cascade does in
any thread and whatever the other threads do (`CascadeRan`), from `load_span` for each of its
loads: the country load sends the request for the area first; a failed or superseded one ends
the cascade with its own result; one that filled the country list is followed at once, with no
other thread between, by the node load of the first country, whose fault, if it returned one,
is the cascade's result, and otherwise the number of countries. It sends the country request
and, after a filled country list only, the node request (`LoadSpan.sent`).

`loadCountries_runs_cascade` is the main statement: loading the countries runs the cascade
from the area selected when it is called, and setting the lists up for an area id without a
country runs the same cascade from the id's area.
-/

namespace NodeSwitcher

open Program

/-- The request an entry sends, if it sends one. -/
def Entry.request? : Entry → Option Request
  | (_, .inl (.send r)) => some r
  | _ => none

/-- The requests that the threads at or below `π` sent in the entries `seg`, in order. -/
def sentBelow (π : Path) (seg : List Entry) : List Request :=
  (below π seg).filterMap Entry.request?

section Sent

variable {π : Path}

@[simp] theorem sentBelow_append (seg₁ seg₂ : List Entry) :
    sentBelow π (seg₁ ++ seg₂) = sentBelow π seg₁ ++ sentBelow π seg₂ := by
  simp [sentBelow]

theorem sentBelow_other {seg : List Entry} (h : ∀ x ∈ seg, ¬ π <+: x.1) : sentBelow π seg = [] := by
  simp [sentBelow, below_eq_nil h]

/-- A load sends its request and nothing else. -/
theorem sentBelow_loadEntries (s : Selector) (r : Request) (tk : Ticket) (pre : Option String)
    (current : Bool) (a : Except Fault (List Choice)) {mid : List Entry}
    (hmid : ∀ x ∈ mid, ¬ π <+: x.1) :
    sentBelow π (loadEntries π s r tk mid (loadEnd π s tk pre current a).1) = [r] := by
  rw [loadEntries_eq, List.append_assoc, sentBelow_append, sentBelow_append, sentBelow_other hmid]
  cases current <;> cases a <;> simp [sentBelow, below, loadStart, loadEnd] <;> rfl

end Sent

/-! ### What a load's result says -/

section Results

variable {π : Path} {s : Selector} {r : Request} {pre : Option String} {mid : List Entry}
  {t t' : Traced}

theorem loadEnd_error {π : Path} {s : Selector} {tk : Ticket} {pre : Option String}
    {current : Bool} {a : Except Fault (List Choice)} {f : Fault} :
    (loadEnd π s tk pre current a).2 = .error f ↔ current = true ∧ a = .error f := by
  cases current <;> cases a <;> simp [loadEnd]

theorem loadEnd_applied {π : Path} {s : Selector} {tk : Ticket} {pre : Option String}
    {current : Bool} {a : Except Fault (List Choice)} {k : Nat} :
    (loadEnd π s tk pre current a).2 = .ok (.applied k) ↔
      current = true ∧ ∃ cs, a = .ok cs ∧ k = cs.length := by
  cases current <;> cases a <;> simp [loadEnd, eq_comm]

/-- A load that returned a fault was found current, and the fault is what its fetch made of
the answer. -/
theorem LoadSpan.error {f : Fault} (h : LoadSpan π s r pre mid t t' (.error f)) :
    ((t.arrival π s r mid).generation s).isCurrent (t.world.generation s).begin.1 = true ∧
      choicesOf (t.world.server.answer r) = .error f :=
  loadEnd_error.mp h.2.2.2.symm

/-- A load that filled its list was found current, its fetch made a list of `k` choices of the
answer, and its list holds them at its end, the pre-selected entry selected. -/
theorem LoadSpan.applied {k : Nat} (h : LoadSpan π s r pre mid t t' (.ok (.applied k))) :
    ∃ cs, choicesOf (t.world.server.answer r) = .ok cs ∧ k = cs.length ∧
      t'.world.page.list s = DropDown.replace cs (pre.bind (lastMatch cs)) := by
  obtain ⟨hc, cs, ha, hk⟩ := loadEnd_applied.mp h.2.2.2.symm
  refine ⟨cs, ha, hk, ?_⟩
  rw [h.world, hc, ha, World.replay_loadEnd]
  simp

end Results

/-- With no pre-selection, the selected value of a replaced list is the value of its first
entry, or the empty text when it has none. -/
theorem DropDown.selectedValue_replace_none (cs : List Choice) :
    (DropDown.replace cs none).selectedValue = (cs.head?.map Choice.value).getD "" := by
  cases cs <;> rfl

/-! ### The cascade -/

/-- What a cascade from the area `area` at thread `π` did from `t` to `t'`, ending with `res`.
Its country load, with the request for `area` and no pre-selection, ran as `LoadSpan` says up to
`t₁`. After a fault or a newer country load, the cascade ends there with the country load's
result, having sent only its request. After the country load filled its list with `cs`, the
cascade reads the selected country at once and loads the nodes of the value of the first of
`cs`, the empty text when there is none, with no other thread between; it returns that load's
fault if it returned one, and otherwise the number of countries, having sent the two requests. -/
def CascadeRan (π : Path) (e : Endpoints) (area : String) (t t' : Traced)
    (res : Except Fault LoadOutcome) : Prop :=
  ∃ mid t₁ res₁, LoadSpan π .country (e.countryRequest area) none mid t t₁ res₁ ∧
    match res₁ with
    | .error f => t' = t₁ ∧ res = .error f ∧
      sentBelow π (t'.log.drop t.log.length) = [e.countryRequest area]
    | .ok .superseded => t' = t₁ ∧ res = .ok .superseded ∧
      sentBelow π (t'.log.drop t.log.length) = [e.countryRequest area]
    | .ok (.applied k) =>
      ∃ cs mid₂ res₂, choicesOf (t.world.server.answer (e.countryRequest area)) = .ok cs ∧
        k = cs.length ∧
        LoadSpan π .node (e.nodeRequest ((cs.head?.map Choice.value).getD "")) none mid₂
          (t₁.perform π (.selectedValue .country)) t' res₂ ∧
        res = (match res₂ with
          | .error f => .error f
          | .ok _ => .ok (.applied k)) ∧
        sentBelow π (t'.log.drop t.log.length) =
          [e.countryRequest area, e.nodeRequest ((cs.head?.map Choice.value).getD "")]

/-- The requests a load sent, read from the log of its end. -/
theorem LoadSpan.sent {π : Path} {s : Selector} {r : Request} {pre : Option String}
    {mid : List Entry} {t t' : Traced} {res : Except Fault LoadOutcome}
    (h : LoadSpan π s r pre mid t t' res) :
    t.log <+: t'.log ∧ sentBelow π (t'.log.drop t.log.length) = [r] := by
  obtain ⟨hmid, -, hl, -⟩ := h
  rw [hl, List.drop_left]
  exact ⟨List.prefix_append _ _, sentBelow_loadEntries _ _ _ _ _ _ hmid⟩

/-- What was added to a log over two stretches. -/
theorem drop_of_prefixes {L₀ L₁ L₂ : List Entry} (h₁ : L₀ <+: L₁) (h₂ : L₁ <+: L₂) :
    L₂.drop L₀.length = L₁.drop L₀.length ++ L₂.drop L₁.length := by
  obtain ⟨A, rfl⟩ := h₁
  obtain ⟨B, rfl⟩ := h₂
  simp

/-- Every cascade runs as `CascadeRan` says, whatever the other threads do. -/
theorem cascade_ran (e : Endpoints) (area : String) (π : Path) (t : Traced) :
    WP Traced.answer (fun _ => True) π (Task.cascade e area).widen t fun res t' =>
      CascadeRan π e area t t' res := by
  refine wp_cascade.mpr ((load_span _ _ _ π t).mono fun res₁ t₁ ⟨mid, h₁⟩ => ?_)
  obtain ⟨hgrow₁, hsent₁⟩ := h₁.sent
  cases res₁ with
  | error f => exact ⟨mid, t₁, _, h₁, rfl, rfl, hsent₁⟩
  | ok o =>
    cases o with
    | superseded => exact ⟨mid, t₁, _, h₁, rfl, rfl, hsent₁⟩
    | applied k =>
      obtain ⟨cs, hcs, hk, hlist⟩ := h₁.applied
      -- the node load reads the first country, which the country load has just selected
      have hsel : (t₁.world.page.list .country).selectedValue =
          (cs.head?.map Choice.value).getD "" := by
        rw [hlist]
        exact DropDown.selectedValue_replace_none cs
      refine wp_loadNodes.mpr ?_
      rw [hsel]
      refine (load_span _ _ _ π _).mono fun res₂ t' ⟨mid₂, h₂⟩ => ?_
      -- the country request, the reading of the country, then the node request
      obtain ⟨hgrow₂, hsent₂⟩ := h₂.sent
      have hread : t₁.log <+: (t₁.perform π (.selectedValue .country)).log := by simp
      have hsent : sentBelow π (t'.log.drop t.log.length) =
          [e.countryRequest area, e.nodeRequest ((cs.head?.map Choice.value).getD "")] := by
        rw [drop_of_prefixes hgrow₁ (hread.trans hgrow₂), drop_of_prefixes hread hgrow₂,
          sentBelow_append, sentBelow_append, hsent₁, hsent₂]
        simp [sentBelow, below]
        rfl
      cases res₂ with
      | error f => exact ⟨mid, t₁, _, h₁, cs, mid₂, _, hcs, hk, h₂, rfl, hsent⟩
      | ok o => exact ⟨mid, t₁, _, h₁, cs, mid₂, _, hcs, hk, h₂, rfl, hsent⟩

/-- Loading the countries runs the cascade from the area selected when it is called, whatever
the other threads do. Setting the lists up for an area id that names no country first reads and
selects the area and reports what it did, sending nothing and beginning no load, and then runs
the same cascade from the id's area, returning its fault or nothing. -/
theorem loadCountries_runs_cascade (e : Endpoints) :
    (∀ π t, WP Traced.answer (fun _ => True) π (Task.loadCountries e).widen t fun res t' =>
      CascadeRan π e (t.world.page.list .area).selectedValue
        (t.perform π (.selectedValue .area)) t' res) ∧
    ∀ (c : PageConfig) (path : AreaPath), c.areaPath = .ok path → path.country = none →
      ∀ π t, WP Traced.answer (fun _ => True) π (Task.setUp e c).widen t fun res t' =>
        ∃ cs res₀, (∀ c ∈ cs, c.kind ≠ .send ∧ c.kind ≠ .beginLoad) ∧
          CascadeRan π e path.area (t.performAll π cs) t' res₀ ∧ res = res₀.map fun _ => () := by
  refine ⟨fun π t => wp_loadCountries.mpr (cascade_ran e _ π _), ?_⟩
  intro c path hc hcountry π t
  refine wp_setUp.mpr ?_
  simp only [hc, hcountry]
  -- the area is selected, or reported missing, before the cascade
  cases hm : firstMatch (t.world.page.list .area).values path.area with
  | some i =>
    exact (cascade_ran e path.area π _).mono fun res₀ t' h =>
      ⟨[.optionValues .area, .selectIndex .area i, .record (.plainCascade c.nodeAreaId)], res₀,
        by simp, h, rfl⟩
  | none =>
    exact (cascade_ran e path.area π _).mono fun res₀ t' h =>
      ⟨[.optionValues .area, .record (.areaNotOffered path.area),
        .record (.plainCascade c.nodeAreaId)], res₀, by simp, h, rfl⟩

/-- The page configuration of node `n5` in area `na`, which names no country, sets the lists up
by the cascade from `na`. -/
theorem setUp_na_runs_cascade :
    PageConfig.areaPath ⟨"n5", "na", {}, {}, "info"⟩ = .ok ⟨"na", none⟩ ∧
      WP Traced.answer (fun _ => True) [] (Task.setUp {} ⟨"n5", "na", {}, {}, "info"⟩).widen
        (Session.start {}) fun res t' =>
          ∃ cs res₀, (∀ c ∈ cs, c.kind ≠ .send ∧ c.kind ≠ .beginLoad) ∧
            CascadeRan [] {} "na" ((Session.start {}).performAll [] cs) t' res₀ ∧
            res = res₀.map fun _ => () :=
  ⟨rfl, (loadCountries_runs_cascade {}).2 ⟨"n5", "na", {}, {}, "info"⟩ ⟨"na", none⟩ rfl rfl [] _⟩

end NodeSwitcher
