import NodeSwitcher.Proofs.SetUp
/-!
# The events of a step

Every event a step reports is an entry of its log that records it (`World.replay_events`), and
the events stand next to the actions they report:

* `load_events`: a load, in any thread and whatever the others do, reports its `fetching` event
  for its own request, and then `superseded` with its own ticket when it was superseded, or
  `loadFailed` when it failed, the error marker it sets showing that fault's message;
* `submit_events`: a submission reports one event for each way it can end, naming the node;
* `fetch_events`: a fetch reports only its `fetching` event;
* `setUp_events`: setting the lists up reports the area missing exactly when no area of the list
  is the id's, and the plain cascade exactly when the id names no country; every other event
  below it is a load's.

Across threads, `Paired` says where each entry's partner stands in the log: a request's
announcement right before it, a ticket check right before the report of a stale load, a
reported fault between a check that found its ticket current and its marker. Each task keeps
it for the entries it adds (`pairedLaw`, `paired_basic`), so every entry of a step's log stands
next to its partner (`Session.log_paired`). `Session.events_match_actions` gathers all of it.
-/

namespace NodeSwitcher

open Program

/-- The event an entry of the log reports, if it records one. -/
def Entry.event? : Entry → Option Event
  | (_, .inl (.record ev)) => some ev
  | _ => none

/-- The error marker an entry sets, with its list, if it sets one. -/
def Entry.marker? : Entry → Option (Selector × Option String)
  | (_, .inl (.setError s m)) => some (s, m)
  | _ => none

/-- The events of a world after logged questions: those it had, then those the entries record. -/
theorem World.replay_events (w : World) (U : List Entry) :
    (w.replay U).events = w.events ++ U.filterMap Entry.event? := by
  induction U generalizing w with
  | nil => simp
  | cons x U ih =>
    obtain ⟨π, c | a⟩ := x
    · rw [show w.replay ((π, .inl c) :: U) = (World.answer (.inl c) w).1.replay U from rfl, ih]
      cases c with
      | beginLoad s => cases s <;> rfl
      | record ev => simp [World.answer, World.perform, Entry.event?]
      | _ => rfl
    · rw [show w.replay ((π, .inr a) :: U) = (World.answer (.inr a) w).1.replay U from rfl, ih]
      cases a <;> rfl

/-! ### The events of a load -/

/-- A load's own entries report its `fetching` event, then its end: `superseded` with its ticket
when found stale, `loadFailed` after a fault. -/
theorem loadOwn_events (π : Path) (s : Selector) (r : Request) (tk : Ticket) (pre : Option String)
    (current : Bool) (a : Except Fault (List Choice)) :
    (loadOwn π s r tk (loadEnd π s tk pre current a).1).filterMap Entry.event? =
      .fetching r.path r.query :: match (loadEnd π s tk pre current a).2 with
        | .ok .superseded => [.superseded s tk]
        | .error f => [.loadFailed s f]
        | .ok (.applied _) => [] := by
  cases current <;> cases a <;>
    simp [loadOwn, loadStart, loadEnd, List.filterMap_cons, Entry.event?]

/-- A load's own entries set its list's marker to its fault's message after a fault, clear it
after a list of choices, and leave it when found stale. -/
theorem loadOwn_markers (π : Path) (s : Selector) (r : Request) (tk : Ticket) (pre : Option String)
    (current : Bool) (a : Except Fault (List Choice)) :
    (loadOwn π s r tk (loadEnd π s tk pre current a).1).filterMap Entry.marker? =
      match (loadEnd π s tk pre current a).2 with
        | .ok .superseded => []
        | .error f => [(s, some f.message)]
        | .ok (.applied _) => [(s, none)] := by
  cases current <;> cases a <;>
    simp [loadOwn, loadStart, loadEnd, List.filterMap_cons, Entry.marker?]

/-- What a load adds below its thread, as its span shows it: its own entries. -/
theorem LoadSpan.below_own {π : Path} {s : Selector} {r : Request} {pre : Option String}
    {mid : List Entry} {t t' : Traced} {res : Except Fault LoadOutcome}
    (h : LoadSpan π s r pre mid t t' res) :
    ∃ current, below π (t'.log.drop t.log.length) = loadOwn π s r (t.world.generation s).begin.1
        (loadEnd π s (t.world.generation s).begin.1 pre current
          (choicesOf (t.world.server.answer r))).1 ∧
      res = (loadEnd π s (t.world.generation s).begin.1 pre current
        (choicesOf (t.world.server.answer r))).2 := by
  obtain ⟨current, seg, -, -, hl, -, hown, hres⟩ := h.within .refl
  exact ⟨current, by rw [hl, List.drop_left, hown], hres⟩

/-- Every load, in any thread and whatever the other threads do, reports its `fetching` event
for its request, and then `superseded` with the ticket it took when it was superseded, or
`loadFailed` with its fault when it failed; and it sets its list's marker to that fault's
message, or clears it after filling the list. -/
theorem load_events (s : Selector) (r : Request) (pre : Option String) (π : Path) (t : Traced) :
    WP Traced.answer (fun _ => True) π (Task.load s r pre).widen t fun res t' =>
      let own := below π (t'.log.drop t.log.length)
      own.filterMap Entry.event? = .fetching r.path r.query :: (match res with
        | .ok .superseded => [.superseded s (t.world.generation s).begin.1]
        | .error f => [.loadFailed s f]
        | .ok (.applied _) => []) ∧
      own.filterMap Entry.marker? = match res with
        | .ok .superseded => []
        | .error f => [(s, some f.message)]
        | .ok (.applied _) => [(s, none)] := by
  refine (load_span s r pre π t).mono fun res t' hspan => ?_
  obtain ⟨mid, h⟩ := hspan
  obtain ⟨current, hown, hres⟩ := h.below_own
  simp only [hown, hres]
  exact ⟨loadOwn_events .., loadOwn_markers ..⟩

/-! ### The events of a submission -/

theorem Traced.performAll_log (π : Path) (cs : List Command) (t : Traced) :
    (t.performAll π cs).log = t.log ++ cs.map fun c => (π, .inl c) := by
  induction cs generalizing t with
  | nil => simp
  | cons c cs ih => simp [ih]

theorem below_map_own (π : Path) (cs : List Command) :
    below π (cs.map fun c => (π, .inl c)) = cs.map fun c => (π, .inl c) :=
  List.filter_eq_self.mpr fun x hx => by
    obtain ⟨c, -, rfl⟩ := List.mem_map.mp hx
    simp

/-- Every submission, in any thread and whatever the other threads do, reports one event for the
way it ended, naming the node it read: none when it had no node, the change when the server made
it, the refusal with its status, or the failure with its fault. -/
theorem submit_events (e : Endpoints) (π : Path) (t : Traced) :
    WP Traced.answer (fun _ => True) π (Task.submit e).widen t fun o t' =>
      let node := (t.world.page.list .node).selectedValue
      (below π (t'.log.drop t.log.length)).filterMap Entry.event? = match o with
        | .rejected => []
        | .reloaded => [.nodeChanged node]
        | .refused status _ => [.changeRefused node status]
        | .failed f => [.changeFailed node f] := by
  refine wp_submit.mpr ?_
  dsimp only
  split
  · simp [List.filterMap_cons, Entry.event?]
  · refine Await.of_rely trivial fun t' hR => ?_
    obtain ⟨V, hs, hl, hV⟩ := Traced.moves hR
    simp only [Traced.performAll_cons, Traced.performAll_nil, Traced.perform_log] at hl
    -- below the submission's thread, only its own entries
    have hbelow : ∀ cs : List Command, below π ((t'.performAll π cs).log.drop t.log.length) =
        [(π, .inl (.selectedValue .node)), (π, .inl (.setLoading true)),
          (π, .inl (.send (e.changeRequest (t.world.page.list .node).selectedValue)))] ++
          cs.map fun c => (π, .inl c) := by
      intro cs
      rw [Traced.performAll_log, hl]
      simp [below_eq_nil hV, below_map_own]
    split
    · next response _ =>
      split
      · rw [← Traced.performAll_cons, hbelow]
        simp [List.filterMap_cons, Entry.event?]
      · rw [← Traced.performAll_cons, hbelow]
        simp [List.filterMap_cons, Entry.event?]
    · rw [← Traced.performAll_cons, hbelow]
      simp [List.filterMap_cons, Entry.event?]

/-- A fetch reports only the announcement of its request. -/
theorem fetch_events (r : Request) (π : Path) (t : Traced) :
    WP Traced.answer (fun _ => True) π (Task.fetchChoices r).widen t fun _ t' =>
      (below π (t'.log.drop t.log.length)).filterMap Entry.event? = [.fetching r.path r.query] := by
  refine wp_fetchChoices.mpr (Await.of_rely trivial fun t' hR => ?_)
  obtain ⟨V, -, hl, hV⟩ := Traced.moves hR
  rw [hl, Traced.performAll_log]
  simp [below_eq_nil hV, List.filterMap_cons, Entry.event?]

/-! ### The events of setting the lists up -/

/-- Whether an event is one that loads report. -/
def Event.ofLoad : Event → Bool
  | .fetching .. | .superseded .. | .loadFailed .. => true
  | _ => false

/-- An entry that records no event, or one that loads report. -/
def Entry.LoadEvent (x : Entry) : Prop :=
  ∀ ev, x.event? = some ev → ev.ofLoad = true

/-- Entries added below a thread that report only loads' events, as a law of what threads add. -/
def loadEventsLaw : Law where
  Good π t t' _ := Traced.Adds π Entry.LoadEvent t t'
  refl _ _ := ⟨rfl, [], by simp, by simp⟩
  trans _ _ _ _ _ _ h₁ h₂ := h₁.trans h₂
  rely _ _ _ _ _ h hR := h.trans (.of_rely hR)
  rely_left _ _ _ _ _ hR h := (Traced.Adds.of_rely hR).trans h
  join _ _ _ _ _ h₁ h₂ hm := Traced.Adds.join h₁ h₂ hm

theorem loadOwn_loadEvent (π : Path) (s : Selector) (r : Request) (tk : Ticket)
    (pre : Option String) (current : Bool) (a : Except Fault (List Choice)) :
    ∀ x ∈ loadOwn π s r tk (loadEnd π s tk pre current a).1, x.LoadEvent := by
  intro x hx ev hev
  have hmem := List.mem_filterMap.mpr ⟨x, hx, hev⟩
  rw [loadOwn_events] at hmem
  cases current <;> cases a <;> simp [loadEnd] at hmem <;> rcases hmem with rfl | rfl <;> rfl

/-- A load adds below its thread only entries that report loads' events. -/
theorem LoadSpan.adds {π : Path} {s : Selector} {r : Request} {pre : Option String}
    {mid : List Entry} {t t' : Traced} {res : Except Fault LoadOutcome}
    (h : LoadSpan π s r pre mid t t' res) : Traced.Adds π Entry.LoadEvent t t' := by
  obtain ⟨current, seg, -, hs, hl, -, hown, -⟩ := h.within .refl
  refine ⟨hs, seg, hl, fun x hx hπ => ?_⟩
  have hx' : x ∈ below π seg := mem_below.mpr ⟨hx, hπ⟩
  rw [hown] at hx'
  exact loadOwn_loadEvent _ _ _ _ _ _ _ x hx'

theorem load_adds (s : Selector) (r : Request) (pre : Option String) (π : Path) (t : Traced) :
    WP Traced.answer (fun _ => True) π (Task.load s r pre).widen t fun _ t' =>
      Traced.Adds π Entry.LoadEvent t t' :=
  (load_span s r pre π t).mono fun _ _ h => h.elim fun _ h => h.adds

theorem cascade_adds (e : Endpoints) (area : String) (π : Path) (t : Traced) :
    WP Traced.answer (fun _ => True) π (Task.cascade e area).widen t fun _ t' =>
      Traced.Adds π Entry.LoadEvent t t' := by
  refine (cascade_ran e area π t).mono fun res t' hrun => ?_
  obtain ⟨mid, t₁, res₁, h₁, hrest⟩ := hrun
  cases res₁ with
  | error f => exact hrest.1 ▸ h₁.adds
  | ok o =>
    cases o with
    | superseded => exact hrest.1 ▸ h₁.adds
    | applied k =>
      obtain ⟨cs, mid₂, res₂, -, -, h₂, -⟩ := hrest
      -- reading the selected country records nothing
      have hread : Traced.Adds π Entry.LoadEvent t₁ (t₁.perform π (.selectedValue .country)) :=
        .answer (fun _ hev => by simp [Entry.event?] at hev) t₁
      exact h₁.adds.trans (hread.trans h₂.adds)

/-- The events below a thread after its own entries `own` and what a part that reports only
loads' events added. -/
theorem Traced.Adds.events {π : Path} {t₀ t t' : Traced} {own : List Entry}
    (h₀ : t.log = t₀.log ++ own) (h : Traced.Adds π Entry.LoadEvent t t') :
    ∃ rest, (below π (t'.log.drop t₀.log.length)).filterMap Entry.event? =
        (below π own).filterMap Entry.event? ++ rest ∧ ∀ ev ∈ rest, ev.ofLoad = true := by
  obtain ⟨-, U, hU, hok⟩ := h
  refine ⟨(below π U).filterMap Entry.event?, ?_, fun ev hev => ?_⟩
  · rw [hU, h₀, List.append_assoc, List.drop_left, below_append, List.filterMap_append]
  · obtain ⟨x, hx, hxev⟩ := List.mem_filterMap.mp hev
    obtain ⟨hxU, hπ⟩ := mem_below.mp hx
    exact hok x hxU hπ ev hxev

/-- The plain cascade after a thread's own entries `own`: the events below the thread are those
of `own`, the report of the plain cascade, and then loads' events. -/
theorem events_after_cascade {t t₂ : Traced} {own : List Entry} (h₂ : t₂.log = t.log ++ own)
    (e : Endpoints) (area nodeAreaId : String) (π : Path) :
    WP Traced.answer (fun _ => True) π (Task.cascade e area).widen
      (t₂.perform π (.record (.plainCascade nodeAreaId))) fun _ t' =>
        ∃ rest, (below π (t'.log.drop t.log.length)).filterMap Entry.event? =
          (below π own).filterMap Entry.event? ++ .plainCascade nodeAreaId :: rest ∧
          ∀ ev ∈ rest, ev.ofLoad = true := by
  refine (cascade_adds e area π _).mono fun _ t' hadd => ?_
  obtain ⟨rest, hrest, hload⟩ := @Traced.Adds.events π t _ _
    (own ++ [(π, .inl (.record (.plainCascade nodeAreaId)))]) (by simp [h₂]) hadd
  exact ⟨rest, by rw [hrest, below_append]; simp [Entry.event?], hload⟩

/-- Two loads side by side below a thread after its own entries `own`: the events below the
thread are those of `own`, and then loads' events. -/
theorem events_after_pair {t t₂ : Traced} {own : List Entry} (h₂ : t₂.log = t.log ++ own)
    (s₁ s₂ : Selector) (r₁ r₂ : Request) (pre₁ pre₂ : Option String) (π : Path) :
    WP Traced.answer (fun _ => True) π
      (Program.pair (Task.load s₁ r₁ pre₁) (Task.load s₂ r₂ pre₂)).widen t₂ fun _ t' =>
        ∃ rest, (below π (t'.log.drop t.log.length)).filterMap Entry.event? =
          (below π own).filterMap Entry.event? ++ rest ∧ ∀ ev ∈ rest, ev.ofLoad = true := by
  refine (loadEventsLaw.both (fun _ => []) (fun _ => []) (load_adds _ _ _ _ _)
    fun _ => load_adds _ _ _ _ _).mono fun _ t' hb => ?_
  obtain ⟨_, _, _, hadd⟩ := hb
  exact hadd.events h₂

/-- Setting the lists up, in any thread and whatever the other threads do, reports itself that
the area is missing exactly when no area of the list is the id's, and that it runs the plain
cascade exactly when the id names no country; every other event below it is a load's. An id
that cannot be read adds nothing to the log. -/
theorem setUp_events (e : Endpoints) (c : PageConfig) (π : Path) (t : Traced) :
    WP Traced.answer (fun _ => True) π (Task.setUp e c).widen t fun _ t' =>
      match c.areaPath with
      | .error _ => t' = t
      | .ok path => ∃ rest, (below π (t'.log.drop t.log.length)).filterMap Entry.event? =
          ((if firstMatch (t.world.page.list .area).values path.area = none then
              [.areaNotOffered path.area] else []) ++
            (if path.country = none then [.plainCascade c.nodeAreaId] else [])) ++ rest ∧
          ∀ ev ∈ rest, ev.ofLoad = true := by
  refine wp_setUp.mpr ?_
  rcases hc : c.areaPath with f | path
  · -- an id that cannot be read ends the setup before it asks anything
    exact rfl
  · dsimp only
    -- the area read and selected, or reported missing, then the plain cascade or the two loads
    rcases hcountry : path.country with _ | country
    · cases hm : firstMatch (t.world.page.list .area).values path.area <;>
        exact (@events_after_cascade t _ _ (by simp; rfl) _ _ _ _).mono fun _ _ hx => by
          obtain ⟨rest, h, hl⟩ := hx
          exact ⟨rest, by rw [h]; simp [List.filterMap_cons, Entry.event?], hl⟩
    · cases hm : firstMatch (t.world.page.list .area).values path.area <;>
        exact (@events_after_pair t _ _ (by simp; rfl) _ _ _ _ _ _ _).mono fun _ _ hx => by
          obtain ⟨rest, h, hl⟩ := hx
          exact ⟨rest, by rw [h]; simp [List.filterMap_cons, Entry.event?], hl⟩

/-! ### Each entry of a step next to its partner -/

/-- How entry `n`, which is `x`, of a log `L` read from the world `W` stands next to its
partner. A `fetching` event is followed at once by the request it announces, and a request
follows the `fetching` event of its own path and query or, only for a `POST` such as a change,
the indicator being shown: every `GET` follows its announcement. A check of a load's ticket is followed by a `superseded` event with that ticket
exactly when it found the ticket stale, and a `superseded` event follows such a check. A
`loadFailed` event follows a check that found the ticket current, and is followed by its list's
marker set to its fault's message; every marker set to a message follows such an event. -/
def Paired (W : World) (L : List Entry) (n : Nat) : Entry → Prop
  | (π, .inl (.record (.fetching p q))) =>
    ∃ r, L[n + 1]? = some (π, .inl (.send r)) ∧ r.path = p ∧ r.query = q
  | (π, .inl (.send r)) =>
    ∃ m, n = m + 1 ∧ (L[m]? = some (π, .inl (.record (.fetching r.path r.query))) ∨
      r.method = .post ∧ L[m]? = some (π, .inl (.setLoading true)))
  | (π, .inl (.isCurrent s tk)) =>
    ∃ y, L[n + 1]? = some y ∧ (y = (π, .inl (.record (.superseded s tk))) ↔
      ((W.replay (L.take n)).generation s).isCurrent tk = false)
  | (π, .inl (.record (.superseded s tk))) =>
    ∃ m, n = m + 1 ∧ L[m]? = some (π, .inl (.isCurrent s tk)) ∧
      ((W.replay (L.take m)).generation s).isCurrent tk = false
  | (π, .inl (.record (.loadFailed s f))) =>
    (∃ m tk, n = m + 1 ∧ L[m]? = some (π, .inl (.isCurrent s tk)) ∧
      ((W.replay (L.take m)).generation s).isCurrent tk = true) ∧
    L[n + 1]? = some (π, .inl (.setError s (some f.message)))
  | (π, .inl (.setError s (some msg))) =>
    ∃ m f, n = m + 1 ∧ L[m]? = some (π, .inl (.record (.loadFailed s f))) ∧ msg = f.message
  | _ => True

/-- An entry next to its partner in a log stays so in every longer log. -/
theorem paired_mono {W : World} {L L' : List Entry} {n : Nat}
    (h : ∃ x, L[n]? = some x ∧ Paired W L n x) (hL : L <+: L') :
    ∃ x, L'[n]? = some x ∧ Paired W L' n x := by
  obtain ⟨x, hx, hp⟩ := h
  obtain ⟨V, rfl⟩ := hL
  have get : ∀ {j : Nat} {y : Entry}, L[j]? = some y → (L ++ V)[j]? = some y := fun hy => by
    rw [List.getElem?_append_left (List.getElem?_eq_some_iff.mp hy).1]
    exact hy
  have hn : n < L.length := (List.getElem?_eq_some_iff.mp hx).1
  have take : ∀ {j : Nat}, j ≤ n → (L ++ V).take j = L.take j := fun hj =>
    List.take_append_of_le_length (by omega)
  refine ⟨x, get hx, ?_⟩
  obtain ⟨π, c | a⟩ := x
  · cases c with
    | record ev =>
      cases ev with
      | fetching p q =>
        obtain ⟨r, h₁, h₂, h₃⟩ := hp
        exact ⟨r, get h₁, h₂, h₃⟩
      | superseded s tk =>
        obtain ⟨m, hm, h₁, h₂⟩ := hp
        exact ⟨m, hm, get h₁, by rw [take (by omega)]; exact h₂⟩
      | loadFailed s f =>
        obtain ⟨⟨m, tk, hm, h₁, h₂⟩, h₃⟩ := hp
        exact ⟨⟨m, tk, hm, get h₁, by rw [take (by omega)]; exact h₂⟩, get h₃⟩
      | _ => trivial
    | send r =>
      obtain ⟨m, hm, h₁⟩ := hp
      exact ⟨m, hm, h₁.imp get (And.imp_right get)⟩
    | isCurrent s tk =>
      obtain ⟨y, h₁, h₂⟩ := hp
      exact ⟨y, get h₁, by rw [take le_rfl]; exact h₂⟩
    | setError s msg =>
      cases msg with
      | none => trivial
      | some msg =>
        obtain ⟨m, f, hm, h₁, h₂⟩ := hp
        exact ⟨m, f, hm, get h₁, h₂⟩
    | _ => trivial
  · trivial

/-- The law that every entry a thread adds stands next to its partner. -/
def pairedLaw : Law :=
  Law.ofEntries (fun _ => True) (fun W L n => ∃ x, L[n]? = some x ∧ Paired W L n x)
    fun _ _ _ _ h hL => paired_mono h hL

/-- A load's end begins with the report that it was superseded exactly when its check found
its ticket stale. -/
theorem loadEnd_head (π : Path) (s : Selector) (tk : Ticket) (pre : Option String)
    (current : Bool) (a : Except Fault (List Choice)) :
    ∃ y, (loadEnd π s tk pre current a).1[0]? = some y ∧
      (y = (π, .inl (.record (.superseded s tk))) ↔ current = false) := by
  cases current <;> cases a <;> simp [loadEnd]

/-- A load's check and its end stand next to their partners, wherever in a log the check
stands: at `c`, followed at once by the end, with the world before it reading the ticket as
`current`. -/
theorem loadEnd_paired (W : World) (L : List Entry) (c : Nat) {π : Path} {s : Selector}
    {tk : Ticket} {pre : Option String} {current : Bool} {a : Except Fault (List Choice)}
    (hcheck : L[c]? = some (π, .inl (.isCurrent s tk)))
    (hfin : ∀ k, L[c + 1 + k]? = (loadEnd π s tk pre current a).1[k]?)
    (hcur : ((W.replay (L.take c)).generation s).isCurrent tk = current) :
    Paired W L c (π, .inl (.isCurrent s tk)) ∧
      ∀ k x, (loadEnd π s tk pre current a).1[k]? = some x → Paired W L (c + 1 + k) x := by
  have at_eq : ∀ {i j : Nat} {v : Option Entry}, i = j → L[j]? = v → L[i]? = v :=
    fun h hv => h ▸ hv
  refine ⟨?_, fun k x hx => ?_⟩
  · -- the check is followed by the report of a stale ticket exactly when it was stale
    obtain ⟨y, hy, hiff⟩ := loadEnd_head π s tk pre current a
    exact ⟨y, (hfin 0).trans hy, by rw [hcur]; exact hiff⟩
  · -- its end follows its check, and the marker follows the report of the fault
    cases current <;> cases a
    · rcases k with _ | k <;> simp [loadEnd] at hx
      subst hx
      exact ⟨c, by omega, hcheck, hcur⟩
    · rcases k with _ | k <;> simp [loadEnd] at hx
      subst hx
      exact ⟨c, by omega, hcheck, hcur⟩
    · rcases k with _ | _ | k <;> simp [loadEnd] at hx <;> subst hx
      · exact ⟨⟨c, _, by omega, hcheck, hcur⟩, at_eq (by omega) ((hfin 1).trans rfl)⟩
      · exact ⟨c + 1, _, by omega, at_eq (by omega) ((hfin 0).trans rfl), rfl⟩
    · rcases k with _ | _ | k <;> simp [loadEnd] at hx <;> subst hx <;> trivial

/-- Each entry of a load below its thread stands next to its partner in the log that ends with
the load: its `fetching` event and its request together, its check and its end. -/
theorem loadEntries_paired (W : World) (P : List Entry) {π : Path} (s : Selector) (r : Request)
    (pre : Option String) {mid : List Entry} (hmid : ∀ x ∈ mid, ¬ π <+: x.1)
    (a : Except Fault (List Choice)) (current : Bool)
    (hcur : (((W.replay P).replay (loadStart π s r ++ mid)).generation s).isCurrent
      ((W.replay P).generation s).begin.1 = current) :
    let tk := ((W.replay P).generation s).begin.1
    let L := P ++ loadEntries π s r tk mid (loadEnd π s tk pre current a).1
    ∀ n x, P.length ≤ n → L[n]? = some x → π <+: x.1 → Paired W L n x := by
  intro tk L n x hn hx hπ
  -- positions past `P` are positions in the load's entries
  have hat : ∀ k, L[P.length + k]? =
      (loadEntries π s r tk mid (loadEnd π s tk pre current a).1)[k]? := fun k => by
    rw [List.getElem?_append_right (Nat.le_add_right _ _), Nat.add_sub_cancel_left]
  have at_eq : ∀ {i j : Nat} {v : Option Entry}, i = j → L[j]? = v → L[i]? = v :=
    fun h hv => h ▸ hv
  obtain ⟨i, rfl⟩ : ∃ i, n = P.length + i := ⟨n - P.length, by omega⟩
  rw [hat] at hx
  rcases i with _ | _ | _ | i
  · -- its start: the load begins, announces its request and sends it
    simp only [loadEntries, List.getElem?_cons_zero, Option.some.injEq] at hx
    subst hx
    trivial
  · simp only [loadEntries, List.getElem?_cons_succ, List.getElem?_cons_zero,
      Option.some.injEq] at hx
    subst hx
    exact ⟨r, at_eq (by omega) ((hat 2).trans rfl), rfl, rfl⟩
  · simp only [loadEntries, List.getElem?_cons_succ, List.getElem?_cons_zero,
      Option.some.injEq] at hx
    subst hx
    exact ⟨P.length + 1, rfl, .inl ((hat 1).trans rfl)⟩
  · simp only [loadEntries, List.getElem?_cons_succ] at hx
    by_cases hi : i < mid.length
    · -- the other threads' entries while it waited lie outside its subtree
      rw [List.getElem?_append_left hi] at hx
      exact absurd hπ (hmid x (List.mem_of_getElem? hx))
    · obtain ⟨j, rfl⟩ : ∃ j, i = mid.length + j := ⟨i - mid.length, by omega⟩
      rw [List.getElem?_append_right (by omega), Nat.add_sub_cancel_left] at hx
      -- the check, at `c`, after the others' entries, and then the end
      have hcheck : L[P.length + (mid.length + 3)]? = some (π, .inl (.isCurrent s tk)) := by
        rw [hat]
        simp [loadEntries]
      have hfin : ∀ k, L[P.length + (mid.length + 3) + 1 + k]? =
          (loadEnd π s tk pre current a).1[k]? := fun k => by
        rw [show P.length + (mid.length + 3) + 1 + k = P.length + (mid.length + k + 1 + 1 + 1 + 1)
          by omega, hat]
        simp only [loadEntries, List.getElem?_cons_succ]
        rw [List.getElem?_append_right (by omega),
          show mid.length + k + 1 - mid.length = k + 1 by omega, List.getElem?_cons_succ]
      -- the world the check read: the answer arrived after the others' entries
      have hread : W.replay (L.take (P.length + (mid.length + 3))) =
          (W.replay P).replay (loadStart π s r ++ mid) := by
        rw [← World.replay_append]
        congr 1
        simp [L, loadEntries, loadStart, List.take_append]
      obtain ⟨hpcheck, hpend⟩ := loadEnd_paired W L (P.length + (mid.length + 3)) hcheck hfin
        (by rw [hread, hcur])
      rcases j with _ | j
      · simp only [List.getElem?_cons_zero, Option.some.injEq] at hx
        subst hx
        exact (show P.length + (mid.length + 0 + 1 + 1 + 1) = P.length + (mid.length + 3) by
          omega) ▸ hpcheck
      · rw [List.getElem?_cons_succ] at hx
        exact (show P.length + (mid.length + (j + 1) + 1 + 1 + 1) =
          P.length + (mid.length + 3) + 1 + j by omega) ▸ hpend j x hx

section Tasks

variable {π : Path} {t t' : Traced}

/-- A thread's own entries, each next to its partner where it stands. -/
theorem pairedLaw_of_own {own : List Entry} (hs : t'.start = t.start) (hl : t'.log = t.log ++ own)
    (h : ∀ i x, own[i]? = some x → Paired t.start t'.log (t.log.length + i) x) :
    pairedLaw.Good π t t' [] := by
  refine ⟨hs, ⟨own, hl.symm⟩, fun n x hn hx _ _ => ⟨x, hx, ?_⟩⟩
  obtain ⟨i, rfl⟩ : ∃ i, n = t.log.length + i := ⟨n - t.log.length, by omega⟩
  rw [hs]
  refine h i x ?_
  rwa [hl, List.getElem?_append_right (Nat.le_add_right _ _), Nat.add_sub_cancel_left] at hx

/-- A command with no partner. -/
theorem pairedLaw_perform {c : Command} (hc : ∀ W L n, Paired W L n (π, .inl c)) :
    pairedLaw.Good π t (t.perform π c) [] :=
  pairedLaw_of_own rfl rfl fun i x hx => by
    rcases i with _ | i <;> simp at hx
    subst hx
    exact hc _ _ _

theorem paired_trans {t₁ t₂ t₃ : Traced} (h₁ : pairedLaw.Good π t₁ t₂ [])
    (h₂ : pairedLaw.Good π t₂ t₃ []) : pairedLaw.Good π t₁ t₃ [] :=
  pairedLaw.trans π t₁ t₂ t₃ [] [] h₁ h₂

/-- Commands with no partner, in a row. -/
theorem pairedLaw_performAll {cs : List Command} (hc : ∀ c ∈ cs, ∀ W L n, Paired W L n (π, .inl c)) :
    pairedLaw.Good π t (t.performAll π cs) [] := by
  induction cs generalizing t with
  | nil => exact pairedLaw.refl π t
  | cons c cs ih =>
    rw [Traced.performAll_cons]
    exact paired_trans (pairedLaw_perform (hc c List.mem_cons_self))
      (ih fun c' hc' => hc c' (List.mem_cons_of_mem c hc'))

/-- A load, in any thread: each of its entries stands next to its partner. -/
theorem LoadSpan.paired {s : Selector} {r : Request} {pre : Option String} {mid : List Entry}
    {res : Except Fault LoadOutcome} (h : LoadSpan π s r pre mid t t' res) :
    pairedLaw.Good π t t' [] := by
  obtain ⟨hmid, hs, hl, -⟩ := h
  refine ⟨hs, ⟨_, hl.symm⟩, fun n x hn hx hπ _ => ⟨x, hx, ?_⟩⟩
  rw [hs, hl] at *
  exact loadEntries_paired t.start t.log s r pre hmid _ _ rfl n x hn hx hπ

/-- A load, as a task: its entries stand next to their partners. -/
theorem paired_load (s : Selector) (r : Request) (pre : Option String) :
    WP Traced.answer (fun _ => True) π (Task.load s r pre).widen t fun _ t' =>
      pairedLaw.Good π t t' [] :=
  (load_span s r pre π t).mono fun _ _ h => by
    obtain ⟨_, h⟩ := h
    exact h.paired

/-- A fetch announces its request and sends it at once. -/
theorem fetch_paired (r : Request) :
    WP Traced.answer (fun _ => True) π (Task.fetchChoices r).widen t fun _ t' =>
      pairedLaw.Good π t t' [] := by
  have hstart : pairedLaw.Good π t
      (t.performAll π [.record (.fetching r.path r.query), .send r]) [] := by
    refine pairedLaw_of_own (by simp) (Traced.performAll_log ..) fun i x hx => ?_
    rcases i with _ | _ | i <;> simp at hx <;> subst hx
    · exact ⟨r, by simp, rfl, rfl⟩
    · exact ⟨t.log.length, rfl, .inl (by simp)⟩
  exact wp_fetchChoices.mpr (Await.of_rely trivial fun t' hR =>
    pairedLaw.rely _ _ _ _ _ hstart hR)

/-- A change request is sent right after the loading indicator goes on. -/
theorem paired_submit (e : Endpoints) :
    WP Traced.answer (fun _ => True) π (Task.submit e).widen t fun o t' =>
      pairedLaw.Good π t t' [o] := by
  refine wp_submit.mpr ?_
  intro node t₁
  have h₁ : pairedLaw.Good π t t₁ [] := pairedLaw_perform fun _ _ _ => by trivial
  split
  · exact paired_trans h₁ (pairedLaw_perform fun _ _ _ => by trivial)
  · have hsend : pairedLaw.Good π t₁
        (t₁.performAll π [.setLoading true, .send (e.changeRequest node)]) [] := by
      refine pairedLaw_of_own (by simp) (Traced.performAll_log ..) fun i x hx => ?_
      rcases i with _ | _ | i <;> simp at hx <;> subst hx
      · trivial
      · exact ⟨t₁.log.length, rfl, .inr ⟨rfl, by simp⟩⟩
    refine Await.of_rely trivial fun t' hR => ?_
    -- after the answer only the indicator, a record and an alert or reload follow
    have h := pairedLaw.rely _ _ _ _ _ (paired_trans h₁ hsend) hR
    have tail : ∀ cs : List Command, (∀ c ∈ cs, ∀ W L n, Paired W L n (π, .inl c)) →
        pairedLaw.Good π t ((t'.perform π (.setLoading false)).performAll π cs) [] :=
      fun cs hc => paired_trans h (paired_trans (pairedLaw_perform fun _ _ _ => by trivial)
        (pairedLaw_performAll hc))
    dsimp only
    split
    · split
      · exact tail _ (by simp [Paired])
      · exact tail _ (by simp [Paired])
    · exact tail _ (by simp [Paired])

/-- Loading the node list: the country is read, then the load's entries follow. -/
theorem paired_loadNodes (e : Endpoints) :
    WP Traced.answer (fun _ => True) π (Task.loadNodes e).widen t fun _ t' =>
      pairedLaw.Good π t t' [] := by
  exact wp_loadNodes.mpr ((paired_load _ _ _).mono fun _ _ h =>
    paired_trans (pairedLaw_perform fun _ _ _ => by trivial) h)

theorem paired_cascade (e : Endpoints) (area : String) :
    WP Traced.answer (fun _ => True) π (Task.cascade e area).widen t fun _ t' =>
      pairedLaw.Good π t t' [] := by
  refine wp_cascade.mpr ((paired_load _ _ _).mono fun res t₁ h => ?_)
  cases res with
  | error f => exact h
  | ok outcome =>
    cases outcome with
    | superseded => exact h
    | applied n =>
      exact (paired_loadNodes e).mono fun res' t₂ h' => by
        cases res' <;> exact paired_trans h h'

theorem paired_loadCountries (e : Endpoints) :
    WP Traced.answer (fun _ => True) π (Task.loadCountries e).widen t fun _ t' =>
      pairedLaw.Good π t t' [] :=
  wp_loadCountries.mpr ((paired_cascade e _).mono fun _ _ h =>
    paired_trans (pairedLaw_perform fun _ _ _ => by trivial) h)

theorem paired_setUp (e : Endpoints) (c : PageConfig) :
    WP Traced.answer (fun _ => True) π (Task.setUp e c).widen t fun _ t' =>
      pairedLaw.Good π t t' [] := by
  refine wp_setUp.mpr ?_
  split
  · exact pairedLaw.refl π t
  · next path _ =>
    intro t₁ t₂
    have h₁ : pairedLaw.Good π t t₁ [] := pairedLaw_perform fun _ _ _ => by trivial
    have h₂ : pairedLaw.Good π t t₂ [] := by
      refine paired_trans h₁ ?_
      simp only [t₂]
      split <;> exact pairedLaw_perform fun _ _ _ => by trivial
    split
    · exact (paired_cascade e _).mono fun _ _ h =>
        paired_trans h₂ (paired_trans (pairedLaw_perform fun _ _ _ => by trivial) h)
    · -- the two loads side by side, each paired within its half
      refine (pairedLaw.both (fun _ => []) (fun _ => []) (paired_load _ _ _)
        fun _ => paired_load _ _ _).mono fun _ _ hb => ?_
      obtain ⟨_, _, _, h⟩ := hb
      exact paired_trans h₂ h

end Tasks

theorem paired_basic (e : Endpoints) : pairedLaw.Basic e where
  perform _ _ c hc := by
    rcases hc with ⟨s, cs, rfl⟩ | ⟨s, i, rfl⟩ <;> exact pairedLaw_perform fun _ _ _ => by trivial
  arrange π t a := Law.ofEntries_fine ⟨(π, .inr a), by simp, trivial⟩
  loadCountries _ _ := paired_loadCountries e
  loadNodes _ _ := paired_loadNodes e
  setUp _ _ c := paired_setUp e c
  submit _ _ := paired_submit e
  fetch _ _ r := fetch_paired r

/-! ### Every step -/

/-- A step's events are the records of its log, in order. -/
theorem Session.events_log (e : Endpoints) (w : World) (op : Op) :
    (Session.step e w op).1.events = (Session.log e w op).filterMap Entry.event? := by
  rw [← Session.world_log, Traced.world, World.replay_events]
  rfl

/-- Every entry of a step's log stands next to its partner. -/
theorem Session.log_paired (e : Endpoints) (w : World) (op : Op) (n : Nat) (x : Entry)
    (hx : (Session.log e w op)[n]? = some x) :
    Paired (Session.start w).start (Session.log e w op) n x := by
  have h := Session.wp_step (Law.program (paired_basic e) op [] (Session.start w))
  obtain ⟨y, hy, hp⟩ := h.2.2 n x (Nat.zero_le _) hx List.nil_prefix trivial
  rw [hx, Option.some.injEq] at hy
  subst hy
  exact hp

/-- What a step reports mirrors what it does. Its events are the records of its log, in order,
and every entry of its log stands next to its partner (`Paired`): each announcement of a
request right before the request goes out, with its path and query, and each `GET` request
right after its announcement; each check of a load's ticket right before the report that the
load was superseded exactly when the ticket was stale; each reported fault after a check that
found its ticket current and before the marker with its message. Whatever runs beside them, in
every thread: a load reports the announcement of its request and then that it was superseded,
with its own ticket, or its fault, or nothing more; it leaves its list's marker alone when
superseded, sets it to the fault's message when it fails and clears it when its options go in;
a fetch reports only the announcement; setting up reports that
the area is not offered exactly when no area option is the id's area, and the plain cascade
exactly when the id has no country, and then only what its loads report; a submission reports
what came of the change, naming its node. -/
theorem Session.events_match_actions (e : Endpoints) (w : World) (op : Op) :
    (Session.step e w op).1.events = (Session.log e w op).filterMap Entry.event? ∧
    (∀ n x, (Session.log e w op)[n]? = some x →
      Paired (Session.start w).start (Session.log e w op) n x) ∧
    (∀ s r pre π t, WP Traced.answer (fun _ => True) π (Task.load s r pre).widen t fun res t' =>
      let own := below π (t'.log.drop t.log.length)
      own.filterMap Entry.event? = .fetching r.path r.query :: (match res with
        | .ok .superseded => [.superseded s (t.world.generation s).begin.1]
        | .error f => [.loadFailed s f]
        | .ok (.applied _) => []) ∧
      own.filterMap Entry.marker? = match res with
        | .ok .superseded => []
        | .error f => [(s, some f.message)]
        | .ok (.applied _) => [(s, none)]) ∧
    (∀ r π t, WP Traced.answer (fun _ => True) π (Task.fetchChoices r).widen t fun _ t' =>
      (below π (t'.log.drop t.log.length)).filterMap Entry.event? = [.fetching r.path r.query]) ∧
    (∀ c π t, WP Traced.answer (fun _ => True) π (Task.setUp e c).widen t fun _ t' =>
      match c.areaPath with
      | .error _ => t' = t
      | .ok path => ∃ rest, (below π (t'.log.drop t.log.length)).filterMap Entry.event? =
          ((if firstMatch (t.world.page.list .area).values path.area = none then
              [.areaNotOffered path.area] else []) ++
            (if path.country = none then [.plainCascade c.nodeAreaId] else [])) ++ rest ∧
          ∀ ev ∈ rest, ev.ofLoad = true) ∧
    (∀ π t, WP Traced.answer (fun _ => True) π (Task.submit e).widen t fun o t' =>
      let node := (t.world.page.list .node).selectedValue
      (below π (t'.log.drop t.log.length)).filterMap Entry.event? = match o with
        | .rejected => []
        | .reloaded => [.nodeChanged node]
        | .refused status _ => [.changeRefused node status]
        | .failed f => [.changeFailed node f]) :=
  ⟨Session.events_log e w op, Session.log_paired e w op, load_events, fetch_events,
    setUp_events e, submit_events e⟩

end NodeSwitcher
