import NodeSwitcher.Proofs.Cascade
/-!
# Setting the lists up, alone

Setting the lists up for a page configuration, with no other operation running, is a step of
its own. `Session.setUp_alone` states what it does for every configuration, page, server
script and delay script. An area id without an area changes nothing and sends nothing.
Otherwise the first area with the id's area is selected, if there is one. An id with a country
loads the countries of the area and the nodes of the country side by side, each pre-selecting
the configured entry: each list ends as a load of it found current would leave it
(`Page.settle`), after its own answer only, and the result is the country fault, else the node
fault, else success, whatever the delays. An id without a country runs the plain cascade from
the area.

Two loads side by side interleave as the delays make them (`pair_ends`). What each leaves of
the world is read off the step's log with `World.part`, the part of the world that belongs to
one list: only the entries that touch a list change its part (`World.part_replay_filter`), and
below each of the two threads only that thread's load touches its own list (`Halves`). That the
countries' request goes out first is an invariant of the step's threads, "the first load has
logged its request", which holds wherever the second load may begin.
-/

namespace NodeSwitcher

open Program

/-! ### The page after a current load -/

/-- The page after a load of list `s` found current, with pre-selection `pre`, whose fetch made
`a` of the server's answer: after a fault the list's marker shows the fault's message; after a
list of choices the list holds them, with the pre-selected entry or else the first selected,
and its marker is cleared. -/
def Page.settle (p : Page) (s : Selector) (pre : Option String) :
    Except Fault (List Choice) → Page
  | .error f => p.setError s (some f.message)
  | .ok cs => (p.modifyList s fun _ => DropDown.replace cs (pre.bind (lastMatch cs))).setError s none

/-! ### The part of the world that belongs to a list -/

/-- Whether an entry changes list `s`: its entries or selection, its error marker, or its load
count. -/
def Entry.touches (s : Selector) : Entry → Bool
  | (_, .inl (.selectIndex s' _)) => s' == s
  | (_, .inl (.replaceOptions s' _ _)) => s' == s
  | (_, .inl (.setError s' _)) => s' == s
  | (_, .inl (.beginLoad s')) => s' == s
  | (_, .inr (.selectValue s' _)) => s' == s
  | _ => false

/-- What of the world belongs to list `s`: the list, its error marker and its load count. -/
def World.part (w : World) (s : Selector) : DropDown × Option String × Generation :=
  (w.page.list s, w.page.error s, w.generation s)

section Part

variable (p : Page) (w : World) (s : Selector)

@[simp] theorem Page.list_setLoading (b : Bool) : (p.setLoading b).list s = p.list s := by
  cases s <;> rfl
@[simp] theorem Page.error_setLoading (b : Bool) : (p.setLoading b).error s = p.error s := by
  cases s <;> rfl
@[simp] theorem Page.list_alert (m : String) : (p.alert m).list s = p.list s := by
  cases s <;> rfl
@[simp] theorem Page.error_alert (m : String) : (p.alert m).error s = p.error s := by
  cases s <;> rfl
@[simp] theorem Page.list_reload : p.reload.list s = p.list s := by
  cases s <;> rfl
@[simp] theorem Page.error_reload : p.reload.error s = p.error s := by
  cases s <;> rfl

@[simp] theorem World.generation_page (q : Page) : ({ w with page := q } : World).generation s =
    w.generation s := by
  cases s <;> rfl
@[simp] theorem World.generation_sent (l : List Request) :
    ({ w with sent := l } : World).generation s = w.generation s := by
  cases s <;> rfl
@[simp] theorem World.generation_events (l : List Event) :
    ({ w with events := l } : World).generation s = w.generation s := by
  cases s <;> rfl
@[simp] theorem World.generation_server (v : Server) :
    ({ w with server := v } : World).generation s = w.generation s := by
  cases s <;> rfl

end Part

/-- The part of a list after an entry depends only on its part before. -/
theorem World.part_answer_congr {w₁ w₂ : World} {s : Selector} (q : Command ⊕ Setup)
    (h : w₁.part s = w₂.part s) : (World.answer q w₁).1.part s = (World.answer q w₂).1.part s := by
  simp only [World.part, Prod.mk.injEq] at h ⊢
  obtain ⟨h₁, h₂, h₃⟩ := h
  rcases q with c | a
  · cases c <;> simp [World.answer, World.perform, World.generation_setGeneration, h₁, h₂, h₃] <;>
      split <;> simp_all
  · cases a <;> simp [World.answer, World.arrange, h₁, h₂, h₃]
    split <;> simp_all

/-- An entry that does not touch a list leaves its part as it was. -/
theorem World.part_answer_untouched {x : Entry} {s : Selector} (h : x.touches s = false)
    (w : World) : (World.answer x.2 w).1.part s = w.part s := by
  obtain ⟨π, c | a⟩ := x
  · cases c <;> simp_all [Entry.touches, World.answer, World.perform, World.part,
      World.generation_setGeneration]
  · cases a <;> simp_all [Entry.touches, World.answer, World.arrange, World.part]

theorem World.part_replay_congr {w₁ w₂ : World} {s : Selector} (h : w₁.part s = w₂.part s)
    (U : List Entry) : (w₁.replay U).part s = (w₂.replay U).part s := by
  induction U generalizing w₁ w₂ with
  | nil => exact h
  | cons x U ih => exact ih (World.part_answer_congr x.2 h)

/-- Only the entries that touch a list change its part. -/
theorem World.part_replay_filter (w : World) (s : Selector) (U : List Entry) :
    (w.replay U).part s = (w.replay (U.filter (Entry.touches s))).part s := by
  induction U generalizing w with
  | nil => rfl
  | cons x U ih =>
    rw [show w.replay (x :: U) = (World.answer x.2 w).1.replay U from rfl, ih]
    cases hx : x.touches s with
    | true => simp only [List.filter_cons, hx, if_true]; rfl
    | false =>
      simp only [List.filter_cons, hx, Bool.false_eq_true, if_false]
      exact World.part_replay_congr (World.part_answer_untouched hx w) _

/-! ### Requests, quiet entries and the entries below a thread -/

theorem World.replay_sent (w : World) (U : List Entry) :
    (w.replay U).sent = w.sent ++ U.filterMap Entry.request? := by
  induction U generalizing w with
  | nil => simp
  | cons x U ih =>
    obtain ⟨π, c | a⟩ := x
    · rw [show w.replay ((π, .inl c) :: U) = (World.answer (.inl c) w).1.replay U from rfl, ih]
      cases c with
      | beginLoad s => cases s <;> rfl
      | send r => simp [World.answer, World.perform, Entry.request?]
      | _ => rfl
    · rw [show w.replay ((π, .inr a) :: U) = (World.answer (.inr a) w).1.replay U from rfl, ih]
      cases a <;> rfl

theorem World.replay_server (w : World) {U : List Entry} (h : ∀ x ∈ U, ∃ c, x.2 = .inl c) :
    (w.replay U).server = w.server := by
  induction U generalizing w with
  | nil => rfl
  | cons x U ih =>
    obtain ⟨c, hc⟩ := h x List.mem_cons_self
    rw [show w.replay (x :: U) = (World.answer x.2 w).1.replay U from rfl,
      ih _ fun y hy => h y (List.mem_cons_of_mem x hy), hc]
    exact World.perform_server c w

/-- Entries that do something only below `π` are picked out of a list by looking below `π`. -/
theorem filter_below {p : Entry → Bool} {π : Path} {L : List Entry}
    (h : ∀ x ∈ L, p x = true → π <+: x.1) : L.filter p = (below π L).filter p := by
  rw [below, List.filter_filter]
  refine List.filter_congr fun x hx => ?_
  cases hp : p x with
  | false => simp
  | true => simp [h x hx hp]

theorem filterMap_below {π : Path} {L : List Entry}
    (h : ∀ x ∈ L, x.request?.isSome → π <+: x.1) :
    L.filterMap Entry.request? = (below π L).filterMap Entry.request? := by
  induction L with
  | nil => rfl
  | cons x L ih =>
    have ih' := ih fun y hy => h y (List.mem_cons_of_mem x hy)
    by_cases hx : π <+: x.1
    · have hb : below π (x :: L) = x :: below π L := by simp [below, hx]
      rw [hb]
      simp only [List.filterMap_cons, ih']
    · have hnone : x.request? = none := by
        cases hr : x.request? with
        | none => rfl
        | some r => exact absurd (h x List.mem_cons_self (by simp [hr])) hx
      have hb : below π (x :: L) = below π L := by simp [below, hx]
      rw [hb, ← ih']
      simp [hnone]

/-! ### The entries a load adds itself -/

/-- The entries a load of `s` at `π` adds itself: its start, its check and its end. -/
def loadOwn (π : Path) (s : Selector) (r : Request) (tk : Ticket) (fin : List Entry) : List Entry :=
  loadStart π s r ++ (π, .inl (.isCurrent s tk)) :: fin

/-- What an entry of a load of `s` at `π` is: a command of that thread, showing the user
nothing, that touches and begins no list but `s`. -/
structure Entry.OfLoad (π : Path) (s : Selector) (x : Entry) : Prop where
  thread : x.1 = π
  command : ∃ c, x.2 = .inl c
  quiet : x.Quiet
  touches : ∀ s', x.touches s' = true → s' = s
  begins : ∀ s', x.begins s' = true → s' = s

theorem loadOwn_ofLoad (π : Path) (s : Selector) (r : Request) (tk : Ticket) (pre : Option String)
    (current : Bool) (a : Except Fault (List Choice)) :
    ∀ x ∈ loadOwn π s r tk (loadEnd π s tk pre current a).1, x.OfLoad π s := by
  intro x hx
  cases current <;> cases a <;>
    simp only [loadOwn, loadStart, loadEnd, List.cons_append, List.nil_append, List.mem_cons,
      List.not_mem_nil, or_false] at hx <;>
    rcases hx with rfl | rfl | rfl | rfl | rfl | rfl <;>
    exact ⟨rfl, ⟨_, rfl⟩, Entry.quiet_inl (by rfl) π, by simp [Entry.touches],
      by simp [Entry.begins]⟩

theorem loadEnd_thread {π : Path} {s : Selector} {tk : Ticket} {pre : Option String}
    {current : Bool} {a : Except Fault (List Choice)} {x : Entry}
    (hx : x ∈ (loadEnd π s tk pre current a).1) : x.1 = π := by
  cases current <;> cases a <;> simp only [loadEnd, List.mem_cons, List.not_mem_nil] at hx <;>
    rcases hx with rfl | rfl | h <;> simp_all

/-- Below its own thread, a load's entries are its own. -/
theorem below_loadEntries (π : Path) (s : Selector) (r : Request) (tk : Ticket) {mid : List Entry}
    (hmid : ∀ x ∈ mid, ¬ π <+: x.1) (fin : List Entry) (hfin : ∀ x ∈ fin, x.1 = π) :
    below π (loadEntries π s r tk mid fin) = loadOwn π s r tk fin := by
  have hown : below π fin = fin := List.filter_eq_self.mpr fun x hx => by simp [hfin x hx]
  rw [loadEntries_eq, loadOwn, List.append_assoc, below_append, below_append, below_eq_nil hmid]
  simp [loadStart, below_own, hown]

/-- A load's span, and whatever threads outside its subtree do after it: the entries `seg`
added since it began hold the entries `mid` of the others while it waited, and below its thread
they are its own entries, ended as the check of its ticket found. -/
theorem LoadSpan.within {π : Path} {s : Selector} {r : Request} {pre : Option String}
    {mid : List Entry} {t t₁ t₂ : Traced} {res : Except Fault LoadOutcome}
    (h : LoadSpan π s r pre mid t t₁ res) (hR : Rely Traced.answer π t₁ t₂) :
    ∃ current seg,
      ((t.arrival π s r mid).generation s).isCurrent (t.world.generation s).begin.1 = current ∧
      t₂.start = t.start ∧ t₂.log = t.log ++ seg ∧ (∀ x ∈ mid, x ∈ seg ∧ ¬ π <+: x.1) ∧
      below π seg = loadOwn π s r (t.world.generation s).begin.1 (loadEnd π s
        (t.world.generation s).begin.1 pre current (choicesOf (t.world.server.answer r))).1 ∧
      res = (loadEnd π s (t.world.generation s).begin.1 pre current
        (choicesOf (t.world.server.answer r))).2 := by
  obtain ⟨hmid, hs, hl, hres⟩ := h
  obtain ⟨V, hs', hl', hV⟩ := Traced.moves hR
  refine ⟨_, loadEntries π s r _ mid _ ++ V, rfl, hs'.trans hs, by rw [hl', hl, List.append_assoc],
    fun x hx => ⟨by simp [loadEntries_eq, hx], hmid x hx⟩, ?_, hres⟩
  rw [below_append, below_eq_nil hV, List.append_nil]
  exact below_loadEntries π s r _ hmid _ fun x hx => loadEnd_thread hx

/-- The world a load's answer arrives in holds the ticket as current exactly when the loads
of its list begun meanwhile are a multiple of 2^64. -/
theorem Traced.arrival_isCurrent (t : Traced) (π : Path) (s : Selector) (r : Request)
    (mid : List Entry) :
    ((t.arrival π s r mid).generation s).isCurrent (t.world.generation s).begin.1 = true ↔
      mid.countP (Entry.begins s) % 2 ^ 64 = 0 := by
  have hn : (loadStart π s r ++ mid).countP (Entry.begins s) = mid.countP (Entry.begins s) + 1 := by
    simp [loadStart, Entry.begins, Nat.add_comm]
  have hl : ((t.arrival π s r mid).generation s).latest =
      (t.world.generation s).latest + 1 + UInt64.ofNat (mid.countP (Entry.begins s)) := by
    rw [Traced.arrival, World.replay_latest, hn, UInt64.ofNat_add]
    ac_rfl
  rw [← isCurrent_after (t.world.generation s).latest, ← hl]
  rfl

/-- A load during whose wait no load of its list began finds its ticket current. -/
theorem Traced.arrival_current (t : Traced) (π : Path) (s : Selector) (r : Request)
    {mid : List Entry} (h : ∀ x ∈ mid, ¬ Entry.begins s x = true) :
    ((t.arrival π s r mid).generation s).isCurrent (t.world.generation s).begin.1 = true := by
  rw [Traced.arrival_isCurrent, List.countP_eq_zero.mpr h]
  rfl

/-! ### The world after a current load, and pages read off by their parts -/

theorem loadEnd_current (π : Path) (s : Selector) (tk : Ticket) (pre : Option String)
    (a : Except Fault (List Choice)) :
    (loadEnd π s tk pre true a).2 = a.map fun cs => .applied cs.length := by
  cases a <;> rfl

theorem Generation.ext_latest {g g' : Generation} (h : g.latest = g'.latest) : g = g' := by
  cases g
  cases g'
  simp_all

/-- A load found current, replayed alone, leaves its list settled by its answer and its count
one further. -/
theorem World.replay_loadOwn (w : World) (π : Path) (s : Selector) (r : Request) (tk : Ticket)
    (pre : Option String) (a : Except Fault (List Choice)) :
    (w.replay (loadOwn π s r tk (loadEnd π s tk pre true a).1)).page = w.page.settle s pre a ∧
      (w.replay (loadOwn π s r tk (loadEnd π s tk pre true a).1)).generation s =
        (w.generation s).begin.2 := by
  have hn : (loadOwn π s r tk (loadEnd π s tk pre true a).1).countP (Entry.begins s) = 1 := by
    cases a <;> simp [loadOwn, loadStart, loadEnd, Entry.begins]
  refine ⟨?_, Generation.ext_latest ?_⟩
  · cases a <;> simp [loadOwn, loadStart, loadEnd, World.replay, World.answer, World.perform,
      Page.settle]
  · rw [World.replay_latest, hn]
    rfl

theorem Page.eq_of_parts {p q : Page} (hl : ∀ s, p.list s = q.list s)
    (he : ∀ s, p.error s = q.error s) (h₁ : p.loading = q.loading)
    (h₂ : p.loadingHistory = q.loadingHistory) (h₃ : p.alerts = q.alerts)
    (h₄ : p.reloads = q.reloads) : p = q := by
  have la := hl .area
  have lc := hl .country
  have ln := hl .node
  have ea := he .area
  have ec := he .country
  have en := he .node
  cases p
  cases q
  simp_all [Page.list, Page.error]

/-- Entries that show the user nothing leave what the page shows the user as it was. -/
theorem World.replay_quiet (w : World) {U : List Entry} (hU : ∀ x ∈ U, x.Quiet) :
    (w.replay U).page.loading = w.page.loading ∧
      (w.replay U).page.loadingHistory = w.page.loadingHistory ∧
      (w.replay U).page.alerts = w.page.alerts ∧ (w.replay U).page.reloads = w.page.reloads := by
  have ha : U.filterMap Entry.alert? = [] :=
    List.filterMap_eq_nil_iff.mpr fun x hx => (hU x hx).1
  have hi : U.filterMap Entry.indicator? = [] :=
    List.filterMap_eq_nil_iff.mpr fun x hx => (hU x hx).2.2
  have hr : U.countP Entry.reloads = 0 :=
    List.countP_eq_zero.mpr fun x hx => by simp [(hU x hx).2.1]
  simp [World.replay_alerts, World.replay_reloads, World.replay_loadingHistory,
    World.replay_loading, ha, hi, hr]

/-- Two quiet logs that touch each list alike lead to the same page. -/
theorem World.page_replay_eq (w : World) {U U' : List Entry}
    (hf : ∀ s, U.filter (Entry.touches s) = U'.filter (Entry.touches s))
    (hU : ∀ x ∈ U, x.Quiet) (hU' : ∀ x ∈ U', x.Quiet) :
    (w.replay U).page = (w.replay U').page := by
  have hpart : ∀ s, (w.replay U).part s = (w.replay U').part s := fun s => by
    rw [World.part_replay_filter, hf, ← World.part_replay_filter]
  obtain ⟨q₁, q₂, q₃, q₄⟩ := World.replay_quiet w hU
  obtain ⟨q₁', q₂', q₃', q₄'⟩ := World.replay_quiet w hU'
  refine Page.eq_of_parts (fun s => ?_) (fun s => ?_) (q₁.trans q₁'.symm) (q₂.trans q₂'.symm)
    (q₃.trans q₃'.symm) (q₄.trans q₄'.symm)
  · exact congrArg Prod.fst (hpart s)
  · exact congrArg (·.2.1) (hpart s)

/-! ### Two loads side by side -/

theorem Traced.world_extend {t t' : Traced} {U : List Entry} (hs : t'.start = t.start)
    (hl : t'.log = t.log ++ U) : t'.world = t.world.replay U := by
  simp [Traced.world, hs, hl]

theorem mem_below {π : Path} {seg : List Entry} {x : Entry} :
    x ∈ below π seg ↔ x ∈ seg ∧ π <+: x.1 := by
  simp [below]

/-- Every thread but the root is in one of the root's two halves. -/
theorem half_of_ne_nil {p : Path} (h : p ≠ []) : [false] <+: p ∨ [true] <+: p := by
  match p, h with
  | false :: _, _ => exact .inl (by simp)
  | true :: _, _ => exact .inr (by simp)

/-- An entry a list does not touch leaves its part; a log of them leaves it as well. -/
theorem World.part_replay_untouched (w : World) {s : Selector} {U : List Entry}
    (h : ∀ x ∈ U, x.touches s = false) : (w.replay U).part s = w.part s := by
  rw [World.part_replay_filter, List.filter_eq_nil_iff.mpr fun x hx => by simp [h x hx]]
  rfl

theorem loadOwn_requests (π : Path) (s : Selector) (r : Request) (tk : Ticket)
    (pre : Option String) (current : Bool) (a : Except Fault (List Choice)) :
    (loadOwn π s r tk (loadEnd π s tk pre current a).1).filterMap Entry.request? = [r] := by
  cases current <;> cases a <;> simp [loadOwn, loadStart, loadEnd] <;> rfl

/-- A stretch of log made of the entries of the root's two halves side by side, the thread at
`[false]` and the one at `[true]`: `own₁` and `own₂` are what each of them added. -/
structure Halves (seg own₁ own₂ : List Entry) : Prop where
  covers : ∀ x ∈ seg, [false] <+: x.1 ∨ [true] <+: x.1
  left : below [false] seg = own₁
  right : below [true] seg = own₂

namespace Halves

variable {seg own₁ own₂ : List Entry} (h : Halves seg own₁ own₂)
include h

theorem mem_left {x : Entry} (hx : x ∈ seg) (hn : ¬ [true] <+: x.1) : x ∈ own₁ := by
  rw [← h.left, mem_below]
  exact ⟨hx, (h.covers x hx).resolve_right hn⟩

theorem mem_right {x : Entry} (hx : x ∈ seg) (hn : ¬ [false] <+: x.1) : x ∈ own₂ := by
  rw [← h.right, mem_below]
  exact ⟨hx, (h.covers x hx).resolve_left hn⟩

theorem mem {x : Entry} (hx : x ∈ seg) : x ∈ own₁ ∨ x ∈ own₂ := by
  by_cases hb : [true] <+: x.1
  · exact .inr (h.right ▸ mem_below.mpr ⟨hx, hb⟩)
  · exact .inl (h.mem_left hx hb)

/-- The requests of the two halves in the order they were sent, when the first half sent its
request before the second half began, `U₀` being what the first half did until then. -/
theorem requests {U₀ R : List Entry} (hsplit : seg = U₀ ++ R) (hU₀ : ∀ x ∈ U₀, ¬ [true] <+: x.1)
    {x₁ : Entry} {r₁ r₂ : Request} (hx₁ : x₁ ∈ U₀) (hr : x₁.request? = some r₁)
    (h₁ : own₁.filterMap Entry.request? = [r₁]) (h₂ : own₂.filterMap Entry.request? = [r₂]) :
    seg.filterMap Entry.request? = [r₁, r₂] := by
  have hleft : below [false] U₀ = U₀ := List.filter_eq_self.mpr fun x hx => by
    simpa using (h.covers x (hsplit ▸ List.mem_append_left R hx)).resolve_right (hU₀ x hx)
  have hown₁ : own₁ = U₀ ++ below [false] R := by rw [← h.left, hsplit, below_append, hleft]
  have hown₂ : own₂ = below [true] R := by
    rw [← h.right, hsplit, below_append, below_eq_nil hU₀, List.nil_append]
  -- the first half's one request was sent before the second half began
  have hU : U₀.filterMap Entry.request? = [r₁] ∧ (below [false] R).filterMap Entry.request? = [] := by
    rw [hown₁, List.filterMap_append] at h₁
    have hmem : r₁ ∈ U₀.filterMap Entry.request? := List.mem_filterMap.mpr ⟨x₁, hx₁, hr⟩
    rcases List.append_eq_singleton_iff.mp h₁ with ⟨h0, -⟩ | h'
    · simp [h0] at hmem
    · exact h'
  have hR : R.filterMap Entry.request? = [r₂] := by
    rw [filterMap_below (π := [true]) ?_, ← hown₂, h₂]
    intro x hx hsome
    refine (h.covers x (hsplit ▸ List.mem_append_right U₀ hx)).resolve_left fun hb => ?_
    obtain ⟨r, hr'⟩ := Option.isSome_iff_exists.mp hsome
    have : r ∈ (below [false] R).filterMap Entry.request? :=
      List.mem_filterMap.mpr ⟨x, mem_below.mpr ⟨hx, hb⟩, hr'⟩
    simp [hU.2] at this
  rw [hsplit, List.filterMap_append, hU.1, hR]
  rfl

variable {s₁ s₂ : Selector} (ho₁ : ∀ x ∈ own₁, x.OfLoad [false] s₁)
  (ho₂ : ∀ x ∈ own₂, x.OfLoad [true] s₂)
include ho₁ ho₂

theorem ofLoad {x : Entry} (hx : x ∈ seg) : x.Quiet ∧ ∃ c, x.2 = .inl c := by
  rcases h.mem hx with hx | hx
  · exact ⟨(ho₁ x hx).quiet, (ho₁ x hx).command⟩
  · exact ⟨(ho₂ x hx).quiet, (ho₂ x hx).command⟩


variable (hs : s₁ ≠ s₂)
include hs

/-- Each list is touched by the two loads as by the first and then the second, since only
one of them touches it. -/
theorem filter_touches (s : Selector) :
    seg.filter (Entry.touches s) = (own₁ ++ own₂).filter (Entry.touches s) := by
  by_cases h₁ : s = s₁
  · subst h₁
    have hnone : own₂.filter (Entry.touches s) = [] :=
      List.filter_eq_nil_iff.mpr fun x hx ht => hs ((ho₂ x hx).touches s ht)
    rw [List.filter_append, hnone, List.append_nil, ← h.left]
    refine filter_below fun x hx ht => (h.covers x hx).resolve_right fun hb => ?_
    exact hs ((ho₂ x (h.right ▸ mem_below.mpr ⟨hx, hb⟩)).touches s ht)
  · by_cases h₂ : s = s₂
    · subst h₂
      have hnone : own₁.filter (Entry.touches s) = [] :=
        List.filter_eq_nil_iff.mpr fun x hx ht => hs ((ho₁ x hx).touches s ht).symm
      rw [List.filter_append, hnone, List.nil_append, ← h.right]
      refine filter_below fun x hx ht => (h.covers x hx).resolve_left fun hb => ?_
      exact hs ((ho₁ x (h.left ▸ mem_below.mpr ⟨hx, hb⟩)).touches s ht).symm
    · -- neither load touches a third list
      have hno : ∀ x, x ∈ own₁ ∨ x ∈ own₂ → ¬ x.touches s = true := by
        rintro x (hx | hx) ht
        · exact h₁ ((ho₁ x hx).touches s ht)
        · exact h₂ ((ho₂ x hx).touches s ht)
      rw [List.filter_eq_nil_iff.mpr fun x hx => hno x (h.mem hx),
        List.filter_eq_nil_iff.mpr fun x hx => hno x (List.mem_append.mp hx)]

/-- The world after the two halves has the page and the counts it has after the first half and
then the second, run one after the other. -/
theorem replay (w : World) :
    (w.replay seg).page = (w.replay (own₁ ++ own₂)).page ∧
      ∀ s, (w.replay seg).generation s = (w.replay (own₁ ++ own₂)).generation s := by
  have hquiet : ∀ x ∈ own₁ ++ own₂, x.Quiet := fun x hx => by
    rcases List.mem_append.mp hx with hx | hx
    · exact (ho₁ x hx).quiet
    · exact (ho₂ x hx).quiet
  refine ⟨World.page_replay_eq w (h.filter_touches ho₁ ho₂ hs) (fun x hx => (h.ofLoad ho₁ ho₂ hx).1)
    hquiet, fun s => ?_⟩
  have hpart : (w.replay seg).part s = (w.replay (own₁ ++ own₂)).part s := by
    rw [World.part_replay_filter, h.filter_touches ho₁ ho₂ hs, ← World.part_replay_filter]
  exact congrArg (·.2.2) hpart

end Halves

/-- A load leaves the part of every other list as it was. -/
theorem World.replay_loadOwn_other (w : World) {π : Path} {s s' : Selector} (h : s' ≠ s)
    (r : Request) (tk : Ticket) (pre : Option String) (current : Bool)
    (a : Except Fault (List Choice)) :
    (w.replay (loadOwn π s r tk (loadEnd π s tk pre current a).1)).part s' = w.part s' :=
  World.part_replay_untouched w fun x hx =>
    Bool.eq_false_iff.mpr fun ht => h ((loadOwn_ofLoad π s r tk pre current a x hx).touches s' ht)

theorem World.generation_replay_loadOwn_other (w : World) {π : Path} {s s' : Selector}
    (h : s' ≠ s) (r : Request) (tk : Ticket) (pre : Option String) (current : Bool)
    (a : Except Fault (List Choice)) :
    (w.replay (loadOwn π s r tk (loadEnd π s tk pre current a).1)).generation s' =
      w.generation s' :=
  congrArg (·.2.2) (World.replay_loadOwn_other w h r tk pre current a)

/-- Two loads of different lists found current, replayed one after the other: each list is
settled by its own answer and both counts move on. -/
theorem World.replay_pair (w : World) {s₁ s₂ : Selector} (hs : s₁ ≠ s₂) (π₁ π₂ : Path)
    (r₁ r₂ : Request) (tk₁ tk₂ : Ticket) (pre₁ pre₂ : Option String)
    (a₁ a₂ : Except Fault (List Choice)) :
    let W := w.replay (loadOwn π₁ s₁ r₁ tk₁ (loadEnd π₁ s₁ tk₁ pre₁ true a₁).1 ++
      loadOwn π₂ s₂ r₂ tk₂ (loadEnd π₂ s₂ tk₂ pre₂ true a₂).1)
    W.page = (w.page.settle s₁ pre₁ a₁).settle s₂ pre₂ a₂ ∧
      ∀ s, W.generation s =
        if s = s₁ ∨ s = s₂ then (w.generation s).begin.2 else w.generation s := by
  intro W
  have hW : W = (w.replay (loadOwn π₁ s₁ r₁ tk₁ (loadEnd π₁ s₁ tk₁ pre₁ true a₁).1)).replay
      (loadOwn π₂ s₂ r₂ tk₂ (loadEnd π₂ s₂ tk₂ pre₂ true a₂).1) := World.replay_append ..
  obtain ⟨hp₁, hg₁⟩ := World.replay_loadOwn w π₁ s₁ r₁ tk₁ pre₁ a₁
  obtain ⟨hp₂, hg₂⟩ := World.replay_loadOwn
    (w.replay (loadOwn π₁ s₁ r₁ tk₁ (loadEnd π₁ s₁ tk₁ pre₁ true a₁).1)) π₂ s₂ r₂ tk₂ pre₂ a₂
  refine ⟨by rw [hW, hp₂, hp₁], fun s => ?_⟩
  rw [hW]
  by_cases h₁ : s = s₁
  · subst h₁
    rw [World.generation_replay_loadOwn_other _ hs, hg₁]
    simp
  · by_cases h₂ : s = s₂
    · subst h₂
      rw [hg₂, World.generation_replay_loadOwn_other w (Ne.symm hs)]
      simp
    · rw [World.generation_replay_loadOwn_other _ h₂, World.generation_replay_loadOwn_other w h₁]
      simp [h₁, h₂]

/-- How two loads of the lists `s₁` and `s₂`, side by side at the root from `t`, ended in `t'`
with results `res`: both were found current and ended with their own answers; the page holds
each list settled by its own answer; the two requests were sent, the first load's first; and
both counts moved on one, the third list's staying. -/
def PairEnd (s₁ s₂ : Selector) (r₁ r₂ : Request) (pre₁ pre₂ : Option String) (t : Traced)
    (res : Except Fault LoadOutcome × Except Fault LoadOutcome) (t' : Traced) : Prop :=
  let a₁ := choicesOf (t.world.server.answer r₁)
  let a₂ := choicesOf (t.world.server.answer r₂)
  t'.start = t.start ∧ t.log <+: t'.log ∧
    res = (a₁.map fun cs => .applied cs.length, a₂.map fun cs => .applied cs.length) ∧
    t'.world.page = (t.world.page.settle s₁ pre₁ a₁).settle s₂ pre₂ a₂ ∧
    t'.world.sent = t.world.sent ++ [r₁, r₂] ∧
    ∀ s, t'.world.generation s =
      if s = s₁ ∨ s = s₂ then (t.world.generation s).begin.2 else t.world.generation s

/-- Two loads of different lists side by side at the root, the first at `[false]` from `t` and
the second at `[true]` from `t₀`, after the first had sent its request, end as `PairEnd` says
once only their two threads have moved the world from `t`. -/
theorem pair_done {s₁ s₂ : Selector} (hs : s₁ ≠ s₂) {r₁ r₂ : Request} {pre₁ pre₂ : Option String}
    {t t₀ t₁ t₁' t₂ : Traced} {mid₁ mid₂ : List Entry} {b c : Except Fault LoadOutcome}
    (h₁ : LoadSpan [false] s₁ r₁ pre₁ mid₁ t t₁ b) (hR₁ : Rely Traced.answer [false] t₁ t₂)
    (hR₀ : Rely Traced.answer [true] t t₀) (hsent : ([false], .inl (.send r₁)) ∈ t₀.log)
    (hfresh : ([false], .inl (.send r₁)) ∉ t.log)
    (h₂ : LoadSpan [true] s₂ r₂ pre₂ mid₂ t₀ t₁' c) (hR₂ : Rely Traced.answer [true] t₁' t₂)
    (hm : Moves Traced.answer (· ≠ []) t t₂) :
    PairEnd s₁ s₂ r₁ r₂ pre₁ pre₂ t (b, c) t₂ := by
  obtain ⟨cur₁, seg, hcur₁, hst₂, hl₂, hmid₁, hown₁, hb⟩ := h₁.within hR₁
  obtain ⟨U₀, hs₀, hl₀, hU₀⟩ := Traced.moves hR₀
  obtain ⟨cur₂, R, hcur₂, -, hl₂', hmid₂, hown₂, hc⟩ := h₂.within hR₂
  obtain ⟨W, -, hlW, hW⟩ := Traced.moves hm
  -- the two loads' stretch of log: what the first did before the second began, then the rest
  have hsplit : seg = U₀ ++ R := by
    rw [hl₂', hl₀, List.append_assoc] at hl₂
    exact (List.append_cancel_left hl₂).symm
  have hWseg : W = seg := List.append_cancel_left (hlW.symm.trans hl₂)
  have hh : Halves seg _ _ := ⟨fun x hx => half_of_ne_nil (hW x (hWseg ▸ hx)), hown₁,
    by rw [hsplit, below_append, below_eq_nil hU₀, List.nil_append, hown₂]⟩
  have ho₁ := loadOwn_ofLoad [false] s₁ r₁ (t.world.generation s₁).begin.1 pre₁ cur₁
    (choicesOf (t.world.server.answer r₁))
  have ho₂ := loadOwn_ofLoad [true] s₂ r₂ (t₀.world.generation s₂).begin.1 pre₂ cur₂
    (choicesOf (t₀.world.server.answer r₂))
  -- before the second load began, only the first moved, and not the second's list
  have hU₀own : ∀ x ∈ U₀, x.OfLoad [false] s₁ := fun x hx =>
    ho₁ x (hh.mem_left (hsplit ▸ List.mem_append_left R hx) (hU₀ x hx))
  have hw₀ : t₀.world = t.world.replay U₀ := Traced.world_extend hs₀ hl₀
  have hgen₀ : t₀.world.generation s₂ = t.world.generation s₂ := by
    rw [hw₀]
    exact congrArg (·.2.2) (World.part_replay_untouched _ fun x hx =>
      Bool.eq_false_iff.mpr fun ht => hs ((hU₀own x hx).touches s₂ ht).symm)
  have hserver₀ : t₀.world.server = t.world.server := by
    rw [hw₀]
    exact World.replay_server _ fun x hx => (hU₀own x hx).command
  rw [hgen₀, hserver₀] at ho₂ hh hc
  -- each found its ticket current: the other load began no load of its list
  have hc₁ : cur₁ = true := by
    rw [← hcur₁]
    refine Traced.arrival_current _ _ _ _ fun x hx hbeg => ?_
    obtain ⟨hxs, hn⟩ := hmid₁ x hx
    exact hs ((ho₂ x (hh.mem_right hxs hn)).begins s₁ hbeg)
  have hc₂ : cur₂ = true := by
    rw [← hcur₂]
    refine Traced.arrival_current _ _ _ _ fun x hx hbeg => ?_
    obtain ⟨hxs, hn⟩ := hmid₂ x hx
    exact hs ((ho₁ x (hh.mem_left (hsplit ▸ List.mem_append_right U₀ hxs) hn)).begins s₂ hbeg).symm
  subst hc₁ hc₂
  have hworld : t₂.world = t.world.replay seg := Traced.world_extend hst₂ hl₂
  obtain ⟨hpage, hgen⟩ := hh.replay ho₁ ho₂ hs t.world
  have hx₁ : (([false], .inl (.send r₁)) : Entry) ∈ U₀ := by
    rw [hl₀, List.mem_append] at hsent
    exact hsent.resolve_left hfresh
  refine ⟨hst₂, hl₂ ▸ List.prefix_append _ _, by rw [hb, hc, loadEnd_current, loadEnd_current], ?_,
    ?_, fun s => ?_⟩
  · rw [hworld, hpage]
    exact (World.replay_pair t.world hs _ _ _ _ _ _ _ _ _ _).1
  · rw [hworld, World.replay_sent, hh.requests hsplit hU₀ hx₁ rfl (loadOwn_requests ..)
      (loadOwn_requests ..)]
  · rw [hworld, hgen]
    exact (World.replay_pair t.world hs _ _ _ _ _ _ _ _ _ _).2 s

/-- Two loads of different lists side by side at the root end as `PairEnd` says, whatever the
delays, among threads that keep "the first load has sent its request": the second load begins
only once the first has had its round, which it ends with its request sent. -/
theorem pair_ends {s₁ s₂ : Selector} (hs : s₁ ≠ s₂) (r₁ r₂ : Request) (pre₁ pre₂ : Option String)
    (t : Traced) (hfresh : ([false], .inl (.send r₁)) ∉ t.log) :
    WP Traced.answer (fun t' => ([false], .inl (.send r₁)) ∈ t'.log) []
      (Program.pair (Task.load s₁ r₁ pre₁) (Task.load s₂ r₂ pre₂)).widen t
      (PairEnd s₁ s₂ r₁ r₂ pre₁ pre₂ t) := by
  refine ⟨fun b t₂ => ∃ mid t₁, LoadSpan [false] s₁ r₁ pre₁ mid t t₁ b ∧
      Rely Traced.answer [false] t₁ t₂,
    fun c t₂ => ∃ t₀ mid t₁, Rely Traced.answer [true] t t₀ ∧
      ([false], .inl (.send r₁)) ∈ t₀.log ∧ LoadSpan [true] s₂ r₂ pre₂ mid t₀ t₁ c ∧
      Rely Traced.answer [true] t₁ t₂, ?_, ?_, ?_⟩
  · -- the first load sends its request in its first round, and its log keeps it
    refine (load_span_keeps s₁ r₁ pre₁ [false] t (by simp)).mono fun b t₁ hb => ?_
    obtain ⟨mid, h⟩ := hb
    refine ⟨?_, fun t₂ hR => ⟨mid, t₁, h, hR⟩⟩
    show _ ∈ t₁.log
    rw [h.2.2.1, loadEntries_eq]
    simp [loadStart]
  · -- the second begins where the first's request is already logged
    intro t₀ hI₀ hR₀
    refine (load_span_keeps s₂ r₂ pre₂ [true] t₀ (by simp [hI₀])).mono fun c t₁ hc => ?_
    obtain ⟨mid, h⟩ := hc
    refine ⟨?_, fun t₂ hR => ⟨t₀, mid, t₁, hR₀, hI₀, h, hR⟩⟩
    show _ ∈ t₁.log
    rw [h.2.2.1]
    exact List.mem_append_left _ hI₀
  · rintro b c t₂ ⟨mid₁, t₁, h₁, hR₁⟩ ⟨t₀, mid₂, t₁', hR₀, hsent, h₂, hR₂⟩ - hm
    exact pair_done hs h₁ hR₁ hR₀ hsent hfresh h₂ hR₂ hm

/-! ### A load alone at the root -/

/-- What a load of list `s` with request `r`, pre-selecting `pre`, does to a world when nothing
runs beside it: it settles its list by the server's answer, sends its request, and counts one
more load of its list. -/
structure LoadAlone (s : Selector) (r : Request) (pre : Option String) (w w' : World) : Prop where
  page : w'.page = w.page.settle s pre (choicesOf (w.server.answer r))
  sent : w'.sent = w.sent ++ [r]
  server : w'.server = w.server
  generation : ∀ s', w'.generation s' = if s' = s then (w.generation s).begin.2 else w.generation s'

/-- A load at the root runs alone: no thread asks while it waits, so it is found current. -/
theorem LoadSpan.root {s : Selector} {r : Request} {pre : Option String} {mid : List Entry}
    {t t' : Traced} {res : Except Fault LoadOutcome} (h : LoadSpan [] s r pre mid t t' res) :
    t'.start = t.start ∧ t.log <+: t'.log ∧ LoadAlone s r pre t.world t'.world ∧
      res = (choicesOf (t.world.server.answer r)).map fun cs => .applied cs.length := by
  obtain ⟨hmid, hs, hl, hres⟩ := h
  have hnil : mid = [] := List.eq_nil_iff_forall_not_mem.mpr fun x hx => hmid x hx (List.nil_prefix)
  subst hnil
  have hcur : ((t.arrival [] s r []).generation s).isCurrent (t.world.generation s).begin.1 = true :=
    (Traced.arrival_isCurrent t [] s r []).mpr rfl
  rw [hcur] at hl hres
  have hown : loadEntries [] s r (t.world.generation s).begin.1 [] (loadEnd [] s
      (t.world.generation s).begin.1 pre true (choicesOf (t.world.server.answer r))).1 =
      loadOwn [] s r (t.world.generation s).begin.1 (loadEnd [] s
        (t.world.generation s).begin.1 pre true (choicesOf (t.world.server.answer r))).1 := by
    simp [loadEntries_eq, loadOwn]
  rw [hown] at hl
  have hw := Traced.world_extend hs hl
  obtain ⟨hpage, hgen⟩ := World.replay_loadOwn t.world [] s r (t.world.generation s).begin.1 pre
    (choicesOf (t.world.server.answer r))
  refine ⟨hs, hl ▸ List.prefix_append _ _, ⟨?_, ?_, ?_, fun s' => ?_⟩, hres.trans (loadEnd_current ..)⟩
  · rw [hw, hpage]
  · rw [hw, World.replay_sent, loadOwn_requests]
  · rw [hw]
    exact World.replay_server _ fun x hx => (loadOwn_ofLoad _ _ _ _ _ _ _ x hx).command
  · rw [hw]
    split
    · next hs' => subst hs'; exact hgen
    · next hs' => exact World.generation_replay_loadOwn_other _ hs' _ _ _ _ _

/-- A cascade at the root runs alone: its country load, and, once that has filled the list,
the load of the nodes of the first country, each as a load alone does. -/
theorem CascadeRan.root {e : Endpoints} {area : String} {t t' : Traced}
    {res : Except Fault LoadOutcome} (h : CascadeRan [] e area t t' res) :
    t'.start = t.start ∧
      match choicesOf (t.world.server.answer (e.countryRequest area)) with
      | .error f => res = .error f ∧ LoadAlone .country (e.countryRequest area) none t.world t'.world
      | .ok cs =>
        let rN := e.nodeRequest ((cs.head?.map Choice.value).getD "")
        ∃ w₁, LoadAlone .country (e.countryRequest area) none t.world w₁ ∧
          LoadAlone .node rN none w₁ t'.world ∧
          res = (choicesOf (t.world.server.answer rN)).map fun _ => .applied cs.length := by
  obtain ⟨mid, t₁, res₁, h₁, hrest⟩ := h
  obtain ⟨hs₁, -, hl₁, hres₁⟩ := h₁.root
  cases ha : choicesOf (t.world.server.answer (e.countryRequest area)) with
  | error f =>
    rw [hres₁, ha] at hrest
    obtain ⟨rfl, hres, -⟩ := hrest
    exact ⟨hs₁, hres, hl₁⟩
  | ok cs =>
    rw [hres₁, ha] at hrest
    obtain ⟨cs', mid₂, res₂, hcs, -, h₂, hres, -⟩ := hrest
    rw [Except.ok.injEq] at hcs
    subst hcs
    obtain ⟨hs₂, -, hl₂, hres₂⟩ := h₂.root
    -- reading the selected country changes nothing
    have hw₁ : (t₁.perform [] (.selectedValue .country)).world = t₁.world := by
      simp [World.perform]
    rw [hw₁] at hl₂
    rw [hw₁, hl₁.server] at hres₂
    refine ⟨hs₂.trans hs₁, t₁.world, hl₁, hl₂, ?_⟩
    rw [hres, hres₂]
    cases choicesOf (t.world.server.answer (e.nodeRequest ((cs.head?.map Choice.value).getD ""))) <;>
      rfl

/-! ### Setting the lists up, alone -/

/-- An area id is refused only for what it is. -/
theorem PageConfig.areaPath_error {c : PageConfig} {f : Fault} (h : c.areaPath = .error f) :
    f = .invalidAreaId c.nodeAreaId := by
  unfold PageConfig.areaPath AreaPath.parse at h
  split at h
  split at h <;> simp_all

/-- The page once setting up has read the area list: the first entry with the id's area is
selected, and without one the page is as it was. -/
def Page.selectArea (p : Page) (area : String) : Page :=
  match firstMatch (p.list .area).values area with
  | some i => p.modifyList .area (·.selectIndex i)
  | none => p

theorem Traced.mem_perform_log {t : Traced} {π : Path} {c : Command} {x : Entry}
    (hx : x ∈ (t.perform π c).log) : x ∈ t.log ∨ x.1 = π := by
  rw [Traced.perform_log, List.mem_append, List.mem_singleton] at hx
  rcases hx with hx | rfl
  · exact .inl hx
  · exact .inr rfl

/-- Reading the area list and selecting the id's area, or reporting it missing, changes only
the area list and logs two entries of the thread. -/
theorem setUp_area (t : Traced) (π : Path) (area : String) :
    let t₂ := match firstMatch (t.world.page.list .area).values area with
      | some i => (t.perform π (.optionValues .area)).perform π (.selectIndex .area i)
      | none => (t.perform π (.optionValues .area)).perform π (.record (.areaNotOffered area))
    t₂.start = t.start ∧ (∀ x ∈ t₂.log, x ∈ t.log ∨ x.1 = π) ∧
      t₂.world.page = t.world.page.selectArea area ∧ t₂.world.sent = t.world.sent ∧
      t₂.world.server = t.world.server ∧ ∀ s, t₂.world.generation s = t.world.generation s := by
  intro t₂
  -- either way two entries of the thread, and only the area list changes
  have hlog : ∀ c₁ c₂, ∀ x ∈ ((t.perform π c₁).perform π c₂).log, x ∈ t.log ∨ x.1 = π :=
    fun _ _ _ hx => (Traced.mem_perform_log hx).elim Traced.mem_perform_log .inr
  cases hm : firstMatch (t.world.page.list .area).values area <;> simp only [t₂, hm] <;>
    exact ⟨rfl, hlog _ _, by simp [World.perform, Page.selectArea, hm], by simp [World.perform],
      by simp [World.perform], fun s => by simp [World.perform]⟩

/-- The world a step starts from, as its traced start shows it. -/
theorem Session.start_world (w : World) :
    (Session.start w).world = { w with sent := [], events := [] } := rfl

/-- Setting the lists up, alone, for an id with a country: the area is selected, then the
countries of the area and the nodes of the country load side by side. Each list ends as a load
of it found current would leave it, after its own answer; the two requests go out country first;
the result is the country fault, else the node fault, else success. -/
theorem Session.setUp_side_by_side (e : Endpoints) (w : World) {c : PageConfig} {path : AreaPath}
    {country : String} (hc : c.areaPath = .ok path) (hcountry : path.country = some country) :
    let w' := (Session.step e w (.setUp (.ok c))).1
    let ac := choicesOf (w.server.answer (e.countryRequest path.area))
    let an := choicesOf (w.server.answer (e.nodeRequest country))
    (Session.step e w (.setUp (.ok c))).2 = .setUp (match ac, an with
        | .error f, _ => .error f
        | .ok _, .error f => .error f
        | .ok _, .ok _ => .ok ()) ∧
      w'.sent = [e.countryRequest path.area, e.nodeRequest country] ∧
      w'.page = ((w.page.selectArea path.area).settle .country (some country) ac).settle .node
        (some c.nodeId) an ∧
      ∀ s, w'.generation s =
        if s = .country ∨ s = .node then (w.generation s).begin.2 else w.generation s := by
  intro w' ac an
  -- the run keeps "the country request is logged" once the pair has begun
  have h := @Session.wp_step
    (fun t => (([false], .inl (.send (e.countryRequest path.area))) : Entry) ∈ t.log)
    (fun r t' => ∃ (t₂ : Traced) (res : Except Fault LoadOutcome × Except Fault LoadOutcome),
      r = .setUp (do let _ ← res.1; let _ ← res.2; pure ()) ∧
      t₂.world.page = w.page.selectArea path.area ∧ t₂.world.sent = [] ∧
      t₂.world.server = w.server ∧ (∀ s, t₂.world.generation s = w.generation s) ∧
      PairEnd .country .node (e.countryRequest path.area) (e.nodeRequest country) (some country)
        (some c.nodeId) t₂ res t') e w (.setUp (.ok c)) (wp_task.mpr (wp_setUp.mpr ?_))
  · obtain ⟨t₂, res, hres, hpage₂, hsent₂, hserver₂, hgen₂, -, -, hres', hpage, hsent, hgen⟩ := h
    have hw : w' = _ := (Session.world_log e w _).symm
    rw [hserver₂] at hres' hpage
    refine ⟨?_, ?_, ?_, fun s => ?_⟩
    · rw [hres, hres']
      simp only [ac, an]
      cases choicesOf (w.server.answer (e.countryRequest path.area)) <;>
        cases choicesOf (w.server.answer (e.nodeRequest country)) <;> rfl
    · rw [hw, hsent, hsent₂]
      rfl
    · rw [hw, hpage, hpage₂]
    · rw [hw, hgen s, hgen₂ s]
  · simp only [hc, hcountry]
    obtain ⟨-, hlog, hpage₂, hsent₂, hserver₂, hgen₂⟩ := setUp_area (Session.start w) [] path.area
    refine (pair_ends (by decide) _ _ _ _ _ ?_).mono fun res t' hend =>
      ⟨_, res, rfl, hpage₂, hsent₂, hserver₂, hgen₂, hend⟩
    -- nothing of the halves' threads is logged before the pair begins
    intro hmem
    rcases hlog _ hmem with hmem | hπ
    · simp [Session.start] at hmem
    · simp at hπ

/-- Setting the lists up, alone, for an id without a country: the area is selected, and the
plain cascade from the id's area runs with nothing beside it. The countries load with nothing
pre-selected; after a fault that is the result and the nodes are left alone; otherwise the
nodes of the first country load with nothing pre-selected, and their fault, if any, is the
result. -/
theorem Session.setUp_plain (e : Endpoints) (w : World) {c : PageConfig} {path : AreaPath}
    (hc : c.areaPath = .ok path) (hcountry : path.country = none) :
    let w' := (Session.step e w (.setUp (.ok c))).1
    let rC := e.countryRequest path.area
    let P := (w.page.selectArea path.area).settle .country none (choicesOf (w.server.answer rC))
    w'.generation .country = (w.generation .country).begin.2 ∧
      match choicesOf (w.server.answer rC) with
      | .error f => (Session.step e w (.setUp (.ok c))).2 = .setUp (.error f) ∧ w'.sent = [rC] ∧
          w'.page = P ∧ w'.generation .node = w.generation .node
      | .ok cs =>
        let rN := e.nodeRequest ((cs.head?.map Choice.value).getD "")
        (Session.step e w (.setUp (.ok c))).2 =
            .setUp ((choicesOf (w.server.answer rN)).map fun _ => ()) ∧
          w'.sent = [rC, rN] ∧ w'.page = P.settle .node none (choicesOf (w.server.answer rN)) ∧
          w'.generation .node = (w.generation .node).begin.2 := by
  intro w' rC P
  have h := @Session.wp_step (fun _ => True)
    (fun r t' => ∃ (t₃ : Traced) (res : Except Fault LoadOutcome),
      r = .setUp (res.map fun _ => ()) ∧
      t₃.world.page = w.page.selectArea path.area ∧ t₃.world.sent = [] ∧
      t₃.world.server = w.server ∧ (∀ s, t₃.world.generation s = w.generation s) ∧
      CascadeRan [] e path.area t₃ t' res) e w (.setUp (.ok c)) (wp_task.mpr (wp_setUp.mpr ?_))
  · obtain ⟨t₃, res, hres, hpage₃, hsent₃, hserver₃, hgen₃, hrun⟩ := h
    have hw : w' = _ := (Session.world_log e w _).symm
    obtain ⟨-, hrun⟩ := hrun.root
    rw [hserver₃] at hrun
    cases ha : choicesOf (w.server.answer rC) with
    | error f =>
      rw [ha] at hrun
      obtain ⟨hres', hl⟩ := hrun
      refine ⟨by rw [hw, hl.generation, if_pos rfl, hgen₃], by rw [hres, hres']; rfl,
        by rw [hw, hl.sent, hsent₃]; rfl, ?_, by rw [hw, hl.generation, if_neg (by decide), hgen₃]⟩
      rw [hw, hl.page, hpage₃, hserver₃]
    | ok cs =>
      rw [ha] at hrun
      obtain ⟨w₁, hl₁, hl₂, hres'⟩ := hrun
      -- the node load leaves the country list and its count as the country load left them
      have hcountry₂ := hl₂.generation .country
      rw [if_neg (by decide)] at hcountry₂
      refine ⟨by rw [hw, hcountry₂, hl₁.generation, if_pos rfl, hgen₃], ?_,
        by rw [hw, hl₂.sent, hl₁.sent, hsent₃]; rfl, ?_, ?_⟩
      · rw [hres, hres']
        cases choicesOf (w.server.answer (e.nodeRequest ((cs.head?.map Choice.value).getD ""))) <;>
          rfl
      · rw [hw, hl₂.page, hl₁.server, hl₁.page, hpage₃, hserver₃]
      · rw [hw, hl₂.generation, if_pos rfl, hl₁.generation, if_neg (by decide), hgen₃]
  · simp only [hc, hcountry]
    obtain ⟨-, -, hpage₂, hsent₂, hserver₂, hgen₂⟩ := setUp_area (Session.start w) [] path.area
    -- the report of the plain cascade changes nothing the cascade reads
    refine (cascade_ran e path.area [] _).mono fun res t' hrun => ⟨_, res, rfl, ?_, ?_, ?_, ?_, hrun⟩
    · simp only [Traced.perform_world, World.perform]
      exact hpage₂
    · simp only [Traced.perform_world, World.perform]
      exact hsent₂
    · simp only [Traced.perform_world, World.perform]
      exact hserver₂
    · intro s
      simp only [Traced.perform_world, World.perform, World.generation_events]
      exact hgen₂ s

/-- An area id that cannot be read is refused for what it is, and the step leaves the world as it
was, having sent nothing. -/
theorem Session.setUp_refused (e : Endpoints) (w : World) {c : PageConfig} {f : Fault}
    (hc : c.areaPath = .error f) :
    Session.step e w (.setUp (.ok c)) = ({ w with sent := [], events := [] }, .setUp (.error f)) := by
  have h := @Session.wp_step (fun _ => True)
    (fun r t' => r = .setUp (.error f) ∧ t' = Session.start w) e w (.setUp (.ok c))
    (wp_task.mpr (wp_setUp.mpr (by simp [hc])))
  have hw := Session.world_log e w (.setUp (.ok c))
  rw [h.2, Session.start_world] at hw
  exact Prod.ext hw.symm h.1

/-- Setting the lists up for a page configuration with no other operation running, for every
page, server script and delay script. Its result is the same whatever the delays. An area id
that cannot be read is refused for what it is, and nothing changes. Otherwise the first area
with the id's area is selected, if there is one. With a country `country` in the id, the
countries of the area and the nodes of `country`, even if the countries' answer lacks it, load
side by side and both requests go out, the countries' first; each list ends as a load of it
pre-selecting the configured entry and found current would leave it, after its own answer; both
counts move on; and the result is the country fault, else the node fault, else success. Without
a country, the plain cascade from the area runs: its countries load with nothing pre-selected,
and, once they are in, the nodes of the first of them. -/
theorem Session.setUp_alone (e : Endpoints) (w : World) (c : PageConfig) :
    (∀ delays : List (String × Nat),
      (Session.step e { w with server := { w.server with delays := delays } } (.setUp (.ok c))).2 =
        (Session.step e w (.setUp (.ok c))).2) ∧
    let w' := (Session.step e w (.setUp (.ok c))).1
    let res := (Session.step e w (.setUp (.ok c))).2
    match c.areaPath with
    | .error f => f = .invalidAreaId c.nodeAreaId ∧ res = .setUp (.error f) ∧
        w' = { w with sent := [], events := [] }
    | .ok path =>
      let rC := e.countryRequest path.area
      let ac := choicesOf (w.server.answer rC)
      match path.country with
      | some country =>
        let an := choicesOf (w.server.answer (e.nodeRequest country))
        res = .setUp (match ac, an with
            | .error f, _ => .error f
            | .ok _, .error f => .error f
            | .ok _, .ok _ => .ok ()) ∧
          w'.sent = [rC, e.nodeRequest country] ∧
          w'.page = ((w.page.selectArea path.area).settle .country (some country) ac).settle .node
            (some c.nodeId) an ∧
          ∀ s, w'.generation s =
            if s = .country ∨ s = .node then (w.generation s).begin.2 else w.generation s
      | none =>
        let P := (w.page.selectArea path.area).settle .country none ac
        w'.generation .country = (w.generation .country).begin.2 ∧
          match ac with
          | .error f => res = .setUp (.error f) ∧ w'.sent = [rC] ∧ w'.page = P ∧
              w'.generation .node = w.generation .node
          | .ok cs =>
            let rN := e.nodeRequest ((cs.head?.map Choice.value).getD "")
            res = .setUp ((choicesOf (w.server.answer rN)).map fun _ => ()) ∧
              w'.sent = [rC, rN] ∧ w'.page = P.settle .node none (choicesOf (w.server.answer rN)) ∧
              w'.generation .node = (w.generation .node).begin.2 := by
  -- the delays are no part of the server's answers
  have hans : ∀ (delays : List (String × Nat)) (r : Request),
      ({ w with server := { w.server with delays := delays } } : World).server.answer r =
        w.server.answer r := fun _ _ => rfl
  refine ⟨fun delays => ?_, ?_⟩
  · rcases hc : c.areaPath with f | path
    · rw [Session.setUp_refused e _ hc, Session.setUp_refused e w hc]
    · rcases hcountry : path.country with _ | country
      · have h₁ := (Session.setUp_plain e w hc hcountry).2
        have h₂ := (Session.setUp_plain e { w with server := { w.server with delays := delays } } hc
          hcountry).2
        simp only [hans] at h₂
        cases ha : choicesOf (w.server.answer (e.countryRequest path.area)) with
        | error f =>
          rw [ha] at h₁ h₂
          rw [h₁.1, h₂.1]
        | ok cs =>
          rw [ha] at h₁ h₂
          rw [h₁.1, h₂.1]
      · have h₁ := (Session.setUp_side_by_side e w hc hcountry).1
        have h₂ := (Session.setUp_side_by_side e { w with server := { w.server with delays := delays } }
          hc hcountry).1
        simp only [hans] at h₂
        rw [h₁, h₂]
  · intro w' res
    split
    · next f hc =>
      exact ⟨PageConfig.areaPath_error hc, congrArg Prod.snd (Session.setUp_refused e w hc),
        congrArg Prod.fst (Session.setUp_refused e w hc)⟩
    · next path hc =>
      split
      · next country hcountry => exact Session.setUp_side_by_side e w hc hcountry
      · next hcountry => exact Session.setUp_plain e w hc hcountry

end NodeSwitcher
