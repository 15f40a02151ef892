import Mathlib
import NodeSwitcher.Proofs.Operations
/-!
# Superseded loads leave the page alone

A load of a list takes a ticket from the list's count, fetches, and writes the list only if its
ticket is still the latest. `load_done` states what one load does whatever the other threads do
meanwhile (`LoadDone`): its entries in the log, how it ends (`LoadEnd`), and that it was found
stale exactly when the number of loads of its list begun while it waited is not a multiple of
2^64; with fewer than 2^64 of them, exactly when one began.

`Fenced π` says that every load begun below thread `π` ran whole in the log; it is a `Law`
(`fencedLaw`), so `Law.program` carries it through every operation of a step, and
`Session.loads_supersede` reads each load of a step off the step's log (`LoadRun`): loads found
current ran before every later load of their list began, so lists are written in the order
their loads began, and the last load of a list to begin writes it.
-/

namespace NodeSwitcher

open Program

/-- Whether an entry begins a load of list `s`. -/
def Entry.begins (s : Selector) : Entry → Bool
  | (_, .inl (.beginLoad s')) => s' == s
  | _ => false

theorem Entry.begins_inl {c : Command} (hc : c.kind ≠ .beginLoad) (π : Path) (s : Selector) :
    Entry.begins s (π, .inl c) = false := by
  cases c with
  | beginLoad => exact absurd rfl hc
  | _ => rfl

section Counts

theorem World.generation_setGeneration (w : World) (s s' : Selector) (g : Generation) :
    (w.setGeneration s' g).generation s = if s' = s then g else w.generation s := by
  cases s <;> cases s' <;> rfl

/-- Only a load of the list counts for it. -/
theorem World.answer_latest (π : Path) (q : Command ⊕ Setup) (w : World) (s : Selector) :
    ((World.answer q w).1.generation s).latest =
      (w.generation s).latest + if Entry.begins s (π, q) then 1 else 0 := by
  rcases q with c | a
  · cases c with
    | beginLoad s' =>
      simp only [World.answer, World.perform, Generation.begin, World.generation_setGeneration,
        Entry.begins, beq_iff_eq]
      by_cases h : s' = s
      · simp [h]
      · simp [h]
    | _ => simp [World.answer, World.perform, World.generation, Entry.begins]
  · cases a <;> simp [World.answer, World.arrange, World.generation, Entry.begins]

/-- A list's count after logged questions: the loads of it among them, added, modulo 2^64. -/
theorem World.replay_latest (w : World) (U : List Entry) (s : Selector) :
    ((w.replay U).generation s).latest =
      (w.generation s).latest + UInt64.ofNat (U.countP (Entry.begins s)) := by
  induction U generalizing w with
  | nil => simp
  | cons x U ih =>
    have h := World.answer_latest x.1 x.2 w s
    rw [show w.replay (x :: U) = (World.answer x.2 w).1.replay U from rfl, ih, h,
      List.countP_cons]
    split
    · rw [UInt64.ofNat_add]
      ac_rfl
    · simp

end Counts

/-- Whether a ticket taken when a list's count was `latest` is still the latest after `n` more
loads of the list began: exactly when they are a multiple of 2^64. -/
theorem isCurrent_after (latest : UInt64) (n : Nat) :
    (Generation.mk (latest + 1 + UInt64.ofNat n)).isCurrent ⟨latest + 1⟩ = true ↔
      n % 2 ^ 64 = 0 := by
  simp only [Generation.isCurrent, beq_iff_eq, UInt64.left_eq_add,
    UInt64.ofNat_eq_iff_mod_eq_toNat, UInt64.toNat_zero]

/-- How a load that checked its ticket `t` at thread `π` ends. Found stale, it only reports it;
found current, it sets the list's error marker after a fault, or fills the list and clears the
marker. The flag says whether the ticket was current. -/
inductive LoadEnd (π : Path) (s : Selector) (t : Ticket) : Bool → List Entry → Prop
  | superseded : LoadEnd π s t false [(π, .inl (.record (.superseded s t)))]
  | failed (f : Fault) : LoadEnd π s t true
      [(π, .inl (.record (.loadFailed s f))), (π, .inl (.setError s (some f.message)))]
  | applied (cs : List Choice) (pre : Option Nat) : LoadEnd π s t true
      [(π, .inl (.replaceOptions s cs pre)), (π, .inl (.setError s none))]

/-- The entries of a whole load of list `s` at thread `π`, with ticket `t` and request `r`: it
takes the ticket, records and sends the request, waits while other threads ask `mid`, checks
the ticket and ends with `fin`. -/
def loadEntries (π : Path) (s : Selector) (r : Request) (t : Ticket) (mid fin : List Entry) :
    List Entry :=
  (π, .inl (.beginLoad s)) :: (π, .inl (.record (.fetching r.path r.query))) ::
    (π, .inl (.send r)) :: (mid ++ (π, .inl (.isCurrent s t)) :: fin)

/-- A load of list `s` at thread `π`, run from the traced world `t` to `t'` and ending with
`res`: its entries follow `t`'s log, with its ticket from `t`'s count; only threads outside its
subtree asked while it waited; it ends as its check found its ticket; the ticket was current
exactly when the loads of `s` begun meanwhile are a multiple of 2^64; and the load reports
itself superseded exactly when the ticket was stale. -/
def LoadDone (π : Path) (s : Selector) (t t' : Traced) (res : Except Fault LoadOutcome) : Prop :=
  ∃ r mid fin current,
    t'.start = t.start ∧
    t'.log = t.log ++ loadEntries π s r (t.world.generation s).begin.1 mid fin ∧
    (∀ x ∈ mid, ¬ π <+: x.1) ∧
    LoadEnd π s (t.world.generation s).begin.1 current fin ∧
    (current = true ↔ mid.countP (Entry.begins s) % 2 ^ 64 = 0) ∧
    (res = .ok .superseded ↔ current = false)

/-- Every load, whatever the other threads do, runs as `LoadDone` says. -/
theorem load_done (s : Selector) (r : Request) (pre : Option String) (π : Path) (t : Traced) :
    WP Traced.answer (fun _ => True) π (Task.load s r pre).widen t fun res t' =>
      LoadDone π s t t' res := by
  refine wp_load.mpr (Await.of_rely trivial fun t' hR => ?_)
  obtain ⟨mid, hs, hl, hmid⟩ := Traced.moves hR
  simp only [Traced.performAll_cons, Traced.performAll_nil, Traced.perform_log,
    Traced.perform_start] at hs hl
  -- the check compares the ticket with the count after the loads begun meanwhile
  have hw : t'.world = (t.world.replay [(π, .inl (.beginLoad s)),
      (π, .inl (.record (.fetching r.path r.query))), (π, .inl (.send r))]).replay mid := by
    simp only [Traced.world, hs, hl, World.replay_append, List.append_assoc, List.cons_append,
      List.nil_append]
    rfl
  have hlatest : (t'.world.generation s).latest =
      (t.world.generation s).latest + 1 + UInt64.ofNat (mid.countP (Entry.begins s)) := by
    rw [hw, World.replay_latest, World.replay_latest]
    simp [Entry.begins]
  have hcur : (t'.world.generation s).isCurrent (t.world.generation s).begin.1 = true ↔
      mid.countP (Entry.begins s) % 2 ^ 64 = 0 := by
    rw [← isCurrent_after (t.world.generation s).latest]
    simp only [Generation.isCurrent, Generation.begin, hlatest]
  -- whatever the check found, the load logged its check and its end after `t'`
  have done : ∀ t'' fin current res, t''.start = t'.start →
      t''.log = t'.log ++ (π, .inl (.isCurrent s (t.world.generation s).begin.1)) :: fin →
      LoadEnd π s (t.world.generation s).begin.1 current fin →
      (current = true ↔ (t'.world.generation s).isCurrent (t.world.generation s).begin.1 = true) →
      (res = .ok .superseded ↔ current = false) → LoadDone π s t t'' res := by
    intro t'' fin current res hs' hl' hend hc hres
    refine ⟨r, mid, fin, current, hs'.trans hs, ?_, hmid, hend, hc.trans hcur, hres⟩
    simp [hl', hl, loadEntries]
  dsimp only
  split
  · next hc =>
    split
    · next f _ => exact done _ _ true _ rfl (by simp) (.failed f) (by simp [hc]) (by simp)
    · next cs _ =>
      refine done _ _ true _ rfl ?_ (.applied cs (pre.bind (lastMatch cs))) (by simp [hc]) (by simp)
      simp only [Traced.performAll_cons, Traced.performAll_nil, Traced.perform_log, List.append_assoc,
        List.cons_append, List.nil_append]
  · next hc => exact done _ _ false _ rfl (by simp) .superseded (by simp [hc]) (by simp)

/-- The load that began at entry `n` of the log `L` from the world `W` ran whole within `L`:
its entries follow the first `n`, with its ticket taken from the count of its list after them;
only threads outside its subtree asked while it waited; it ends as its check found the ticket,
and the ticket was current exactly when the loads of the list begun meanwhile are a multiple of
2^64. -/
def LoadRan (W : World) (L : List Entry) (n : Nat) : Prop :=
  ∃ π s r mid fin current,
    loadEntries π s r ((W.replay (L.take n)).generation s).begin.1 mid fin <+: L.drop n ∧
    (∀ x ∈ mid, ¬ π <+: x.1) ∧
    LoadEnd π s ((W.replay (L.take n)).generation s).begin.1 current fin ∧
    (current = true ↔ mid.countP (Entry.begins s) % 2 ^ 64 = 0)

/-- A load that ran whole in a log ran whole in every longer one. -/
theorem LoadRan.mono {W : World} {L L' : List Entry} {n : Nat} (h : LoadRan W L n)
    (hL : L <+: L') : LoadRan W L' n := by
  obtain ⟨π, s, r, mid, fin, current, hpre, hmid, hend, hcur⟩ := h
  obtain ⟨V, rfl⟩ := hL
  have hn : n ≤ L.length := by
    rcases Nat.lt_or_ge L.length n with hn | hn
    · rw [List.drop_eq_nil_of_le (Nat.le_of_lt hn)] at hpre
      simp [loadEntries] at hpre
    · exact hn
  refine ⟨π, s, r, mid, fin, current, ?_, hmid, ?_, hcur⟩
  · rw [List.take_append_of_le_length hn, List.drop_append_of_le_length hn]
    exact hpre.trans (List.prefix_append _ _)
  · rwa [List.take_append_of_le_length hn]

/-- A load done from `t` to `t'` ran whole in `t'`'s log, from where `t`'s log ended. -/
theorem LoadDone.ran {π : Path} {s : Selector} {t t' : Traced} {res : Except Fault LoadOutcome}
    (h : LoadDone π s t t' res) : LoadRan t'.start t'.log t.log.length := by
  obtain ⟨r, mid, fin, current, hs, hl, hmid, hend, hcur, -⟩ := h
  refine ⟨π, s, r, mid, fin, current, ?_, hmid, ?_, hcur⟩
  · rw [hl, hs, List.take_left', List.drop_left']
    · exact List.prefix_refl _
    · rfl
    · rfl
  · rwa [hl, hs, List.take_left']
    rfl

/-! ### Every load of a step runs whole and fenced -/

/-- Every load that the thread at `π`, or a thread below it, began between `t` and `t'` ran
whole within `t'`'s log. -/
def Fenced (π : Path) (t t' : Traced) : Prop :=
  t'.start = t.start ∧ t.log <+: t'.log ∧
    ∀ n x, t.log.length ≤ n → t'.log[n]? = some x → π <+: x.1 → (∃ s, Entry.begins s x) →
      LoadRan t'.start t'.log n

/-- The law of single entries behind `Fenced`: each entry that begins a load is fine when its
load ran whole. -/
def loadsRanLaw : Law :=
  Law.ofEntries (fun x => ∃ s, Entry.begins s x = true) (fun W L n => LoadRan W L n)
    fun _ _ _ _ h hL => h.mono hL

namespace Fenced

variable {π : Path} {t t₀ t₁ t₂ t₃ : Traced}

theorem refl : Fenced π t t :=
  loadsRanLaw.refl π t

theorem trans (h₁ : Fenced π t₁ t₂) (h₂ : Fenced π t₂ t₃) : Fenced π t₁ t₃ :=
  loadsRanLaw.trans π t₁ t₂ t₃ [] [] h₁ h₂

/-- Other threads begin no load below `π`. -/
theorem rely (h : Fenced π t₁ t₂) (hR : Rely Traced.answer π t₂ t₃) : Fenced π t₁ t₃ :=
  loadsRanLaw.rely π t₁ t₂ t₃ [] h hR

theorem rely_left (hR : Rely Traced.answer π t₀ t₁) (h : Fenced π t₁ t₂) : Fenced π t₀ t₂ :=
  loadsRanLaw.rely_left π t₀ t₁ t₂ [] hR h

/-- The loads below a thread are those below its two halves, when it began none itself. -/
theorem join (h₁ : Fenced (π ++ [false]) t t₂) (h₂ : Fenced (π ++ [true]) t t₂)
    (hm : Moves Traced.answer (· ≠ π) t t₂) : Fenced π t t₂ :=
  loadsRanLaw.join π t t₂ [] [] h₁ h₂ hm

/-- One question that begins no load. -/
theorem answer {q : Command ⊕ Setup} (hq : ∀ s, Entry.begins s (π, q) = false) :
    Fenced π t (Traced.answer π q t).1 := by
  have h : loadsRanLaw.Good π t (Traced.answer π q t).1 [] :=
    Law.ofEntries_answer fun ⟨s, hs⟩ => Bool.false_ne_true ((hq s).symm.trans hs)
  exact h

theorem perform {c : Command} (hc : c.kind ≠ .beginLoad) : Fenced π t (t.perform π c) :=
  answer (Entry.begins_inl hc π)

end Fenced

theorem LoadEnd.not_begins {π : Path} {s : Selector} {t : Ticket} {current : Bool}
    {fin : List Entry} (h : LoadEnd π s t current fin) : ∀ x ∈ fin, ∀ s', Entry.begins s' x = false := by
  cases h <;> simp [Entry.begins]

/-- After taking its ticket, only the other threads' entries `mid` of a load may begin one. -/
theorem loadEntries_tail {π : Path} {s : Selector} {r : Request} {tk : Ticket}
    {mid fin : List Entry} {current : Bool} (hend : LoadEnd π s tk current fin) :
    ∀ x ∈ (loadEntries π s r tk mid fin).tail, x ∈ mid ∨ ∀ s', Entry.begins s' x = false := by
  intro x hx
  simp only [loadEntries, List.tail_cons, List.mem_cons, List.mem_append] at hx
  rcases hx with rfl | rfl | hx | rfl | hx
  · exact .inr fun _ => rfl
  · exact .inr fun _ => rfl
  · exact .inl hx
  · exact .inr fun _ => rfl
  · exact .inr (hend.not_begins x hx)

/-- A load done leaves its own load, and no other, fenced. -/
theorem LoadDone.fenced {π : Path} {s : Selector} {t t' : Traced} {res : Except Fault LoadOutcome}
    (h : LoadDone π s t t' res) : Fenced π t t' := by
  have hran := h.ran
  obtain ⟨r, mid, fin, current, hs, hl, hmid, hend, -, -⟩ := h
  refine ⟨hs, ⟨_, hl.symm⟩, fun n x hn hx hπ hb => ?_⟩
  rcases Nat.lt_or_ge t.log.length n with hlt | hle
  · -- past the ticket, the load begins nothing below its thread
    have hl' : t'.log = (t.log ++ [(π, .inl (.beginLoad s))]) ++
        (loadEntries π s r (t.world.generation s).begin.1 mid fin).tail := by
      rw [hl, List.append_assoc]
      rfl
    rw [hl'] at hx
    have hmem := mem_of_getElem?_append (by simp; omega) hx
    obtain ⟨s', hs'⟩ := hb
    rcases loadEntries_tail hend x hmem with hx' | hx'
    · exact absurd hπ (hmid x hx')
    · rw [hx' s'] at hs'
      exact absurd hs' Bool.false_ne_true
  · rw [show n = t.log.length by omega]
    exact hran

/-- `Fenced` as a law of what threads add to the log. -/
def fencedLaw : Law where
  Good π t t' _ := Fenced π t t'
  refl _ _ := Fenced.refl
  trans _ _ _ _ _ _ h₁ h₂ := h₁.trans h₂
  rely _ _ _ _ _ h hR := h.rely hR
  rely_left _ _ _ _ _ hR h := Fenced.rely_left hR h
  join _ _ _ _ _ h₁ h₂ hm := Fenced.join h₁ h₂ hm

section Tasks

variable (e : Endpoints) (π : Path) (t : Traced)

theorem fenced_loadNodes :
    WP Traced.answer (fun _ => True) π (Task.loadNodes e).widen t fun _ t' => Fenced π t t' :=
  wp_loadNodes.mpr ((load_done _ _ _ π _).mono fun _ _ h =>
    (Fenced.perform (by simp)).trans h.fenced)

theorem fenced_cascade (area : String) :
    WP Traced.answer (fun _ => True) π (Task.cascade e area).widen t fun _ t' => Fenced π t t' := by
  refine wp_cascade.mpr ((load_done _ _ _ π t).mono fun res t₁ h => ?_)
  cases res with
  | error f => exact h.fenced
  | ok outcome =>
    cases outcome with
    | superseded => exact h.fenced
    | applied n =>
      exact (fenced_loadNodes e π t₁).mono fun res' t₂ h' => by
        cases res' <;> exact h.fenced.trans h'

theorem fenced_loadCountries :
    WP Traced.answer (fun _ => True) π (Task.loadCountries e).widen t fun _ t' => Fenced π t t' :=
  wp_loadCountries.mpr ((fenced_cascade e π _ _).mono fun _ _ h =>
    (Fenced.perform (by simp)).trans h)

theorem fenced_setUp (c : PageConfig) :
    WP Traced.answer (fun _ => True) π (Task.setUp e c).widen t fun _ t' => Fenced π t t' := by
  refine wp_setUp.mpr ?_
  split
  · exact Fenced.refl
  · next path _ =>
    intro t₁ t₂
    have h₁ : Fenced π t t₁ := Fenced.perform (by simp)
    have h₂ : Fenced π t t₂ := by
      refine h₁.trans ?_
      simp only [t₂]
      split <;> exact Fenced.perform (by simp)
    split
    · exact (fenced_cascade e π _ _).mono fun _ _ h =>
        h₂.trans ((Fenced.perform (by simp)).trans h)
    · -- the two loads side by side, each fenced below its half
      refine (fencedLaw.both (fun _ => []) (fun _ => []) ?_ fun t₃ => ?_).mono
        fun _ _ ⟨_, _, _, h⟩ => h₂.trans h
      · exact (load_done _ _ _ _ t₂).mono fun _ _ h => h.fenced
      · exact (load_done _ _ _ _ t₃).mono fun _ _ h => h.fenced

/-- A task that asks only commands of kinds other than `beginLoad` keeps loads fenced. -/
theorem fenced_of_asks {ok : Command → Prop} (hok : ∀ c, ok c → c.kind ≠ .beginLoad) {α : Type}
    {p : Task α} (hp : Asks ok p) :
    WP Traced.answer (fun _ => True) π (p.widen : Script α) t fun _ t' => Fenced π t t' := by
  have h : WP Traced.answer (fun _ => True) π (p.widen : Script α) t fun _ t' =>
      loadsRanLaw.Good π t t' [] :=
    Law.ofEntries_task (fun ρ c hc ⟨s, hs⟩ =>
      Bool.false_ne_true ((Entry.begins_inl (hok c hc) ρ s).symm.trans hs)) hp
  exact h

end Tasks

theorem fenced_basic (e : Endpoints) : fencedLaw.Basic e where
  perform π t c hc := by
    rcases hc with ⟨s, cs, rfl⟩ | ⟨s, i, rfl⟩ <;> exact Fenced.perform (by simp)
  arrange π t a := Fenced.answer fun _ => rfl
  loadCountries π t := fenced_loadCountries e π t
  loadNodes π t := fenced_loadNodes e π t
  setUp π t c := fenced_setUp e π t c
  submit π t := fenced_of_asks π t (fun c hc hk => absurd (hk ▸ hc) (by decide))
    (Task.asks_submit e)
  fetch π t r := fenced_of_asks π t (fun c hc hk => absurd (hk ▸ hc) (by decide))
    (Task.asks_fetchChoices r)

/-- Every load begun in a step ran whole and fenced in the step's log. -/
theorem Session.loads_ran (e : Endpoints) (w : World) (op : Op) (n : Nat) (x : Entry)
    (hx : (Session.log e w op)[n]? = some x) (hb : ∃ s, Entry.begins s x) :
    LoadRan (Session.start w).start (Session.log e w op) n := by
  have h := Session.wp_step (Law.program (fenced_basic e) op [] (Session.start w))
  exact h.2.2 n x (Nat.zero_le _) hx (List.nil_prefix) hb

/-! ### What a step shows of each load -/

/-- What the log `L` of a step shows of the load of list `s` that the thread at `π` began at
entry `n`, when the list's count stood at `g` before the step. Its ticket is `g` advanced by the
loads of `s` begun up to it. Its entries follow, with only threads outside its subtree asking
while it waited (`mid`). It ends as `LoadEnd` says. With fewer than 2^64 loads of `s` begun
while it waited, it was found stale exactly when one of them began. A load found current ran
before every later load of `s` began, and the last load of `s` to begin is found current. -/
def LoadRun (g : Generation) (L : List Entry) (n : Nat) (π : Path) (s : Selector) : Prop :=
  let tk : Ticket := ⟨g.latest + UInt64.ofNat ((L.take (n + 1)).countP (Entry.begins s))⟩
  ∃ r mid fin current,
    loadEntries π s r tk mid fin <+: L.drop n ∧
    (∀ x ∈ mid, ¬ π <+: x.1) ∧
    LoadEnd π s tk current fin ∧
    (mid.countP (Entry.begins s) < 2 ^ 64 → (current = false ↔ ∃ x ∈ mid, Entry.begins s x)) ∧
    (current = true → mid.countP (Entry.begins s) < 2 ^ 64 →
      ∀ m x, n < m → L[m]? = some x → Entry.begins s x → n + (loadEntries π s r tk mid fin).length ≤ m) ∧
    ((∀ m x, n < m → L[m]? = some x → Entry.begins s x = false) → current = true)

section Positions

variable {L U : List Entry} {n m : Nat} {x : Entry}

theorem mem_of_prefix_drop (hU : U <+: L.drop n) (hn : n ≤ m) (hm : m < n + U.length)
    (hx : L[m]? = some x) : x ∈ U := by
  obtain ⟨V, hV⟩ := hU
  have h : (L.drop n)[m - n]? = some x := by
    rw [List.getElem?_drop, Nat.add_sub_cancel' hn]
    exact hx
  rw [← hV, List.getElem?_append_left (by omega)] at h
  exact List.mem_of_getElem? h

theorem prefix_drop_succ {a : Entry} (hU : a :: U <+: L.drop n) : U <+: L.drop (n + 1) := by
  obtain ⟨V, hV⟩ := hU
  exact ⟨V, by rw [← List.tail_drop, ← hV]; rfl⟩

theorem exists_getElem?_of_mem_drop (hx : x ∈ L.drop n) : ∃ m, n ≤ m ∧ L[m]? = some x := by
  obtain ⟨i, hi⟩ := List.mem_iff_getElem?.mp hx
  exact ⟨n + i, Nat.le_add_right n i, List.getElem?_drop ▸ hi⟩

end Positions

/-- A load's ticket is its list's count before the step advanced by the loads of the list begun
up to and including it. -/
theorem ticket_eq {W : World} {L : List Entry} {n : Nat} {x : Entry} {s : Selector}
    (hx : L[n]? = some x) (hb : Entry.begins s x) :
    ((W.replay (L.take n)).generation s).begin.1 =
      ⟨(W.generation s).latest + UInt64.ofNat ((L.take (n + 1)).countP (Entry.begins s))⟩ := by
  simp only [Generation.begin, World.replay_latest, List.take_add_one, hx, Option.toList_some,
    List.countP_append, List.countP_singleton, hb, if_true, UInt64.ofNat_add, UInt64.ofNat_one]
  ac_rfl

/-- A load that ran whole in a log is seen there as `LoadRun` says. -/
theorem LoadRan.run {W : World} {L : List Entry} {n : Nat} {π : Path} {s : Selector}
    (h : LoadRan W L n) (hn : L[n]? = some (π, .inl (.beginLoad s))) :
    LoadRun (W.generation s) L n π s := by
  obtain ⟨π', s', r, mid, fin, current, hpre, hmid, hend, hcur⟩ := h
  -- the load that ran is the one begun at entry `n`
  have hhead : (some (π', .inl (.beginLoad s')) : Option Entry) = some (π, .inl (.beginLoad s)) := by
    obtain ⟨V, hV⟩ := hpre
    rw [← hn, ← Nat.add_zero n, ← List.getElem?_drop, ← hV]
    rfl
  simp only [Option.some.injEq, Prod.mk.injEq, Sum.inl.injEq, Command.beginLoad.injEq] at hhead
  obtain ⟨rfl, rfl⟩ := hhead
  have hb : Entry.begins s' (π', .inl (.beginLoad s')) := by simp [Entry.begins]
  rw [ticket_eq hn hb] at hpre hend
  have htail := prefix_drop_succ hpre
  refine ⟨r, mid, fin, current, hpre, hmid, hend, fun hlt => ?_, fun hc hlt => ?_, fun hlast => ?_⟩
  · rw [Nat.mod_eq_of_lt hlt] at hcur
    rw [← List.countP_pos_iff, Nat.pos_iff_ne_zero, Bool.eq_false_iff, Ne, Ne, hcur]
  · -- found current with fewer than 2^64 loads begun meanwhile, it saw none begin
    have hnone : ∀ y ∈ mid, Entry.begins s' y = false := by
      rw [hcur, Nat.mod_eq_of_lt hlt, List.countP_eq_zero] at hc
      exact fun y hy => Bool.eq_false_iff.mpr (hc y hy)
    intro m x hm hx hbx
    refine Nat.le_of_not_lt fun hlt' => ?_
    have hx' := mem_of_prefix_drop htail hm (by simp [loadEntries] at hlt' ⊢; omega) hx
    have hfalse : Entry.begins s' x = false := by
      rcases loadEntries_tail hend x hx' with hy | hy
      · exact hnone x hy
      · exact hy s'
    rw [hfalse] at hbx
    exact absurd hbx Bool.false_ne_true
  · -- every load of the list begun while it waited began after it
    have hzero : mid.countP (Entry.begins s') = 0 := by
      rw [List.countP_eq_zero]
      intro y hy
      have hy' : y ∈ L.drop (n + 1) := htail.subset (by simp [hy])
      obtain ⟨m, hm, hym⟩ := exists_getElem?_of_mem_drop hy'
      rw [hlast m y (by omega) hym]
      exact Bool.false_ne_true
    rw [hcur, hzero, Nat.zero_mod]

/-- A cascade whose country load is found stale stops there: it begins no node load. -/
theorem cascade_stops (e : Endpoints) (area : String) (π : Path) (t : Traced) :
    WP Traced.answer (fun _ => True) π (Task.cascade e area).widen t fun res t' =>
      ∃ t₁ res₁, LoadDone π .country t t₁ res₁ ∧
        (res₁ = .ok .superseded → t' = t₁ ∧ res = .ok .superseded) := by
  refine wp_cascade.mpr ((load_done _ _ _ π t).mono fun res₁ t₁ h => ?_)
  cases res₁ with
  | error f => exact ⟨t₁, _, h, fun h' => nomatch h'⟩
  | ok o =>
    cases o with
    | superseded => exact ⟨t₁, _, h, fun _ => ⟨rfl, rfl⟩⟩
    | applied k =>
      have htriv : WP Traced.answer (fun _ => True) π (Task.loadNodes e).widen t₁
          fun _ _ => True := WP.triv
      exact htriv.mono fun res' _ _ => by
        cases res' <;> exact ⟨t₁, _, h, fun h' => nomatch h'⟩

/-- Loads of a list supersede each other by their tickets. Every load, in any thread and
whatever the other threads do, runs as `LoadDone` says and reports itself superseded exactly
when it was found stale; a cascade whose country load was found stale stops; and in every step
of a session each load begun is seen in the step's log as `LoadRun` says. -/
theorem Session.loads_supersede (e : Endpoints) :
    (∀ s r pre π t, WP Traced.answer (fun _ => True) π (Task.load s r pre).widen t
      fun res t' => LoadDone π s t t' res) ∧
    (∀ area π t, WP Traced.answer (fun _ => True) π (Task.cascade e area).widen t
      fun res t' => ∃ t₁ res₁, LoadDone π .country t t₁ res₁ ∧
        (res₁ = .ok .superseded → t' = t₁ ∧ res = .ok .superseded)) ∧
    ∀ w op n π s, (Session.log e w op)[n]? = some (π, .inl (.beginLoad s)) →
      LoadRun (w.generation s) (Session.log e w op) n π s := by
  refine ⟨load_done, cascade_stops e, fun w op n π s hn => ?_⟩
  have h := (Session.loads_ran e w op n _ hn ⟨s, by simp [Entry.begins]⟩).run hn
  have hg : (Session.start w).start.generation s = w.generation s := by cases s <;> rfl
  rwa [hg] at h

/-- Two node loads side by side, each waiting a round for its answer (the country value is empty,
and requests with it take a round). The second begins while the first waits, so the first is found
stale and reports itself superseded with its ticket 1; both run as `LoadRun` says. -/
theorem Session.second_node_load_supersedes_first :
    let w := (Session.step {} {} (.delay "" 1)).1
    let L := Session.log {} w (.join [[.loadNodes], [.loadNodes]])
    L[1]? = some ([false], .inl (.beginLoad .node)) ∧ LoadRun (w.generation .node) L 1 [false] .node ∧
      L[5]? = some ([true, false], .inl (.beginLoad .node)) ∧
      LoadRun (w.generation .node) L 5 [true, false] .node ∧
      L[9]? = some ([false], .inl (.record (.superseded .node ⟨1⟩))) :=
  ⟨rfl, (Session.loads_supersede {}).2.2 _ _ 1 [false] .node rfl, rfl,
    (Session.loads_supersede {}).2.2 _ _ 5 [true, false] .node rfl, rfl⟩

end NodeSwitcher
