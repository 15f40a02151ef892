import Mathlib
import NodeSwitcher.Proofs.Feedback
/-!
# Overlapping submissions and the loading indicator

The loading indicator is one flag, not a count of the submissions on their way. A submission
shows it before sending its change request and hides it as soon as the answer comes, so while
two submissions overlap, the first to be answered hides it although the other still waits.

`Session.hides_answered` says that the indicator is hidden only by a submission that has just
received the answer to its change request: in every step's log, each entry that hides it is
preceded, in its thread, by the sending of a change request. It is a law of single entries
(`Law.ofEntries`), carried through every operation by `Law.program`. Every scheduling point
sees a prefix of the step's log (`Session.pauses_prefix`), so `Session.indicator_while_waiting`
follows: at a scheduling point at which a thread waits for the answer to the request it sent
right after showing the indicator, the indicator is hidden only if another submission received
its answer since then. `Session.indicator_hidden_while_waiting` gives a session where that
happens.
-/

namespace NodeSwitcher

open Program

/-! ### Scheduling points see a prefix of the step's log -/

section Prefix

variable {α : Type} (π : Path)

/-- A round only adds to the log. -/
theorem Traced.pollAt_grows (t : Traced) (p : Script α) :
    t.log <+: (pollAt Traced.answer π t p).1.log := by
  have h : WP Traced.answer (fun _ => True) π p t fun _ _ => True := WP.triv
  obtain ⟨U, -, hl, -⟩ := Traced.moves h.pollAt.1
  exact ⟨U, hl.symm⟩

theorem Traced.runAt_grows (n : Nat) :
    ∀ (t : Traced) (p : Script α), t.log <+: (runAt Traced.answer π n t p).1.log := by
  induction n with
  | zero => intro t p; exact List.prefix_refl _
  | succ n ih =>
    intro t p
    have hg := Traced.pollAt_grows π t p
    rcases hp : pollAt Traced.answer π t p with ⟨t', s⟩
    rw [hp] at hg
    cases s with
    | inl a => simpa [runAt, hp] using hg
    | inr rest =>
      simp only [runAt, hp]
      exact hg.trans (ih t' rest)

/-- The log at each scheduling point of a run is a prefix of the log at its end. -/
theorem Traced.pausesAt_prefix (n : Nat) :
    ∀ (t : Traced) (p : Script α), ∀ t' ∈ pausesAt Traced.answer π n t p,
      t'.log <+: (runAt Traced.answer π n t p).1.log := by
  induction n with
  | zero => intro t p t' ht'; simp [pausesAt] at ht'
  | succ n ih =>
    intro t p t' ht'
    rcases hp : pollAt Traced.answer π t p with ⟨t₁, s⟩
    cases s with
    | inl a => simp [pausesAt, hp] at ht'
    | inr rest =>
      simp only [pausesAt, hp, List.mem_cons] at ht'
      simp only [runAt, hp]
      rcases ht' with rfl | ht'
      · exact Traced.runAt_grows π n t' rest
      · exact ih t₁ rest t' ht'

end Prefix

theorem Session.pauses_prefix (e : Endpoints) (w : World) (op : Op) :
    ∀ t ∈ Session.pauses e w op, t.log <+: Session.log e w op :=
  Traced.pausesAt_prefix [] _ _ _

/-! ### The indicator is hidden only by an answered submission -/

/-- The entry at `n` of the log `L` hides the indicator, and the last thing its thread did before
was to send a change request: it has just received the answer. -/
def HideAnswered (e : Endpoints) (L : List Entry) (n : Nat) : Prop :=
  ∃ ρ node, L[n]? = some (ρ, .inl (.setLoading false)) ∧
    ((L.take n).filter (·.1 = ρ)).getLast? = some (ρ, .inl (.send (e.changeRequest node)))

theorem HideAnswered.mono {e : Endpoints} {L L' : List Entry} {n : Nat} (h : HideAnswered e L n)
    (hL : L <+: L') : HideAnswered e L' n := by
  obtain ⟨ρ, node, hx, hlast⟩ := h
  obtain ⟨V, rfl⟩ := hL
  have hn : n < L.length := (List.getElem?_eq_some_iff.mp hx).1
  refine ⟨ρ, node, ?_, ?_⟩
  · rw [List.getElem?_append_left hn]
    exact hx
  · rw [List.take_append_of_le_length (Nat.le_of_lt hn)]
    exact hlast

/-- Every entry that hides the indicator, added at or below a thread, was an answered
submission's. -/
def hideLaw (e : Endpoints) : Law :=
  Law.ofEntries (fun x => x.2 = .inl (.setLoading false)) (fun _ L n => HideAnswered e L n)
    fun _ _ _ _ h hL => h.mono hL

section Operations

variable (e : Endpoints) (π : Path) (t : Traced)

theorem hide_performAll (cs : List Command) (hcs : ∀ c ∈ cs, c ≠ .setLoading false) :
    ∀ (t : Traced), (hideLaw e).Good π t (t.performAll π cs) [] := by
  induction cs with
  | nil => exact fun t => (hideLaw e).refl π t
  | cons c cs ih =>
    intro t
    have hc : (hideLaw e).Good π t (t.perform π c) [] :=
      Law.ofEntries_answer fun h => hcs c List.mem_cons_self (Sum.inl.inj h)
    exact (hideLaw e).trans π _ _ _ [] [] hc (ih (fun c' hc' => hcs c' (List.mem_cons_of_mem c hc')) _)

/-- A submission hides the indicator only right after the answer to its change request. -/
theorem hide_submit :
    WP Traced.answer (fun _ => True) π (Task.submit e).widen t fun _ t' =>
      (hideLaw e).Good π t t' [] := by
  refine wp_submit.mpr ?_
  dsimp only
  split
  · exact hide_performAll e π [.selectedValue .node, .alert selectNodeMessage] (by simp) t
  · refine Await.of_rely trivial fun t' hR => ?_
    -- it read the node, showed the indicator and sent; other threads moved meanwhile
    have h₁ := (hideLaw e).rely π _ _ t' [] (hide_performAll e π
      [.selectedValue .node, .setLoading true,
        .send (e.changeRequest (t.world.page.list .node).selectedValue)] (by simp) t) hR
    obtain ⟨mid, -, hl, hmid⟩ := Traced.moves hR
    -- the hide follows its own send, as the other threads added nothing of its own
    have h₂ : (hideLaw e).Good π t' (t'.perform π (.setLoading false)) [] := by
      refine Law.ofEntries_fine ⟨π, (t.world.page.list .node).selectedValue, by simp, ?_⟩
      have hmid' : mid.filter (·.1 = π) = [] :=
        List.filter_eq_nil_iff.mpr fun x hx hπ => hmid x hx (of_decide_eq_true hπ ▸ List.prefix_refl _)
      rw [List.take_left' rfl, hl, List.filter_append, hmid', List.append_nil]
      simp
    have hdone : ∀ cs, (∀ c ∈ cs, c ≠ .setLoading false) →
        (hideLaw e).Good π t ((t'.perform π (.setLoading false)).performAll π cs) [] :=
      fun cs hcs => (hideLaw e).trans π _ _ _ [] [] ((hideLaw e).trans π _ _ _ [] [] h₁ h₂)
        (hide_performAll e π cs hcs _)
    split
    · split
      · exact hdone _ (by simp)
      · exact hdone _ (by simp)
    · exact hdone _ (by simp)

end Operations

theorem not_hides_of_quiet (ρ : Path) (c : Command) (hc : c.kind.shows = false) :
    ¬ (ρ, Sum.inl c).2 = (.inl (.setLoading false) : Command ⊕ Setup) := fun h => by
  rw [Sum.inl.inj h] at hc
  exact absurd hc (by decide)

theorem hide_basic (e : Endpoints) : (hideLaw e).Basic e where
  perform π t c hc := Law.ofEntries_answer (by rcases hc with ⟨s, cs, rfl⟩ | ⟨s, i, rfl⟩ <;> simp)
  arrange π t a := Law.ofEntries_answer (by simp)
  loadCountries π t := Law.ofEntries_task not_hides_of_quiet (Task.asks_quiet e).1
  loadNodes π t := Law.ofEntries_task not_hides_of_quiet (Task.asks_quiet e).2.1
  setUp π t c := Law.ofEntries_task not_hides_of_quiet ((Task.asks_quiet e).2.2.1 c)
  submit π t := hide_submit e π t
  fetch π t r := Law.ofEntries_task not_hides_of_quiet ((Task.asks_quiet e).2.2.2 r)

/-- In every step's log, the indicator is hidden only by a submission that has just received the
answer to its change request. -/
theorem Session.hides_answered (e : Endpoints) (w : World) (op : Op) (n : Nat) (x : Entry)
    (hx : (Session.log e w op)[n]? = some x) (hh : x.2 = .inl (.setLoading false)) :
    HideAnswered e (Session.log e w op) n :=
  (Session.wp_step (Law.program (hide_basic e) op [] (Session.start w))).2.2 n x
    (Nat.zero_le _) hx List.nil_prefix hh

/-! ### While a submission waits -/

theorem Entry.hides_of_indicator {x : Entry} (h : x.indicator? = some false) :
    x = (x.1, .inl (.setLoading false)) := by
  obtain ⟨ρ, c | a⟩ := x
  · cases c <;> simp_all [Entry.indicator?]
  · simp [Entry.indicator?] at h

/-- Once a thread has shown the indicator, it is hidden only if an entry after that hid it. -/
theorem hidden_after_shown {W : World} {A B : List Entry} {π : Path} {r : Request}
    (h : (W.replay (A ++ (π, .inl (.setLoading true)) :: (π, .inl (.send r)) :: B)).page.loading =
      false) :
    ∃ x ∈ B, x.indicator? = some false := by
  rw [World.replay_loading] at h
  have hshown : (A ++ (π, .inl (.setLoading true)) :: (π, .inl (.send r)) :: B).filterMap
      Entry.indicator? = A.filterMap Entry.indicator? ++ true :: B.filterMap Entry.indicator? := by
    have hsend : Entry.indicator? (π, .inl (.send r)) = none := rfl
    have hshow : Entry.indicator? (π, .inl (.setLoading true)) = some true := rfl
    simp [hsend, hshow]
  rw [hshown, List.getLast?_append, List.getLast?_cons] at h
  -- the last change of the indicator is among `B`'s, and it hid the indicator
  cases hB : (B.filterMap Entry.indicator?).getLast? with
  | none => simp [hB] at h
  | some b =>
    simp only [hB, Option.getD_some, Option.some_or, Option.getD_some] at h
    rw [h] at hB
    obtain ⟨ys, hys⟩ := List.getLast?_eq_some_iff.mp hB
    have hmem : false ∈ B.filterMap Entry.indicator? := by simp [hys]
    obtain ⟨x, hx, hxi⟩ := List.mem_filterMap.mp hmem
    exact ⟨x, hx, hxi⟩

/-- While a submission waits for the answer to its change request, the indicator stays shown
unless another submission received its answer since the first showed it. At a scheduling point of
a step, if the thread at `π` showed the indicator, sent `r` and has asked nothing since (`B`
holds the other threads' entries after it), and the indicator is hidden, then a thread `ρ` other
than `π` hid it after that, right after sending a change request of its own. -/
theorem Session.indicator_while_waiting (e : Endpoints) (w : World) (op : Op) :
    ∀ t ∈ Session.pauses e w op, ∀ π r A B,
      t.log = A ++ (π, .inl (.setLoading true)) :: (π, .inl (.send r)) :: B →
      (∀ x ∈ B, x.1 ≠ π) → t.world.page.loading = false →
      ∃ B₁ ρ B₂ node, B = B₁ ++ (ρ, .inl (.setLoading false)) :: B₂ ∧ ρ ≠ π ∧
        ((A ++ (π, .inl (.setLoading true)) :: (π, .inl (.send r)) :: B₁).filter
          (·.1 = ρ)).getLast? = some (ρ, .inl (.send (e.changeRequest node))) := by
  intro t ht π r A B hlog hB hoff
  simp only [Traced.world, hlog] at hoff
  obtain ⟨x, hxB, hxi⟩ := hidden_after_shown hoff
  obtain ⟨B₁, B₂, rfl⟩ := List.append_of_mem hxB
  obtain ⟨ρ, q⟩ := x
  have hq : q = .inl (.setLoading false) := (Prod.mk.inj (Entry.hides_of_indicator hxi)).2
  subst hq
  -- the hide stands at the same place in the step's log, where it follows a change request
  set P := A ++ (π, .inl (.setLoading true)) :: (π, .inl (.send r)) :: B₁ with hP
  have hsplit : t.log = P ++ (ρ, .inl (.setLoading false)) :: B₂ := by simp [hlog, hP]
  obtain ⟨V, hV⟩ := Session.pauses_prefix e w op t ht
  have hLn : (Session.log e w op)[P.length]? = some (ρ, .inl (.setLoading false)) := by
    rw [← hV, List.getElem?_append_left (by rw [hsplit]; simp), hsplit]
    simp
  have htake : (Session.log e w op).take P.length = P := by
    rw [← hV, hsplit, List.append_assoc, List.take_left' rfl]
  obtain ⟨ρ', node, hx', hlast⟩ := Session.hides_answered e w op P.length _ hLn rfl
  rw [hLn] at hx'
  obtain rfl : ρ = ρ' := (Prod.mk.inj (Option.some.inj hx')).1
  refine ⟨B₁, ρ, B₂, node, rfl, hB (ρ, .inl (.setLoading false)) (by simp), ?_⟩
  rw [htake] at hlast
  exact hlast

/-- Two submissions side by side, of nodes `n1` and `n2`, answered after two rounds and one. At
the scheduling point after the second is answered, the first has shown the indicator and sent its
request, the second has since been answered and hid the indicator. -/
theorem overlapping_submits_pause :
    ∃ t ∈ Session.pauses {}
        ([Op.setOptions .node [⟨"n1", "N1"⟩, ⟨"n2", "N2"⟩],
          .script "/change" none (.answer ⟨200, ""⟩), .delay "n1" 2, .delay "n2" 1].foldl
          (fun w op => (Session.step {} w op).1) {})
        (.join [[.submit], [.selectValue .node "n2", .submit]]),
      t.log = [([false], .inl (.selectedValue .node))] ++ ([false], .inl (.setLoading true)) ::
          ([false], .inl (.send (({} : Endpoints).changeRequest "n1"))) ::
          [([true, false], .inr (.selectValue .node "n2")),
            ([true, false], .inl (.selectedValue .node)), ([true, false], .inl (.setLoading true)),
            ([true, false], .inl (.send (({} : Endpoints).changeRequest "n2"))),
            ([true, false], .inl (.setLoading false)),
            ([true, false], .inl (.record (.nodeChanged "n2"))), ([true, false], .inl .reload)] ∧
        t.world.page.loading = false :=
  ⟨_, List.getElem_mem (by decide : 1 < (Session.pauses {} _ _).length), rfl, rfl⟩

/-- The indicator can be hidden while a submission waits: in the session of
`overlapping_submits_pause`, the first submission still waits for its answer and the indicator is
hidden. -/
theorem Session.indicator_hidden_while_waiting :
    ∃ t ∈ Session.pauses {}
        ([Op.setOptions .node [⟨"n1", "N1"⟩, ⟨"n2", "N2"⟩],
          .script "/change" none (.answer ⟨200, ""⟩), .delay "n1" 2, .delay "n2" 1].foldl
          (fun w op => (Session.step {} w op).1) {})
        (.join [[.submit], [.selectValue .node "n2", .submit]]),
      ∃ A B, t.log = A ++ ([false], .inl (.setLoading true)) ::
          ([false], .inl (.send (({} : Endpoints).changeRequest "n1"))) :: B ∧
        (∀ x ∈ B, x.1 ≠ [false]) ∧ t.world.page.loading = false := by
  obtain ⟨t, ht, hlog, hoff⟩ := overlapping_submits_pause
  exact ⟨t, ht, _, _, hlog, by decide, hoff⟩

/-- In the session of `overlapping_submits_pause`, the submission of `n2` hid the indicator right
after the answer to its own change request. -/
theorem Session.overlap_hidden_by_answer :
    ∃ t ∈ Session.pauses {}
        ([Op.setOptions .node [⟨"n1", "N1"⟩, ⟨"n2", "N2"⟩],
          .script "/change" none (.answer ⟨200, ""⟩), .delay "n1" 2, .delay "n2" 1].foldl
          (fun w op => (Session.step {} w op).1) {})
        (.join [[.submit], [.selectValue .node "n2", .submit]]),
      ∃ A B, t.log = A ++ ([false], .inl (.setLoading true)) ::
          ([false], .inl (.send (({} : Endpoints).changeRequest "n1"))) :: B ∧
        (∀ x ∈ B, x.1 ≠ [false]) ∧ t.world.page.loading = false ∧
        ∃ B₁ ρ B₂ node, B = B₁ ++ (ρ, .inl (.setLoading false)) :: B₂ ∧ ρ ≠ [false] ∧
          ((A ++ ([false], .inl (.setLoading true)) ::
            ([false], .inl (.send (({} : Endpoints).changeRequest "n1"))) :: B₁).filter
              (·.1 = ρ)).getLast? = some (ρ, .inl (.send (({} : Endpoints).changeRequest node))) := by
  obtain ⟨t, ht, hlog, hoff⟩ := overlapping_submits_pause
  exact ⟨t, ht, _, _, hlog, by decide, hoff,
    Session.indicator_while_waiting _ _ _ t ht _ _ _ _ hlog (by decide) hoff⟩

end NodeSwitcher
