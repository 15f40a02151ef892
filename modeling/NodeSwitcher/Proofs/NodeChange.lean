import NodeSwitcher.Proofs.Tasks
/-!
# What a submission does

A submission reads the selected node value. A value of blanks only, the empty text included, is
refused at once: the submission alerts and ends, with no other thread between. Any other value is
sent as it is in one change request, with the loading indicator shown just before and hidden once
the answer arrived; the answer decides the rest (`changeEnd`): a status of exactly 200 reloads the
page, any other status alerts the body as it came, and a request that did not reach the server
alerts a fixed text.

* `submit_span`: the entries a submission adds to the log, in any thread and whatever the other
  threads do while it waits, and its outcome;
* `Command.keepsLists_of_submitKind`: no command a submission uses touches a list, its error
  marker or its load count;
* `submit_checks_then_sends`: all of it, in the terms of the outcome.
-/

namespace NodeSwitcher

open Program

/-- A command that leaves every list, its error marker and its load count as they were. -/
def Command.KeepsLists (c : Command) : Prop :=
  ∀ (w : World) (s : Selector), (w.perform c).1.page.list s = w.page.list s ∧
    (w.perform c).1.page.error s = w.page.error s ∧ (w.perform c).1.generation s = w.generation s

/-- Reading the node, showing or hiding the indicator, alerting, reloading, sending and recording
keep every list, marker and load count. -/
theorem Command.keepsLists_of_submitKind {c : Command} (h : c.kind ∈ submitKinds) :
    c.KeepsLists := by
  intro w s
  cases c <;> simp [submitKinds] at h <;> cases s <;>
    simp [World.perform, Page.setLoading, Page.alert, Page.reload, Page.list, Page.error,
      World.generation]

/-- How a submission ends once the answer `a` to its change request arrived: its outcome and the
command it ends with. -/
def changeEnd : Except Fault Response → SubmitOutcome × Command
  | .ok r => if r.status = 200 then (.reloaded, .reload) else (.refused r.status r.body, .alert r.body)
  | .error f => (.failed f, .alert submitFailedMessage)

/-- The event a submission of `node` reports once the answer `a` arrived. -/
def changeEvent (node : String) : Except Fault Response → Event
  | .ok r => if r.status = 200 then .nodeChanged node else .changeRefused node r.status
  | .error f => .changeFailed node f

/-- The entries of thread `π` for commands `cs`, in order. -/
def ownEntries (π : Path) (cs : List Command) : List Entry :=
  cs.map fun c => (π, .inl c)

/-- A submission at thread `π`, run from `t` to `t'` with outcome `o`. It read the node value `v`
of `t`. A value of blanks only it refused with an alert, and nothing ran in between. Any other
value it sent in a change request, showing the indicator just before; while it waited only threads
outside its subtree asked, `mid`; then it hid the indicator, reported the answer of `t`'s server to
the request and ended as `changeEnd` says. -/
def SubmitSpan (e : Endpoints) (π : Path) (t t' : Traced) (o : SubmitOutcome) : Prop :=
  let v := (t.world.page.list .node).selectedValue
  let a := t.world.server.answer (e.changeRequest v)
  t'.start = t.start ∧
  if Text.allBlank v then
    o = .rejected ∧ t'.log = t.log ++ ownEntries π [.selectedValue .node, .alert selectNodeMessage]
  else
    ∃ mid, (∀ x ∈ mid, ¬ π <+: x.1) ∧ o = (changeEnd a).1 ∧
      t'.log = t.log ++ ownEntries π [.selectedValue .node, .setLoading true,
        .send (e.changeRequest v)] ++ mid ++
        ownEntries π [.setLoading false, .record (changeEvent v a), (changeEnd a).2]

/-- Every submission runs as `SubmitSpan` says, whatever the other threads do. -/
theorem submit_span (e : Endpoints) (π : Path) (t : Traced) :
    WP Traced.answer (fun _ => True) π (Task.submit e).widen t fun o t' => SubmitSpan e π t t' o := by
  refine wp_submit.mpr ?_
  dsimp only
  split
  · next hblank => exact ⟨rfl, by simp [hblank, ownEntries]⟩
  · next hblank =>
    refine Await.of_rely trivial fun t' hR => ?_
    obtain ⟨mid, hs, hl, hmid⟩ := Traced.moves hR
    -- whatever the answer, the end is three commands of its own after the wait
    have hend : ∀ (ev : Event) (c : Command) (o : SubmitOutcome),
        ev = changeEvent (t.world.page.list .node).selectedValue
          (t.world.server.answer (e.changeRequest (t.world.page.list .node).selectedValue)) →
        c = (changeEnd (t.world.server.answer
          (e.changeRequest (t.world.page.list .node).selectedValue))).2 →
        o = (changeEnd (t.world.server.answer
          (e.changeRequest (t.world.page.list .node).selectedValue))).1 →
        SubmitSpan e π t ((t'.perform π (.setLoading false)).performAll π [.record ev, c]) o := by
      rintro ev c o rfl rfl rfl
      refine ⟨by simp [hs], ?_⟩
      rw [if_neg hblank]
      exact ⟨mid, hmid, rfl, by simp [Traced.performAll_cons, hl, ownEntries, List.append_assoc]⟩
    split
    · next r hr =>
      split
      · next h200 =>
        exact hend _ _ _ (by simp [changeEvent, hr, h200]) (by simp [changeEnd, hr, h200])
          (by simp [changeEnd, hr, h200])
      · next h200 =>
        exact hend _ _ _ (by simp [changeEvent, hr, h200]) (by simp [changeEnd, hr, h200])
          (by simp [changeEnd, hr, h200])
    · next f hf =>
      exact hend _ _ _ (by simp [changeEvent, hf]) (by simp [changeEnd, hf]) (by simp [changeEnd, hf])

/-- Every command in a submission's own entries keeps the lists, markers and load counts. -/
theorem SubmitSpan.keepsLists {e : Endpoints} {π : Path} {t t' : Traced} {o : SubmitOutcome}
    (h : SubmitSpan e π t t' o) :
    ∀ x ∈ t'.log.drop t.log.length, x.1 = π → ∀ c, x.2 = .inl c → c.KeepsLists := by
  obtain ⟨-, h⟩ := h
  -- every own command is of a kind a submission uses
  have hkinds : ∀ (cs : List Command), (∀ c ∈ cs, c.kind ∈ submitKinds) →
      ∀ x ∈ ownEntries π cs, ∀ c, x.2 = .inl c → c.KeepsLists := by
    intro cs hcs x hx c hc
    obtain ⟨c', hc', rfl⟩ := List.mem_map.mp hx
    cases hc
    exact Command.keepsLists_of_submitKind (hcs c hc')
  split at h
  · obtain ⟨-, hl⟩ := h
    intro x hx _
    rw [hl, List.drop_left] at hx
    exact hkinds _ (by simp [submitKinds]) x hx
  · obtain ⟨mid, hmid, -, hl⟩ := h
    intro x hx hπ
    rw [hl, List.append_assoc, List.append_assoc, List.drop_left] at hx
    rcases List.mem_append.mp hx with hx | hx
    · exact hkinds _ (by simp [submitKinds]) x hx
    rcases List.mem_append.mp hx with hx | hx
    · exact absurd (hπ ▸ List.prefix_refl x.1) (hmid x hx)
    · refine hkinds _ ?_ x hx
      intro c hc
      simp only [List.mem_cons, List.not_mem_nil, or_false] at hc
      rcases hc with rfl | rfl | rfl
      · simp [submitKinds]
      · simp [submitKinds]
      · unfold changeEnd
        split
        · split <;> simp [submitKinds]
        · simp [submitKinds]

/-- A submission, in any thread, for every selected node value `v` and every answer of the server,
whatever the other threads do while it waits. It is refused exactly when `v` is blanks only (the
empty text included; U+200B and U+FEFF are not blanks): it then only alerts that a node must be
selected, sends nothing and leaves the indicator alone. Otherwise it sends one change request,
`POST` to the change path with the query `id` and `v` as it is, shows the indicator just before
and hides it once the answer arrived; it reloads, with no alert, exactly after a status of 200;
after any other status it is refused with that status and the body, which it alerts as it came;
when the request did not reach the server it fails with that fault and alerts a fixed text. No
command it performs touches a list, an error marker or a load count. -/
theorem submit_checks_then_sends (e : Endpoints) (π : Path) (t : Traced) :
    Text.isBlank '\u200B' = false ∧ Text.isBlank '\uFEFF' = false ∧
    WP Traced.answer (fun _ => True) π (Task.submit e).widen t fun o t' =>
      let v := (t.world.page.list .node).selectedValue
      t'.start = t.start ∧
      (o = .rejected ↔ ∀ c ∈ v.toList, Text.isBlank c = true) ∧
      ((∀ c ∈ v.toList, Text.isBlank c = true) →
        t'.log = t.log ++ ownEntries π [.selectedValue .node, .alert selectNodeMessage]) ∧
      ((∃ c ∈ v.toList, Text.isBlank c = false) → ∃ mid ev last, (∀ x ∈ mid, ¬ π <+: x.1) ∧
        t'.log = t.log ++ ownEntries π [.selectedValue .node, .setLoading true,
          .send ⟨.post, e.change, [("id", v)]⟩] ++ mid ++
          ownEntries π [.setLoading false, .record ev, last] ∧
        match t.world.server.answer ⟨.post, e.change, [("id", v)]⟩ with
        | .ok r => if r.status = 200 then o = .reloaded ∧ last = .reload
          else o = .refused r.status r.body ∧ last = .alert r.body
        | .error f => o = .failed f ∧ last = .alert submitFailedMessage) ∧
      ∀ x ∈ t'.log.drop t.log.length, x.1 = π → ∀ c, x.2 = .inl c → c.KeepsLists := by
  refine ⟨by decide, by decide, (submit_span e π t).mono fun o t' h => ?_⟩
  have hframe := h.keepsLists
  obtain ⟨hs, h⟩ := h
  dsimp only at h ⊢
  have hblank : Text.allBlank (t.world.page.list .node).selectedValue = true ↔
      ∀ c ∈ (t.world.page.list .node).selectedValue.toList, Text.isBlank c = true := by
    simp [Text.allBlank]
  split at h
  · next hb =>
    obtain ⟨ho, hl⟩ := h
    refine ⟨hs, ⟨fun _ => hblank.mp hb, fun _ => ho⟩, fun _ => hl, fun ⟨c, hc, hnc⟩ => ?_, hframe⟩
    exact absurd (hblank.mp hb c hc) (by simp [hnc])
  · next hb =>
    obtain ⟨mid, hmid, ho, hl⟩ := h
    -- an outcome of the answer is never a refusal for want of a node
    have hnot : (changeEnd (t.world.server.answer
        (e.changeRequest (t.world.page.list .node).selectedValue))).1 ≠ .rejected := by
      unfold changeEnd
      split
      · split <;> simp
      · simp
    refine ⟨hs, ⟨fun hr => absurd (ho ▸ hr) hnot, fun h' => absurd (hblank.mpr h') hb⟩,
      fun h' => absurd (hblank.mpr h') hb, fun _ => ⟨mid, _, _, hmid, hl, ?_⟩, hframe⟩
    rw [ho]
    -- the change request is the `POST` the statement names
    have hreq : e.changeRequest (t.world.page.list .node).selectedValue =
        ⟨.post, e.change, [("id", (t.world.page.list .node).selectedValue)]⟩ := rfl
    rw [hreq]
    cases t.world.server.answer ⟨.post, e.change, [("id", (t.world.page.list .node).selectedValue)]⟩ with
    | ok r => by_cases h200 : r.status = 200 <;> simp [changeEnd, h200]
    | error f => simp [changeEnd]

end NodeSwitcher
