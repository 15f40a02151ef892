import NodeSwitcher.Proofs.Tasks
/-!
# What operations add to the log

A session's operation runs as a thread, and joins run lists of operations side by side as
threads below it. A `Law` is a property of what a thread adds to the log between two traced
worlds, given the submissions it made, that holds of nothing, composes one after another and
side by side, and is not disturbed by other threads. `Law.program` lifts it from the single
operations to every operation: whatever the nesting of joins and the interleaving of threads,
an operation at thread `π` adds to the log what the law allows for the submissions its outcome
reports (`Outcome.submits`).
-/

namespace NodeSwitcher

open Program

mutual

/-- The submissions an outcome reports, nested ones included, in order. -/
def Outcome.submits : Outcome → List SubmitOutcome
  | .submitted o => [o]
  | .joined rss => Outcome.branchSubmits rss
  | _ => []

/-- The submissions a list of outcomes reports. -/
def Outcome.listSubmits : List Outcome → List SubmitOutcome
  | [] => []
  | r :: rs => r.submits ++ Outcome.listSubmits rs

/-- The submissions lists of outcomes report. -/
def Outcome.branchSubmits : List (List Outcome) → List SubmitOutcome
  | [] => []
  | rs :: rss => Outcome.listSubmits rs ++ Outcome.branchSubmits rss

end

/-- A property `Good π t t' xs` of what the thread at `π` added to the log from `t` to `t'`,
having made the submissions `xs`: it holds of nothing, composes one after another and side by
side, and other threads do not disturb it. -/
structure Law where
  Good : Path → Traced → Traced → List SubmitOutcome → Prop
  refl : ∀ π t, Good π t t []
  trans : ∀ π t₁ t₂ t₃ xs ys, Good π t₁ t₂ xs → Good π t₂ t₃ ys → Good π t₁ t₃ (xs ++ ys)
  rely : ∀ π t₁ t₂ t₃ xs, Good π t₁ t₂ xs → Rely Traced.answer π t₂ t₃ → Good π t₁ t₃ xs
  rely_left : ∀ π t₀ t₁ t₂ xs, Rely Traced.answer π t₀ t₁ → Good π t₁ t₂ xs → Good π t₀ t₂ xs
  join : ∀ π t t₂ xs ys, Good (π ++ [false]) t t₂ xs → Good (π ++ [true]) t t₂ ys →
    Moves Traced.answer (· ≠ π) t t₂ → Good π t t₂ (xs ++ ys)

namespace Law

variable (law : Law) (e : Endpoints)

/-- What a law needs of the single operations: their commands, setups and tasks. -/
structure Basic : Prop where
  perform : ∀ π t c, (∃ s cs, c = .replaceOptions s cs none) ∨ (∃ s i, c = .selectIndex s i) →
    law.Good π t (t.perform π c) []
  arrange : ∀ π t a, law.Good π t (t.arrange π a) []
  loadCountries : ∀ π t, WP Traced.answer (fun _ => True) π (Task.loadCountries e).widen t
    fun _ t' => law.Good π t t' []
  loadNodes : ∀ π t, WP Traced.answer (fun _ => True) π (Task.loadNodes e).widen t
    fun _ t' => law.Good π t t' []
  setUp : ∀ π t c, WP Traced.answer (fun _ => True) π (Task.setUp e c).widen t
    fun _ t' => law.Good π t t' []
  submit : ∀ π t, WP Traced.answer (fun _ => True) π (Task.submit e).widen t
    fun o t' => law.Good π t t' [o]
  fetch : ∀ π t r, WP Traced.answer (fun _ => True) π (Task.fetchChoices r).widen t
    fun _ t' => law.Good π t t' []

variable {law e}

/-- What a thread added stays good while other threads move: it is left for the program after
it. -/
theorem leaves {α : Type} {π : Path} {t t₁ : Traced} (f : α → List SubmitOutcome) {a : α}
    (h : law.Good π t t₁ (f a)) :
    Leaves Traced.answer (fun _ => True) π (fun a t₂ => law.Good π t t₂ (f a)) a t₁ :=
  ⟨trivial, fun t₂ hR => law.rely π t t₁ t₂ (f a) h hR⟩

/-- Two programs side by side, each adding what the law allows for its own submissions, add
together what it allows for both. -/
theorem both {β γ δ : Type} {π : Path} {t : Traced} {p : Script β} {q : Script γ}
    {k : β → γ → δ} (f : β → List SubmitOutcome) (g : γ → List SubmitOutcome)
    (h₁ : WP Traced.answer (fun _ => True) (π ++ [false]) p t fun b t' =>
      law.Good (π ++ [false]) t t' (f b))
    (h₂ : ∀ t₁, WP Traced.answer (fun _ => True) (π ++ [true]) q t₁ fun c t' =>
      law.Good (π ++ [true]) t₁ t' (g c)) :
    WP Traced.answer (fun _ => True) π (.both p q fun b c => .pure (k b c)) t fun a t' =>
      ∃ b c, a = k b c ∧ law.Good π t t' (f b ++ g c) := by
  refine ⟨fun b t₂ => law.Good (π ++ [false]) t t₂ (f b),
    fun c t₂ => law.Good (π ++ [true]) t t₂ (g c), ?_, ?_, ?_⟩
  · exact h₁.mono fun b t₁ h => leaves f h
  · intro t₁ _ hR
    exact (h₂ t₁).mono fun c t₂ h => leaves g (law.rely_left _ _ _ _ _ hR h)
  · intro b c t₂ hb hc _ hm
    exact ⟨b, c, rfl, law.join π t t₂ _ _ hb hc hm⟩

mutual

theorem program (hb : law.Basic e) : ∀ (op : Op) (π : Path) (t : Traced),
    WP Traced.answer (fun _ => True) π (op.program e) t fun r t' => law.Good π t t' r.submits
  | .setOptions s cs, π, t => (wp_performOp fun _ => rfl).mpr (hb.perform π t _ (.inl ⟨s, cs, rfl⟩))
  | .selectValue _ _, π, t => wp_arrange.mpr (hb.arrange π t _)
  | .selectIndex s i, π, t => (wp_performOp fun _ => rfl).mpr (hb.perform π t _ (.inr ⟨s, i, rfl⟩))
  | .script _ _ _, π, t => wp_arrange.mpr (hb.arrange π t _)
  | .delay _ _, π, t => wp_arrange.mpr (hb.arrange π t _)
  | .loadCountries, π, t => wp_task.mpr (hb.loadCountries π t)
  | .loadNodes, π, t => wp_task.mpr (hb.loadNodes π t)
  | .setUp (.error _), π, t => law.refl π t
  | .setUp (.ok c), π, t => wp_task.mpr (hb.setUp π t c)
  | .submit, π, t => wp_task.mpr (hb.submit π t)
  | .fetch _ _, π, t => wp_task.mpr (hb.fetch π t _)
  | .join bs, π, t => WP.bind.mpr (program_branches hb bs π t)
  | .unreadable _, π, t => law.refl π t

theorem program_list (hb : law.Basic e) : ∀ (ops : List Op) (π : Path) (t : Traced),
    WP Traced.answer (fun _ => True) π (Op.listProgram e ops) t
      fun rs t' => law.Good π t t' (Outcome.listSubmits rs)
  | [], π, t => law.refl π t
  | op :: ops, π, t => by
    refine WP.bind.mpr ((program hb op π t).mono fun r t₁ h₁ => ?_)
    refine WP.bind.mpr ((program_list hb ops π t₁).mono fun rs t₂ h₂ => ?_)
    exact law.trans π t t₁ t₂ _ _ h₁ h₂

theorem program_branches (hb : law.Basic e) : ∀ (bs : List (List Op)) (π : Path) (t : Traced),
    WP Traced.answer (fun _ => True) π (Op.branchPrograms e bs) t
      fun rss t' => law.Good π t t' (Outcome.branchSubmits rss)
  | [], π, t => law.refl π t
  | ops :: more, π, t =>
    (both Outcome.listSubmits Outcome.branchSubmits (program_list hb ops (π ++ [false]) t)
      fun t₁ => program_branches hb more (π ++ [true]) t₁).mono fun _ _ ⟨_, _, e, h⟩ => e ▸ h

end

end Law

/-! ### Laws about single entries -/

theorem mem_of_getElem?_append {L U : List Entry} {n : Nat} {x : Entry} (hn : L.length ≤ n)
    (hx : (L ++ U)[n]? = some x) : x ∈ U := by
  rw [List.getElem?_append_right hn] at hx
  exact List.mem_of_getElem? hx

section Entries

variable (marked : Entry → Prop) (fine : World → List Entry → Nat → Prop)
  (mono : ∀ W L L' n, fine W L n → L <+: L' → fine W L' n)

/-- The law that every entry picked by `marked` that the thread at `π` or a thread below it
added is `fine` in the log, read from the log's start; entries stay fine as the log grows. -/
def Law.ofEntries : Law where
  Good π t t' _ := t'.start = t.start ∧ t.log <+: t'.log ∧
    ∀ n x, t.log.length ≤ n → t'.log[n]? = some x → π <+: x.1 → marked x →
      fine t'.start t'.log n
  refl _ _ := ⟨rfl, List.prefix_refl _, fun n x hn hx _ _ => by
    simp [List.getElem?_eq_none hn] at hx⟩
  trans _ _ t₂ _ _ _ h₁ h₂ := by
    refine ⟨h₂.1.trans h₁.1, h₁.2.1.trans h₂.2.1, fun n x hn hx hπ hm => ?_⟩
    by_cases hn₂ : t₂.log.length ≤ n
    · exact h₂.2.2 n x hn₂ hx hπ hm
    · -- an entry of the first stretch, fine in the log that held it and so in the longer one
      obtain ⟨V, hV⟩ := h₂.2.1
      have hx₂ : t₂.log[n]? = some x := by
        rw [← hV, List.getElem?_append_left (Nat.lt_of_not_le hn₂)] at hx
        exact hx
      rw [h₂.1]
      exact mono _ _ _ n (h₁.2.2 n x hn hx₂ hπ hm) h₂.2.1
  rely _ _ t₂ _ _ h hR := by
    obtain ⟨V, hs, hl, hV⟩ := Traced.moves hR
    refine ⟨hs.trans h.1, h.2.1.trans ⟨V, hl.symm⟩, fun n x hn hx hπ hm => ?_⟩
    by_cases hn₂ : t₂.log.length ≤ n
    · rw [hl] at hx
      exact absurd hπ (hV x (mem_of_getElem?_append hn₂ hx))
    · have hx₂ := hx
      rw [hl, List.getElem?_append_left (Nat.lt_of_not_le hn₂)] at hx₂
      rw [hs]
      exact mono _ _ _ n (h.2.2 n x hn hx₂ hπ hm) ⟨V, hl.symm⟩
  rely_left _ _ t₁ _ _ hR h := by
    obtain ⟨V, hs, hl, hV⟩ := Traced.moves hR
    refine ⟨h.1.trans hs, List.IsPrefix.trans ⟨V, hl.symm⟩ h.2.1, fun n x hn hx hπ hm => ?_⟩
    by_cases hn₁ : t₁.log.length ≤ n
    · exact h.2.2 n x hn₁ hx hπ hm
    · -- no entry of the other threads' stretch is below `π`
      obtain ⟨W, hW⟩ := h.2.1
      rw [← hW, List.getElem?_append_left (Nat.lt_of_not_le hn₁), hl] at hx
      exact absurd hπ (hV x (mem_of_getElem?_append hn hx))
  join π _ _ _ _ h₁ h₂ hm := by
    obtain ⟨U, -, hl, hU⟩ := Traced.moves hm
    refine ⟨h₁.1, h₁.2.1, fun n x hn hx hπ hmk => ?_⟩
    have hne : x.1 ≠ π := hU x (mem_of_getElem?_append hn (hl ▸ hx))
    rcases Path.eq_or_child hπ with h | h | h
    · exact absurd h hne
    · exact h₁.2.2 n x hn hx h hmk
    · exact h₂.2.2 n x hn hx h hmk

variable {marked fine mono}

/-- One question that adds an entry it does not pick. -/
theorem Law.ofEntries_answer {π : Path} {t : Traced} {q : Command ⊕ Setup} {xs : List SubmitOutcome}
    (hq : ¬ marked (π, q)) : (Law.ofEntries marked fine mono).Good π t (Traced.answer π q t).1 xs := by
  refine ⟨rfl, ⟨[(π, q)], rfl⟩, fun n x hn hx _ hm => ?_⟩
  have hmem := mem_of_getElem?_append hn hx
  rw [List.mem_singleton] at hmem
  exact absurd (hmem ▸ hm) hq

/-- One question that adds an entry it picks, fine where it stands. -/
theorem Law.ofEntries_fine {π : Path} {t : Traced} {q : Command ⊕ Setup} {xs : List SubmitOutcome}
    (hq : fine t.start (t.log ++ [(π, q)]) t.log.length) :
    (Law.ofEntries marked fine mono).Good π t (Traced.answer π q t).1 xs := by
  refine ⟨rfl, ⟨[(π, q)], rfl⟩, fun n x hn hx _ _ => ?_⟩
  -- the only new entry is the last one
  have hlt := (List.getElem?_eq_some_iff.mp hx).1
  have hlen : (Traced.answer π q t).1.log.length = t.log.length + 1 := by simp [Traced.answer]
  rw [show n = t.log.length by omega]
  exact hq

/-- A thread that asks only questions `ok` allows, none of them picked, adds no picked entry. -/
theorem Law.ofEntries_of_adds {π : Path} {t t' : Traced} {ok : Entry → Prop}
    {xs : List SubmitOutcome} (hok : ∀ x, ok x → ¬ marked x) (h : Traced.Adds π ok t t') :
    (Law.ofEntries marked fine mono).Good π t t' xs := by
  obtain ⟨hs, U, hl, hU⟩ := h
  refine ⟨hs, ⟨U, hl.symm⟩, fun n x hn hx hπ hm => ?_⟩
  exact absurd hm (hok x (hU x (mem_of_getElem?_append hn (hl ▸ hx)) hπ))

/-- A task that asks no picked command adds no picked entry, whatever the other threads do. -/
theorem Law.ofEntries_task {π : Path} {t : Traced} {xs : List SubmitOutcome} {ok : Command → Prop}
    (hok : ∀ ρ c, ok c → ¬ marked (ρ, .inl c)) {α : Type} {p : Task α} (hp : Asks ok p) :
    WP Traced.answer (fun _ => True) π (p.widen : Script α) t fun _ t' =>
      (Law.ofEntries marked fine mono).Good π t t' xs := by
  have h : Asks (Sum.elim ok fun _ => False) (p.widen : Script α) := Asks.widen hp
  refine (WP.asks h).mono fun _ _ h' => Law.ofEntries_of_adds ?_ h'
  rintro ⟨ρ, c | a⟩ hx
  · exact hok ρ c hx
  · exact absurd hx id

end Entries

end NodeSwitcher
