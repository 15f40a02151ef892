import Mathlib
import NodeSwitcher.Proofs.Operations
/-!
# What the user is shown: alerts, reloads and the loading indicator

Only submissions show the user something. A submission without a node alerts at once; one that
sends its change request shows the loading indicator, hides it when the answer comes, and then
reloads the page or alerts. `Accounts π seg xs` says that the entries `seg` of the threads at or
below `π` show exactly what the submissions `xs` account for: one alert for each submission
that ends with one, one reload for each that reloads, the indicator shown and hidden once for
each that sent its request, and never hidden more often than shown along the way. It is a `Law`
(`feedbackLaw`), so `Law.program` carries it through every operation of a step, whatever the
joins and the interleaving; `Session.feedback_accounts` reads it off the page after each step.
-/

namespace NodeSwitcher

open Program

/-- The alert a submission ends with: none after a reload. -/
def SubmitOutcome.alert? : SubmitOutcome → Option String
  | .rejected => some selectNodeMessage
  | .reloaded => none
  | .refused _ body => some body
  | .failed _ => some submitFailedMessage

/-- Whether commands of a kind show the user something. -/
def CommandKind.shows : CommandKind → Bool
  | .setLoading | .alert | .reload => true
  | _ => false

/-- The alert an entry of the log shows. -/
def Entry.alert? : Entry → Option String
  | (_, .inl (.alert m)) => some m
  | _ => none

/-- Whether an entry of the log reloads the page. -/
def Entry.reloads : Entry → Bool
  | (_, .inl .reload) => true
  | _ => false

/-- What an entry of the log sets the loading indicator to. -/
def Entry.indicator? : Entry → Option Bool
  | (_, .inl (.setLoading b)) => some b
  | _ => none

/-- An entry that shows the user nothing. -/
def Entry.Quiet (x : Entry) : Prop :=
  x.alert? = none ∧ x.reloads = false ∧ x.indicator? = none

theorem Entry.quiet_inl {c : Command} (hc : c.kind.shows = false) (π : Path) :
    Entry.Quiet (π, .inl c) := by
  cases c <;> simp_all [Entry.Quiet, Entry.alert?, Entry.reloads, Entry.indicator?, CommandKind.shows]

theorem Entry.quiet_inr (π : Path) (a : Setup) : Entry.Quiet (π, .inr a) :=
  ⟨rfl, rfl, rfl⟩

/-! ### The page after the entries of a log -/

section Page

variable (p : Page) (s : Selector)

@[simp] theorem Page.modifyList_alerts (f : DropDown → DropDown) :
    (p.modifyList s f).alerts = p.alerts := by cases s <;> rfl
@[simp] theorem Page.modifyList_reloads (f : DropDown → DropDown) :
    (p.modifyList s f).reloads = p.reloads := by cases s <;> rfl
@[simp] theorem Page.modifyList_loading (f : DropDown → DropDown) :
    (p.modifyList s f).loading = p.loading := by cases s <;> rfl
@[simp] theorem Page.modifyList_loadingHistory (f : DropDown → DropDown) :
    (p.modifyList s f).loadingHistory = p.loadingHistory := by cases s <;> rfl
@[simp] theorem Page.setError_alerts (m : Option String) :
    (p.setError s m).alerts = p.alerts := by cases s <;> rfl
@[simp] theorem Page.setError_reloads (m : Option String) :
    (p.setError s m).reloads = p.reloads := by cases s <;> rfl
@[simp] theorem Page.setError_loading (m : Option String) :
    (p.setError s m).loading = p.loading := by cases s <;> rfl
@[simp] theorem Page.setError_loadingHistory (m : Option String) :
    (p.setError s m).loadingHistory = p.loadingHistory := by cases s <;> rfl

@[simp] theorem World.setGeneration_page (w : World) (g : Generation) :
    (w.setGeneration s g).page = w.page := by cases s <;> rfl

end Page

section Answer

variable (π : Path) (q : Command ⊕ Setup) (w : World)

theorem World.answer_alerts :
    (World.answer q w).1.page.alerts = w.page.alerts ++ (Entry.alert? (π, q)).toList := by
  rcases q with c | a
  · cases c <;> simp [World.answer, World.perform, Entry.alert?, Page.setLoading, Page.alert,
      Page.reload]
  · cases a <;> simp [World.answer, World.arrange, Entry.alert?]

theorem World.answer_reloads :
    (World.answer q w).1.page.reloads = w.page.reloads + if Entry.reloads (π, q) then 1 else 0 := by
  rcases q with c | a
  · cases c <;> simp [World.answer, World.perform, Entry.reloads, Page.setLoading, Page.alert,
      Page.reload]
  · cases a <;> simp [World.answer, World.arrange, Entry.reloads]

theorem World.answer_loadingHistory :
    (World.answer q w).1.page.loadingHistory =
      w.page.loadingHistory ++ (Entry.indicator? (π, q)).toList := by
  rcases q with c | a
  · cases c <;> simp [World.answer, World.perform, Entry.indicator?, Page.setLoading, Page.alert,
      Page.reload]
  · cases a <;> simp [World.answer, World.arrange, Entry.indicator?]

theorem World.answer_loading :
    (World.answer q w).1.page.loading = (Entry.indicator? (π, q)).getD w.page.loading := by
  rcases q with c | a
  · cases c <;> simp [World.answer, World.perform, Entry.indicator?, Page.setLoading, Page.alert,
      Page.reload]
  · cases a <;> simp [World.answer, World.arrange, Entry.indicator?]

end Answer

section Replay

variable (W : World) (U : List Entry)

theorem World.replay_alerts :
    (W.replay U).page.alerts = W.page.alerts ++ U.filterMap Entry.alert? := by
  induction U generalizing W with
  | nil => simp
  | cons x U ih =>
    obtain ⟨π, q⟩ := x
    rw [show W.replay ((π, q) :: U) = (World.answer q W).1.replay U from rfl, ih,
      World.answer_alerts π]
    cases h : Entry.alert? (π, q) <;> simp [h]

theorem World.replay_reloads :
    (W.replay U).page.reloads = W.page.reloads + U.countP Entry.reloads := by
  induction U generalizing W with
  | nil => simp
  | cons x U ih =>
    obtain ⟨π, q⟩ := x
    rw [show W.replay ((π, q) :: U) = (World.answer q W).1.replay U from rfl, ih,
      World.answer_reloads π, List.countP_cons]
    omega

theorem World.replay_loadingHistory :
    (W.replay U).page.loadingHistory = W.page.loadingHistory ++ U.filterMap Entry.indicator? := by
  induction U generalizing W with
  | nil => simp
  | cons x U ih =>
    obtain ⟨π, q⟩ := x
    rw [show W.replay ((π, q) :: U) = (World.answer q W).1.replay U from rfl, ih,
      World.answer_loadingHistory π]
    cases h : Entry.indicator? (π, q) <;> simp [h]

/-- The indicator stands as the last entry that set it left it. -/
theorem World.replay_loading :
    (W.replay U).page.loading = ((U.filterMap Entry.indicator?).getLast?).getD W.page.loading := by
  induction U generalizing W with
  | nil => simp
  | cons x U ih =>
    obtain ⟨π, q⟩ := x
    rw [show W.replay ((π, q) :: U) = (World.answer q W).1.replay U from rfl, ih,
      World.answer_loading π]
    cases h : Entry.indicator? (π, q) with
    | none => simp [h]
    | some b =>
      simp only [List.filterMap_cons, h, List.getLast?_cons, Option.getD_some]

end Replay

/-! ### What the threads at or below a thread show -/

/-- The entries of the threads at or below `π`. -/
def below (π : Path) (seg : List Entry) : List Entry :=
  seg.filter fun x => π <+: x.1

/-- The changes of the loading indicator made at or below `π`, in order. -/
def indicatorBelow (π : Path) (seg : List Entry) : List Bool :=
  (below π seg).filterMap Entry.indicator?

section Below

variable {π : Path} {seg seg₁ seg₂ : List Entry}

@[simp] theorem below_nil : below π [] = [] := rfl

@[simp] theorem below_append : below π (seg₁ ++ seg₂) = below π seg₁ ++ below π seg₂ :=
  List.filter_append _ _

@[simp] theorem below_own (q : Command ⊕ Setup) (seg : List Entry) :
    below π ((π, q) :: seg) = (π, q) :: below π seg := by
  simp [below]

theorem below_eq_nil (h : ∀ x ∈ seg, ¬ π <+: x.1) : below π seg = [] := by
  simpa [below] using h

theorem below_root (seg : List Entry) : below [] seg = seg :=
  List.filter_eq_self.mpr fun x _ => by simp

/-- Without entries of `π` itself, the entries below `π` are those below its two halves. -/
theorem below_perm (h : ∀ x ∈ seg, x.1 ≠ π) :
    (below π seg).Perm (below (π ++ [false]) seg ++ below (π ++ [true]) seg) := by
  induction seg with
  | nil => simp
  | cons x seg ih =>
    have ih' := ih fun y hy => h y (List.mem_cons_of_mem x hy)
    by_cases hx : π <+: x.1
    · rcases Path.eq_or_child hx with hπ | hl | hr
      · exact absurd hπ (h x List.mem_cons_self)
      · have hr' : ¬ π ++ [true] <+: x.1 := Path.not_right_of_left hl
        simp only [below, List.filter_cons, hx, hl, hr', decide_true, decide_false,
          if_true, List.cons_append] at ih' ⊢
        exact ih'.cons x
      · have hl' : ¬ π ++ [false] <+: x.1 := Path.not_left_of_right hr
        simp only [below, List.filter_cons, hx, hr, hl', decide_true, decide_false,
          if_true] at ih' ⊢
        exact (ih'.cons x).trans List.perm_middle.symm
    · have hl : ¬ π ++ [false] <+: x.1 := fun h' => hx (Path.prefix_of_child h')
      have hr : ¬ π ++ [true] <+: x.1 := fun h' => hx (Path.prefix_of_child h')
      simp only [below, List.filter_cons, hx, hl, hr, decide_false] at ih' ⊢
      exact ih'

theorem indicatorBelow_prefix {p : List Entry} (h : p <+: seg) :
    indicatorBelow π p <+: indicatorBelow π seg :=
  (h.filter _).filterMap _

end Below

theorem prefix_append_cases {α : Type} {l₁ l₂ p : List α} (h : p <+: l₁ ++ l₂) :
    p <+: l₁ ∨ ∃ q, q <+: l₂ ∧ p = l₁ ++ q := by
  rcases List.prefix_or_prefix_of_prefix h (List.prefix_append l₁ l₂) with h' | ⟨q, rfl⟩
  · exact .inl h'
  · exact .inr ⟨q, (List.prefix_append_right_inj l₁).mp h, rfl⟩

/-- How a submission that sent its request ends, and the command it ends with: a reload after
a status of 200, otherwise an alert. -/
inductive SubmitEnd : SubmitOutcome → Command → Prop
  | reloaded : SubmitEnd .reloaded .reload
  | refused (status : UInt16) (body : String) : SubmitEnd (.refused status body) (.alert body)
  | failed (f : Fault) : SubmitEnd (.failed f) (.alert submitFailedMessage)

/-- The entries `seg` of the threads at or below `π` show what the submissions `xs` account
for: one alert for each submission that ends with one, one reload for each that reloads, the
indicator shown and hidden once for each that sent its request, and along `seg` never hidden
more often than shown. -/
structure Accounts (π : Path) (seg : List Entry) (xs : List SubmitOutcome) : Prop where
  alerts : ((below π seg).filterMap Entry.alert?).Perm (xs.filterMap SubmitOutcome.alert?)
  reloads : (below π seg).countP Entry.reloads = xs.count .reloaded
  shown : (indicatorBelow π seg).count true = xs.countP (· ≠ .rejected)
  hidden : (indicatorBelow π seg).count false = xs.countP (· ≠ .rejected)
  never : ∀ p, p <+: seg → (indicatorBelow π p).count false ≤ (indicatorBelow π p).count true

namespace Accounts

variable {π : Path} {seg seg₁ seg₂ mid : List Entry} {xs ys : List SubmitOutcome}

/-- Entries that show nothing account for no submission. -/
theorem quiet (h : ∀ x ∈ seg, π <+: x.1 → x.Quiet) : Accounts π seg [] := by
  have hq : ∀ x ∈ below π seg, x.Quiet := fun x hx => by
    simp only [below, List.mem_filter, decide_eq_true_eq] at hx
    exact h x hx.1 hx.2
  have hind : ∀ p, p <+: seg → indicatorBelow π p = [] := fun p hp => by
    simp only [indicatorBelow, List.filterMap_eq_nil_iff]
    exact fun x hx => (hq x ((hp.filter _).subset hx)).2.2
  refine ⟨?_, ?_, ?_, ?_, fun p hp => by rw [hind p hp]; exact Nat.le_refl _⟩
  · simp only [List.filterMap_nil, List.perm_nil, List.filterMap_eq_nil_iff]
    exact fun x hx => (hq x hx).1
  · simp only [List.count_nil, List.countP_eq_zero]
    intro x hx
    simp [(hq x hx).2.1]
  · rw [hind seg (List.prefix_refl _)]
    rfl
  · rw [hind seg (List.prefix_refl _)]
    rfl

theorem nil : Accounts π [] [] :=
  quiet fun _ hx => absurd hx List.not_mem_nil

/-- What one stretch accounts for and then another, both do. -/
theorem append (h₁ : Accounts π seg₁ xs) (h₂ : Accounts π seg₂ ys) :
    Accounts π (seg₁ ++ seg₂) (xs ++ ys) where
  alerts := by
    simp only [below_append, List.filterMap_append]
    exact h₁.alerts.append h₂.alerts
  reloads := by simp [h₁.reloads, h₂.reloads, List.count_append]
  shown := by
    simp only [indicatorBelow, below_append, List.filterMap_append, List.count_append,
      List.countP_append]
    exact congrArg₂ (· + ·) h₁.shown h₂.shown
  hidden := by
    simp only [indicatorBelow, below_append, List.filterMap_append, List.count_append,
      List.countP_append]
    exact congrArg₂ (· + ·) h₁.hidden h₂.hidden
  never p hp := by
    rcases prefix_append_cases hp with hp₁ | ⟨q, hq, rfl⟩
    · exact h₁.never p hp₁
    · -- past the first stretch, which shows the indicator as often as it hides it
      have hq₂ := h₂.never q hq
      have he : (indicatorBelow π seg₁).count false = (indicatorBelow π seg₁).count true := by
        rw [h₁.hidden, h₁.shown]
      simp only [indicatorBelow, below_append, List.filterMap_append, List.count_append] at hq₂ he ⊢
      omega

/-- Entries of other threads, anywhere in a stretch, change nothing it accounts for. -/
theorem insert_other {A B : List Entry} (h : Accounts π (A ++ B) xs)
    (hmid : ∀ x ∈ mid, ¬ π <+: x.1) : Accounts π (A ++ mid ++ B) xs := by
  have hb : below π mid = [] := below_eq_nil hmid
  have hsame : below π (A ++ mid ++ B) = below π (A ++ B) := by simp [hb]
  refine ⟨hsame ▸ h.alerts, hsame ▸ h.reloads, ?_, ?_, fun p hp => ?_⟩
  · rw [indicatorBelow, hsame]
    exact h.shown
  · rw [indicatorBelow, hsame]
    exact h.hidden
  · rw [List.append_assoc] at hp
    rcases prefix_append_cases hp with hA | ⟨q, hq, rfl⟩
    · exact h.never p (hA.trans (List.prefix_append A B))
    rcases prefix_append_cases hq with hm | ⟨r, hr, rfl⟩
    · -- within the other threads' entries: as after `A`
      obtain ⟨u, rfl⟩ := hm
      have hq' : below π q = [] := by
        have hqu : below π (q ++ u) = [] := below_eq_nil hmid
        simp only [below_append, List.append_eq_nil_iff] at hqu
        exact hqu.1
      have hA := h.never A (List.prefix_append A B)
      simpa [indicatorBelow, hq'] using hA
    · have hr' := h.never (A ++ r) ((List.prefix_append_right_inj A).mpr hr)
      simpa [indicatorBelow, hb] using hr'

/-- Two halves' entries of one stretch, with none of the thread itself, account for the
submissions of both. -/
theorem join (h₁ : Accounts (π ++ [false]) seg xs) (h₂ : Accounts (π ++ [true]) seg ys)
    (hπ : ∀ x ∈ seg, x.1 ≠ π) : Accounts π seg (xs ++ ys) := by
  have hcount : ∀ p, p <+: seg → ∀ b,
      (indicatorBelow π p).count b =
        (indicatorBelow (π ++ [false]) p).count b + (indicatorBelow (π ++ [true]) p).count b :=
    fun p hp b => by
      have hperm := below_perm fun x hx => hπ x (hp.subset hx)
      rw [indicatorBelow, (hperm.filterMap _).count_eq, List.filterMap_append, List.count_append]
      rfl
  refine ⟨?_, ?_, ?_, ?_, fun p hp => ?_⟩
  · refine ((below_perm hπ).filterMap _).trans ?_
    rw [List.filterMap_append, List.filterMap_append]
    exact h₁.alerts.append h₂.alerts
  · rw [(below_perm hπ).countP_eq, List.countP_append, h₁.reloads, h₂.reloads, List.count_append]
  · rw [hcount seg (List.prefix_refl _), h₁.shown, h₂.shown, List.countP_append]
  · rw [hcount seg (List.prefix_refl _), h₁.hidden, h₂.hidden, List.countP_append]
  · rw [hcount p hp, hcount p hp]
    have := h₁.never p hp
    have := h₂.never p hp
    omega

theorem append_other {V : List Entry} (h : Accounts π seg xs) (hV : ∀ x ∈ V, ¬ π <+: x.1) :
    Accounts π (seg ++ V) xs := by
  have h' := (List.append_nil seg ▸ h).insert_other hV
  rwa [List.append_nil] at h'

theorem other_append {V : List Entry} (h : Accounts π seg xs) (hV : ∀ x ∈ V, ¬ π <+: x.1) :
    Accounts π (V ++ seg) xs :=
  (List.nil_append seg ▸ h).insert_other hV

/-- The indicator changes `[true, false]`, shown and then hidden, are never hidden more often
than shown. -/
theorem never_of_shown_hidden (h : indicatorBelow π seg = [true, false]) :
    ∀ p, p <+: seg → (indicatorBelow π p).count false ≤ (indicatorBelow π p).count true := by
  intro p hp
  have hpre : indicatorBelow π p <+: indicatorBelow π seg := indicatorBelow_prefix hp
  rw [h] at hpre
  rcases List.prefix_cons_iff.mp hpre with h₀ | ⟨u, h₁, hu⟩
  · rw [h₀]
    exact Nat.le_refl _
  rcases List.prefix_cons_iff.mp hu with rfl | ⟨v, rfl, hv⟩
  · rw [h₁]
    decide
  · rw [List.prefix_nil.mp hv] at h₁
    rw [h₁]
    decide

/-- A submission that sent its request: it read the node, showed the indicator and sent, then,
while other threads asked `mid`, waited for the answer; it hid the indicator, recorded how it
ended and ended with `c`, which shows what the outcome `o` accounts for. -/
theorem sent {o : SubmitOutcome} {c : Command} (hc : SubmitEnd o c) (r : Request) (ev : Event)
    (hmid : ∀ x ∈ mid, ¬ π <+: x.1) :
    Accounts π ([(π, .inl (.selectedValue .node)), (π, .inl (.setLoading true)),
      (π, .inl (.send r))] ++ mid ++
      [(π, .inl (.setLoading false)), (π, .inl (.record ev)), (π, .inl c)]) [o] := by
  -- its own entries, all at `π`
  have hown : below π ([(π, .inl (.selectedValue .node)), (π, .inl (.setLoading true)),
      (π, .inl (.send r))] ++ [(π, .inl (.setLoading false)), (π, .inl (.record ev)),
      (π, .inl c)]) = [(π, .inl (.selectedValue .node)), (π, .inl (.setLoading true)),
      (π, .inl (.send r)), (π, .inl (.setLoading false)), (π, .inl (.record ev)),
      (π, .inl c)] := by
    simp only [below_own, below_nil, List.cons_append, List.nil_append]
  have hshown : indicatorBelow π ([(π, .inl (.selectedValue .node)), (π, .inl (.setLoading true)),
      (π, .inl (.send r))] ++ [(π, .inl (.setLoading false)), (π, .inl (.record ev)),
      (π, .inl c)]) = [true, false] := by
    rw [indicatorBelow, hown]
    cases hc <;> rfl
  refine insert_other ⟨?_, ?_, ?_, ?_, never_of_shown_hidden hshown⟩ hmid
  · rw [hown]
    cases hc <;> exact List.Perm.refl _
  · rw [hown]
    cases hc <;> rfl
  · rw [hshown]
    cases hc <;> rfl
  · rw [hshown]
    cases hc <;> rfl

/-- A submission without a node: it read the node and alerted. -/
theorem rejected :
    Accounts π [(π, .inl (.selectedValue .node)), (π, .inl (.alert selectNodeMessage))]
      [.rejected] := by
  have hown : below π [(π, .inl (.selectedValue .node)), (π, .inl (.alert selectNodeMessage))] =
      [(π, .inl (.selectedValue .node)), (π, .inl (.alert selectNodeMessage))] := by
    simp only [below_own, below_nil]
  have hind : indicatorBelow π [(π, .inl (.selectedValue .node)),
      (π, .inl (.alert selectNodeMessage))] = [] := by
    rw [indicatorBelow, hown]
    rfl
  refine ⟨?_, ?_, ?_, ?_, fun p hp => ?_⟩
  · rw [hown]
    exact List.Perm.refl _
  · rw [hown]
    rfl
  · rw [hind]
    rfl
  · rw [hind]
    rfl
  · have hpre : indicatorBelow π p <+: indicatorBelow π _ := indicatorBelow_prefix hp
    rw [hind, List.prefix_nil] at hpre
    rw [hpre]
    exact Nat.le_refl _

end Accounts

/-- `Accounts` as a law of what threads add to the log. -/
def feedbackLaw : Law where
  Good π t t' xs := t'.start = t.start ∧ ∃ seg, t'.log = t.log ++ seg ∧ Accounts π seg xs
  refl _ _ := ⟨rfl, [], by simp, Accounts.nil⟩
  trans _ _ _ _ _ _ h₁ h₂ := by
    obtain ⟨hs₁, seg₁, hl₁, ha₁⟩ := h₁
    obtain ⟨hs₂, seg₂, hl₂, ha₂⟩ := h₂
    exact ⟨hs₂.trans hs₁, seg₁ ++ seg₂, by rw [hl₂, hl₁, List.append_assoc], ha₁.append ha₂⟩
  rely _ _ _ _ _ h hR := by
    obtain ⟨hs, seg, hl, ha⟩ := h
    obtain ⟨V, hs', hl', hV⟩ := Traced.moves hR
    exact ⟨hs'.trans hs, seg ++ V, by rw [hl', hl, List.append_assoc], ha.append_other hV⟩
  rely_left _ _ _ _ _ hR h := by
    obtain ⟨V, hs', hl', hV⟩ := Traced.moves hR
    obtain ⟨hs, seg, hl, ha⟩ := h
    exact ⟨hs.trans hs', V ++ seg, by rw [hl, hl', List.append_assoc], ha.other_append hV⟩
  join _ _ _ _ _ h₁ h₂ hm := by
    obtain ⟨hs, seg, hl, ha₁⟩ := h₁
    obtain ⟨-, seg', hl', ha₂⟩ := h₂
    obtain ⟨U, -, hU, hne⟩ := Traced.moves hm
    -- both halves and the thread's own moves describe one stretch of the log
    have hseg : seg' = seg := List.append_cancel_left (hl'.symm.trans hl)
    have hU' : U = seg := List.append_cancel_left (hU.symm.trans hl)
    rw [hseg] at ha₂
    rw [hU'] at hne
    exact ⟨hs, seg, hl, ha₁.join ha₂ hne⟩

/-! ### Every operation accounts for what it shows -/

section Operations

variable (π : Path) (t : Traced)

/-- One question that shows nothing. -/
theorem feedback_answer {q : Command ⊕ Setup} (hq : ∀ ρ, Entry.Quiet (ρ, q)) :
    feedbackLaw.Good π t (Traced.answer π q t).1 [] :=
  ⟨rfl, [(π, q)], rfl, Accounts.quiet fun x hx _ => by
    rw [List.mem_singleton.mp hx]
    exact hq π⟩

/-- A task that asks only commands that show nothing accounts for no submission. -/
theorem feedback_of_asks {α : Type} {p : Task α} (hp : Asks (fun c => c.kind.shows = false) p) :
    WP Traced.answer (fun _ => True) π (p.widen : Script α) t fun _ t' =>
      feedbackLaw.Good π t t' [] := by
  have h : Asks (Sum.elim (fun c : Command => c.kind.shows = false) fun _ => False)
      (p.widen : Script α) := Asks.widen hp
  refine (WP.asks h).mono fun _ t' ⟨hs, U, hl, hU⟩ => ⟨hs, U, hl, Accounts.quiet ?_⟩
  intro x hx hπ
  obtain ⟨ρ, c | a⟩ := x
  · exact Entry.quiet_inl (hU _ hx hπ) ρ
  · exact Entry.quiet_inr ρ a

theorem loadKinds_quiet : ∀ k ∈ loadKinds, k.shows = false := by decide

/-- Loads, setups and fetches ask no command that shows the user anything. -/
theorem Task.asks_quiet (e : Endpoints) :
    Asks (fun c : Command => c.kind.shows = false) (Task.loadCountries e) ∧
      Asks (fun c : Command => c.kind.shows = false) (Task.loadNodes e) ∧
      (∀ c, Asks (fun c : Command => c.kind.shows = false) (Task.setUp e c)) ∧
      ∀ r, Asks (fun c : Command => c.kind.shows = false) (Task.fetch r) := by
  refine ⟨?_, ?_, fun c => ?_, fun r => ?_⟩
  · exact (Task.asks_loadCountries e).mono fun c hc => loadKinds_quiet c.kind hc
  · exact (Task.asks_loadNodes e).mono fun c hc => loadKinds_quiet c.kind hc
  · exact (Task.asks_setUp e c).mono fun c hc => loadKinds_quiet c.kind hc
  · exact (Task.asks_fetchChoices r).mono fun c hc =>
      loadKinds_quiet c.kind (fetchKinds_sub c.kind hc)

/-- A submission accounts for itself, whatever the other threads do while it waits. -/
theorem feedback_submit (e : Endpoints) :
    WP Traced.answer (fun _ => True) π (Task.submit e).widen t fun o t' =>
      feedbackLaw.Good π t t' [o] := by
  refine wp_submit.mpr ?_
  dsimp only
  split
  · exact ⟨by simp, _, by simp, Accounts.rejected⟩
  · refine Await.of_rely trivial fun t' hR => ?_
    obtain ⟨mid, hs, hl, hmid⟩ := Traced.moves hR
    -- however it ends, it hid the indicator and ended as `SubmitEnd` says
    have hdone : ∀ o c, SubmitEnd o c → ∀ ev, feedbackLaw.Good π t
        ((t'.perform π (.setLoading false)).performAll π [.record ev, c]) [o] := by
      intro o c hc ev
      refine ⟨by simp [hs], _, ?_,
        Accounts.sent hc (e.changeRequest (t.world.page.list .node).selectedValue) ev hmid⟩
      simp [hl, List.append_assoc]
    split
    · split
      · exact hdone _ _ .reloaded _
      · exact hdone _ _ (.refused _ _) _
    · exact hdone _ _ (.failed _) _

end Operations

theorem feedback_basic (e : Endpoints) : feedbackLaw.Basic e where
  perform π t c hc := feedback_answer π t fun ρ => Entry.quiet_inl (by
    rcases hc with ⟨s, cs, rfl⟩ | ⟨s, i, rfl⟩ <;> rfl) ρ
  arrange π t a := feedback_answer π t fun ρ => Entry.quiet_inr ρ a
  loadCountries π t := feedback_of_asks π t (Task.asks_quiet e).1
  loadNodes π t := feedback_of_asks π t (Task.asks_quiet e).2.1
  setUp π t c := feedback_of_asks π t ((Task.asks_quiet e).2.2.1 c)
  submit π t := feedback_submit π t e
  fetch π t r := feedback_of_asks π t ((Task.asks_quiet e).2.2.2 r)

/-! ### What a step shows the user -/

/-- A step's log shows the user what the submissions its outcome reports account for. -/
theorem Session.log_accounts (e : Endpoints) (w : World) (op : Op) :
    Accounts [] (Session.log e w op) (Session.step e w op).2.submits := by
  obtain ⟨-, seg, hl, ha⟩ := Session.wp_step (Law.program (feedback_basic e) op [] (Session.start w))
  have hseg : Session.log e w op = seg := hl
  rw [hseg]
  exact ha

theorem exists_prefix_of_prefix_filterMap {α β : Type} (f : α → Option β) :
    ∀ {l : List α} {p : List β}, p <+: l.filterMap f → ∃ q, q <+: l ∧ q.filterMap f = p
  | [], p, h => ⟨[], List.prefix_refl _, (List.prefix_nil.mp h).symm⟩
  | a :: l, p, h => by
    cases hfa : f a with
    | none =>
      rw [List.filterMap_cons_none hfa] at h
      obtain ⟨q, hq, rfl⟩ := exists_prefix_of_prefix_filterMap f h
      exact ⟨a :: q, List.cons_prefix_cons.mpr ⟨rfl, hq⟩, List.filterMap_cons_none hfa⟩
    | some b =>
      rw [List.filterMap_cons_some hfa] at h
      rcases List.prefix_cons_iff.mp h with rfl | ⟨u, rfl, hu⟩
      · exact ⟨[], List.nil_prefix, rfl⟩
      · obtain ⟨q, hq, rfl⟩ := exists_prefix_of_prefix_filterMap f hu
        exact ⟨a :: q, List.cons_prefix_cons.mpr ⟨rfl, hq⟩, List.filterMap_cons_some hfa⟩

/-- Shown as often as hidden and never hidden more often than shown, the indicator was last
hidden. -/
theorem getLast?_ne_true {H : List Bool} (hbal : H.count false = H.count true)
    (hpre : ∀ p, p <+: H → p.count false ≤ p.count true) : H.getLast? ≠ some true := by
  intro hlast
  obtain ⟨ys, rfl⟩ := List.getLast?_eq_some_iff.mp hlast
  have hys := hpre ys (List.prefix_append ys [true])
  simp [List.count_append] at hbal
  omega

/-- After a step, the alerts added are one for each submission that ended with one, with its
text; the reloads grew by the submissions that reloaded; and the indicator changes added show
and hide the indicator once for each submission that sent its request, never hidden more often
than shown along the way, so a step that began with the indicator hidden ends with it hidden. -/
theorem Session.step_feedback (e : Endpoints) (w : World) (op : Op) :
    let w' := (Session.step e w op).1
    let xs := (Session.step e w op).2.submits
    (∃ A, w'.page.alerts = w.page.alerts ++ A ∧ A.Perm (xs.filterMap SubmitOutcome.alert?)) ∧
    w'.page.reloads = w.page.reloads + xs.count .reloaded ∧
    (∃ H, w'.page.loadingHistory = w.page.loadingHistory ++ H ∧
      H.count true = xs.countP (· ≠ .rejected) ∧ H.count false = xs.countP (· ≠ .rejected) ∧
      ∀ p, p <+: H → p.count false ≤ p.count true) ∧
    (w.page.loading = false → w'.page.loading = false) := by
  have ha := Session.log_accounts e w op
  have hw := Session.world_log e w op
  simp only [Traced.world] at hw
  -- the page after the step is the page before it, replayed over the step's log
  have halerts := ha.alerts
  have hreloads := ha.reloads
  have hshown := ha.shown
  have hhidden := ha.hidden
  rw [below_root] at halerts hreloads
  rw [indicatorBelow, below_root] at hshown hhidden
  have hH : ∀ p, p <+: (Session.log e w op).filterMap Entry.indicator? →
      p.count false ≤ p.count true := fun p hp => by
    obtain ⟨q, hq, rfl⟩ := exists_prefix_of_prefix_filterMap _ hp
    have hq' := ha.never q hq
    rwa [indicatorBelow, below_root] at hq'
  refine ⟨⟨_, ?_, halerts⟩, ?_, ⟨_, ?_, hshown, hhidden, hH⟩, fun hl => ?_⟩
  · rw [← hw, World.replay_alerts]
    rfl
  · rw [← hw, World.replay_reloads, hreloads]
    rfl
  · rw [← hw, World.replay_loadingHistory]
    rfl
  · rw [← hw, World.replay_loading]
    have hlast := getLast?_ne_true (hhidden.trans hshown.symm) hH
    cases hb : ((Session.log e w op).filterMap Entry.indicator?).getLast? with
    | none => exact hl
    | some b =>
      cases b with
      | false => rfl
      | true => exact absurd hb hlast

/-- A session that began with the indicator hidden has it hidden after every step. -/
theorem Session.run_hides_indicator (e : Endpoints) (w : World) (ops : List Op)
    (hl : w.page.loading = false) : ∀ x ∈ Session.run e w ops, x.1.page.loading = false := by
  induction ops generalizing w with
  | nil => exact fun x hx => absurd hx List.not_mem_nil
  | cons op ops ih =>
    -- the step keeps it hidden, and the rest of the session starts from there
    have hstep := (Session.step_feedback e w op).2.2.2 hl
    intro x hx
    simp only [Session.run, List.mem_cons] at hx
    rcases hx with rfl | hx
    · exact hstep
    · exact ih _ hstep x hx

/-- Only submissions show the user something, and each step shows exactly what its submissions
account for: loads, setups and fetches ask no command that shows anything; each step adds what
`Session.step_feedback` says; and a session that began with the indicator hidden has it hidden
after every step. -/
theorem Session.feedback_accounts (e : Endpoints) :
    (Asks (fun c : Command => c.kind.shows = false) (Task.loadCountries e) ∧
      Asks (fun c : Command => c.kind.shows = false) (Task.loadNodes e) ∧
      (∀ c, Asks (fun c : Command => c.kind.shows = false) (Task.setUp e c)) ∧
      ∀ r, Asks (fun c : Command => c.kind.shows = false) (Task.fetch r)) ∧
    (∀ w op,
      let w' := (Session.step e w op).1
      let xs := (Session.step e w op).2.submits
      (∃ A, w'.page.alerts = w.page.alerts ++ A ∧ A.Perm (xs.filterMap SubmitOutcome.alert?)) ∧
      w'.page.reloads = w.page.reloads + xs.count .reloaded ∧
      (∃ H, w'.page.loadingHistory = w.page.loadingHistory ++ H ∧
        H.count true = xs.countP (· ≠ .rejected) ∧ H.count false = xs.countP (· ≠ .rejected) ∧
        ∀ p, p <+: H → p.count false ≤ p.count true) ∧
      (w.page.loading = false → w'.page.loading = false)) ∧
    ∀ w ops, w.page.loading = false → ∀ x ∈ Session.run e w ops, x.1.page.loading = false :=
  ⟨Task.asks_quiet e, Session.step_feedback e, Session.run_hides_indicator e⟩

/-- Two submissions side by side that both send: `n1`, answered after two rounds with 200, and
`n2`, refused with `busy` after one. The step shows and hides the indicator twice, alerts `busy`
and reloads once, and leaves the indicator hidden, as does a further submission after it. -/
theorem Session.overlapping_submits_feedback :
    let w := [Op.setOptions .node [⟨"n1", "N1"⟩, ⟨"n2", "N2"⟩],
      .script "/change" (some "n1") (.answer ⟨200, ""⟩),
      .script "/change" (some "n2") (.answer ⟨500, "busy"⟩), .delay "n1" 2, .delay "n2" 1].foldl
      (fun w op => (Session.step {} w op).1) {}
    let op := Op.join [[.submit], [.selectValue .node "n2", .submit]]
    w.page.loading = false ∧
      (Session.step {} w op).1.page.loadingHistory = [true, true, false, false] ∧
      (Session.step {} w op).1.page.alerts = ["busy"] ∧
      (Session.step {} w op).1.page.reloads = 1 ∧
      (Session.step {} w op).1.page.loading = false ∧
      ∀ x ∈ Session.run {} w [op, .submit], x.1.page.loading = false :=
  ⟨rfl, rfl, rfl, rfl, ((Session.feedback_accounts {}).2.1 _ _).2.2.2 rfl,
    (Session.feedback_accounts {}).2.2 _ _ rfl⟩

end NodeSwitcher
