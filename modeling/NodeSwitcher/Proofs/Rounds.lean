import NodeSwitcher.Session
/-!
# Every step ends within its rounds

`Program.Ends answer ok n p`: against surroundings that keep `ok` and answer each question
within the rounds its `ask` allows, `p` ends at the latest `n` rounds after the current one.
It is built along the program's constructors and is closed under `bind` (`Ends.bind`) and
waiting (`Ends.waits`). One round of a program that ends within `n + 1` rounds leaves a rest
that ends within `n` (`Ends.poll`), so a program given more rounds than it needs ends
(`Ends.run`).

For the node switcher, the surroundings keep every server delay within `D` rounds
(`DelaysWithin D`): a request waits at most `D` rounds and every other command none. A load,
a fetch or a submission then ends within `D` rounds, a cascade or a set-up within `2 D`, and
an operation within `2 D` for each operation in it (`Op.ends_program`). With `D` the longest
delay in sight, that is fewer than the rounds `Session.step` gives it (`Session.run_ends`): a
step never runs out of rounds.
-/

namespace NodeSwitcher

namespace Program

variable {Q : Type} {A : Q → Type} {W : Type}

section Ends

variable (answer : (q : Q) → W → W × A q × Nat) (ok : W → Prop)

/-- `Ends answer ok n p`: against surroundings that keep `ok` and answer each question
within the rounds its `ask` allows, `p` ends at the latest `n` rounds after the current one. -/
inductive Ends : {α : Type} → Nat → Program A α → Prop
  | pure {α : Type} (a : α) (n : Nat) : Ends n (.pure a)
  | ask {α : Type} {q : Q} {next : A q → Program A α} {d n : Nat}
      (hq : ∀ w, ok w → ok (answer q w).1 ∧ (answer q w).2.2 ≤ d)
      (hn : ∀ x, Ends n (next x)) : Ends (d + n) (.ask q next)
  | wait {α : Type} {next : Program A α} {n : Nat} (h : Ends n next) : Ends (n + 1) (.wait next)
  | both {α β γ : Type} {first : Program A β} {second : Program A γ}
      {next : β → γ → Program A α} {a b c : Nat} (h₁ : Ends a first) (h₂ : Ends b second)
      (h₃ : ∀ x y, Ends c (next x y)) : Ends (max a b + c) (.both first second next)

variable {answer ok}

/-- More rounds do no harm. -/
theorem Ends.mono {α : Type} {n m : Nat} {p : Program A α} (h : Ends answer ok n p)
    (hm : n ≤ m) : Ends answer ok m p := by
  induction h generalizing m with
  | pure a n => exact .pure a m
  | @ask α q next d n hq _ ih =>
    have e : m = d + (m - d) := by omega
    rw [e]
    exact .ask hq fun x => ih x (by omega)
  | wait _ ih =>
    obtain ⟨k, rfl⟩ : ∃ k, m = k + 1 := ⟨m - 1, by omega⟩
    exact .wait (ih (by omega))
  | @both α β γ first second next a b c _ _ _ ih₁ ih₂ ih₃ =>
    have e : m = max a b + (m - max a b) := by omega
    rw [e]
    exact .both (ih₁ (Nat.le_refl _)) (ih₂ (Nat.le_refl _)) fun x y => ih₃ x y (by omega)

/-- Waiting `d` rounds first costs `d` rounds. -/
theorem Ends.waits {α : Type} {n : Nat} {p : Program A α} (h : Ends answer ok n p) :
    ∀ d, Ends answer ok (d + n) (Program.waits d p)
  | 0 => by simpa [Program.waits] using h
  | d + 1 => by
    rw [Program.waits, show d + 1 + n = (d + n) + 1 by omega]
    exact .wait (Ends.waits h d)

/-- One program, then another: the rounds add up. -/
theorem Ends.bind {α β : Type} {a b : Nat} {p : Program A α} {f : α → Program A β}
    (hp : Ends answer ok a p) (hf : ∀ x, Ends answer ok b (f x)) :
    Ends answer ok (a + b) (Program.bind p f) := by
  induction hp with
  | pure x n => exact (hf x).mono (by omega)
  | ask hq _ ih =>
    rw [Program.bind, Nat.add_assoc]
    exact .ask hq fun x => ih x hf
  | wait _ ih =>
    rw [Program.bind, Nat.add_right_comm]
    exact .wait (ih hf)
  | both h₁ h₂ _ _ _ ih₃ =>
    rw [Program.bind, Nat.add_assoc]
    exact .both h₁ h₂ fun x y => ih₃ x y hf

/-- A program that waits for nothing, then one that ends within `n` rounds. -/
theorem Ends.then {α β : Type} {n : Nat} {p : Program A α}
    {f : α → Program A β} (hp : Ends answer ok 0 p) (hf : ∀ x, Ends answer ok n (f x)) :
    Ends answer ok n (p >>= f) :=
  (hp.bind hf).mono (by omega)

/-- A program that ends within `n` rounds, then one that waits for nothing. -/
theorem Ends.andThen {α β : Type} {n : Nat} {p : Program A α}
    {f : α → Program A β} (hp : Ends answer ok n p) (hf : ∀ x, Ends answer ok 0 (f x)) :
    Ends answer ok n (p >>= f) :=
  hp.bind hf

/-- One round of a program that ends within `n + 1` rounds leaves a rest that ends
within `n`; a program that ends within no further round ends in this one. -/
theorem Ends.poll {α : Type} {n : Nat} {p : Program A α} (h : Ends answer ok n p)
    {w : W} (hw : ok w) :
    ok (Program.poll answer w p).1 ∧
      ∀ rest, (Program.poll answer w p).2 = .inr rest → ∃ m, n = m + 1 ∧ Ends answer ok m rest := by
  induction h generalizing w with
  | pure a n => exact ⟨hw, by simp [Program.poll]⟩
  | @ask α q next d' n hq hn ih =>
    obtain ⟨hok, hd⟩ := hq w hw
    rcases hans : answer q w with ⟨w', x, d⟩
    rw [hans] at hok hd
    cases d with
    | zero =>
      obtain ⟨hok', hrest⟩ := ih x hok
      simp only [Program.poll, hans]
      refine ⟨hok', fun rest hr => ?_⟩
      obtain ⟨m, rfl, hm⟩ := hrest rest hr
      exact ⟨d' + m, by omega, hm.mono (by omega)⟩
    | succ d =>
      have hd : d + 1 ≤ d' := hd
      simp only [Program.poll, hans, Sum.inr.injEq]
      refine ⟨hok, fun rest hr => ⟨d' + n - 1, by omega, ?_⟩⟩
      subst hr
      exact ((hn x).waits d).mono (by omega)
  | wait h _ =>
    refine ⟨hw, fun rest hr => ⟨_, rfl, ?_⟩⟩
    simp only [Program.poll, Sum.inr.injEq] at hr
    exact hr ▸ h
  | @both α β γ first second next a b c h₁ h₂ h₃ ih₁ ih₂ ih₃ =>
    rcases hp₁ : Program.poll answer w first with ⟨w₁, s₁⟩
    rcases hp₂ : Program.poll answer w₁ second with ⟨w₂, s₂⟩
    obtain ⟨hok₁, hr₁⟩ := ih₁ hw
    rw [hp₁] at hok₁ hr₁
    obtain ⟨hok₂, hr₂⟩ := ih₂ hok₁
    rw [hp₂] at hok₂ hr₂
    cases s₁ with
    | inl x =>
      cases s₂ with
      | inl y =>
        obtain ⟨hok₃, hr₃⟩ := ih₃ x y hok₂
        simp only [Program.poll, hp₁, hp₂]
        refine ⟨hok₃, fun rest hr => ?_⟩
        obtain ⟨m, rfl, hm⟩ := hr₃ rest hr
        exact ⟨max a b + m, by omega, hm.mono (by omega)⟩
      | inr r =>
        obtain ⟨b', rfl, hb'⟩ := hr₂ r rfl
        simp only [Program.poll, hp₁, hp₂, Sum.inr.injEq]
        refine ⟨hok₂, fun rest hr => ⟨max a (b' + 1) + c - 1, by omega, ?_⟩⟩
        subst hr
        exact (Ends.both (.pure x 0) hb' h₃).mono (by omega)
    | inr r =>
      obtain ⟨a', rfl, ha'⟩ := hr₁ r rfl
      have hres₂ : ∃ b', Ends answer ok b' (Status.resume s₂) ∧ b' + 1 ≤ max (a' + 1) b := by
        cases s₂ with
        | inl y => exact ⟨0, .pure y 0, by omega⟩
        | inr r₂ => obtain ⟨m, hm, hr⟩ := hr₂ r₂ rfl; exact ⟨m, hr, by omega⟩
      obtain ⟨b', hb', hle⟩ := hres₂
      simp only [Program.poll, hp₁, hp₂, Sum.inr.injEq]
      refine ⟨hok₂, fun rest hr => ⟨max (a' + 1) b + c - 1, by omega, ?_⟩⟩
      subst hr
      exact (Ends.both ha' hb' h₃).mono (by omega)

/-- A program that ends within fewer rounds than it is given ends. -/
theorem Ends.run {α : Type} {n rounds : Nat} {p : Program A α} (h : Ends answer ok n p)
    {w : W} (hw : ok w) (hr : n < rounds) :
    ∃ w' a, Program.run answer rounds w p = (w', some a) := by
  induction rounds generalizing n p w with
  | zero => omega
  | succ rounds ih =>
    obtain ⟨hok, hrest⟩ := h.poll hw
    rcases hp : Program.poll answer w p with ⟨w', s⟩
    rw [hp] at hok hrest
    cases s with
    | inl a => exact ⟨w', a, by simp [Program.run, hp]⟩
    | inr rest =>
      obtain ⟨m, rfl, hm⟩ := hrest rest rfl
      simpa [Program.run, hp] using ih hm hok (by omega)

end Ends

end Program


open Program

/-- Every delay the server has set is at most `D` rounds. -/
def DelaysWithin (D : Nat) (w : World) : Prop :=
  ∀ e ∈ w.server.delays, e.2 ≤ D

/-- The rounds a command of the node switcher waits for its answer at most: `D` for a
request, none for the rest. -/
def Command.rounds (D : Nat) : Command → Nat
  | .send _ => D
  | _ => 0

/-- A request waits at most the longest delay. -/
theorem delayOf_le {D : Nat} {w : World} (h : DelaysWithin D w) (r : Request) :
    w.server.delayOf r ≤ D := by
  unfold Server.delayOf
  split
  · rename_i v _
    cases hl : w.server.delays.lookup v with
    | none => simp
    | some n =>
      obtain ⟨l₁, l₂, hs, -⟩ := List.lookup_eq_some_iff.mp hl
      exact h (v, n) (by simp [hs])
  · simp

/-- A command leaves the server as it is. -/
theorem World.perform_server (c : Command) (w : World) : (w.perform c).1.server = w.server := by
  cases c with
  | beginLoad s => cases s <;> rfl
  | _ => rfl

/-- A command keeps the delays bounded, and waits at most its rounds. -/
theorem perform_delays (D : Nat) (c : Command) (w : World) (h : DelaysWithin D w) :
    DelaysWithin D (w.perform c).1 ∧ (w.perform c).2.2 ≤ c.rounds D := by
  refine ⟨by rw [DelaysWithin, World.perform_server]; exact h, ?_⟩
  cases c <;> simp [World.perform, Command.rounds, delayOf_le h]

/-- A task of the node switcher ends within `n` rounds while the delays stay within `D`. -/
abbrev TaskEnds (D n : Nat) {α : Type} (t : Task α) : Prop :=
  Ends World.perform (DelaysWithin D) n t

namespace Task

/-- A command that is answered at once. -/
theorem ends_now {D : Nat} (c : Command) (hc : c.rounds D = 0) : TaskEnds D 0 (.ask c .pure) :=
  hc ▸ .ask (perform_delays D c) fun x => .pure x 0

/-- A request waits at most `D` rounds. -/
theorem ends_send {D : Nat} (r : Request) : TaskEnds D D (send r) :=
  .ask (perform_delays D (.send r)) fun x => .pure x 0

theorem ends_fetchChoices {D : Nat} (r : Request) : TaskEnds D D (fetchChoices r) := by
  unfold fetchChoices
  refine Ends.then (ends_now _ rfl) fun _ => Ends.andThen (ends_send r) fun res => ?_
  cases res with
  | error f => exact .pure _ 0
  | ok resp => dsimp only; split <;> exact .pure _ 0

theorem ends_load {D : Nat} (s : Selector) (r : Request) (pre : Option String) :
    TaskEnds D D (load s r pre) := by
  unfold load
  refine Ends.then (ends_now _ rfl) fun t => Ends.andThen (ends_fetchChoices r) fun res =>
    Ends.then (ends_now _ rfl) fun b => ?_
  split
  · exact Ends.then (ends_now _ rfl) fun _ => .pure _ 0
  · split <;> exact Ends.then (ends_now _ rfl) fun _ => Ends.then (ends_now _ rfl) fun _ => .pure _ 0

theorem ends_loadNodes {D : Nat} (e : Endpoints) : TaskEnds D D (loadNodes e) :=
  Ends.then (ends_now _ rfl) fun _ => ends_load _ _ _

/-- A cascade makes two requests, one after the other. -/
theorem ends_cascade {D : Nat} (e : Endpoints) (area : String) :
    TaskEnds D (D + D) (cascade e area) := by
  unfold cascade
  refine (ends_load _ _ _).bind fun res => ?_
  split
  · exact .pure _ D
  · exact .pure _ D
  · exact Ends.andThen (ends_loadNodes e) fun r => by split <;> exact .pure _ 0

theorem ends_loadCountries {D : Nat} (e : Endpoints) : TaskEnds D (D + D) (loadCountries e) :=
  Ends.then (ends_now _ rfl) fun _ => ends_cascade e _

/-- A set-up runs a cascade, or two loads side by side. -/
theorem ends_setUp {D : Nat} (e : Endpoints) (c : PageConfig) : TaskEnds D (D + D) (setUp e c) := by
  unfold setUp
  split
  · exact .pure _ _
  · refine Ends.then (ends_now _ (by rfl)) fun vs => ?_
    dsimp only
    -- the area is selected, or its absence recorded; then the same two ways on
    split <;> refine Ends.then (ends_now _ (by rfl)) fun _ => ?_ <;> split
    · exact Ends.then (ends_now _ (by rfl)) fun _ => Ends.andThen (ends_cascade e _) fun _ => .pure _ 0
    · exact (Ends.andThen (Ends.both (ends_load _ _ _) (ends_load _ _ _) fun _ _ => .pure _ 0)
        fun _ => .pure _ 0).mono (by omega)
    · exact Ends.then (ends_now _ (by rfl)) fun _ => Ends.andThen (ends_cascade e _) fun _ => .pure _ 0
    · exact (Ends.andThen (Ends.both (ends_load _ _ _) (ends_load _ _ _) fun _ _ => .pure _ 0)
        fun _ => .pure _ 0).mono (by omega)

theorem ends_submit {D : Nat} (e : Endpoints) : TaskEnds D D (submit e) := by
  unfold submit
  refine Ends.then (ends_now _ (by rfl)) fun node => ?_
  split
  · exact Ends.then (ends_now _ (by rfl)) fun _ => .pure _ D
  · refine Ends.then (ends_now _ (by rfl)) fun _ => Ends.andThen (ends_send _) fun res =>
      Ends.then (ends_now _ (by rfl)) fun _ => ?_
    split
    · split <;> exact Ends.then (ends_now _ (by rfl)) fun _ =>
        Ends.then (ends_now _ (by rfl)) fun _ => .pure _ 0
    · exact Ends.then (ends_now _ (by rfl)) fun _ => Ends.then (ends_now _ (by rfl)) fun _ => .pure _ 0

end Task

/-- A program of a session ends within `n` rounds while the delays stay within `D`. -/
abbrev ScriptEnds (D n : Nat) {α : Type} (p : Script α) : Prop :=
  Ends World.answer (DelaysWithin D) n p

/-- A task in a session ends within the same rounds. -/
theorem TaskEnds.widen {D n : Nat} {α : Type} {t : Task α} (h : TaskEnds D n t) :
    ScriptEnds D n (Program.widen t) := by
  induction h with
  | pure a n => exact .pure a n
  | ask hq _ ih =>
    rw [Program.widen]
    exact .ask hq ih
  | wait _ ih =>
    rw [Program.widen]
    exact .wait ih
  | both _ _ _ ih₁ ih₂ ih₃ =>
    rw [Program.widen]
    exact .both ih₁ ih₂ ih₃

theorem Script.ends_task {D n : Nat} {α : Type} {t : Task α} (h : TaskEnds D n t)
    (f : α → Outcome) : ScriptEnds D n (Script.task t f) :=
  h.widen.bind fun a => .pure (f a) 0

theorem Script.ends_perform {D : Nat} (c : Command) (hc : c.rounds D = 0) :
    ScriptEnds D 0 (Script.perform c) := by
  unfold Script.perform
  exact (@Ends.ask _ _ _ World.answer _ _ (.inl c) _ (c.rounds D) 0 (perform_delays D c)
    fun _ => .pure _ 0).mono (by simp [hc])

/-- A setup keeps the delays within `D` if the delay it sets is. -/
theorem arrange_delays {D : Nat} (a : Setup) (ha : ∀ v n, a = .delay v n → n ≤ D) (w : World)
    (h : DelaysWithin D w) : DelaysWithin D (w.arrange a).1 ∧ (w.arrange a).2.2 ≤ 0 := by
  cases a with
  | selectValue => exact ⟨h, Nat.le_refl _⟩
  | script path value r => cases value <;> exact ⟨h, Nat.le_refl _⟩
  | delay v n =>
    refine ⟨fun x hx => ?_, Nat.le_refl _⟩
    simp only [World.arrange, Server.delay, putEntry, List.mem_cons, List.mem_filter] at hx
    rcases hx with rfl | ⟨hx, -⟩
    · exact ha v n rfl
    · exact h x hx

theorem Script.ends_arrange {D : Nat} (a : Setup) (ha : ∀ v n, a = .delay v n → n ≤ D) :
    ScriptEnds D 0 (Script.arrange a) := by
  unfold Script.arrange
  exact @Ends.ask _ _ _ World.answer _ _ (.inr a) _ 0 0 (arrange_delays a ha) fun _ => .pure _ 0

mutual

/-- An operation takes at most `2 D` rounds for each operation in it. -/
theorem Op.ends_program (e : Endpoints) {D : Nat} :
    (op : Op) → op.maxDelay ≤ D → ScriptEnds D (2 * D * op.size) (op.program e)
  | .setOptions s cs, _ => (Script.ends_perform _ rfl).mono (Nat.zero_le _)
  | .selectValue s v, _ => (Script.ends_arrange _ (by simp)).mono (Nat.zero_le _)
  | .selectIndex s i, _ => (Script.ends_perform _ rfl).mono (Nat.zero_le _)
  | .script path value r, _ => (Script.ends_arrange _ (by simp)).mono (Nat.zero_le _)
  | .delay value n, h => (Script.ends_arrange _ (by simpa [Op.maxDelay] using h)).mono (Nat.zero_le _)
  | .loadCountries, _ => (Script.ends_task (Task.ends_loadCountries e) _).mono (by simp [Op.size]; omega)
  | .loadNodes, _ => (Script.ends_task (Task.ends_loadNodes e) _).mono (by simp [Op.size]; omega)
  | .setUp (.error f), _ => .pure _ _
  | .setUp (.ok c), _ => (Script.ends_task (Task.ends_setUp e c) _).mono (by simp [Op.size]; omega)
  | .submit, _ => (Script.ends_task (Task.ends_submit e) _).mono (by simp [Op.size]; omega)
  | .fetch k v, _ => (Script.ends_task (Task.ends_fetchChoices _) _).mono (by simp [Op.size]; omega)
  | .join bs, h => by
    refine ((Op.ends_branchPrograms e bs (by simpa [Op.maxDelay] using h)).bind
      fun rs => .pure _ 0).mono ?_
    rw [Op.size, Nat.mul_add]
    omega
  | .unreadable why, _ => .pure _ _

/-- Operations one after another take the sum of their rounds. -/
theorem Op.ends_listProgram (e : Endpoints) {D : Nat} :
    (ops : List Op) → Op.listMaxDelay ops ≤ D →
      ScriptEnds D (2 * D * Op.listSize ops) (Op.listProgram e ops)
  | [], _ => .pure _ _
  | op :: ops, h => by
    simp only [Op.listMaxDelay, Nat.max_le] at h
    refine ((Op.ends_program e op h.1).bind fun r =>
      (Op.ends_listProgram e ops h.2).bind fun rs => .pure _ 0).mono ?_
    rw [Op.listSize, Nat.mul_add]
    omega

/-- Lists of operations side by side take the longest of their rounds, at most their sum. -/
theorem Op.ends_branchPrograms (e : Endpoints) {D : Nat} :
    (bs : List (List Op)) → Op.branchesMaxDelay bs ≤ D →
      ScriptEnds D (2 * D * Op.branchesSize bs) (Op.branchPrograms e bs)
  | [], _ => .pure _ _
  | ops :: more, h => by
    simp only [Op.branchesMaxDelay, Nat.max_le] at h
    refine (Ends.both (Op.ends_listProgram e ops h.1) (Op.ends_branchPrograms e more h.2)
      fun r rs => .pure _ 0).mono ?_
    rw [Op.branchesSize, Nat.mul_add]
    omega

end

/-- The largest of a list of numbers, from a start, is at least the start and each of them. -/
theorem le_foldl_max : ∀ (l : List Nat) (a : Nat), a ≤ l.foldl max a ∧ ∀ x ∈ l, x ≤ l.foldl max a
  | [], a => ⟨Nat.le_refl a, by simp⟩
  | y :: l, a => by
    obtain ⟨h₁, h₂⟩ := le_foldl_max l (max a y)
    refine ⟨Nat.le_trans (Nat.le_max_left a y) h₁, fun x hx => ?_⟩
    rcases List.mem_cons.mp hx with rfl | hx
    · exact Nat.le_trans (Nat.le_max_right a x) h₁
    · exact h₂ x hx

/-- A step ends within the rounds it is given: its run never runs out of rounds. -/
theorem Session.run_ends (e : Endpoints) (w : World) (op : Op) :
    ∃ w' r, Program.run World.answer (Session.rounds w op) { w with sent := [], events := [] }
      (op.program e) = (w', some r) := by
  let D := max op.maxDelay ((w.server.delays.map Prod.snd).foldl max 0)
  have hok : DelaysWithin D { w with sent := [], events := [] } := fun x hx =>
    Nat.le_trans ((le_foldl_max _ 0).2 x.2 (List.mem_map_of_mem hx)) (Nat.le_max_right _ _)
  have hends : ScriptEnds D (2 * D * op.size) (op.program e) :=
    Op.ends_program e op (Nat.le_max_left _ _)
  refine hends.run hok ?_
  show 2 * D * op.size < 2 + 2 * op.size * (D + 1)
  rw [Nat.mul_add, Nat.mul_one, Nat.mul_right_comm]
  omega

/-- A run that ends gives the step its world and outcome. -/
theorem Session.step_of_run {e : Endpoints} {w w' : World} {op : Op} {r : Outcome}
    (h : Program.run World.answer (Session.rounds w op) { w with sent := [], events := [] }
      (op.program e) = (w', some r)) : Session.step e w op = (w', r) := by
  simp [Session.step, h]

end NodeSwitcher
