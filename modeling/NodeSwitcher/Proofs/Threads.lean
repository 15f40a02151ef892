import Mathlib.Logic.Relation
import NodeSwitcher.Program
/-!
# Threads of a program, and what each may rely on

A program that runs two programs side by side is a tree of threads. A `Path` names one: the
turns that lead to it from the whole program, `false` into the first of two programs run side
by side and `true` into the second. `Program.pollAt` is `Program.poll` against surroundings
that see which thread asks; surroundings that project onto ones that do not look give the
same rounds (`map_pollAt`, `map_runAt`).

`WP answer I π p w Φ` is a weakest precondition for the thread at `π` running `p` from `w`
among other threads. Other threads run only while it waits. `I` is what every thread leaves
the world in when it gives up its turn, and what it may assume when it resumes; in between,
the world may move by answers to questions of threads outside its subtree (`Rely`). Of two
programs side by side, each leaves a fact that the other cannot disturb (`Leaves`), and the
program after them starts from both facts.

`WP.pollAt` is the logic's soundness for one round; `WP.runAt` and `WP.pausesAt` for a whole
run: a run that ends satisfies `Φ`, and `I` holds at each of its scheduling points.
-/

namespace NodeSwitcher

/-- A thread of a program: the turns from the whole program to it, `false` into the first of
two programs run side by side and `true` into the second. -/
abbrev Path := List Bool

namespace Path

/-- The two halves of a thread's pair of programs lie apart. -/
theorem not_right_of_left {π p : Path} (h : π ++ [false] <+: p) : ¬ π ++ [true] <+: p := by
  intro h'
  have e := List.prefix_of_prefix_length_le h h' (by simp)
  simp at e

theorem not_left_of_right {π p : Path} (h : π ++ [true] <+: p) : ¬ π ++ [false] <+: p :=
  fun h' => not_right_of_left h' h

theorem prefix_of_child {π p : Path} {b : Bool} (h : π ++ [b] <+: p) : π <+: p :=
  (List.prefix_append π [b]).trans h

theorem ne_of_child {π p : Path} {b : Bool} (h : π ++ [b] <+: p) : p ≠ π := by
  rintro rfl
  have hl := h.length_le
  rw [List.length_append, List.length_singleton] at hl
  omega

theorem not_child {π p : Path} {b : Bool} (h : ¬ π <+: p) : ¬ π ++ [b] <+: p :=
  fun h' => h (prefix_of_child h')

theorem ne_of_not_prefix {π p : Path} (h : ¬ π <+: p) : p ≠ π := by
  rintro rfl
  exact h (List.prefix_refl p)

/-- A thread's subtree is the thread, and the subtrees of its two halves. -/
theorem eq_or_child {π p : Path} (h : π <+: p) :
    p = π ∨ π ++ [false] <+: p ∨ π ++ [true] <+: p := by
  obtain ⟨u, rfl⟩ := h
  cases u with
  | nil => exact .inl (List.append_nil π)
  | cons b u =>
    right
    cases b with
    | false => exact .inl ⟨u, by simp⟩
    | true => exact .inr ⟨u, by simp⟩

end Path

namespace Program

variable {Q : Type} {A : Q → Type} {W : Type}

section Threads

variable (answer : Path → (q : Q) → W → W × A q × Nat)

/-- One round of the thread at `π`, against surroundings that see which thread asks: as
`Program.poll`, the first of two programs side by side running at `π ++ [false]` and the
second at `π ++ [true]`. -/
def pollAt {α : Type} (π : Path) (w : W) : Program A α → W × Status A α
  | .pure a => (w, .inl a)
  | .ask q next =>
    let (w', x, delay) := answer π q w
    match delay with
    | 0 => pollAt π w' (next x)
    | d + 1 => (w', .inr (waits d (next x)))
  | .wait next => (w, .inr next)
  | .both first second next =>
    let (w₁, s₁) := pollAt (π ++ [false]) w first
    let (w₂, s₂) := pollAt (π ++ [true]) w₁ second
    match s₁, s₂ with
    | .inl b, .inl c => pollAt π w₂ (next b c)
    | _, _ => (w₂, .inr (.both s₁.resume s₂.resume next))

/-- Runs rounds of the thread at `π` until it ends, at most `rounds` of them. -/
def runAt {α : Type} (π : Path) : Nat → W → Program A α → W × Option α
  | 0, w, _ => (w, none)
  | rounds + 1, w, p =>
    match pollAt answer π w p with
    | (w', .inl a) => (w', some a)
    | (w', .inr rest) => runAt π rounds w' rest

/-- The scheduling points of a run: the world after each round that did not end it. -/
def pausesAt {α : Type} (π : Path) : Nat → W → Program A α → List W
  | 0, _, _ => []
  | rounds + 1, w, p =>
    match pollAt answer π w p with
    | (_, .inl _) => []
    | (w', .inr rest) => w' :: pausesAt π rounds w' rest

end Threads

section Map

variable {V : Type} (answer' : Path → (q : Q) → V → V × A q × Nat)
  (answer : (q : Q) → W → W × A q × Nat) (f : V → W)

/-- Rounds against richer surroundings, seen through a projection that commutes with
answering, are the rounds against the projected ones. -/
theorem map_pollAt (hf : ∀ π q v, Prod.map f id (answer' π q v) = answer q (f v))
    {α : Type} (p : Program A α) : ∀ (π : Path) (v : V),
    Prod.map f id (pollAt answer' π v p) = poll answer (f v) p := by
  induction p with
  | pure a => intro π v; rfl
  | ask q next ih =>
    intro π v
    have e := hf π q v
    rcases hans : answer' π q v with ⟨v', x, d⟩
    rw [hans] at e
    simp only [Prod.map, id] at e
    cases d with
    | zero => simp only [pollAt, poll, hans, ← e, ih x π v']
    | succ d => simp only [pollAt, poll, hans, ← e, Prod.map, id]
  | wait next => intro π v; rfl
  | both first second next ih₁ ih₂ ih₃ =>
    intro π v
    have e₁ := ih₁ (π ++ [false]) v
    rcases hp₁ : pollAt answer' (π ++ [false]) v first with ⟨v₁, s₁⟩
    rw [hp₁] at e₁
    have e₂ := ih₂ (π ++ [true]) v₁
    rcases hp₂ : pollAt answer' (π ++ [true]) v₁ second with ⟨v₂, s₂⟩
    rw [hp₂] at e₂
    simp only [Prod.map, id] at e₁ e₂
    cases s₁ with
    | inl b =>
      cases s₂ with
      | inl c =>
        simp only [pollAt, poll, hp₁, hp₂, ← e₁, ← e₂]
        exact ih₃ b c π v₂
      | inr r₂ => simp only [pollAt, poll, hp₁, hp₂, ← e₁, ← e₂, Prod.map, id]
    | inr r₁ => cases s₂ <;> simp only [pollAt, poll, hp₁, hp₂, ← e₁, ← e₂, Prod.map, id]

theorem map_runAt (hf : ∀ π q v, Prod.map f id (answer' π q v) = answer q (f v))
    {α : Type} (π : Path) (n : Nat) : ∀ (v : V) (p : Program A α),
    Prod.map f id (runAt answer' π n v p) = run answer n (f v) p := by
  induction n with
  | zero => intro v p; rfl
  | succ n ih =>
    intro v p
    have e := map_pollAt answer' answer f hf p π v
    rcases hp : pollAt answer' π v p with ⟨v', s⟩
    rw [hp] at e
    simp only [Prod.map, id] at e
    cases s with
    | inl a => simp only [runAt, run, hp, ← e, Prod.map, id]
    | inr rest =>
      simp only [runAt, run, hp, ← e]
      exact ih v' rest

end Map

section Logic

variable (answer : Path → (q : Q) → W → W × A q × Nat)

/-- The worlds reached from `w` by answering questions of threads in `S`, any number of them in
any order. -/
def Moves (S : Path → Prop) : W → W → Prop :=
  Relation.ReflTransGen fun w w' => ∃ π q, S π ∧ w' = (answer π q w).1

/-- What the thread at `π` may find when it resumes: the world moved by threads outside its
subtree. -/
abbrev Rely (π : Path) : W → W → Prop :=
  Moves answer fun π' => ¬ π <+: π'

variable {answer}

theorem Moves.mono {S S' : Path → Prop} (hS : ∀ π, S π → S' π) {w w' : W}
    (h : Moves answer S w w') : Moves answer S' w w' :=
  Relation.ReflTransGen.mono (fun _ _ ⟨π, q, hπ, e⟩ => ⟨π, q, hS π hπ, e⟩) _ _ h

theorem Moves.trans {S : Path → Prop} {w w' w'' : W} (h : Moves answer S w w')
    (h' : Moves answer S w' w'') : Moves answer S w w'' :=
  Relation.ReflTransGen.trans h h'

theorem Moves.head {S : Path → Prop} {π : Path} (hπ : S π) (q : Q) {w w' : W}
    (h : Moves answer S (answer π q w).1 w') : Moves answer S w w' :=
  Relation.ReflTransGen.head ⟨π, q, hπ, rfl⟩ h

variable (answer) (I : W → Prop)

/-- What the thread at `π` needs of its continuation `K` once it has left the world `w` with an
answer `d` rounds away: at once, `K w`; later, that `w` satisfies `I`, and `K` in every world
satisfying `I` that threads outside its subtree may lead to. -/
def Await (π : Path) (d : Nat) (w : W) (K : W → Prop) : Prop :=
  if d = 0 then K w else I w ∧ ∀ w', I w' → Rely answer π w w' → K w'

/-- A fact `P` that the thread at `π` leaves behind when it ends, for the program after it:
the world satisfies `I`, and `P` holds wherever threads outside its subtree may lead. -/
def Leaves {β : Type} (π : Path) (P : β → W → Prop) (b : β) (w : W) : Prop :=
  I w ∧ ∀ w', Rely answer π w w' → P b w'

/-- `WP answer I π p w Φ`: the thread at `π`, running `p` from `w` among threads that keep `I`
at their scheduling points, keeps `I` at its own and ends in a world satisfying `Φ`. Of two
programs side by side, the first starts at once and the second after the first's round; each
leaves a fact the other cannot disturb, and the program after them starts from both, in a
world that only their threads moved. -/
def WP {α : Type} (π : Path) : Program A α → W → (α → W → Prop) → Prop
  | .pure a, w, Φ => Φ a w
  | .ask q next, w, Φ =>
    Await answer I π (answer π q w).2.2 (answer π q w).1 fun w' =>
      WP π (next (answer π q w).2.1) w' Φ
  | .wait next, w, Φ => Await answer I π 1 w fun w' => WP π next w' Φ
  | .both first second next, w, Φ =>
    ∃ (P : _ → W → Prop) (P' : _ → W → Prop),
      WP (π ++ [false]) first w (Leaves answer I (π ++ [false]) P) ∧
      (∀ w₁, I w₁ → Rely answer (π ++ [true]) w w₁ →
        WP (π ++ [true]) second w₁ (Leaves answer I (π ++ [true]) P')) ∧
      ∀ b c w₂, P b w₂ → P' c w₂ → I w₂ → Moves answer (· ≠ π) w w₂ →
        WP π (next b c) w₂ Φ

/-- What a round of the thread at `π` promises: the value it ended with satisfies `Φ`; or the
world it leaves satisfies `I`, and the rest is safe from every world satisfying `I` that threads
outside its subtree may lead to. -/
def After {α : Type} (π : Path) (Φ : α → W → Prop) (w : W) : Status A α → Prop
  | .inl a => Φ a w
  | .inr rest => Await answer I π 1 w fun w' => WP answer I π rest w' Φ

variable {answer I}

theorem Await.of_zero {π : Path} {w : W} {K : W → Prop} (h : Await answer I π 0 w K) : K w := by
  simpa [Await] using h

theorem Await.of_succ {π : Path} {d : Nat} {w : W} {K : W → Prop}
    (h : Await answer I π (d + 1) w K) : I w ∧ ∀ w', I w' → Rely answer π w w' → K w' := by
  simpa [Await] using h

theorem Await.mono {π : Path} {d : Nat} {w : W} {K K' : W → Prop} (hK : ∀ w, K w → K' w)
    (h : Await answer I π d w K) : Await answer I π d w K' := by
  unfold Await at *
  split
  · next hd => simp only [hd, if_true] at h; exact hK w h
  · next hd =>
    simp only [hd, if_false] at h
    exact ⟨h.1, fun w' hI hR => hK w' (h.2 w' hI hR)⟩

/-- A continuation that holds wherever threads outside the subtree may lead. -/
theorem Await.mono_rely {π : Path} {d : Nat} {w : W} {K K' : W → Prop}
    (hK : ∀ w', Rely answer π w w' → K w' → K' w')
    (h : Await answer I π d w K) : Await answer I π d w K' := by
  unfold Await at *
  split
  · next hd => simp only [hd, if_true] at h; exact hK w .refl h
  · next hd =>
    simp only [hd, if_false] at h
    exact ⟨h.1, fun w' hI hR => hK w' hR (h.2 w' hI hR)⟩

/-- A world satisfying `I` from which every move of others leads to `K` suffices. -/
theorem Await.of_rely {π : Path} {d : Nat} {w : W} {K : W → Prop} (hI : I w)
    (hK : ∀ w', Rely answer π w w' → K w') : Await answer I π d w K := by
  unfold Await
  split
  · exact hK w .refl
  · exact ⟨hI, fun w' _ hR => hK w' hR⟩

theorem Await.congr {π : Path} {d : Nat} {w : W} {K K' : W → Prop} (h : ∀ w', K w' ↔ K' w') :
    Await answer I π d w K ↔ Await answer I π d w K' := by
  have e : K = K' := funext fun w' => propext (h w')
  rw [e]

theorem Leaves.inv {β : Type} {π : Path} {P : β → W → Prop} {b : β} {w : W}
    (h : Leaves answer I π P b w) : I w :=
  h.1

/-- What a thread leaves stays true while threads outside its subtree move. -/
theorem Leaves.stable {β : Type} {π : Path} {P : β → W → Prop} {b : β} {w w' : W}
    (h : Leaves answer I π P b w) (hI : I w') (hR : Rely answer π w w') :
    Leaves answer I π P b w' :=
  ⟨hI, fun w'' hR' => h.2 w'' (hR.trans hR')⟩

/-- A larger post is implied. -/
theorem WP.mono {α : Type} {π : Path} {p : Program A α} {w : W} {Φ Ψ : α → W → Prop}
    (hΦ : ∀ a w, Φ a w → Ψ a w) (h : WP answer I π p w Φ) : WP answer I π p w Ψ := by
  induction p generalizing π w with
  | pure a => exact hΦ a w h
  | ask q next ih => exact Await.mono (fun w' h' => ih _ hΦ h') h
  | wait next ih => exact Await.mono (fun w' h' => ih hΦ h') h
  | both first second next _ _ ih₃ =>
    obtain ⟨P, P', h₁, h₂, h₃⟩ := h
    exact ⟨P, P', h₁, h₂, fun b c w₂ hP hP' hI hm => ih₃ b c hΦ (h₃ b c w₂ hP hP' hI hm)⟩

theorem WP.congr {α : Type} {π : Path} {p : Program A α} {w : W} {Φ Ψ : α → W → Prop}
    (h : ∀ a w, Φ a w ↔ Ψ a w) : WP answer I π p w Φ ↔ WP answer I π p w Ψ := by
  have e : Φ = Ψ := funext fun a => funext fun w => propext (h a w)
  rw [e]

/-- A safe thread also ends in a world reached from where it started. -/
theorem WP.track {α : Type} {π : Path} {p : Program A α} {w : W} {Φ : α → W → Prop}
    (h : WP answer I π p w Φ) :
    WP answer I π p w fun a w' => Φ a w' ∧ Moves answer (fun _ => True) w w' := by
  induction p generalizing π w with
  | pure a => exact ⟨h, .refl⟩
  | ask q next ih =>
    refine Await.mono_rely (fun w' hR h' => (ih _ h').mono ?_) h
    exact fun a w'' ⟨hΦ, hm'⟩ =>
      ⟨hΦ, Moves.head (π := π) (q := q) trivial ((hR.mono fun _ _ => trivial).trans hm')⟩
  | wait next ih =>
    exact Await.mono_rely (fun w' hR h' => (ih h').mono fun a w'' ⟨hΦ, hm'⟩ =>
      ⟨hΦ, (hR.mono fun _ _ => trivial).trans hm'⟩) h
  | both first second next _ _ ih₃ =>
    obtain ⟨P, P', h₁, h₂, h₃⟩ := h
    refine ⟨P, P', h₁, h₂, fun b c w₂ hP hP' hI hm => ?_⟩
    exact (ih₃ b c (h₃ b c w₂ hP hP' hI hm)).mono fun a w₃ ⟨hΦ, hm'⟩ =>
      ⟨hΦ, (hm.mono fun _ _ => trivial).trans hm'⟩

/-- Every program is safe for nothing in particular. -/
theorem WP.triv {α : Type} {π : Path} {p : Program A α} {w : W} :
    WP answer (fun _ => True) π p w fun _ _ => True := by
  induction p generalizing π w with
  | pure a => trivial
  | ask q next ih => exact Await.of_rely trivial fun _ _ => ih _
  | wait next ih => exact Await.of_rely trivial fun _ _ => ih
  | both first second next ih₁ ih₂ ih₃ =>
    refine ⟨fun _ _ => True, fun _ _ => True, ?_, fun _ _ _ => ?_, fun _ _ _ _ _ _ _ => ih₃ _ _⟩
    · exact ih₁.mono fun _ _ _ => ⟨trivial, fun _ _ => trivial⟩
    · exact ih₂.mono fun _ _ _ => ⟨trivial, fun _ _ => trivial⟩

/-- One program and then another: safe when the first ends where the second is safe. -/
theorem WP.bind {α β : Type} {π : Path} {p : Program A α} {f : α → Program A β} {w : W}
    {Φ : β → W → Prop} :
    WP answer I π (p.bind f) w Φ ↔ WP answer I π p w fun a w' => WP answer I π (f a) w' Φ := by
  induction p generalizing w with
  | pure a => rfl
  | ask q next ih =>
    simp only [Program.bind, WP]
    unfold Await
    split <;> simp only [ih]
  | wait next ih =>
    simp only [Program.bind, WP, Await, Nat.one_ne_zero, if_false, ih]
  | both first second next _ _ ih₃ =>
    simp only [Program.bind, WP, ih₃]

/-- Waiting a few rounds: safe from wherever the world may go meanwhile. -/
theorem WP.waits {α : Type} {π : Path} {r : Program A α} {Φ : α → W → Prop} {w : W}
    (h : ∀ w', I w' → Rely answer π w w' → WP answer I π r w' Φ) (d : Nat) :
    ∀ w', I w' → Rely answer π w w' → WP answer I π (Program.waits d r) w' Φ := by
  induction d with
  | zero => exact h
  | succ d ih =>
    intro w' hI hR
    simp only [Program.waits, WP, Await, Nat.one_ne_zero, if_false]
    exact ⟨hI, fun w'' hI' hR' => ih w'' hI' (hR.trans hR')⟩

/-- The rest of a thread whose post stays true while others move is safe when it resumes. -/
theorem After.resume {α : Type} {π : Path} {Φ : α → W → Prop}
    (hΦ : ∀ a w w', Φ a w → I w' → Rely answer π w w' → Φ a w') {w : W} {s : Status A α}
    (h : After answer I π Φ w s) {w' : W} (hI : I w') (hR : Rely answer π w w') :
    WP answer I π s.resume w' Φ := by
  cases s with
  | inl a => exact hΦ a w w' h hI hR
  | inr rest => exact (Await.of_succ (d := 0) h).2 w' hI hR

theorem After.inv {α : Type} {π : Path} {Φ : α → W → Prop} (hΦ : ∀ a w, Φ a w → I w) {w : W}
    {s : Status A α} (h : After answer I π Φ w s) : I w := by
  cases s with
  | inl a => exact hΦ a w h
  | inr rest => exact (Await.of_succ (d := 0) h).1

/-- Soundness for one round: a round of a safe thread moves the world only by questions of
its subtree, and leaves what `After` promises. -/
theorem WP.pollAt {α : Type} {π : Path} {p : Program A α} {w : W} {Φ : α → W → Prop}
    (h : WP answer I π p w Φ) :
    Moves answer (π <+: ·) w (Program.pollAt answer π w p).1 ∧
      After answer I π Φ (Program.pollAt answer π w p).1 (Program.pollAt answer π w p).2 := by
  induction p generalizing π w with
  | pure a => exact ⟨.refl, h⟩
  | ask q next ih =>
    simp only [WP] at h
    rcases hans : answer π q w with ⟨w', x, d⟩
    rw [hans] at h
    have step : Moves answer (π <+: ·) w w' :=
      Moves.head (q := q) (List.prefix_refl π) (by rw [hans]; exact .refl)
    cases d with
    | zero =>
      obtain ⟨hm, ha⟩ := ih x h.of_zero
      simp only [Program.pollAt, hans]
      exact ⟨step.trans hm, ha⟩
    | succ d =>
      obtain ⟨hI, hK⟩ := h.of_succ
      simp only [Program.pollAt, hans]
      exact ⟨step, by simpa [After, Await] using ⟨hI, WP.waits hK d⟩⟩
  | wait next => exact ⟨.refl, h⟩
  | both first second next ih₁ ih₂ ih₃ =>
    obtain ⟨P, P', h₁, h₂, h₃⟩ := h
    -- the first program's round
    rcases hp₁ : Program.pollAt answer (π ++ [false]) w first with ⟨w₁, s₁⟩
    obtain ⟨hm₁, ha₁⟩ := ih₁ h₁
    rw [hp₁] at hm₁ ha₁
    have hI₁ : I w₁ := ha₁.inv fun _ _ h => h.inv
    -- the second program's round, from where the first left the world
    rcases hp₂ : Program.pollAt answer (π ++ [true]) w₁ second with ⟨w₂, s₂⟩
    obtain ⟨hm₂, ha₂⟩ := ih₂ (h₂ w₁ hI₁ (hm₁.mono fun _ => Path.not_right_of_left))
    rw [hp₂] at hm₂ ha₂
    have hI₂ : I w₂ := ha₂.inv fun _ _ h => h.inv
    have hm : Moves answer (π <+: ·) w w₂ :=
      (hm₁.mono fun _ => Path.prefix_of_child).trans (hm₂.mono fun _ => Path.prefix_of_child)
    have hm' : Moves answer (· ≠ π) w w₂ :=
      (hm₁.mono fun _ => Path.ne_of_child).trans (hm₂.mono fun _ => Path.ne_of_child)
    -- unless both ended, the pair waits, and resumes from wherever others lead
    have suspended : After answer I π Φ w₂ (.inr (.both s₁.resume s₂.resume next)) := by
      simp only [After, Await, Nat.one_ne_zero, if_false]
      refine ⟨hI₂, fun w' hI hR => ⟨P, P', ?_, fun w'' hI' hR' => ?_, ?_⟩⟩
      · refine ha₁.resume (fun _ _ _ h hI hR => h.stable hI hR) hI ?_
        exact (hm₂.mono fun _ => Path.not_left_of_right).trans (hR.mono fun _ => Path.not_child)
      · exact ha₂.resume (fun _ _ _ h hI hR => h.stable hI hR) hI'
          ((hR.mono fun _ => Path.not_child).trans hR')
      · exact fun b c w₃ hP hP' hI₃ hm₃ =>
          h₃ b c w₃ hP hP' hI₃ (hm'.trans ((hR.mono fun _ => Path.ne_of_not_prefix).trans hm₃))
    cases s₁ with
    | inl b =>
      cases s₂ with
      | inl c =>
        -- both ended: the program after them runs in the same round
        have hP : P b w₂ := ha₁.2 w₂ (hm₂.mono fun _ => Path.not_left_of_right)
        have hP' : P' c w₂ := ha₂.2 w₂ .refl
        obtain ⟨hm₃, ha₃⟩ := ih₃ b c (h₃ b c w₂ hP hP' hI₂ hm')
        simp only [Program.pollAt, hp₁, hp₂]
        exact ⟨hm.trans hm₃, ha₃⟩
      | inr r₂ =>
        simp only [Program.pollAt, hp₁, hp₂]
        exact ⟨hm, suspended⟩
    | inr r₁ =>
      cases s₂ <;> simp only [Program.pollAt, hp₁, hp₂] <;> exact ⟨hm, suspended⟩

/-- Soundness for a run: a run of a safe thread that ends satisfies its post. -/
theorem WP.runAt {α : Type} {π : Path} (n : Nat) :
    ∀ {p : Program A α} {w : W} {Φ : α → W → Prop}, WP answer I π p w Φ →
      ∀ a, (Program.runAt answer π n w p).2 = some a → Φ a (Program.runAt answer π n w p).1 := by
  induction n with
  | zero => intro p w Φ _ a h; simp [Program.runAt] at h
  | succ n ih =>
    intro p w Φ h a hr
    obtain ⟨-, ha⟩ := h.pollAt
    rcases hp : Program.pollAt answer π w p with ⟨w', s⟩
    rw [hp] at ha
    cases s with
    | inl b =>
      simp only [Program.runAt, hp, Option.some.injEq] at hr ⊢
      exact hr ▸ ha
    | inr rest =>
      simp only [Program.runAt, hp] at hr ⊢
      have hI := (Await.of_succ (d := 0) ha).1
      exact ih ((Await.of_succ (d := 0) ha).2 w' hI .refl) a hr

/-- Soundness at the scheduling points: every world a safe thread pauses in satisfies `I`. -/
theorem WP.pausesAt {α : Type} {π : Path} (n : Nat) :
    ∀ {p : Program A α} {w : W} {Φ : α → W → Prop}, WP answer I π p w Φ →
      ∀ v ∈ Program.pausesAt answer π n w p, I v := by
  induction n with
  | zero => intro p w Φ _ v hv; simp [Program.pausesAt] at hv
  | succ n ih =>
    intro p w Φ h v hv
    obtain ⟨-, ha⟩ := h.pollAt
    rcases hp : Program.pollAt answer π w p with ⟨w', s⟩
    rw [hp] at ha
    cases s with
    | inl b => simp [Program.pausesAt, hp] at hv
    | inr rest =>
      simp only [Program.pausesAt, hp, List.mem_cons] at hv
      obtain ⟨hI, hK⟩ := Await.of_succ (d := 0) ha
      rcases hv with rfl | hv
      · exact hI
      · exact ih (hK w' hI .refl) v hv

end Logic

end Program

end NodeSwitcher
