import NodeSwitcher.Proofs.Rounds
import NodeSwitcher.Proofs.Threads
/-!
# The log of a step

To say what the threads of a step did, a step is run against a `Traced` world: the world,
and the log of every question asked so far, each with the thread that asked it. The answers
are the world's own, so the traced run is the step (`Session.traced_eq`), and its log is the
step's log (`Session.log`). The world is a function of the log: every traced world reached
from `t` is `t`'s world with the new entries answered in order (`Traced.moves`).

`Session.pauses` are the scheduling points of a step: the traced world after every round that
did not end it. `Session.wp_step` and `Session.wp_pauses` read a weakest precondition of the
step's program off the step itself.

`Program.Asks ok p` says that every question `p` may ask satisfies `ok`; a thread running such
a program adds only such entries to the log below its path (`WP.asks`).
-/

namespace NodeSwitcher

open Program

/-- A question of a session, and the thread that asked it. -/
abbrev Entry := Path × (Command ⊕ Setup)

/-- The world after answering logged questions, oldest first. -/
def World.replay (w : World) (U : List Entry) : World :=
  U.foldl (fun w e => (World.answer e.2 w).1) w

@[simp] theorem World.replay_nil (w : World) : w.replay [] = w := rfl

@[simp] theorem World.replay_append (w : World) (U V : List Entry) :
    w.replay (U ++ V) = (w.replay U).replay V :=
  List.foldl_append ..

@[simp] theorem World.replay_singleton (w : World) (e : Entry) :
    w.replay [e] = (World.answer e.2 w).1 := rfl

/-- A world as the questions asked since a start, oldest first: its world is the start with
them answered (`Traced.world`). -/
structure Traced where
  start : World
  log : List Entry

namespace Traced

/-- The world now: the start with the logged questions answered in order. -/
def world (t : Traced) : World :=
  t.start.replay t.log

/-- Answers a question as the world does, and logs it with the thread that asked it. -/
def answer (π : Path) (q : Command ⊕ Setup) (t : Traced) : Traced × World.Reply q × Nat :=
  (⟨t.start, t.log ++ [(π, q)]⟩, (World.answer q t.world).2)

/-- Seen without its log, a traced world answers as the world. -/
theorem answer_world (π : Path) (q : Command ⊕ Setup) (t : Traced) :
    Prod.map world id (answer π q t) = World.answer q t.world := by
  simp [answer, world, Prod.map]

/-- Where the questions of threads in `S` lead a traced world: to more entries of those threads
in its log. -/
theorem moves {S : Path → Prop} {t t' : Traced} (h : Moves Traced.answer S t t') :
    ∃ U, t'.start = t.start ∧ t'.log = t.log ++ U ∧ ∀ e ∈ U, S e.1 := by
  induction h with
  | refl => exact ⟨[], rfl, by simp, by simp⟩
  | tail _ hstep ih =>
    obtain ⟨U, hs, hl, hS⟩ := ih
    obtain ⟨π, q, hπ, rfl⟩ := hstep
    refine ⟨U ++ [(π, q)], hs, by simp [answer, hl], fun e he => ?_⟩
    rcases List.mem_append.mp he with he | he
    · exact hS e he
    · simp only [List.mem_singleton] at he
      exact he ▸ hπ

end Traced

namespace Session

/-- The traced world a step starts from: the world with the step's requests and events
cleared, and an empty log. -/
def start (w : World) : Traced :=
  ⟨{ w with sent := [], events := [] }, []⟩

/-- A step run against a traced world: the traced world after it, and its outcome. -/
def traced (e : Endpoints) (w : World) (op : Op) : Traced × Option Outcome :=
  runAt Traced.answer [] (rounds w op) (start w) (op.program e)

/-- The questions a step asked, oldest first, each with the thread that asked it. -/
def log (e : Endpoints) (w : World) (op : Op) : List Entry :=
  (traced e w op).1.log

/-- The scheduling points of a step: the traced world after every round that did not end it. -/
def pauses (e : Endpoints) (w : World) (op : Op) : List Traced :=
  pausesAt Traced.answer [] (rounds w op) (start w) (op.program e)

/-- The traced run of a step is the step: it ends with the step's outcome, in the step's world,
and its log is the step's log. -/
theorem traced_eq (e : Endpoints) (w : World) (op : Op) :
    traced e w op = (⟨(start w).start, log e w op⟩, some (step e w op).2) ∧
      (traced e w op).1.world = (step e w op).1 := by
  have hmap := map_runAt Traced.answer World.answer Traced.world Traced.answer_world [] (rounds w op)
    (start w) (op.program e)
  obtain ⟨w', r, hr⟩ := run_ends e w op
  have hstep : step e w op = (w', r) := step_of_run hr
  have hw : (start w).world = { w with sent := [], events := [] } := rfl
  rw [hw, hr] at hmap
  rcases htr : traced e w op with ⟨t, o⟩
  simp only [traced] at htr
  rw [htr] at hmap
  simp only [Prod.map, id, Prod.mk.injEq] at hmap
  obtain ⟨hw', rfl⟩ := hmap
  -- the run only adds to the log of the start
  have htriv : WP Traced.answer (fun _ => True) [] (op.program e) (start w) fun _ _ => True :=
    WP.triv
  obtain ⟨-, hm⟩ := htriv.track.runAt (rounds w op) r (by rw [htr])
  rw [htr] at hm
  obtain ⟨U, hs, hl, -⟩ := Traced.moves hm
  refine ⟨?_, by rw [hstep]; exact hw'⟩
  rw [hstep]
  have ht : t = ⟨(start w).start, t.log⟩ := by
    cases t
    simp only at hs
    rw [hs]
  rw [ht]
  simp [log, traced, htr]

/-- What a step's program is safe for holds of the step's outcome and its log. -/
theorem wp_step {I : Traced → Prop} {Φ : Outcome → Traced → Prop} {e : Endpoints} {w : World}
    {op : Op} (h : WP Traced.answer I [] (op.program e) (start w) Φ) :
    Φ (step e w op).2 ⟨(start w).start, log e w op⟩ := by
  have hrun := h.runAt (rounds w op) (step e w op).2
  rw [← traced, (traced_eq e w op).1] at hrun
  exact hrun rfl

/-- The world at the end of a step's log is the step's world. -/
theorem world_log (e : Endpoints) (w : World) (op : Op) :
    (⟨(start w).start, log e w op⟩ : Traced).world = (step e w op).1 := by
  have h := traced_eq e w op
  rw [h.1] at h
  exact h.2

/-- What a step's program keeps at its pauses holds at every scheduling point of the step. -/
theorem wp_pauses {I : Traced → Prop} {Φ : Outcome → Traced → Prop} {e : Endpoints} {w : World}
    {op : Op} (h : WP Traced.answer I [] (op.program e) (start w) Φ) :
    ∀ t ∈ pauses e w op, I t :=
  h.pausesAt (rounds w op)

end Session

namespace Program

variable {Q : Type} {A : Q → Type}

/-- Every question the program may ask satisfies `ok`. -/
inductive Asks (ok : Q → Prop) : {α : Type} → Program A α → Prop
  | pure {α : Type} (a : α) : Asks ok (.pure a)
  | ask {α : Type} {q : Q} {next : A q → Program A α} (hq : ok q) (hn : ∀ x, Asks ok (next x)) :
      Asks ok (.ask q next)
  | wait {α : Type} {next : Program A α} (h : Asks ok next) : Asks ok (.wait next)
  | both {α β γ : Type} {first : Program A β} {second : Program A γ}
      {next : β → γ → Program A α} (h₁ : Asks ok first) (h₂ : Asks ok second)
      (h₃ : ∀ b c, Asks ok (next b c)) : Asks ok (.both first second next)

theorem Asks.command {ok : Q → Prop} {q : Q} (h : ok q) : Asks ok (.ask q .pure : Program A (A q)) :=
  .ask h fun x => .pure x

theorem Asks.mono {ok ok' : Q → Prop} (h : ∀ q, ok q → ok' q) {α : Type} {p : Program A α}
    (hp : Asks ok p) : Asks ok' p := by
  induction hp with
  | pure a => exact .pure a
  | ask hq _ ih => exact .ask (h _ hq) ih
  | wait _ ih => exact .wait ih
  | both _ _ _ ih₁ ih₂ ih₃ => exact .both ih₁ ih₂ ih₃

theorem Asks.bind {ok : Q → Prop} {α β : Type} {p : Program A α} {f : α → Program A β}
    (hp : Asks ok p) (hf : ∀ a, Asks ok (f a)) : Asks ok (p.bind f) := by
  induction hp with
  | pure a => exact hf a
  | ask hq _ ih => exact .ask hq fun x => ih x hf
  | wait _ ih => exact .wait (ih hf)
  | both h₁ h₂ _ _ _ ih₃ => exact .both h₁ h₂ fun b c => ih₃ b c hf

/-- A program of commands asks, widened, only what it asked. -/
theorem Asks.widen {R : Type} {B : R → Type} {ok : Q ⊕ R → Prop} {α : Type} {p : Program A α}
    (hp : Asks (fun q => ok (.inl q)) p) : Asks ok (p.widen (B := B)) := by
  induction hp with
  | pure a => exact .pure a
  | ask hq _ ih => exact .ask hq ih
  | wait _ ih => exact .wait ih
  | both _ _ _ ih₁ ih₂ ih₃ => exact .both ih₁ ih₂ ih₃

end Program

namespace Traced

/-- `t'` extends the log of `t`, from the same start, by entries that satisfy `ok` wherever they
lie below `π`. -/
def Adds (π : Path) (ok : Entry → Prop) (t t' : Traced) : Prop :=
  t'.start = t.start ∧ ∃ U, t'.log = t.log ++ U ∧ ∀ e ∈ U, π <+: e.1 → ok e

theorem Adds.trans {π : Path} {ok : Entry → Prop} {t t' t'' : Traced} (h : Adds π ok t t')
    (h' : Adds π ok t' t'') : Adds π ok t t'' := by
  obtain ⟨hs, U, hU, hok⟩ := h
  obtain ⟨hs', V, hV, hok'⟩ := h'
  refine ⟨hs'.trans hs, U ++ V, by rw [hV, hU, List.append_assoc], fun e he hπ => ?_⟩
  rcases List.mem_append.mp he with he | he
  · exact hok e he hπ
  · exact hok' e he hπ

/-- Other threads add nothing below `π`. -/
theorem Adds.of_rely {π : Path} {ok : Entry → Prop} {t t' : Traced}
    (h : Rely Traced.answer π t t') : Adds π ok t t' := by
  obtain ⟨U, hs, hU, hS⟩ := moves h
  exact ⟨hs, U, hU, fun e he hπ => absurd hπ (hS e he)⟩

/-- The thread's own question. -/
theorem Adds.answer {π : Path} {ok : Entry → Prop} {q : Command ⊕ Setup} (hq : ok (π, q))
    (t : Traced) : Adds π ok t (Traced.answer π q t).1 :=
  ⟨rfl, [(π, q)], rfl, fun e he _ => by simp only [List.mem_singleton] at he; exact he ▸ hq⟩

/-- What the two halves of a thread add, when the thread itself adds nothing. -/
theorem Adds.join {π : Path} {ok : Entry → Prop} {t t' : Traced}
    (h₁ : Adds (π ++ [false]) ok t t') (h₂ : Adds (π ++ [true]) ok t t')
    (hm : Moves Traced.answer (· ≠ π) t t') : Adds π ok t t' := by
  obtain ⟨hs, U, hU, hok₁⟩ := h₁
  obtain ⟨-, V, hV, hok₂⟩ := h₂
  obtain ⟨U', -, hU', hne⟩ := moves hm
  have e₁ : U' = U := List.append_cancel_left (hU'.symm.trans hU)
  have e₂ : U' = V := List.append_cancel_left (hU'.symm.trans hV)
  subst e₁ e₂
  refine ⟨hs, U', hU, fun e he hπ => ?_⟩
  rcases Path.eq_or_child hπ with h | h | h
  · exact absurd h (hne e he)
  · exact hok₁ e he h
  · exact hok₂ e he h

end Traced

/-- A thread whose program asks only questions satisfying `ok` adds, below its path, only
entries whose question satisfies `ok`. -/
theorem WP.asks {ok : (Command ⊕ Setup) → Prop} {α : Type} {p : Script α} (hp : Asks ok p)
    {π : Path} {t : Traced} :
    WP Traced.answer (fun _ => True) π p t fun _ t' => Traced.Adds π (fun e => ok e.2) t t' := by
  induction hp generalizing π t with
  | pure a => exact ⟨rfl, [], by simp, by simp⟩
  | @ask α q next hq _ ih =>
    have hq' : Traced.Adds π (fun e => ok e.2) t (Traced.answer π q t).1 :=
      .answer hq t
    exact Await.of_rely trivial fun t' hR => (ih _).mono fun _ t'' h'' =>
      hq'.trans ((Traced.Adds.of_rely hR).trans h'')
  | wait _ ih =>
    exact ⟨trivial, fun t' _ hR => ih.mono fun _ t'' h'' => (Traced.Adds.of_rely hR).trans h''⟩
  | both _ _ _ ih₁ ih₂ ih₃ =>
    refine ⟨fun _ t₂ => Traced.Adds (π ++ [false]) (fun e => ok e.2) t t₂,
      fun _ t₂ => Traced.Adds (π ++ [true]) (fun e => ok e.2) t t₂, ?_, ?_, ?_⟩
    · exact ih₁.mono fun _ t₁ h => ⟨trivial, fun t₂ hR => h.trans (.of_rely hR)⟩
    · intro t₁ _ hR
      exact ih₂.mono fun _ t₂ h => ⟨trivial, fun t₃ hR' => (Traced.Adds.of_rely hR).trans
        (h.trans (.of_rely hR'))⟩
    · intro b c t₂ h₁ h₂ _ hm
      exact (ih₃ b c).mono fun _ t₃ h => (Traced.Adds.join h₁ h₂ hm).trans h

end NodeSwitcher
