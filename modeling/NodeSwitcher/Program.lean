/-!
# Cooperative programs

A `Program A α` is a computation that ends with a value of `α`. On its way it
asks questions `q`, each answered by a value of `A q`; it may give up its turn;
and it may run two programs side by side, going on when both have ended.

Programs run in rounds (`Program.poll`). A round runs a program until it ends
or every part of it waits; of two programs side by side, the first runs before
the second, each until it waits or ends. A question is answered at once, but
the answer may take some rounds to arrive: the program then waits that many
rounds. `Program.run` runs rounds until the program ends.
-/

namespace NodeSwitcher

/-- A cooperative computation asking questions of type `Q`, with answers typed by `A`. -/
inductive Program {Q : Type} (A : Q → Type) : Type → Type 1 where
  /-- Ends with a value. -/
  | pure {α : Type} (a : α) : Program A α
  /-- Asks `q`, and goes on with the answer. -/
  | ask {α : Type} (q : Q) (next : A q → Program A α) : Program A α
  /-- Gives up its turn until the next round. -/
  | wait {α : Type} (next : Program A α) : Program A α
  /-- Runs two programs side by side, and goes on with both results. -/
  | both {α β γ : Type} (first : Program A β) (second : Program A γ)
      (next : β → γ → Program A α) : Program A α

namespace Program

variable {Q : Type} {A : Q → Type}

/-- Runs one program, then another with its result. -/
def bind {α β : Type} : Program A α → (α → Program A β) → Program A β
  | .pure a, f => f a
  | .ask q next, f => .ask q fun x => bind (next x) f
  | .wait next, f => .wait (bind next f)
  | .both first second next, f => .both first second fun b c => bind (next b c) f

instance : Monad (Program A) where
  pure := .pure
  bind := bind

/-- Runs two programs side by side and ends with both results. -/
def pair {β γ : Type} (first : Program A β) (second : Program A γ) : Program A (β × γ) :=
  .both first second fun b c => .pure (b, c)

/-- Waits `n` rounds, then goes on. -/
def waits {α : Type} : Nat → Program A α → Program A α
  | 0, p => p
  | n + 1, p => .wait (waits n p)

/-- A program asking questions of `Q`, as one asking questions of `Q ⊕ R`. -/
def widen {R : Type} {B : R → Type} {α : Type} : Program A α → Program (Sum.elim A B) α
  | .pure a => .pure a
  | .ask q next => .ask (.inl q) fun x => widen (next x)
  | .wait next => .wait (widen next)
  | .both first second next => .both (widen first) (widen second) fun b c => widen (next b c)

/-- What a round leaves of a program: its value, or the rest of it. -/
abbrev Status (A : Q → Type) (α : Type) := α ⊕ Program A α

/-- The program that a round left. -/
def Status.resume {α : Type} : Status A α → Program A α
  | .inl a => .pure a
  | .inr p => p

variable {W : Type}

/-- Runs one round of a program against surroundings `w`, which answer each question
and say after how many rounds the answer arrives. -/
def poll (answer : (q : Q) → W → W × A q × Nat) {α : Type} (w : W) :
    Program A α → W × Status A α
  | .pure a => (w, .inl a)
  | .ask q next =>
    let (w', x, delay) := answer q w
    match delay with
    | 0 => poll answer w' (next x)
    | d + 1 => (w', .inr (waits d (next x)))
  | .wait next => (w, .inr next)
  | .both first second next =>
    let (w₁, s₁) := poll answer w first
    let (w₂, s₂) := poll answer w₁ second
    match s₁, s₂ with
    | .inl b, .inl c => poll answer w₂ (next b c)
    | _, _ => (w₂, .inr (.both s₁.resume s₂.resume next))

/-- Runs rounds until the program ends, at most `rounds` of them; `none` if it has
not ended by then. -/
def run (answer : (q : Q) → W → W × A q × Nat) {α : Type} :
    Nat → W → Program A α → W × Option α
  | 0, w, _ => (w, none)
  | rounds + 1, w, p =>
    match poll answer w p with
    | (w', .inl a) => (w', some a)
    | (w', .inr rest) => run answer rounds w' rest

end Program

end NodeSwitcher
