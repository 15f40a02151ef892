import Mathlib
import NodeSwitcher.Ticket
/-!
# Tickets count the loads begun

A count starts at zero, a begin adds one to it modulo 2^64, and the two questions leave it as
it is. `Call.answers` gives the answers this rule predicts, counted in natural numbers: after
`n` begins, the next begin hands out the ticket `n + 1` and `current` answers `n`, both modulo
2^64, and a ticket is current exactly when it is `n` modulo 2^64. `run_ofNat` shows that every
run of calls answers so; `call_ofNat` is its one-call step.

Main statement: `fresh_run_counts_begins`. On a fresh count, every call is answered from the
number of begins before it; the ticket of a begin is current after later calls exactly when
none of them is a begin, as long as fewer than 2^64 of them are; and tickets increase while
fewer than 2^64 have been handed out.
-/

namespace NodeSwitcher

/-- Tickets numbered below 2^64 are ordered as their numbers. -/
theorem Ticket.ofNat_lt_ofNat {j k : Nat} (hjk : j < k) (hk : k < 2 ^ 64) :
    (⟨UInt64.ofNat j⟩ : Ticket) < ⟨UInt64.ofNat k⟩ := by
  show UInt64.ofNat j < UInt64.ofNat k
  rw [UInt64.lt_iff_toNat_lt, UInt64.toNat_ofNat', UInt64.toNat_ofNat']
  omega

namespace Generation

/-- The number of begins among calls. -/
def Call.begins (cs : List Call) : Nat :=
  cs.count .begin

/-- The answer to a call after `n` loads began, counted in natural numbers: the `k`-th ticket
is `k` modulo 2^64. -/
def Call.expected (n : Nat) : Call → Answer
  | .begin => .ticket ⟨UInt64.ofNat (n + 1)⟩
  | .current => .ticket ⟨UInt64.ofNat n⟩
  | .isCurrent t => .flag (t.val.toNat = n % 2 ^ 64)

/-- The answers to calls in order, after `n` loads began. -/
def Call.answers (n : Nat) : List Call → List Answer
  | [] => []
  | c :: cs => c.expected n :: Call.answers (n + Call.begins [c]) cs

section Begins

variable (cs ds : List Call)

@[simp] theorem Call.begins_nil : Call.begins [] = 0 := rfl

@[simp] theorem Call.begins_cons_begin : Call.begins (.begin :: cs) = Call.begins cs + 1 := by
  simp [Call.begins]

@[simp] theorem Call.begins_cons_current : Call.begins (.current :: cs) = Call.begins cs := by
  simp [Call.begins]

@[simp] theorem Call.begins_cons_isCurrent (t : Ticket) :
    Call.begins (.isCurrent t :: cs) = Call.begins cs := by
  simp [Call.begins]

@[simp] theorem Call.begins_append : Call.begins (cs ++ ds) = Call.begins cs + Call.begins ds :=
  List.count_append

end Begins

theorem Call.begins_cons (c : Call) (cs : List Call) :
    Call.begins (c :: cs) = Call.begins [c] + Call.begins cs :=
  Call.begins_append [c] cs

/-- The count of a fresh list is zero loads begun. -/
theorem fresh_eq_ofNat : ({} : Generation) = ⟨UInt64.ofNat 0⟩ := rfl

/-- A count that has seen `n` begins takes a ticket as current exactly when it is `n` modulo
2^64. -/
theorem isCurrent_ofNat (n : Nat) (t : Ticket) :
    (Generation.mk (UInt64.ofNat n)).isCurrent t = true ↔ t.val.toNat = n % 2 ^ 64 := by
  rw [isCurrent, beq_iff_eq, ← UInt64.toNat_inj, UInt64.toNat_ofNat']

/-- One call on a count that has seen `n` begins gets the predicted answer, and the count moves
on by the begins among it. -/
theorem call_ofNat (n : Nat) (c : Call) :
    (Generation.mk (UInt64.ofNat n)).call c =
      (c.expected n, ⟨UInt64.ofNat (n + Call.begins [c])⟩) := by
  cases c with
  | begin => simp [call, begin, Call.expected, UInt64.ofNat_add]
  | current => simp [call, current, Call.expected]
  | isCurrent t =>
    have h := isCurrent_ofNat n t
    simp only [call, Call.expected, Call.begins_cons_isCurrent, Call.begins_nil, Nat.add_zero]
    congr 2
    exact Bool.eq_iff_iff.mpr (h.trans decide_eq_true_iff.symm)

/-- A run of calls on a count that has seen `n` begins gives the predicted answers, and ends
with `n` and the begins among the calls, modulo 2^64. -/
theorem run_ofNat (n : Nat) (cs : List Call) :
    (Generation.mk (UInt64.ofNat n)).run cs =
      (Call.answers n cs, ⟨UInt64.ofNat (n + Call.begins cs)⟩) := by
  -- the induction carries every starting count along: each call moves it on
  induction cs generalizing n with
  | nil => rfl
  | cons c cs ih =>
    rw [run, call_ofNat, ih, Call.answers, Call.begins_cons c cs, Nat.add_assoc]

/-- The answer to a call standing after `pre` is predicted from the begins in `pre`. -/
theorem Call.answers_getElem?_length (n : Nat) (pre : List Call) (c : Call) (post : List Call) :
    (Call.answers n (pre ++ c :: post))[pre.length]? = some (c.expected (n + Call.begins pre)) := by
  induction pre generalizing n with
  | nil => simp [Call.answers]
  | cons d pre ih =>
    rw [List.cons_append, Call.answers, List.length_cons, List.getElem?_cons_succ, ih,
      Call.begins_cons d pre, Nat.add_assoc]

/-- Calls on a fresh count give the predicted answers, and leave the count of their begins. -/
theorem fresh_run (cs : List Call) :
    ({} : Generation).run cs = (Call.answers 0 cs, ⟨UInt64.ofNat (Call.begins cs)⟩) := by
  rw [fresh_eq_ofNat, run_ofNat, Nat.zero_add]

-- two begins: the first ticket is stale, the second is current and is the latest
example : ({} : Generation).run [.begin, .isCurrent ⟨1⟩, .begin, .isCurrent ⟨1⟩,
      .isCurrent ⟨2⟩, .current] =
    ([.ticket ⟨1⟩, .flag true, .ticket ⟨2⟩, .flag false, .flag true, .ticket ⟨2⟩], ⟨2⟩) := by
  decide

/-- The ticket that a fresh count hands out at the begin after `pre`: the one numbered by that
begin, modulo 2^64. -/
theorem fresh_run_ticket {pre post : List Call} {tk : Ticket}
    (h : (({} : Generation).run (pre ++ .begin :: post)).1[pre.length]? = some (.ticket tk)) :
    tk = ⟨UInt64.ofNat (Call.begins pre + 1)⟩ := by
  rw [fresh_run, Call.answers_getElem?_length, Nat.zero_add] at h
  simp only [Call.expected, Option.some.injEq, Answer.ticket.injEq] at h
  exact h.symm

/-- The `k`-th ticket is current after `n ≥ k` begins exactly when `n = k`, as long as fewer
than 2^64 begins came after it. -/
theorem isCurrent_ofNat_ticket {n k : Nat} (hkn : k ≤ n) (hgap : n - k < 2 ^ 64) :
    (Generation.mk (UInt64.ofNat n)).isCurrent ⟨UInt64.ofNat k⟩ = true ↔ n = k := by
  rw [isCurrent_ofNat, UInt64.toNat_ofNat']
  omega

/-- Calls on a fresh count, interleaved in any order. Every call is answered from the number
of begins before it: the `k`-th begin hands out the ticket `k` modulo 2^64, `current` answers
the number of begins so far modulo 2^64, and a ticket is current exactly when it is that
number. After `n` begins, the `k`-th ticket is current exactly when `n = k`, as long as
`n - k < 2^64`; and a later ticket is above an earlier one while fewer than 2^64 tickets have
been handed out. -/
theorem fresh_run_counts_begins :
    (∀ (pre : List Call) (c : Call) (post : List Call),
        (({} : Generation).run (pre ++ c :: post)).1[pre.length]? =
          some (c.expected (Call.begins pre))) ∧
    (∀ cs : List Call, (({} : Generation).run cs).2.current = ⟨UInt64.ofNat (Call.begins cs)⟩ ∧
        ∀ t : UInt64, (({} : Generation).run cs).2.isCurrent ⟨t⟩ = true ↔
          t.toNat = Call.begins cs % 2 ^ 64) ∧
    (∀ (pre post : List Call) (tk : Ticket),
        (({} : Generation).run (pre ++ .begin :: post)).1[pre.length]? = some (.ticket tk) →
        Call.begins (pre ++ .begin :: post) - (Call.begins pre + 1) < 2 ^ 64 →
        ((({} : Generation).run (pre ++ .begin :: post)).2.isCurrent tk = true ↔
          Call.begins (pre ++ .begin :: post) = Call.begins pre + 1)) ∧
    (∀ (pre mid post : List Call) (a b : Ticket),
        (({} : Generation).run (pre ++ .begin :: mid ++ .begin :: post)).1[pre.length]? =
          some (.ticket a) →
        (({} : Generation).run (pre ++ .begin :: mid ++ .begin :: post)).1[
          (pre ++ .begin :: mid).length]? = some (.ticket b) →
        Call.begins (pre ++ .begin :: mid ++ [.begin]) < 2 ^ 64 → a < b) := by
  refine ⟨?answers, ?last, ?stale, ?increasing⟩
  case answers =>
    intro pre c post
    rw [fresh_run, Call.answers_getElem?_length, Nat.zero_add]
  case last =>
    intro cs
    rw [fresh_run]
    exact ⟨rfl, fun t => isCurrent_ofNat _ ⟨t⟩⟩
  case stale =>
    intro pre post tk htk hgap
    rw [fresh_run_ticket htk, fresh_run]
    exact isCurrent_ofNat_ticket (by simp) hgap
  case increasing =>
    intro pre mid post a b ha hb hfew
    -- the first begin stands after `pre`, the second after `pre ++ .begin :: mid`
    rw [List.append_assoc, List.cons_append] at ha
    rw [fresh_run_ticket ha, fresh_run_ticket hb]
    simp only [Call.begins_append, Call.begins_cons_begin, Call.begins_nil] at hfew ⊢
    exact Ticket.ofNat_lt_ofNat (by omega) (by omega)

/-- After `begin, current, begin` on a fresh count, the first ticket is stale and the second
is above it. -/
theorem second_ticket_supersedes_first :
    (({} : Generation).run [.begin, .current, .begin]).1[0]? = some (.ticket ⟨1⟩) ∧
      (({} : Generation).run [.begin, .current, .begin]).2.isCurrent ⟨1⟩ = false ∧
      (({} : Generation).run [.begin, .current, .begin]).1[2]? = some (.ticket ⟨2⟩) ∧
      (⟨1⟩ : Ticket) < ⟨2⟩ := by
  have ha : (({} : Generation).run [.begin, .current, .begin]).1[0]? = some (.ticket ⟨1⟩) := by
    decide
  have hb : (({} : Generation).run [.begin, .current, .begin]).1[2]? = some (.ticket ⟨2⟩) := by
    decide
  have hstale := fresh_run_counts_begins.2.2.1 [] [.current, .begin] ⟨1⟩ ha (by decide)
  have hup := fresh_run_counts_begins.2.2.2 [] [.current] [] ⟨1⟩ ⟨2⟩ ha hb (by decide)
  refine ⟨ha, ?_, hb, hup⟩
  rw [Bool.eq_false_iff]
  intro h
  exact absurd (hstale.mp h) (by decide)

end Generation

end NodeSwitcher
