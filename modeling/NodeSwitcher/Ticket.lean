/-!
# Load tickets

Each dependent list counts the loads begun for it. A load takes a ticket, the
count after it began, and applies its result only while its ticket is still the
latest one. The count is a 64-bit word and wraps around.
-/

namespace NodeSwitcher

/-- The ticket of a load: the count of loads begun when it began. -/
structure Ticket where
  val : UInt64
  deriving DecidableEq, Repr

/-- The count of loads begun for one list. -/
structure Generation where
  latest : UInt64 := 0
  deriving DecidableEq, Repr

namespace Generation

/-- Begins a load: counts it and gives its ticket. -/
def begin (g : Generation) : Ticket × Generation :=
  (⟨g.latest + 1⟩, ⟨g.latest + 1⟩)

/-- The ticket of the latest load. -/
def current (g : Generation) : Ticket :=
  ⟨g.latest⟩

/-- Whether a ticket is that of the latest load. -/
def isCurrent (g : Generation) (t : Ticket) : Bool :=
  t.val == g.latest

/-- A call on a count: begin a load, ask for the latest ticket, or ask whether a
ticket is the latest. -/
inductive Call where
  | begin
  | current
  | isCurrent (ticket : Ticket)
  deriving DecidableEq, Repr

/-- The answer to a call: a ticket, or whether the ticket asked about is the latest. -/
inductive Answer where
  | ticket (t : Ticket)
  | flag (b : Bool)
  deriving DecidableEq, Repr

/-- Answers one call. Only a begin changes the count; the two questions leave it. -/
def call (g : Generation) : Call → Answer × Generation
  | .begin => (.ticket g.begin.1, g.begin.2)
  | .current => (.ticket g.current, g)
  | .isCurrent t => (.flag (g.isCurrent t), g)

/-- Answers calls in order, each on the count that the calls before it left, and
gives the count after the last. -/
def run (g : Generation) : List Call → List Answer × Generation
  | [] => ([], g)
  | c :: cs =>
    let (as, g') := (g.call c).2.run cs
    ((g.call c).1 :: as, g')

end Generation

/-- Tickets are ordered by their counts. -/
instance : LT Ticket :=
  ⟨fun a b => a.val < b.val⟩

end NodeSwitcher
