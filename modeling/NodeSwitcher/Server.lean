import NodeSwitcher.Fault
import NodeSwitcher.Request
/-!
# The scripted server

A server whose behaviour is set by a script. A script entry says what to do
with requests to a path, or to a path whose first query value is a given one:
answer with a response, or fail to be reached with a message. An entry for a
path and value comes before one for the path alone, and a later entry for the
same key replaces the earlier one. Requests without a script fail with
`no scripted response for PATH`. Requests whose first query value has a delay
take that many rounds to be answered.
-/

namespace NodeSwitcher

/-- What the server does with a request. -/
inductive Reply where
  | answer (response : Response)
  | unreachable (message : String)
  deriving DecidableEq, Repr

/-- A key-value list in which a later entry for a key replaces the earlier one. -/
def putEntry {κ ν : Type} [BEq κ] (k : κ) (v : ν) (entries : List (κ × ν)) : List (κ × ν) :=
  (k, v) :: entries.filter fun e => !(e.1 == k)

/-- The script of the server. -/
structure Server where
  /-- Entries for a path and a first query value. -/
  byValue : List ((String × String) × Reply) := []
  /-- Entries for a path alone. -/
  byPath : List (String × Reply) := []
  /-- Rounds that requests with a given first query value take. -/
  delays : List (String × Nat) := []
  deriving DecidableEq, Repr

namespace Server

/-- Scripts the replies to a path, or to a path and first query value. -/
def script (s : Server) (path : String) (value : Option String) (r : Reply) : Server :=
  match value with
  | some v => { s with byValue := putEntry (path, v) r s.byValue }
  | none => { s with byPath := putEntry path r s.byPath }

/-- Sets the rounds that requests with a first query value take. -/
def delay (s : Server) (value : String) (rounds : Nat) : Server :=
  { s with delays := putEntry value rounds s.delays }

/-- The script entry for a request. -/
def entryFor (s : Server) (r : Request) : Option Reply :=
  match s.byValue.lookup (r.path, (r.firstValue.getD "")) with
  | some e => some e
  | none => s.byPath.lookup r.path

/-- The rounds a request takes. -/
def delayOf (s : Server) (r : Request) : Nat :=
  match r.firstValue with
  | some v => (s.delays.lookup v).getD 0
  | none => 0

/-- The answer to a request. -/
def answer (s : Server) (r : Request) : Except Fault Response :=
  match s.entryFor r with
  | some (.answer response) => .ok response
  | some (.unreachable m) => .error (.transport m)
  | none => .error (.transport ("no scripted response for " ++ r.path))

end Server

end NodeSwitcher
