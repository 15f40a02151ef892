import NodeSwitcher.Loading
import NodeSwitcher.Submission
import NodeSwitcher.World
/-!
# Sessions

A session is a node switcher on a page and a scripted server, driven by a list
of operations. Each operation is a step, run to its end on its own; an
operation may run lists of operations side by side (`Op.join`), in rounds, each
list going on until it waits for the server.

`Session.step` runs one step and gives its outcome; the world then holds the
page after it and the requests and events of that step.
-/

namespace NodeSwitcher

/-- Which of the three requests of the endpoints. -/
inductive RequestKind where
  | countryOptions
  | nodeOptions
  | change
  deriving DecidableEq, Repr

/-- The request of a kind for a value. -/
def Endpoints.request (e : Endpoints) : RequestKind → String → Request
  | .countryOptions, v => e.countryRequest v
  | .nodeOptions, v => e.nodeRequest v
  | .change, v => e.changeRequest v

/-- An operation of a session. -/
inductive Op where
  /-- Replaces a list's entries and selects the first. -/
  | setOptions (selector : Selector) (choices : List Choice)
  | selectValue (selector : Selector) (value : String)
  | selectIndex (selector : Selector) (index : Nat)
  /-- Scripts the server's reply to a path, or to a path and first query value. -/
  | script (path : String) (value : Option String) (reply : Reply)
  | delay (value : String) (rounds : Nat)
  | loadCountries
  | loadNodes
  /-- Sets the lists up for a configuration, or reports why it could not be read. -/
  | setUp (config : Except Fault PageConfig)
  | submit
  | fetch (kind : RequestKind) (value : String)
  /-- Runs lists of operations side by side. -/
  | join (branches : List (List Op))
  /-- An operation that could not be understood; it does nothing. -/
  | unreadable (why : String)

/-- What an operation ended with. -/
inductive Outcome where
  | done
  | loaded (result : Except Fault LoadOutcome)
  | setUp (result : Except Fault Unit)
  | configRejected (fault : Fault)
  | submitted (outcome : SubmitOutcome)
  | fetched (result : Except Fault (List Choice))
  | joined (results : List (List Outcome))
  | unreadable (why : String)

/-- A program of a session: node switcher commands and setups. -/
abbrev Script := Program World.Reply

namespace Script

/-- Carries out a setup and ends. -/
def arrange (a : Setup) : Script Outcome :=
  .ask (.inr a) fun _ => .pure .done

/-- Carries out a command of the node switcher and ends. -/
def perform (c : Command) : Script Outcome :=
  .ask (.inl c) fun _ => .pure .done

/-- Runs a task of the node switcher and ends with its result as an outcome. -/
def task {α : Type} (t : Task α) (f : α → Outcome) : Script Outcome :=
  Program.bind (Program.widen t) fun a => .pure (f a)

end Script

mutual

/-- The program of an operation, for a node switcher with endpoints `e`. -/
def Op.program (e : Endpoints) : Op → Script Outcome
  | .setOptions s cs => Script.perform (.replaceOptions s cs none)
  | .selectValue s v => Script.arrange (.selectValue s v)
  | .selectIndex s i => Script.perform (.selectIndex s i)
  | .script path value r => Script.arrange (.script path value r)
  | .delay value n => Script.arrange (.delay value n)
  | .loadCountries => Script.task (Task.loadCountries e) .loaded
  | .loadNodes => Script.task (Task.loadNodes e) .loaded
  | .setUp (.error f) => .pure (.configRejected f)
  | .setUp (.ok c) => Script.task (Task.setUp e c) .setUp
  | .submit => Script.task (Task.submit e) .submitted
  | .fetch k v => Script.task (Task.fetch (e.request k v)) .fetched
  | .join branches => Program.bind (Op.branchPrograms e branches) fun rs => .pure (.joined rs)
  | .unreadable why => .pure (.unreadable why)

/-- Runs operations one after another. -/
def Op.listProgram (e : Endpoints) : List Op → Script (List Outcome)
  | [] => .pure []
  | op :: ops =>
    Program.bind (op.program e) fun r => Program.bind (Op.listProgram e ops) fun rs => .pure (r :: rs)

/-- Runs lists of operations side by side. -/
def Op.branchPrograms (e : Endpoints) : List (List Op) → Script (List (List Outcome))
  | [] => .pure []
  | ops :: more =>
    .both (Op.listProgram e ops) (Op.branchPrograms e more) fun r rs => .pure (r :: rs)

end

mutual

/-- The number of operations, nested ones included. -/
def Op.size : Op → Nat
  | .join branches => 1 + Op.branchesSize branches
  | _ => 1

/-- The number of operations in a list, nested ones included. -/
def Op.listSize : List Op → Nat
  | [] => 0
  | op :: ops => op.size + Op.listSize ops

/-- The number of operations in lists, nested ones included. -/
def Op.branchesSize : List (List Op) → Nat
  | [] => 0
  | ops :: more => Op.listSize ops + Op.branchesSize more

end

mutual

/-- The longest delay an operation sets, nested ones included. -/
def Op.maxDelay : Op → Nat
  | .delay _ n => n
  | .join branches => Op.branchesMaxDelay branches
  | _ => 0

/-- The longest delay a list of operations sets. -/
def Op.listMaxDelay : List Op → Nat
  | [] => 0
  | op :: ops => max op.maxDelay (Op.listMaxDelay ops)

/-- The longest delay lists of operations set. -/
def Op.branchesMaxDelay : List (List Op) → Nat
  | [] => 0
  | ops :: more => max (Op.listMaxDelay ops) (Op.branchesMaxDelay more)

end

namespace Session

/-- A bound on the rounds an operation takes: every operation sends at most two
requests, each answered within the longest delay. -/
def rounds (w : World) (op : Op) : Nat :=
  let longest := max op.maxDelay ((w.server.delays.map Prod.snd).foldl max 0)
  2 + 2 * op.size * (longest + 1)

/-- Runs one operation to its end: the world after it, with the requests and
events of this step only, and the outcome. -/
def step (e : Endpoints) (w : World) (op : Op) : World × Outcome :=
  let start := { w with sent := [], events := [] }
  match Program.run World.answer (rounds w op) start (op.program e) with
  | (w', some r) => (w', r)
  | (w', none) => (w', .unreadable "unfinished")

/-- Runs the steps of a session from a world, one after another: after each, the
world and the outcome. -/
def run (e : Endpoints) : World → List Op → List (World × Outcome)
  | _, [] => []
  | w, op :: ops =>
    let (w', r) := step e w op
    (w', r) :: run e w' ops

end Session

end NodeSwitcher
