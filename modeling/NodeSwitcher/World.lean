import NodeSwitcher.Command
import NodeSwitcher.Page
import NodeSwitcher.Server
/-!
# The surroundings of the node switcher

A `World` holds the page, the scripted server, the load count of each list, and
the requests sent and events reported during the current step, oldest first.
`World.perform` answers the node switcher's commands, and `World.arrange`
carries out what the user does besides: filling or selecting in a list, and
scripting the server. Only a request takes rounds to be answered, as many as the
server's delay for it.
-/

namespace NodeSwitcher

/-- What the user does to the page and the server. -/
inductive Setup where
  /-- Selects the first entry of a list with a value, if there is one. -/
  | selectValue (selector : Selector) (value : String)
  /-- Scripts the server's reply to a path, or to a path and first query value. -/
  | script (path : String) (value : Option String) (reply : Reply)
  /-- Sets the rounds that requests with a first query value take. -/
  | delay (value : String) (rounds : Nat)
  deriving DecidableEq, Repr

/-- The answer to a setup: nothing. -/
def Setup.Reply (_ : Setup) : Type := Unit

/-- The page, the server, the load counts and what the current step did. -/
structure World where
  page : Page := {}
  server : Server := {}
  areas : Generation := {}
  countries : Generation := {}
  nodes : Generation := {}
  /-- The requests sent during the current step. -/
  sent : List Request := []
  /-- The events reported during the current step. -/
  events : List Event := []
  deriving DecidableEq, Repr

namespace World

/-- The load count of a list. -/
def generation (w : World) : Selector → Generation
  | .area => w.areas
  | .country => w.countries
  | .node => w.nodes

/-- Replaces the load count of a list. -/
def setGeneration (w : World) (s : Selector) (g : Generation) : World :=
  match s with
  | .area => { w with areas := g }
  | .country => { w with countries := g }
  | .node => { w with nodes := g }

/-- Carries out a command: the world after it, the answer, and the rounds the
answer takes. -/
def perform : (c : Command) → World → World × c.Reply × Nat
  | .selectedValue s, w => (w, (w.page.list s).selectedValue, 0)
  | .optionValues s, w => (w, (w.page.list s).values, 0)
  | .selectIndex s i, w => ({ w with page := w.page.modifyList s (·.selectIndex i) }, (), 0)
  | .replaceOptions s cs pre, w =>
    ({ w with page := w.page.modifyList s fun _ => DropDown.replace cs pre }, (), 0)
  | .setError s m, w => ({ w with page := w.page.setError s m }, (), 0)
  | .setLoading b, w => ({ w with page := w.page.setLoading b }, (), 0)
  | .alert m, w => ({ w with page := w.page.alert m }, (), 0)
  | .reload, w => ({ w with page := w.page.reload }, (), 0)
  | .beginLoad s, w =>
    let (t, g) := (w.generation s).begin
    (w.setGeneration s g, t, 0)
  | .isCurrent s t, w => (w, (w.generation s).isCurrent t, 0)
  | .send r, w => ({ w with sent := w.sent ++ [r] }, w.server.answer r, w.server.delayOf r)
  | .record e, w => ({ w with events := w.events ++ [e] }, (), 0)

/-- Carries out what the user does. -/
def arrange : (a : Setup) → World → World × a.Reply × Nat
  | .selectValue s v, w => ({ w with page := w.page.modifyList s (·.selectValue v) }, (), 0)
  | .script path value r, w => ({ w with server := w.server.script path value r }, (), 0)
  | .delay value n, w => ({ w with server := w.server.delay value n }, (), 0)

/-- The replies to commands and setups. -/
abbrev Reply := Sum.elim Command.Reply Setup.Reply

/-- Answers a command or a setup. -/
def answer : (q : Command ⊕ Setup) → World → World × Reply q × Nat
  | .inl c, w => w.perform c
  | .inr a, w => w.arrange a

end World

end NodeSwitcher
