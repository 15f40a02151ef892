import NodeSwitcher.Choice
import NodeSwitcher.Event
import NodeSwitcher.Program
import NodeSwitcher.Request
/-!
# What the node switcher asks of its surroundings

The node switcher works on a page with three lists, talks to a server, keeps a
count of loads for each dependent list, and reports events. A `Command` is one
such request; `Command.Reply` types its answer. `Task` is a program of the node
switcher over these commands.
-/

namespace NodeSwitcher

/-- One request of the node switcher to the page, the server, its load counts or
its log. -/
inductive Command where
  /-- The value of a list's selected entry, or the empty text. -/
  | selectedValue (selector : Selector)
  /-- The values of a list's entries. -/
  | optionValues (selector : Selector)
  /-- Selects an entry of a list, if there is one at that index. -/
  | selectIndex (selector : Selector) (index : Nat)
  /-- Replaces a list's entries and selects `preselect` if it is an index of them,
  else the first entry if there is one. -/
  | replaceOptions (selector : Selector) (choices : List Choice) (preselect : Option Nat)
  /-- Sets or clears the error marker of a list. -/
  | setError (selector : Selector) (message : Option String)
  /-- Shows or hides the loading indicator. -/
  | setLoading (visible : Bool)
  /-- Shows a message to the user. -/
  | alert (message : String)
  /-- Reloads the page. -/
  | reload
  /-- Begins a load of a list and gives its ticket. -/
  | beginLoad (selector : Selector)
  /-- Whether a ticket is that of the latest load of a list. -/
  | isCurrent (selector : Selector) (ticket : Ticket)
  /-- Sends a request to the server and gives its answer. -/
  | send (request : Request)
  /-- Reports an event. -/
  | record (event : Event)

/-- The type of the answer to a command. -/
def Command.Reply : Command → Type
  | .selectedValue _ => String
  | .optionValues _ => List String
  | .beginLoad _ => Ticket
  | .isCurrent _ _ => Bool
  | .send _ => Except Fault Response
  | _ => Unit

/-- A program of the node switcher. -/
abbrev Task := Program Command.Reply

namespace Task

/-- The value of a list's selected entry, or the empty text. -/
def selectedValue (s : Selector) : Task String :=
  .ask (.selectedValue s) .pure

/-- The values of a list's entries. -/
def optionValues (s : Selector) : Task (List String) :=
  .ask (.optionValues s) .pure

/-- Selects an entry of a list. -/
def selectIndex (s : Selector) (i : Nat) : Task Unit :=
  .ask (.selectIndex s i) .pure

/-- Replaces a list's entries. -/
def replaceOptions (s : Selector) (cs : List Choice) (pre : Option Nat) : Task Unit :=
  .ask (.replaceOptions s cs pre) .pure

/-- Sets or clears a list's error marker. -/
def setError (s : Selector) (m : Option String) : Task Unit :=
  .ask (.setError s m) .pure

/-- Shows or hides the loading indicator. -/
def setLoading (b : Bool) : Task Unit :=
  .ask (.setLoading b) .pure

/-- Shows a message. -/
def alert (m : String) : Task Unit :=
  .ask (.alert m) .pure

/-- Reloads the page. -/
def reload : Task Unit :=
  .ask .reload .pure

/-- Begins a load of a list. -/
def beginLoad (s : Selector) : Task Ticket :=
  .ask (.beginLoad s) .pure

/-- Whether a ticket is the latest of a list. -/
def isCurrent (s : Selector) (t : Ticket) : Task Bool :=
  .ask (.isCurrent s t) .pure

/-- Sends a request. -/
def send (r : Request) : Task (Except Fault Response) :=
  .ask (.send r) .pure

/-- Reports an event. -/
def record (e : Event) : Task Unit :=
  .ask (.record e) .pure

end Task

end NodeSwitcher
