import NodeSwitcher.Fault
import NodeSwitcher.Selector
import NodeSwitcher.Ticket
/-!
# Log events

What the node switcher reports while it works, with a level, a message and named
fields in a fixed order. Texts, paths and node ids appear as they are; a query
appears as a bracketed list of quoted pairs, `[("areaOption", "eu")]`; a fault as
its message; numbers in decimal.
-/

namespace NodeSwitcher

/-- How much an event matters. -/
inductive Level where
  | debug
  | info
  | warn
  deriving DecidableEq, Repr

/-- The name of a level in logs. -/
def Level.name : Level → String
  | .debug => "DEBUG"
  | .info => "INFO"
  | .warn => "WARN"

/-- Something the node switcher reports. -/
inductive Event where
  /-- An option list is about to be asked for. -/
  | fetching (path : String) (query : List (String × String))
  /-- A load's list arrived after a newer load of the same list began. -/
  | superseded (selector : Selector) (ticket : Ticket)
  /-- A current load failed. -/
  | loadFailed (selector : Selector) (fault : Fault)
  /-- No area of the list is the configured one. -/
  | areaNotOffered (area : String)
  /-- The configured area id names no country. -/
  | plainCascade (nodeAreaId : String)
  /-- The server made the node the active one. -/
  | nodeChanged (node : String)
  /-- The server refused to make the node the active one. -/
  | changeRefused (node : String) (status : UInt16)
  /-- The change request did not reach the server. -/
  | changeFailed (node : String) (fault : Fault)
  deriving DecidableEq, Repr

/-- A query as a bracketed list of quoted pairs. -/
def showQuery (query : List (String × String)) : String :=
  "[" ++ ", ".intercalate (query.map fun kv => "(" ++ Text.quote kv.1 ++ ", " ++ Text.quote kv.2 ++ ")") ++ "]"

namespace Event

/-- The level of an event. -/
def level : Event → Level
  | .fetching .. | .superseded .. | .areaNotOffered .. | .plainCascade .. => .debug
  | .nodeChanged .. => .info
  | .loadFailed .. | .changeRefused .. | .changeFailed .. => .warn

/-- The message of an event. -/
def message : Event → String
  | .fetching .. => "fetching options"
  | .superseded .. => "dropping superseded option list"
  | .loadFailed .. => "option load failed"
  | .areaNotOffered .. => "active area not offered"
  | .plainCascade .. => "no country segment, running plain cascade"
  | .nodeChanged .. => "node changed, reloading"
  | .changeRefused .. => "node change refused"
  | .changeFailed .. => "node change request failed"

/-- The named fields of an event, in order. -/
def fields : Event → List (String × String)
  | .fetching path query => [("path", path), ("query", showQuery query)]
  | .superseded selector ticket => [("selector", selector.name), ("ticket", toString ticket.val)]
  | .loadFailed selector fault => [("selector", selector.name), ("error", fault.message)]
  | .areaNotOffered area => [("area", area)]
  | .plainCascade id => [("node_area_id", id)]
  | .nodeChanged node => [("node_id", node)]
  | .changeRefused node status => [("node_id", node), ("status", toString status)]
  | .changeFailed node fault => [("node_id", node), ("error", fault.message)]

end Event

end NodeSwitcher
