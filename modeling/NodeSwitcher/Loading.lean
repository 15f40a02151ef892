import NodeSwitcher.Command
import NodeSwitcher.Choice.Json
import NodeSwitcher.Config
/-!
# Loading the dependent lists

The country list depends on the selected area, and the node list on the selected
country. Loading a list asks the server for it and puts the answer on the page.

A load takes a ticket from its list's count before it asks, and applies its
answer only if no other load of the same list began meanwhile; otherwise it
reports the answer as superseded and leaves the page alone, even when the
request failed. A current load that failed sets the list's error marker to the
fault's message; one that succeeded replaces the list, selects the wanted entry
if it is there, and clears the marker.

Loading the countries goes on to load the nodes of the country that is then
selected, unless the country load was superseded or failed. Initialising from a
page configuration selects the configured area, then loads the countries of
that area and the nodes of the configured country side by side, each keeping
the configured entry selected; an area id without a country runs the plain
cascade instead.
-/

namespace NodeSwitcher

/-- What a load did: replaced its list with `count` entries, or left it alone
because a newer load of the list began. -/
inductive LoadOutcome where
  | applied (count : Nat)
  | superseded
  deriving DecidableEq, Repr

namespace Task

/-- Asks the server for an option list. A status outside 200 to 299 is a fault
with the body as it came. -/
def fetchChoices (r : Request) : Task (Except Fault (List Choice)) := do
  record (.fetching r.path r.query)
  match ← send r with
  | .error f => pure (.error f)
  | .ok response =>
    if isSuccess response.status then pure (decodeChoices response.body)
    else pure (.error (.status response.status response.body))

/-- Loads a list with a request, selecting the last entry whose value is
`preselect` if there is one. -/
def load (s : Selector) (r : Request) (preselect : Option String) :
    Task (Except Fault LoadOutcome) := do
  let ticket ← beginLoad s
  let result ← fetchChoices r
  if !(← isCurrent s ticket) then
    record (.superseded s ticket)
    pure (.ok .superseded)
  else
    match result with
    | .error f =>
      record (.loadFailed s f)
      setError s (some f.message)
      pure (.error f)
    | .ok cs =>
      replaceOptions s cs (preselect.bind (lastMatch cs))
      setError s none
      pure (.ok (.applied cs.length))

/-- Loads the nodes of the selected country. -/
def loadNodes (e : Endpoints) : Task (Except Fault LoadOutcome) := do
  let country ← selectedValue .country
  load .node (e.nodeRequest country) none

/-- Loads the countries of an area, then the nodes of the country selected then. The
outcome is that of the country load. -/
def cascade (e : Endpoints) (area : String) : Task (Except Fault LoadOutcome) := do
  match ← load .country (e.countryRequest area) none with
  | .error f => pure (.error f)
  | .ok .superseded => pure (.ok .superseded)
  | .ok outcome =>
    match ← loadNodes e with
    | .error f => pure (.error f)
    | .ok _ => pure (.ok outcome)

/-- Loads the countries of the selected area, then their nodes. -/
def loadCountries (e : Endpoints) : Task (Except Fault LoadOutcome) := do
  let area ← selectedValue .area
  cascade e area

/-- Sets the lists up for a page configuration. The country fault, if any, comes
before the node fault. -/
def setUp (e : Endpoints) (c : PageConfig) : Task (Except Fault Unit) := do
  match c.areaPath with
  | .error f => pure (.error f)
  | .ok path =>
    match firstMatch (← optionValues .area) path.area with
    | some i => selectIndex .area i
    | none => record (.areaNotOffered path.area)
    match path.country with
    | none =>
      record (.plainCascade c.nodeAreaId)
      pure ((← cascade e path.area).map fun _ => ())
    | some country =>
      let (countries, nodes) ← Program.pair
        (load .country (e.countryRequest path.area) (some country))
        (load .node (e.nodeRequest country) (some c.nodeId))
      pure (do let _ ← countries; let _ ← nodes; pure ())

/-- Asks the server for an option list, as `fetchChoices`. -/
def fetch (r : Request) : Task (Except Fault (List Choice)) :=
  fetchChoices r

end Task

end NodeSwitcher
