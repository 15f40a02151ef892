import NodeSwitcher.Request
/-!
# Endpoints

The three paths the node switcher talks to: the country list of an area, the
node list of a country, and the change of the active node. Each has a default.
A country list is asked for with `GET` and the query `areaOption`, a node list
with `GET` and `countryOption`, and a change with `POST` and `id`; the value is
sent as it is.
-/

namespace NodeSwitcher

/-- The paths of the server's three operations. -/
structure Endpoints where
  countryOptions : String := "/web/getCountryOptions"
  nodeOptions : String := "/web/getNodeOptions"
  change : String := "/change"
  deriving DecidableEq, Repr

namespace Endpoints

/-- The request for the countries of an area. -/
def countryRequest (e : Endpoints) (area : String) : Request :=
  ⟨.get, e.countryOptions, [("areaOption", area)]⟩

/-- The request for the nodes of a country. -/
def nodeRequest (e : Endpoints) (country : String) : Request :=
  ⟨.get, e.nodeOptions, [("countryOption", country)]⟩

/-- The request that makes a node the active one. -/
def changeRequest (e : Endpoints) (node : String) : Request :=
  ⟨.post, e.change, [("id", node)]⟩

end Endpoints

end NodeSwitcher
