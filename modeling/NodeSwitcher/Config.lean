import NodeSwitcher.Area
import NodeSwitcher.Endpoints
/-!
# Page configuration

What a page tells the node switcher: the active node and its area id, the
server's endpoints, the ids of the page elements it works on, and the log level.
All but the node and its area id have defaults.
-/

namespace NodeSwitcher

/-- The ids of the page elements: the loading indicator, the three lists and the
form, which a page need not have. -/
structure ElementIds where
  loader : String := "loader"
  area : String := "areaSelect"
  country : String := "countrySelect"
  node : String := "nodeSelect"
  form : Option String := none
  deriving DecidableEq, Repr

/-- The configuration of a page. -/
structure PageConfig where
  nodeId : String
  nodeAreaId : String
  endpoints : Endpoints := {}
  elements : ElementIds := {}
  logLevel : String := "info"
  deriving DecidableEq, Repr

/-- Where the active node sits. -/
def PageConfig.areaPath (c : PageConfig) : Except Fault AreaPath :=
  AreaPath.parse c.nodeAreaId

end NodeSwitcher
