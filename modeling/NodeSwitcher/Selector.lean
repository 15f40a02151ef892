/-!
# Selectors

The three drop-down lists of the page: areas, the countries of the selected area,
and the nodes of the selected country. The country and node lists depend on the
list before them.
-/

namespace NodeSwitcher

/-- One of the three lists. -/
inductive Selector where
  | area
  | country
  | node
  deriving DecidableEq, Repr

/-- The name of a list in logs. -/
def Selector.name : Selector → String
  | .area => "area"
  | .country => "country"
  | .node => "node"

end NodeSwitcher
