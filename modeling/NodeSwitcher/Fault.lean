import NodeSwitcher.Text.Blank
import NodeSwitcher.Text.Quoted
/-!
# Faults

Why an operation of the node switcher failed: the request did not reach the
server, the server answered with a status outside 200 to 299, its answer was not
an option list, a node area id has no area, a page element is missing, or the
page configuration cannot be read. `Fault.message` is the text shown for each.
-/

namespace NodeSwitcher

/-- Why an operation failed. -/
inductive Fault where
  /-- The request did not reach the server. -/
  | transport (detail : String)
  /-- The server answered with a status outside 200 to 299. -/
  | status (code : UInt16) (body : String)
  /-- The answer was not an option list. -/
  | decode (detail : String)
  /-- A node area id that names no area. -/
  | invalidAreaId (id : String)
  /-- A page element that is not there. -/
  | missingElement (id : String)
  /-- A page configuration that cannot be read. -/
  | config (detail : String)
  deriving DecidableEq, Repr

/-- The text of a fault. A status fault shows the body with the blanks at its ends
removed, and only the code when nothing else is left. -/
def Fault.message : Fault → String
  | .transport detail => "request failed: " ++ detail
  | .status code body =>
    let shown := Text.trimBlank body
    if shown.isEmpty then "HTTP " ++ toString code else "HTTP " ++ toString code ++ ": " ++ shown
  | .decode detail => "malformed option list: " ++ detail
  | .invalidAreaId id => "invalid node area id: " ++ Text.quote id
  | .missingElement id => "missing element #" ++ id
  | .config detail => "invalid picker config: " ++ detail

end NodeSwitcher
