import NodeSwitcher.Command
import NodeSwitcher.Endpoints
import NodeSwitcher.Text.Blank
/-!
# Submitting the node change

Submitting asks the server to make the selected node the active one. A node
value of blanks only, or none, is refused at once with an alert. Otherwise the
loading indicator is shown while the request is on its way; a status of exactly
200 reloads the page, any other status shows the body as an alert, and a request
that does not reach the server shows a fixed alert.
-/

namespace NodeSwitcher

/-- The alert for a submission without a node. -/
def selectNodeMessage : String := "Please select a node"

/-- The alert for a change request that did not reach the server. -/
def submitFailedMessage : String := "Form submission failed."

/-- How a submission ended. -/
inductive SubmitOutcome where
  /-- No node was selected. -/
  | rejected
  /-- The server changed the node and the page reloads. -/
  | reloaded
  /-- The server answered with another status than 200. -/
  | refused (status : UInt16) (message : String)
  /-- The request did not reach the server. -/
  | failed (fault : Fault)
  deriving DecidableEq, Repr

/-- Submits the selected node. -/
def Task.submit (e : Endpoints) : Task SubmitOutcome := do
  let node ← selectedValue .node
  if Text.allBlank node then
    alert selectNodeMessage
    pure .rejected
  else
    setLoading true
    let result ← send (e.changeRequest node)
    setLoading false
    match result with
    | .ok response =>
      if response.status = 200 then
        record (.nodeChanged node)
        reload
        pure .reloaded
      else
        record (.changeRefused node response.status)
        alert response.body
        pure (.refused response.status response.body)
    | .error f =>
      record (.changeFailed node f)
      alert submitFailedMessage
      pure (.failed f)

end NodeSwitcher
