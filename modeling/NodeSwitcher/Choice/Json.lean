import NodeSwitcher.Choice
import NodeSwitcher.Fault
import NodeSwitcher.Json.Record
/-!
# Option lists from the server

The server sends a drop-down list as JSON: `null` for no entries, or an array of
entries. An entry is an object with the string members `Value` and `Text`, other
members ignored, or an array `[value, text]`. `decodeChoices` reads such a body
into choices, in the server's order; any other body is a `Fault.decode` whose
detail is the reading error.
-/

namespace NodeSwitcher

namespace Choice

/-- How a choice is read: members `Value` and `Text`, both needed. -/
def jsonForm : Json.Form Choice where
  title := "SelectOption"
  start := ⟨"", ""⟩
  fields :=
    [Json.Field.string "Value" true fun x v => { x with value := v },
     Json.Field.string "Text" true fun x t => { x with text := t }]

/-- Reads an option list: `null`, or an array of choices. -/
def listReader : Json.Reader (Option (List Choice)) :=
  Json.Reader.option (Json.Reader.list jsonForm.read)

end Choice

/-- The choices of an option list sent by the server. -/
def decodeChoices (body : String) : Except Fault (List Choice) :=
  match Json.Reader.ofText Choice.listReader body with
  | .ok xs => .ok (xs.getD [])
  | .error e => .error (.decode e.message)

end NodeSwitcher
