import NodeSwitcher.Config
import NodeSwitcher.Json.Record
/-!
# Page configuration in JSON

A page configuration is a JSON object with the members `nodeID` and `nodeAreaID`,
which it needs, and `endpoints`, `elements` and `logLevel`, which default.
`endpoints` is an object with `countryOptions`, `nodeOptions` and `change`;
`elements` one with `loader`, `area`, `country`, `node` and `form`, which may be
`null`. Every member of these two defaults on its own. Each record may also be
an array of its fields in this order. A configuration that cannot be read is a
`Fault.config` whose detail is the reading error.
-/

namespace NodeSwitcher

/-- How endpoints are read. -/
def Endpoints.jsonForm : Json.Form Endpoints where
  title := "Endpoints"
  start := {}
  fields :=
    [Json.Field.string "countryOptions" false fun e v => { e with countryOptions := v },
     Json.Field.string "nodeOptions" false fun e v => { e with nodeOptions := v },
     Json.Field.string "change" false fun e v => { e with change := v }]

/-- How element ids are read. -/
def ElementIds.jsonForm : Json.Form ElementIds where
  title := "ElementIds"
  start := {}
  fields :=
    [Json.Field.string "loader" false fun e v => { e with loader := v },
     Json.Field.string "area" false fun e v => { e with area := v },
     Json.Field.string "country" false fun e v => { e with country := v },
     Json.Field.string "node" false fun e v => { e with node := v },
     ⟨"form", false, fun c => (Json.Reader.option Json.Reader.string c).map
        fun (v, d) => (fun e => { e with form := v }, d)⟩]

/-- How a page configuration is read. -/
def PageConfig.jsonForm : Json.Form PageConfig where
  title := "PageConfig"
  start := { nodeId := "", nodeAreaId := "" }
  fields :=
    [Json.Field.string "nodeID" true fun p v => { p with nodeId := v },
     Json.Field.string "nodeAreaID" true fun p v => { p with nodeAreaId := v },
     ⟨"endpoints", false, fun c => (Endpoints.jsonForm.read c).map
        fun (v, d) => (fun p => { p with endpoints := v }, d)⟩,
     ⟨"elements", false, fun c => (ElementIds.jsonForm.read c).map
        fun (v, d) => (fun p => { p with elements := v }, d)⟩,
     Json.Field.string "logLevel" false fun p v => { p with logLevel := v }]

/-- Reads a page configuration from JSON text. -/
def PageConfig.ofJson (text : String) : Except Fault PageConfig :=
  match Json.Reader.ofText PageConfig.jsonForm.read text with
  | .ok c => .ok c
  | .error e => .error (.config e.message)

/-- Reads endpoints from JSON text. -/
def Endpoints.ofJson (text : String) : Except Fault Endpoints :=
  match Json.Reader.ofText Endpoints.jsonForm.read text with
  | .ok e => .ok e
  | .error e => .error (.config e.message)

end NodeSwitcher
