import NodeSwitcher.Config.Json
import NodeSwitcher.Proofs.Json.Records
import NodeSwitcher.Proofs.Json.Writing
/-!
# Page configurations read from JSON

`PageConfig.ofJson` reads exactly the configurations of the grammar (`PageConfig.Text`), with
blanks around them: a record of the members `nodeID` and `nodeAreaID`, which it needs, and
`endpoints`, `elements` and `logLevel`, which keep their defaults when absent. `endpoints` and
`elements` are records of their own, each member of them defaulting on its own, and `form` may be
`null`. Every record, nested or not, may be an object or an array of its fields. Every other text
is a configuration fault, and the compact text of a configuration reads back as it
(`PageConfig.ofJson_reads_configurations`).

Whether a record is an object or an array is decided for each record on its own: an object may
give `endpoints` as an array (`PageConfig.ofJson_endpoints_array_in_object`).
-/

namespace NodeSwitcher

open Json

namespace Endpoints

/-- The members of endpoints in the grammar: three strings, none needed. -/
def fieldTexts : List (FieldText Endpoints) :=
  [FieldText.of "countryOptions" false Str fun e v => { e with countryOptions := v },
   FieldText.of "nodeOptions" false Str fun e v => { e with nodeOptions := v },
   FieldText.of "change" false Str fun e v => { e with change := v }]

theorem jsonForm_agrees : List.Forall₂ Field.Agrees jsonForm.fields fieldTexts :=
  .cons (Field.string_agrees _ _ _) (.cons (Field.string_agrees _ _ _)
    (.cons (Field.string_agrees _ _ _) .nil))

/-- The compact text of endpoints: an object of all three members. -/
def toJson (e : Endpoints) : List Char :=
  writeObject [("countryOptions", writeString e.countryOptions),
    ("nodeOptions", writeString e.nodeOptions), ("change", writeString e.change)]

theorem record_toJson (e : Endpoints) (z : List Char) :
    Record {} fieldTexts (toJson e ++ z) e z := by
  have hw : List.Forall₂ (fun fd w => ∀ z, fd.rel (w.1 ++ z) w.2 z) fieldTexts
      [(writeString e.countryOptions, fun r => { r with countryOptions := e.countryOptions }),
       (writeString e.nodeOptions, fun r => { r with nodeOptions := e.nodeOptions }),
       (writeString e.change, fun r => { r with change := e.change })] :=
    .cons (FieldText.of_written str_writeString _ _ _ _)
      (.cons (FieldText.of_written str_writeString _ _ _ _)
        (.cons (FieldText.of_written str_writeString _ _ _ _) .nil))
  exact record_writeObject {} (by decide) hw z

theorem jsonForm_reads : Reads jsonForm.read (Record {} fieldTexts) :=
  Reads.record jsonForm_agrees

end Endpoints

namespace ElementIds

/-- The members of element ids in the grammar: four strings and `form`, a string or `null`, none
needed. -/
def fieldTexts : List (FieldText ElementIds) :=
  [FieldText.of "loader" false Str fun e v => { e with loader := v },
   FieldText.of "area" false Str fun e v => { e with area := v },
   FieldText.of "country" false Str fun e v => { e with country := v },
   FieldText.of "node" false Str fun e v => { e with node := v },
   FieldText.of "form" false (OptionOf Str) fun e v => { e with form := v }]

theorem jsonForm_agrees : List.Forall₂ Field.Agrees jsonForm.fields fieldTexts :=
  .cons (Field.string_agrees _ _ _) (.cons (Field.string_agrees _ _ _)
    (.cons (Field.string_agrees _ _ _) (.cons (Field.string_agrees _ _ _)
      (.cons (Field.agrees_of (Reads.string.option Str.ne_null) _ _ _) .nil))))

/-- The compact text of element ids: an object of all five members, `form` as `null` when it
is unset. -/
def toJson (e : ElementIds) : List Char :=
  writeObject [("loader", writeString e.loader), ("area", writeString e.area),
    ("country", writeString e.country), ("node", writeString e.node),
    ("form", writeOption writeString e.form)]

theorem record_toJson (e : ElementIds) (z : List Char) :
    Record {} fieldTexts (toJson e ++ z) e z := by
  have hw : List.Forall₂ (fun fd w => ∀ z, fd.rel (w.1 ++ z) w.2 z) fieldTexts
      [(writeString e.loader, fun r => { r with loader := e.loader }),
       (writeString e.area, fun r => { r with area := e.area }),
       (writeString e.country, fun r => { r with country := e.country }),
       (writeString e.node, fun r => { r with node := e.node }),
       (writeOption writeString e.form, fun r => { r with form := e.form })] :=
    .cons (FieldText.of_written str_writeString _ _ _ _)
      (.cons (FieldText.of_written str_writeString _ _ _ _)
        (.cons (FieldText.of_written str_writeString _ _ _ _)
          (.cons (FieldText.of_written str_writeString _ _ _ _)
            (.cons (FieldText.of_written (optionOf_writeOption str_writeString) _ _ _ _) .nil))))
  exact record_writeObject {} (by decide) hw z

theorem jsonForm_reads : Reads jsonForm.read (Record {} fieldTexts) :=
  Reads.record jsonForm_agrees

end ElementIds

namespace PageConfig

/-- The members of a page configuration in the grammar: `nodeID` and `nodeAreaID`, needed
strings; `endpoints` and `elements`, records of their own; `logLevel`, a string. -/
def fieldTexts : List (FieldText PageConfig) :=
  [FieldText.of "nodeID" true Str fun p v => { p with nodeId := v },
   FieldText.of "nodeAreaID" true Str fun p v => { p with nodeAreaId := v },
   FieldText.of "endpoints" false (Record {} Endpoints.fieldTexts) fun p v => { p with endpoints := v },
   FieldText.of "elements" false (Record {} ElementIds.fieldTexts) fun p v => { p with elements := v },
   FieldText.of "logLevel" false Str fun p v => { p with logLevel := v }]

/-- The texts of page configurations: records of the members, from the defaults. -/
def Text : List Char → PageConfig → List Char → Prop :=
  Record { nodeId := "", nodeAreaId := "" } fieldTexts

theorem jsonForm_agrees : List.Forall₂ Field.Agrees jsonForm.fields fieldTexts :=
  .cons (Field.string_agrees _ _ _) (.cons (Field.string_agrees _ _ _)
    (.cons (Field.agrees_of Endpoints.jsonForm_reads "endpoints" false
        fun (p : PageConfig) v => { p with endpoints := v })
      (.cons (Field.agrees_of ElementIds.jsonForm_reads "elements" false
        fun (p : PageConfig) v => { p with elements := v })
        (.cons (Field.string_agrees _ _ _) .nil))))

/-- The compact text of a page configuration: an object of all five members. -/
def toJson (p : PageConfig) : String :=
  String.ofList (writeObject [("nodeID", writeString p.nodeId),
    ("nodeAreaID", writeString p.nodeAreaId), ("endpoints", p.endpoints.toJson),
    ("elements", p.elements.toJson), ("logLevel", writeString p.logLevel)])

theorem text_toJson (p : PageConfig) (z : List Char) : Text (p.toJson.toList ++ z) p z := by
  have hw : List.Forall₂ (fun fd w => ∀ z, fd.rel (w.1 ++ z) w.2 z) fieldTexts
      [(writeString p.nodeId, fun r => { r with nodeId := p.nodeId }),
       (writeString p.nodeAreaId, fun r => { r with nodeAreaId := p.nodeAreaId }),
       (p.endpoints.toJson, fun r => { r with endpoints := p.endpoints }),
       (p.elements.toJson, fun r => { r with elements := p.elements }),
       (writeString p.logLevel, fun r => { r with logLevel := p.logLevel })] :=
    .cons (FieldText.of_written str_writeString _ _ _ _)
      (.cons (FieldText.of_written str_writeString _ _ _ _)
        (.cons (FieldText.of_written Endpoints.record_toJson _ _ _ _)
          (.cons (FieldText.of_written ElementIds.record_toJson _ _ _ _)
            (.cons (FieldText.of_written str_writeString _ _ _ _) .nil))))
  rw [toJson, String.toList_ofList]
  exact record_writeObject _ (by decide) hw z

/-- `PageConfig.ofJson` gives exactly the configurations of the grammar with blanks around
them. -/
theorem ofJson_eq_ok_iff (json : String) (c : PageConfig) :
    ofJson json = .ok c ↔ Whole Text json c := by
  unfold ofJson
  constructor
  · intro h
    split at h
    · next hc =>
      cases h
      exact ((Reads.record jsonForm_agrees).ofText_ok_iff json _).1 hc
    · cases h
  · intro hw
    rw [((Reads.record jsonForm_agrees).ofText_ok_iff json c).2 hw]

/- Members left out of a nested record keep their defaults. -/
example : (ofJson "\x7b\"nodeID\":\"n1\",\"nodeAreaID\":\"a-b\",\"endpoints\":\x7b\"change\":\"/c\"\x7d\x7d").toOption =
    some { nodeId := "n1", nodeAreaId := "a-b", endpoints := { change := "/c" } } := by
  decide +kernel

/-- A text that cannot be read is a configuration fault. -/
theorem ofJson_error {json : String} {f : Fault} (h : ofJson json = .error f) :
    ∃ d, f = .config d := by
  unfold ofJson at h
  split at h
  · cases h
  · cases h
    exact ⟨_, rfl⟩

/-- The compact text of a configuration reads back as it. -/
theorem ofJson_toJson (c : PageConfig) : ofJson c.toJson = .ok c := by
  rw [ofJson_eq_ok_iff]
  exact ⟨c.toJson.toList, [], .stop _, by simpa using text_toJson c [], .stop _⟩

/-- Configurations are read exactly as the grammar gives them, every other text is a
configuration fault, and every configuration reads back from its compact text. -/
theorem ofJson_reads_configurations (json : String) (c : PageConfig) :
    (ofJson json = .ok c ↔ Whole Text json c) ∧
    (∀ f, ofJson json = .error f → ∃ d, f = .config d) ∧
    ofJson c.toJson = .ok c :=
  ⟨ofJson_eq_ok_iff json c, fun _ h => ofJson_error h, ofJson_toJson c⟩

/-- An object may give `endpoints` as an array of its fields in order. -/
theorem ofJson_endpoints_array_in_object :
    ofJson "\x7b\"nodeID\":\"n1\",\"nodeAreaID\":\"eu-west-n1\",\"endpoints\":[\"/c\"]\x7d" =
      .ok { nodeId := "n1", nodeAreaId := "eu-west-n1", endpoints := { countryOptions := "/c" } } := by
  have h : (ofJson "\x7b\"nodeID\":\"n1\",\"nodeAreaID\":\"eu-west-n1\",\"endpoints\":[\"/c\"]\x7d").toOption =
      some { nodeId := "n1", nodeAreaId := "eu-west-n1", endpoints := { countryOptions := "/c" } } := by
    decide +kernel
  revert h
  cases ofJson _ <;> simp [Except.toOption]

end PageConfig

end NodeSwitcher
