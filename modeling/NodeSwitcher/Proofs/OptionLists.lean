import NodeSwitcher.Choice.Json
import NodeSwitcher.Proofs.Json.Records
import NodeSwitcher.Proofs.Json.Writing
/-!
# Option lists read from the server

`decodeChoices` reads exactly the option lists of the grammar (`Choice.ListText`): `null`, for
no choices, or an array of choices in the server's order, each an object with the string members
`Value` and `Text` once each and other members only checked, or an array `[value, text]`. Every
other body is a decode fault, and the compact text of a list of choices reads back as the list
(`decodeChoices_reads_option_lists`).

Members other than `Value` and `Text` are only checked, to any depth: their strings and member
names may hold a `\u` escape of half a surrogate pair alone, which a string the choice keeps may
not (`decodeChoices_lone_surrogate_in_other_member`).
-/

namespace NodeSwitcher

open Json

namespace Choice

/-- The members of a choice in the grammar: the strings `Value` and `Text`, both needed. -/
def fieldTexts : List (FieldText Choice) :=
  [FieldText.of "Value" true Str fun x v => { x with value := v },
   FieldText.of "Text" true Str fun x t => { x with text := t }]

theorem jsonForm_agrees : List.Forall₂ Field.Agrees jsonForm.fields fieldTexts :=
  .cons (Field.string_agrees _ _ _) (.cons (Field.string_agrees _ _ _) .nil)

/-- The texts of option lists: `null`, or an array of choices. -/
def ListText : List Char → Option (List Choice) → List Char → Prop :=
  OptionOf (ListOf (Record ⟨"", ""⟩ fieldTexts))

theorem listReader_reads : Reads listReader ListText :=
  (Reads.list (Reads.record jsonForm_agrees)).option fun h r => by
    obtain ⟨x', rfl, -⟩ := h
    simp

/-- The compact text of a choice: an object of its value and its text. -/
def toJson (c : Choice) : List Char :=
  writeObject [("Value", writeString c.value), ("Text", writeString c.text)]

/-- The compact text of a list of choices. -/
def listToJson (xs : List Choice) : String :=
  String.ofList (writeArray (xs.map toJson))

/-- The text of a choice is a record of the grammar standing for the choice. -/
theorem record_toJson (c : Choice) (z : List Char) :
    Record ⟨"", ""⟩ fieldTexts (toJson c ++ z) c z := by
  have hw : List.Forall₂ (fun fd w => ∀ z, fd.rel (w.1 ++ z) w.2 z) fieldTexts
      [(writeString c.value, fun x => { x with value := c.value }),
       (writeString c.text, fun x => { x with text := c.text })] :=
    .cons (FieldText.of_written str_writeString _ _ _ _)
      (.cons (FieldText.of_written str_writeString _ _ _ _) .nil)
  exact record_writeObject ⟨"", ""⟩ (by decide) hw z

end Choice

/-- `decodeChoices` gives the choices of exactly the option lists of the grammar with blanks
around them, no choices for `null`. -/
theorem decodeChoices_eq_ok_iff (body : String) (xs : List Choice) :
    decodeChoices body = .ok xs ↔ ∃ o, Whole Choice.ListText body o ∧ xs = o.getD [] := by
  unfold decodeChoices
  constructor
  · intro h
    split at h
    · next o ho =>
      cases h
      exact ⟨o, (Choice.listReader_reads.ofText_ok_iff body o).1 ho, rfl⟩
    · cases h
  · rintro ⟨o, hw, rfl⟩
    rw [(Choice.listReader_reads.ofText_ok_iff body o).2 hw]

/- A lone surrogate escape in a string the choice keeps is refused. -/
example : (decodeChoices "[\x7b\"Value\":\"\\ud800\",\"Text\":\"t\"\x7d]").toOption = none := by
  decide +kernel

/-- A body that is not an option list is a decoding fault. -/
theorem decodeChoices_error {body : String} {f : Fault} (h : decodeChoices body = .error f) :
    ∃ d, f = .decode d := by
  unfold decodeChoices at h
  split at h
  · cases h
  · cases h
    exact ⟨_, rfl⟩

/-- The compact text of a list of choices reads back as the list. -/
theorem decodeChoices_listToJson (xs : List Choice) :
    decodeChoices (Choice.listToJson xs) = .ok xs := by
  rw [decodeChoices_eq_ok_iff]
  refine ⟨some xs, ⟨(Choice.listToJson xs).toList, [], .stop _, .inr ⟨xs, rfl, ?_⟩, .stop _⟩, rfl⟩
  rw [Choice.listToJson, String.toList_ofList, ← List.append_nil (writeArray _)]
  exact listOf_writeArray Choice.record_toJson xs []

/-- Option lists are read exactly as the grammar gives them, every other body is a decode
fault, and every list of choices reads back from its compact text. -/
theorem decodeChoices_reads_option_lists (body : String) (xs : List Choice) :
    (decodeChoices body = .ok xs ↔ ∃ o, Whole Choice.ListText body o ∧ xs = o.getD []) ∧
    (∀ f, decodeChoices body = .error f → ∃ d, f = .decode d) ∧
    decodeChoices (Choice.listToJson xs) = .ok xs :=
  ⟨decodeChoices_eq_ok_iff body xs, fun _ h => decodeChoices_error h, decodeChoices_listToJson xs⟩

/-- A member other than `Value` and `Text` is only checked: its string may be a lone leading
surrogate escape. -/
theorem decodeChoices_lone_surrogate_in_other_member :
    decodeChoices "[\x7b\"Value\":\"v\",\"x\":\"\\ud800\",\"Text\":\"t\"\x7d]" =
      .ok [⟨"v", "t"⟩] := by
  have h : (decodeChoices "[\x7b\"Value\":\"v\",\"x\":\"\\ud800\",\"Text\":\"t\"\x7d]").toOption =
      some [⟨"v", "t"⟩] := by
    decide +kernel
  revert h
  cases decodeChoices _ <;> simp [Except.toOption]

end NodeSwitcher
