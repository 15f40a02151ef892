import NodeSwitcher.Json.Skip
/-!
# Typed readers of JSON values

A `Reader α` reads one JSON value as a value of `α`, with blanks before it, and
gives the cursor after it. `Reader.ofText` reads a whole text: one value, then
only blanks.

A value of another type than the one wanted is refused with `wrongType`, which
names what was found (`Cursor.found`) and is placed after it: after a word,
number or string, and before an array or object. Arrays of a type are read
element by element, with commas between and no comma before the closing
bracket.
-/

namespace NodeSwitcher.Json

/-- Reads one value of type `α`: gives it with a cursor after it, or the first error. -/
abbrev Reader (α : Type) := (c : Cursor) → Result (α × c.After)

namespace Cursor

/-- Reads what stands at a value whose first character `ch` is ahead, to name it in
an error: gives it and the cursor after it, or before it for an array or object. -/
def found {c : Cursor} (ch : Char) (before : Past c) (after : After c) :
    Result (Found × Past c) :=
  if ch = 'n' then (after.1.word ['u', 'l', 'l']).map fun d => (.null, (after.trans d).past)
  else if ch = 't' then (after.1.word ['r', 'u', 'e']).map fun d => (.bool true, (after.trans d).past)
  else if ch = 'f' then
    (after.1.word ['a', 'l', 's', 'e']).map fun d => (.bool false, (after.trans d).past)
  else if ch = '-' then
    match after.1.numeral true with
    | .ok (n, d) => (n.found d.1.pos).map fun x => (x, (after.trans d.past).past)
    | .error e => .error e
  else if isDigit ch then
    match before.1.numeral false with
    | .ok (n, d) => (n.found d.1.pos).map fun x => (x, (before.transAfter d).past)
    | .error e => .error e
  else if ch = '"' then
    (after.1.readString).map fun (s, d) => (.string s, (after.trans d.past).past)
  else if ch = '[' then .ok (.array, before)
  else if ch = '{' then .ok (.object, before)
  else fail .expectedValue before.1.peekPos

/-- Refuses the value whose first character `ch` is ahead, where a value described by
`wanted` belongs. -/
def mismatch {α : Type} {c : Cursor} (wanted : String) (ch : Char) (before : Past c)
    (after : After c) : Result α :=
  match found ch before after with
  | .ok (x, d) => fail (.wrongType x wanted) d.1.pos
  | .error e => .error e

/-- Closes an array after its last element: the cursor after the closing bracket, or
the error and the cursor where closing stopped. A comma is read before the error
that it causes. -/
def closeArray (c : Cursor) : Except (Error × Past c) (Past c) :=
  match c.ahead with
  | .stop q => .error (⟨.eofInList, q⟩, c.skipSpace)
  | .char ch before after =>
    if ch = ']' then .ok after.past
    else if ch = ',' then
      match after.1.ahead with
      | .char ']' before' _ =>
        .error (⟨.trailingComma, before'.1.peekPos⟩, after.past.trans before')
      | .char _ before' _ =>
        .error (⟨.trailingCharacters, before'.1.peekPos⟩, after.past.trans before')
      | .stop q => .error (⟨.trailingCharacters, q⟩, after.past.trans after.1.skipSpace)
    else .error (⟨.trailingCharacters, before.1.peekPos⟩, before)

/-- Closes an object after its last member: the cursor after the closing brace, or
the error and the cursor where closing stopped. -/
def closeObject (c : Cursor) : Except (Error × Past c) (Past c) :=
  match c.ahead with
  | .stop q => .error (⟨.eofInObject, q⟩, c.skipSpace)
  | .char ch before after =>
    if ch = '\x7d' then .ok after.past
    else if ch = ',' then .error (⟨.trailingComma, before.1.peekPos⟩, before)
    else .error (⟨.trailingCharacters, before.1.peekPos⟩, before)

/-- The place where closing an array or object stops, for a problem found inside
it that gets its place only there. -/
def stopOf {c : Cursor} : Except (Error × Past c) (Past c) → Position
  | .ok d => d.1.pos
  | .error (_, d) => d.1.pos

/-- Looks for the next element of an array: `none` at the closing bracket, else the
cursor at the element. The first element needs no comma before it. -/
def nextElement (first : Bool) (c : Cursor) : Result (Option (Past c)) :=
  match c.ahead with
  | .stop q => fail .eofInList q
  | .char ch before after =>
    if ch = ']' then .ok none
    else if first then .ok (some before)
    else if ch = ',' then
      match after.1.ahead with
      | .stop q => fail .eofInValue q
      | .char ch' before' _ =>
        if ch' = ']' then fail .trailingComma before'.1.peekPos
        else .ok (some (after.past.trans before'))
    else fail .expectedListCommaOrEnd before.1.peekPos

/-- Reads the elements of an array up to its closing bracket, which stays ahead;
`acc` holds the elements read so far, last first. -/
def elements {α : Type} (read : Reader α) (first : Bool) (acc : List α) (c : Cursor) :
    Result (List α × Past c) :=
  match nextElement first c with
  | .error e => .error e
  | .ok none => .ok (acc.reverse, c.here)
  | .ok (some d) =>
    match read d.1 with
    | .error e => .error e
    | .ok (x, e) =>
      have := (d.transAfter e).2
      (elements read false (x :: acc) (d.transAfter e).1).map
        fun (xs, f) => (xs, (d.transAfter e).past.trans f)
termination_by c.rest.length

end Cursor

namespace Reader

/-- Reads a string. -/
def string : Reader String := fun c =>
  match c.ahead with
  | .stop q => fail .eofInValue q
  | .char ch before after =>
    if ch = '"' then (after.1.readString).map fun (s, d) => (s, after.trans d.past)
    else Cursor.mismatch "a string" ch before after

/-- Reads `null` as `none`, and any other value with `read`. -/
def option {α : Type} (read : Reader α) : Reader (Option α) := fun c =>
  match c.ahead with
  | .char 'n' _ after => (after.1.word ['u', 'l', 'l']).map fun d => (none, after.trans d)
  | _ => (read c).map fun (x, d) => (some x, d)

/-- Reads an array of values, each with `read`. -/
def list {α : Type} (read : Reader α) : Reader (List α) := fun c =>
  match c.ahead with
  | .stop q => fail .eofInValue q
  | .char ch before after =>
    if ch = '[' then
      match Cursor.elements read true [] after.1 with
      | .error e => .error e
      | .ok (xs, d) =>
        match Cursor.closeArray d.1 with
        | .ok e => .ok (xs, after.trans (d.trans e))
        | .error (err, _) => .error err
    else Cursor.mismatch "a sequence" ch before after

/-- Reads a whole text: one value, then only blanks. -/
def ofText {α : Type} (read : Reader α) (s : String) : Result α :=
  match read (Cursor.ofString s) with
  | .error e => .error e
  | .ok (x, d) =>
    match d.1.ahead with
    | .stop _ => .ok x
    | .char _ before _ => fail .trailingCharacters before.1.peekPos

end Reader

end NodeSwitcher.Json
