import NodeSwitcher.Json.Reader
/-!
# Records in JSON

A record is read from an object, member by member, or from an array of its fields
in declaration order. A `Form` says how: the record's title in messages, the
record it starts from, and its fields. Each field has a member name, says whether
the record needs it, and reads its value as an update of the record.

From an object: members may come in any order; members of other names are
skipped; a field named twice is refused at its second name; a needed field that
is absent is reported when the object closes, the first absent in declaration
order. From an array: a needed field that is absent is reported as a length
error; the other fields keep the starting record's values; elements beyond the
fields are refused when the array should close.

Problems about the record as a whole are placed where closing it stops.
-/

namespace NodeSwitcher.Json

/-- A field of a record of type `σ`: its member name, whether the record needs it,
and how its value updates the record. -/
structure Field (σ : Type) where
  name : String
  required : Bool
  read : Reader (σ → σ)

/-- A field that holds a string, set into the record by `set`. -/
def Field.string {σ : Type} (name : String) (required : Bool) (set : σ → String → σ) : Field σ :=
  ⟨name, required, fun c => (Reader.string c).map fun (v, d) => (fun x => set x v, d)⟩

/-- How a record of type `σ` is read. -/
structure Form (σ : Type) where
  /-- The record's name in messages. -/
  title : String
  /-- The record before any field is read; fields that are not needed keep its values. -/
  start : σ
  fields : List (Field σ)

namespace Form

variable {σ : Type}

/-- What reading the fields of a record gives: the record, or a problem that gets
its place when the record closes, with the cursor where reading stopped. -/
abbrev Visit (σ : Type) (c : Cursor) := Result (Except Problem σ × c.Past)

/-- How messages describe a record. -/
def wanted (f : Form σ) : String :=
  "struct " ++ f.title

/-- How length errors describe a record in array form. -/
def wantedElements (f : Form σ) : String :=
  f.wanted ++ " with " ++ toString f.fields.length ++ " elements"

/-- Reads fields from an array, in order, from the `index`-th on. -/
def fromElements (f : Form σ) (index : Nat) (first : Bool) (acc : σ) :
    List (Field σ) → (c : Cursor) → Visit σ c
  | [], c => .ok (.ok acc, c.here)
  | fd :: more, c =>
    match Cursor.nextElement first c with
    | .error e => .error e
    | .ok none =>
      if fd.required then .ok (.error (.wrongLength index f.wantedElements), c.here)
      else
        (fromElements f (index + 1) false acc more c).map fun (x, d) => (x, d)
    | .ok (some d) =>
      match fd.read d.1 with
      | .error e => .error e
      | .ok (update, e) =>
        (fromElements f (index + 1) false (update acc) more (d.transAfter e).1).map
          fun (x, g) => (x, (d.transAfter e).past.trans g)

/-- The first needed field not among the names read. -/
def firstMissing (f : Form σ) (seen : List String) : Option String :=
  (f.fields.find? fun fd => fd.required && !seen.contains fd.name).map Field.name

/-- Reads the value of a member whose name has been read: the update of a field of
that name, or nothing for a member of another name, and the cursor after it. -/
def member (f : Form σ) (name : String) (c : Cursor) :
    Result (Option (σ → σ) × c.Past) :=
  match c.ahead with
  | .stop q => fail .eofInObject q
  | .char ch before after =>
    if ch = ':' then
      match f.fields.find? (·.name == name) with
      | some fd => (fd.read after.1).map fun (u, d) => (some u, (after.trans d.past).past)
      | none => (after.1.skipValue).map fun d => (none, (after.trans d).past)
    else fail .expectedColon before.1.peekPos

/-- Reads members of an object until its closing brace, which stays ahead; `seen`
holds the names of the fields read so far. -/
def fromMembers (f : Form σ) (first : Bool) (seen : List String) (acc : σ) (c : Cursor) :
    Visit σ c :=
  match c.ahead with
  | .stop q => fail .eofInObject q
  | .char ch before after =>
    if ch = '\x7d' then
      match f.firstMissing seen with
      | some name => .ok (.error (.missingField name), before)
      | none => .ok (.ok acc, before)
    else
      let key : Result c.Past :=
        if first then .ok before
        else if ch = ',' then .ok after.past
        else fail .expectedObjectCommaOrEnd before.1.peekPos
      match key with
      | .error e => .error e
      | .ok k =>
        match k.1.ahead with
        | .stop q => fail .eofInValue q
        | .char ch' before' after' =>
          if ch' = '"' then
            match after'.1.readString with
            | .error e => .error e
            | .ok (name, d) =>
              have e := k.transAfter (after'.trans d.past)
              if f.fields.any (·.name == name) && seen.contains name then
                .ok (.error (.duplicateField name), e.past)
              else
                match member f name e.1 with
                | .error err => .error err
                | .ok (update, g) =>
                  have := (e.trans g).2
                  let seen' := if f.fields.any (·.name == name) then name :: seen else seen
                  let acc' := match update with | some u => u acc | none => acc
                  (fromMembers f false seen' acc' (e.trans g).1).map
                    fun (x, h) => (x, (e.trans g).past.trans h)
          else if ch' = '\x7d' then fail .trailingComma before'.1.peekPos
          else fail .keyNotString before'.1.peekPos
termination_by c.rest.length

/-- Reads a record from an object or an array. -/
def read (f : Form σ) : Reader σ := fun c =>
  match c.ahead with
  | .stop q => fail .eofInValue q
  | .char ch before after =>
    if ch = '[' then
      match fromElements f 0 true f.start f.fields after.1 with
      | .error e => .error e
      | .ok (x, d) =>
        let closed := Cursor.closeArray d.1
        match x, closed with
        | .error p, _ => fail p (Cursor.stopOf closed)
        | .ok v, .ok e => .ok (v, after.trans (d.trans e))
        | .ok _, .error (err, _) => .error err
    else if ch = '\x7b' then
      match fromMembers f true [] f.start after.1 with
      | .error e => .error e
      | .ok (x, d) =>
        let closed := Cursor.closeObject d.1
        match x, closed with
        | .error p, _ => fail p (Cursor.stopOf closed)
        | .ok v, .ok e => .ok (v, after.trans (d.trans e))
        | .ok _, .error (err, _) => .error err
    else Cursor.mismatch f.wanted ch before after

end Form

end NodeSwitcher.Json
