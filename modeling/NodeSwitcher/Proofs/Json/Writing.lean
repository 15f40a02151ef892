import Mathlib.Data.List.Forall2
import NodeSwitcher.Proofs.Json.Grammar
/-!
# Writing JSON texts

The compact JSON text of strings, arrays and objects: no blanks between tokens, members and
elements separated by commas. Inside a string the quote and the backslash are escaped with a
backslash, the control characters that have a one-letter escape are written with it, the other
control characters as `\u00XX` with lowercase digits, and every other character as itself.

Each text written is one the grammar reads back, whatever follows it:

* `str_writeString`: a written string stands for the string;
* `listOf_writeArray`: a written array of texts of `R` stands for their values;
* `optionOf_writeOption`: a written `null` or value stands for it;
* `record_writeObject`: an object that gives every field of a record once, in the order of the
  fields, stands for the record updated by the fields' values in that order.
-/

namespace NodeSwitcher.Json

/-! ### Strings -/

/-- The lowercase hexadecimal digit of a number below sixteen. -/
def hexDigit (n : Nat) : Char :=
  if n < 10 then Char.ofNat (48 + n) else Char.ofNat (87 + n)

theorem hexValue_hexDigit : ∀ n, n < 16 → hexValue (hexDigit n) = some n := by
  decide

/-- Two hexadecimal digits after two zeros stand for a number below 256. -/
theorem hexQuad_hexDigit {n : Nat} (h : n < 256) :
    hexQuad '0' '0' (hexDigit (n / 16)) (hexDigit (n % 16)) = some n := by
  have hhi := hexValue_hexDigit (n / 16) (by omega)
  have hlo := hexValue_hexDigit (n % 16) (Nat.mod_lt n (by decide))
  simp only [hexQuad, hhi, hlo, show hexValue '0' = some 0 by decide, Option.bind_eq_bind,
    Option.bind_some, Option.pure_def, Option.some.injEq]
  omega

/-- How a character is written inside a string. -/
def escapeChar (c : Char) : List Char :=
  if c = '"' then ['\\', '"']
  else if c = '\\' then ['\\', '\\']
  else if c = '\x08' then ['\\', 'b']
  else if c = '\x0c' then ['\\', 'f']
  else if c = '\n' then ['\\', 'n']
  else if c = '\r' then ['\\', 'r']
  else if c = '\t' then ['\\', 't']
  else if c.toNat < 0x20 then ['\\', 'u', '0', '0', hexDigit (c.toNat / 16), hexDigit (c.toNat % 16)]
  else [c]

/-- The text of a string: its characters written between quotes. -/
def writeString (s : String) : List Char :=
  '"' :: (s.toList.flatMap escapeChar ++ ['"'])

theorem writeString_append (s : String) (z : List Char) :
    writeString s ++ z = '"' :: (s.toList.flatMap escapeChar ++ '"' :: z) := by
  simp [writeString]

/-- A control character without a one-letter escape is read back from its `\u00XX` escape. -/
theorem escape_control {c : Char} (h : c.toNat < 0x20) (y : List Char) :
    Escape ('u' :: '0' :: '0' :: hexDigit (c.toNat / 16) :: hexDigit (c.toNat % 16) :: y) c y := by
  have he := Escape.unit (y := y) (hexQuad_hexDigit (show c.toNat < 256 by omega)) (.inl (by omega))
  rwa [Char.ofNat_toNat] at he

/-- A written character stands for itself, whatever follows it. -/
theorem chars_escapeChar (c : Char) {x s y : List Char} (h : Chars x s y) :
    Chars (escapeChar c ++ x) (c :: s) y := by
  unfold escapeChar
  -- each one-letter escape reads back through `simpleEscape`
  split
  · next hc => subst hc; exact .escape (.simple (by decide)) h
  split
  · next hc => subst hc; exact .escape (.simple (by decide)) h
  split
  · next hc => subst hc; exact .escape (.simple (by decide)) h
  split
  · next hc => subst hc; exact .escape (.simple (by decide)) h
  split
  · next hc => subst hc; exact .escape (.simple (by decide)) h
  split
  · next hc => subst hc; exact .escape (.simple (by decide)) h
  split
  · next hc => subst hc; exact .escape (.simple (by decide)) h
  split
  · next hc => exact .escape (escape_control hc _) h
  · next hq hb _ _ _ _ _ hc => exact .plain ⟨hq, hb, by omega⟩ h

theorem chars_escaped (cs y : List Char) : Chars (cs.flatMap escapeChar ++ '"' :: y) cs y := by
  induction cs with
  | nil => exact .close y
  | cons c cs ih =>
    rw [List.flatMap_cons, List.append_assoc]
    exact chars_escapeChar c ih

/-- A written string stands for the string, whatever follows it. -/
theorem str_writeString (s : String) (y : List Char) : Str (writeString s ++ y) s y :=
  ⟨_, s.toList, writeString_append s y, chars_escaped s.toList y, by simp⟩

/-! ### Arrays and objects -/

/-- Texts one after another, with a comma between each two. -/
def commaSeparated : List (List Char) → List Char
  | [] => []
  | t :: ts => t ++ ts.flatMap (',' :: ·)

/-- The text of an array of the element texts `ts`. -/
def writeArray (ts : List (List Char)) : List Char :=
  '[' :: (commaSeparated ts ++ [']'])

/-- The text of an object of members, each a name and the text of its value. -/
def writeObject (members : List (String × List Char)) : List Char :=
  '\x7b' :: (commaSeparated (members.map fun m => writeString m.1 ++ ':' :: m.2) ++ ['\x7d'])

theorem sep_first (x : List Char) : Sep true x x := rfl

theorem sep_comma (x : List Char) : Sep false (',' :: x) x := .stop _

section Arrays

variable {α : Type} {R : List Char → α → List Char → Prop} {w : α → List Char}

theorem elements_written (hw : ∀ a z, R (w a ++ z) a z) (as : List α) (y : List Char) :
    Elements R false ((as.map w).flatMap (',' :: ·) ++ ']' :: y) as y := by
  induction as with
  | nil => exact .close (.stop _)
  | cons a as ih =>
    simp only [List.map_cons, List.flatMap_cons, List.cons_append, List.append_assoc]
    exact .element (sep_comma _) (.stop _) (hw a _) ih

/-- An array of written elements stands for the elements, whatever follows it. -/
theorem listOf_writeArray (hw : ∀ a z, R (w a ++ z) a z) (as : List α) (y : List Char) :
    ListOf R (writeArray (as.map w) ++ y) as y := by
  have htext : writeArray (as.map w) ++ y = '[' :: (commaSeparated (as.map w) ++ ']' :: y) := by
    simp [writeArray]
  refine ⟨_, htext, ?_⟩
  cases as with
  | nil => exact .close (.stop _)
  | cons a as =>
    simp only [List.map_cons, commaSeparated, List.append_assoc]
    exact .element (sep_first _) (.stop _) (hw a _) (elements_written hw as y)

/-- The text of an optional value: `null`, or the text of the value. -/
def writeOption (write : α → List Char) : Option α → List Char
  | none => ['n', 'u', 'l', 'l']
  | some a => write a

theorem optionOf_writeOption (hw : ∀ a z, R (w a ++ z) a z) (o : Option α) (y : List Char) :
    OptionOf R (writeOption w o ++ y) o y := by
  cases o with
  | none => exact .inl ⟨rfl, rfl⟩
  | some a => exact .inr ⟨a, rfl, hw a y⟩

/-- A written value of a field of the texts of `R` sets the value. -/
theorem FieldText.of_written {σ : Type} (hw : ∀ a z, R (w a ++ z) a z) (name : String)
    (required : Bool) (set : σ → α → σ) (a : α) (z : List Char) :
    (FieldText.of name required R set).rel (w a ++ z) (fun r => set r a) z :=
  ⟨a, hw a z, rfl⟩

end Arrays

section Objects

variable {σ : Type} {fields : List (FieldText σ)}

/-- In fields of distinct names, the field of a field's name is that field. -/
theorem find?_name (hnodup : (fields.map (·.name)).Nodup) {fd : FieldText σ} (hfd : fd ∈ fields) :
    fields.find? (·.name = fd.name) = some fd := by
  induction fields with
  | nil => cases hfd
  | cons g gs ih =>
    rw [List.map_cons, List.nodup_cons] at hnodup
    rcases List.mem_cons.1 hfd with rfl | hfd
    · simp
    · have hne : g.name ≠ fd.name := fun e => hnodup.1 (e ▸ List.mem_map_of_mem hfd)
      simp [hne, ih hnodup.2 hfd]

/-- The members written for the fields `fs`, each with the text of its value, after a first
member: each behind a comma. -/
theorem members_written (hnodup : (fields.map (·.name)).Nodup) {fs : List (FieldText σ)}
    (hfs : ∀ fd ∈ fs, fd ∈ fields) {ws : List (List Char × (σ → σ))}
    (hw : List.Forall₂ (fun fd w => ∀ z, fd.rel (w.1 ++ z) w.2 z) fs ws) (y : List Char) :
    Members fields false
      (((List.zipWith (fun fd w => (fd.name, w.1)) fs ws).map
        fun m => writeString m.1 ++ ':' :: m.2).flatMap (',' :: ·) ++ '\x7d' :: y)
      (List.zipWith (fun fd w => (fd.name, some w.2)) fs ws) y := by
  induction hw with
  | nil => exact .close (.stop _)
  | @cons fd w fs ws hfw _ ih =>
    have hfd := hfs fd (List.mem_cons_self ..)
    have hmv : ∀ z, MemberValue fields fd.name (w.1 ++ z) (some w.2) z := fun z => by
      unfold MemberValue
      rw [find?_name hnodup hfd]
      exact ⟨w.2, hfw z, rfl⟩
    have hk := chars_escaped fd.name.toList
    simp only [List.zipWith_cons_cons, List.map_cons, List.flatMap_cons, List.cons_append,
      List.append_assoc]
    rw [writeString_append]
    have hm := Members.member (sep_comma _) (.stop _) (hk _) (.stop _) (.stop _)
      (by rw [String.ofList_toList]; exact hmv _) (ih fun fd h => hfs fd (List.mem_cons_of_mem _ h))
    rwa [String.ofList_toList] at hm

/-- The members written for all the fields, in order. -/
theorem members_writeObject (hnodup : (fields.map (·.name)).Nodup) {ws : List (List Char × (σ → σ))}
    (hw : List.Forall₂ (fun fd w => ∀ z, fd.rel (w.1 ++ z) w.2 z) fields ws) (y : List Char) :
    Members fields true
      (commaSeparated ((List.zipWith (fun fd w => (fd.name, w.1)) fields ws).map
        fun m => writeString m.1 ++ ':' :: m.2) ++ '\x7d' :: y)
      (List.zipWith (fun fd w => (fd.name, some w.2)) fields ws) y := by
  cases hw with
  | nil => exact .close (.stop _)
  | @cons fd w fs ws hfw hrest =>
    have hmv : ∀ z, MemberValue (fd :: fs) fd.name (w.1 ++ z) (some w.2) z := fun z => by
      unfold MemberValue
      rw [find?_name hnodup (List.mem_cons_self ..)]
      exact ⟨w.2, hfw z, rfl⟩
    have hms := members_written hnodup (fun fd h => List.mem_cons_of_mem _ h) hrest y
    simp only [List.zipWith_cons_cons, List.map_cons, commaSeparated, List.cons_append,
      List.append_assoc]
    rw [writeString_append]
    have hm := Members.member (sep_first _) (.stop _) (chars_escaped fd.name.toList _) (.stop _)
      (.stop _) (by rw [String.ofList_toList]; exact hmv _) hms
    rwa [String.ofList_toList] at hm

theorem fieldNames_zipWith {fs : List (FieldText σ)} {ws : List (List Char × (σ → σ))}
    (hlen : fs.length = ws.length) :
    fieldNames (List.zipWith (fun fd w => (fd.name, some w.2)) fs ws) = fs.map (·.name) := by
  induction fs generalizing ws with
  | nil => rfl
  | cons fd fs ih =>
    cases ws with
    | nil => cases hlen
    | cons w ws =>
      simp only [List.zipWith_cons_cons, fieldNames, List.filter_cons, Option.isSome_some,
        ↓reduceIte, List.map_cons] at ih ⊢
      rw [ih (by simpa using hlen)]

theorem foldl_zipWith {fs : List (FieldText σ)} {ws : List (List Char × (σ → σ))}
    (hlen : fs.length = ws.length) (start : σ) :
    (List.zipWith (fun fd w => (fd.name, some w.2)) fs ws).foldl (fun v m => (m.2.getD id) v) start =
      ws.foldl (fun v w => w.2 v) start := by
  induction fs generalizing ws start with
  | nil => cases ws with
    | nil => rfl
    | cons => cases hlen
  | cons fd fs ih =>
    cases ws with
    | nil => cases hlen
    | cons w ws =>
      simp only [List.zipWith_cons_cons, List.foldl_cons, Option.getD_some]
      exact ih (by simpa using hlen) _

/-- An object that gives every field once, in the order of the fields, each with a text of its
value, stands for the record updated by those values in that order, whatever follows it. -/
theorem record_writeObject (start : σ) (hnodup : (fields.map (·.name)).Nodup)
    {ws : List (List Char × (σ → σ))}
    (hw : List.Forall₂ (fun fd w => ∀ z, fd.rel (w.1 ++ z) w.2 z) fields ws) (y : List Char) :
    Record start fields (writeObject (List.zipWith (fun fd w => (fd.name, w.1)) fields ws) ++ y)
      (ws.foldl (fun v w => w.2 v) start) y := by
  have hlen := hw.length_eq
  have hobj := @Record.object _ start _ _ _ _ (members_writeObject hnodup hw y)
    (by rw [fieldNames_zipWith hlen]; exact hnodup)
    (fun fd hfd _ => by rw [fieldNames_zipWith hlen]; exact List.mem_map_of_mem hfd)
  rw [foldl_zipWith hlen] at hobj
  simpa only [writeObject, List.cons_append, List.append_assoc, List.nil_append] using hobj

end Objects

end NodeSwitcher.Json
