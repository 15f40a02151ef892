import NodeSwitcher.Json.Record
/-!
# A grammar of JSON texts

The texts the readers of `NodeSwitcher.Json` accept, written over lists of characters and apart
from the readers. Each relation `R x … y` says that `x` begins with a text of its kind and goes
on with `y`; what the text stands for sits in between.

* `Blanks`: spaces, tabs, line feeds and carriage returns.
* `Chars`: the rest of a string after its opening quote, with the characters it stands for. Plain
  characters from U+0020 on stand for themselves; `\"`, `\\`, `\/`, `\b`, `\f`, `\n`, `\r`, `\t`
  for one character each; `\u` with four hexadecimal digits for the character of that code point,
  which must not be a surrogate, or, for a leading surrogate, together with a `\u` escape of a
  trailing one right after it, for the character of the pair.
* `LooseChars`: the same, for a string that is only checked: any `\u` escape is allowed.
* `Number`: an optional minus, integer digits with no superfluous leading zero, an optional
  fraction, an optional exponent.
* `Ignored`: any value, with arrays and objects nested to any depth, read only to be checked; its
  strings and member names are `LooseChars`.
* `ListOf`: an array of elements of one kind; `OptionOf`: `null` or a value of one kind.
* `Record`: a record given as an object of members in any order, or as an array of its fields in
  order, with the fields it does not need left out at the end.

`Follows` says what may come right after a value: the end, a blank, a comma or a closing bracket.
-/

namespace NodeSwitcher.Json

/-- `Blanks x y`: `x` is blanks, maybe none, followed by `y`. -/
inductive Blanks : List Char → List Char → Prop
  | stop (x : List Char) : Blanks x x
  | next {c : Char} {x y : List Char} : Cursor.isSpace c = true → Blanks x y → Blanks (c :: x) y

/-- What may come right after a value: the end of the text, a blank, a comma or a closing
bracket. -/
def Follows : List Char → Prop
  | [] => True
  | c :: _ => Cursor.isSpace c = true ∨ c = ',' ∨ c = ']' ∨ c = '\x7d'

/-- What stands before an element of an array or a member of an object: nothing before the first,
a comma after blanks before every other. -/
def Sep (first : Bool) (x x' : List Char) : Prop :=
  if first then x' = x else Blanks x (',' :: x')

/-! ### Strings -/

/-- The value of four hexadecimal digits. -/
def hexQuad (a b c d : Char) : Option Nat := do
  let va ← hexValue a
  let vb ← hexValue b
  let vc ← hexValue c
  let vd ← hexValue d
  pure (((va * 16 + vb) * 16 + vc) * 16 + vd)

/-- A character that stands for itself in a string: from U+0020 on, and neither the quote nor
the backslash. -/
def Plain (c : Char) : Prop :=
  c ≠ '"' ∧ c ≠ '\\' ∧ 0x20 ≤ c.toNat

/-- `Escape x ch y`: after a backslash, `x` is the rest of an escape standing for `ch`, followed by
`y`: one of the letters of `simpleEscape`; or `u` and four hexadecimal digits of a code point that
is not a surrogate; or `u` and the four digits of a leading surrogate, then a `\u` escape of a
trailing one, the pair standing for one character. -/
inductive Escape : List Char → Char → List Char → Prop
  | simple {e ch : Char} {y : List Char} : simpleEscape e = some ch → Escape (e :: y) ch y
  | unit {a b c d : Char} {n : Nat} {y : List Char} : hexQuad a b c d = some n →
      n < 0xD800 ∨ 0xDFFF < n → Escape ('u' :: a :: b :: c :: d :: y) (Char.ofNat n) y
  | pair {a b c d a' b' c' d' : Char} {n m : Nat} {y : List Char} : hexQuad a b c d = some n →
      0xD800 ≤ n ∧ n ≤ 0xDBFF → hexQuad a' b' c' d' = some m → 0xDC00 ≤ m ∧ m ≤ 0xDFFF →
      Escape ('u' :: a :: b :: c :: d :: '\\' :: 'u' :: a' :: b' :: c' :: d' :: y)
        (joinSurrogates n m) y

/-- `Chars x s y`: after the opening quote of a string, `x` is the rest of the string up to and
with its closing quote, standing for the characters `s`, followed by `y`. -/
inductive Chars : List Char → List Char → List Char → Prop
  | close (y : List Char) : Chars ('"' :: y) [] y
  | plain {c : Char} {x s y : List Char} : Plain c → Chars x s y → Chars (c :: x) (c :: s) y
  | escape {ch : Char} {x x' s y : List Char} : Escape x ch x' → Chars x' s y →
      Chars ('\\' :: x) (ch :: s) y

/-- `LooseEscape x y`: after a backslash, `x` is the rest of an escape of a string that is only
checked, followed by `y`: one of the letters of `simpleEscape`, or `u` and any four hexadecimal
digits, a surrogate alone included. -/
inductive LooseEscape : List Char → List Char → Prop
  | simple {e : Char} {y : List Char} : (simpleEscape e).isSome → LooseEscape (e :: y) y
  | unit {a b c d : Char} {y : List Char} : (hexQuad a b c d).isSome →
      LooseEscape ('u' :: a :: b :: c :: d :: y) y

/-- `LooseChars x y`: after the opening quote of a string that is only checked, `x` is the rest
of the string up to and with its closing quote, followed by `y`. -/
inductive LooseChars : List Char → List Char → Prop
  | close (y : List Char) : LooseChars ('"' :: y) y
  | plain {c : Char} {x y : List Char} : Plain c → LooseChars x y → LooseChars (c :: x) y
  | escape {x x' y : List Char} : LooseEscape x x' → LooseChars x' y → LooseChars ('\\' :: x) y

/-- `Str x s y`: `x` is a string standing for `s`, followed by `y`. -/
def Str (x : List Char) (s : String) (y : List Char) : Prop :=
  ∃ x' cs, x = '"' :: x' ∧ Chars x' cs y ∧ s = String.ofList cs

/-! ### Numbers -/

/-- `Digits x y`: `x` is one decimal digit or more, followed by `y`. -/
inductive Digits : List Char → List Char → Prop
  | one {d : Char} {y : List Char} : isDigit d = true → Digits (d :: y) y
  | more {d : Char} {x y : List Char} : isDigit d = true → Digits x y → Digits (d :: x) y

/-- The integer digits of a number: a zero alone, or digits that do not start with a zero. -/
def IntegerPart (x y : List Char) : Prop :=
  x = '0' :: y ∨ (Digits x y ∧ ∀ r, x ≠ '0' :: r)

/-- The fraction of a number, if it has one: a point and digits. -/
def FractionPart (x y : List Char) : Prop :=
  x = y ∨ ∃ x', x = '.' :: x' ∧ Digits x' y

/-- The exponent of a number, if it has one: `e` or `E`, an optional sign, and digits. -/
def ExponentPart (x y : List Char) : Prop :=
  x = y ∨ ∃ e x' x'', x = e :: x' ∧ (e = 'e' ∨ e = 'E') ∧
    (x' = '+' :: x'' ∨ x' = '-' :: x'' ∨ x' = x'') ∧ Digits x'' y

/-- `Unsigned x y`: `x` is a number without its sign, followed by `y`. -/
def Unsigned (x y : List Char) : Prop :=
  ∃ x₁ x₂, IntegerPart x x₁ ∧ FractionPart x₁ x₂ ∧ ExponentPart x₂ y

/-- `Number x y`: `x` is a number, with an optional minus, followed by `y`. -/
def Number (x y : List Char) : Prop :=
  ∃ x', (x = '-' :: x' ∨ x = x') ∧ Unsigned x' y

/-! ### Values read only to be checked -/

mutual

/-- `Ignored x y`: `x` is a value, from its first character on, followed by `y`. -/
inductive Ignored : List Char → List Char → Prop
  | null (y : List Char) : Ignored ('n' :: 'u' :: 'l' :: 'l' :: y) y
  | true_ (y : List Char) : Ignored ('t' :: 'r' :: 'u' :: 'e' :: y) y
  | false_ (y : List Char) : Ignored ('f' :: 'a' :: 'l' :: 's' :: 'e' :: y) y
  | number {x y : List Char} : Number x y → Ignored x y
  | string {x y : List Char} : LooseChars x y → Ignored ('"' :: x) y
  | array {x y : List Char} : IgnoredElements true x y → Ignored ('[' :: x) y
  | object {x y : List Char} : IgnoredMembers true x y → Ignored ('\x7b' :: x) y

/-- `IgnoredElements first x y`: after the opening bracket of an array (`first`) or after one of
its elements, `x` is the elements left and the closing bracket, followed by `y`. -/
inductive IgnoredElements : Bool → List Char → List Char → Prop
  | close {first : Bool} {x y : List Char} : Blanks x (']' :: y) → IgnoredElements first x y
  | element {first : Bool} {x x₀ x₁ x₂ y : List Char} : Sep first x x₀ → Blanks x₀ x₁ →
      Ignored x₁ x₂ → IgnoredElements false x₂ y → IgnoredElements first x y

/-- `IgnoredMembers first x y`: after the opening brace of an object (`first`) or after one of its
members, `x` is the members left and the closing brace, followed by `y`. -/
inductive IgnoredMembers : Bool → List Char → List Char → Prop
  | close {first : Bool} {x y : List Char} : Blanks x ('\x7d' :: y) → IgnoredMembers first x y
  | member {first : Bool} {x x₀ x₁ x₂ x₃ x₄ x₅ y : List Char} : Sep first x x₀ →
      Blanks x₀ ('"' :: x₁) → LooseChars x₁ x₂ → Blanks x₂ (':' :: x₃) → Blanks x₃ x₄ →
      Ignored x₄ x₅ → IgnoredMembers false x₅ y → IgnoredMembers first x y

end

/-! ### Arrays and `null` -/

/-- `Elements R first x as y`: after the opening bracket of an array (`first`) or after one of its
elements, `x` is the elements left, standing for `as` as `R` reads them, and the closing bracket,
followed by `y`. -/
inductive Elements {α : Type} (R : List Char → α → List Char → Prop) :
    Bool → List Char → List α → List Char → Prop
  | close {first : Bool} {x y : List Char} : Blanks x (']' :: y) → Elements R first x [] y
  | element {first : Bool} {x x₀ x₁ x₂ y : List Char} {a : α} {as : List α} : Sep first x x₀ →
      Blanks x₀ x₁ → R x₁ a x₂ → Elements R false x₂ as y → Elements R first x (a :: as) y

/-- `ListOf R x as y`: `x` is an array of elements standing for `as`, followed by `y`. -/
def ListOf {α : Type} (R : List Char → α → List Char → Prop) (x : List Char) (as : List α)
    (y : List Char) : Prop :=
  ∃ x', x = '[' :: x' ∧ Elements R true x' as y

/-- `OptionOf R x a y`: `x` is `null`, for `none`, or a value as `R` reads it, followed by `y`. -/
def OptionOf {α : Type} (R : List Char → α → List Char → Prop) (x : List Char) (a : Option α)
    (y : List Char) : Prop :=
  (a = none ∧ x = 'n' :: 'u' :: 'l' :: 'l' :: y) ∨ ∃ b, a = some b ∧ R x b y

/-! ### Records -/

/-- A field of a record of type `σ` in a text: its member name, whether the record needs it, and
the texts of its value, each with the update of the record it gives. -/
structure FieldText (σ : Type) where
  name : String
  required : Bool
  rel : List Char → (σ → σ) → List Char → Prop

/-- A field whose value is a text of `R`, its value set into the record by `set`. -/
def FieldText.of {σ α : Type} (name : String) (required : Bool)
    (R : List Char → α → List Char → Prop) (set : σ → α → σ) : FieldText σ :=
  ⟨name, required, fun x u y => ∃ a, R x a y ∧ u = fun r => set r a⟩

/-- The value of a member named `name`: for a field of that name, a value of the field with its
update; for any other name, a value that is only checked, and no update. -/
def MemberValue {σ : Type} (fields : List (FieldText σ)) (name : String) (x : List Char)
    (u : Option (σ → σ)) (y : List Char) : Prop :=
  match fields.find? (·.name = name) with
  | some fd => ∃ v, fd.rel x v y ∧ u = some v
  | none => Ignored x y ∧ u = none

/-- `Members fields first x ms y`: after the opening brace of an object (`first`) or after one of
its members, `x` is the members left and the closing brace, followed by `y`; `ms` are the members,
each its name and the update its value gives, if it is a field's. -/
inductive Members {σ : Type} (fields : List (FieldText σ)) :
    Bool → List Char → List (String × Option (σ → σ)) → List Char → Prop
  | close {first : Bool} {x y : List Char} : Blanks x ('\x7d' :: y) → Members fields first x [] y
  | member {first : Bool} {x x₀ x₁ x₂ x₃ x₄ x₅ y : List Char} {k : List Char}
      {u : Option (σ → σ)} {ms : List (String × Option (σ → σ))} : Sep first x x₀ →
      Blanks x₀ ('"' :: x₁) → Chars x₁ k x₂ → Blanks x₂ (':' :: x₃) → Blanks x₃ x₄ →
      MemberValue fields (String.ofList k) x₄ u x₅ → Members fields false x₅ ms y →
      Members fields first x ((String.ofList k, u) :: ms) y

/-- `Positional fields first x us y`: after the opening bracket of an array (`first`) or after one
of its elements, `x` is values of the fields `fields` in order, giving the updates `us`, and the
closing bracket, followed by `y`; the fields left out at the end are not needed. -/
inductive Positional {σ : Type} : List (FieldText σ) → Bool → List Char → List (σ → σ) →
    List Char → Prop
  | close {fields : List (FieldText σ)} {first : Bool} {x y : List Char} : Blanks x (']' :: y) →
      (∀ fd ∈ fields, fd.required = false) → Positional fields first x [] y
  | element {fd : FieldText σ} {fields : List (FieldText σ)} {first : Bool}
      {x x₀ x₁ x₂ y : List Char} {u : σ → σ} {us : List (σ → σ)} : Sep first x x₀ →
      Blanks x₀ x₁ → fd.rel x₁ u x₂ → Positional fields false x₂ us y →
      Positional (fd :: fields) first x (u :: us) y

/-- The names of the members of an object that are fields. -/
def fieldNames {σ : Type} (ms : List (String × Option (σ → σ))) : List String :=
  (ms.filter fun m => m.2.isSome).map Prod.fst

/-- `Record start fields x v y`: `x` is a record standing for `v`, followed by `y`. As an object:
its members in any order, no field named twice, every needed field named, and `v` is `start`
updated by the fields' members in order. As an array: the values of the fields in order, the
ones not needed at the end left out, and `v` is `start` updated by them in order. -/
inductive Record {σ : Type} (start : σ) (fields : List (FieldText σ)) :
    List Char → σ → List Char → Prop
  | object {x y : List Char} {ms : List (String × Option (σ → σ))} : Members fields true x ms y →
      (fieldNames ms).Nodup → (∀ fd ∈ fields, fd.required = true → fd.name ∈ fieldNames ms) →
      Record start fields ('\x7b' :: x) (ms.foldl (fun v m => (m.2.getD id) v) start) y
  | array {x y : List Char} {us : List (σ → σ)} : Positional fields true x us y →
      Record start fields ('[' :: x) (us.foldl (fun v u => u v) start) y

/-- `Whole R s a`: the text `s` is one value standing for `a` as `R` reads it, with blanks around
it and nothing else. -/
def Whole {α : Type} (R : List Char → α → List Char → Prop) (s : String) (a : α) : Prop :=
  ∃ x y, Blanks s.toList x ∧ R x a y ∧ Blanks y []

end NodeSwitcher.Json
