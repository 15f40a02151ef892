import NodeSwitcher.Json.Error
/-!
# JSON numbers

A number is an optional minus sign, integer digits without a superfluous leading
zero, an optional fraction of at least one digit, and an optional exponent
`e`/`E`, sign, digits. `Cursor.numeral` reads the text of a number after its sign
into a `Numeral`; `Numeral.found` gives its value as errors name it.

The value is computed as a double from a 64-bit significand and a power of ten.
Digits are folded into the significand while it stays below `2^64`; integer
digits beyond that raise the power, fraction digits beyond that are dropped. A
non-negative integer that fits is an unsigned integer, a negative one down to
`-2^63` a signed one, and all else a double: the significand, rounded, times or
divided by the power of ten, each power up to `10^308` rounded once. A power
that overflows 32 bits, or a product that overflows the double range, is
`numberOutOfRange` unless the value is zero.

`Cursor.skipNumber` checks the same grammar without computing a value, for
values that are read only to be ignored; every error it finds is `invalidNumber`.
-/

namespace NodeSwitcher.Json

/-- Whether a character is an ASCII digit. -/
def isDigit (ch : Char) : Bool :=
  '0' ≤ ch && ch ≤ '9'

/-- The value of an ASCII digit. -/
def digitValue (ch : Char) : Nat :=
  ch.toNat - '0'.toNat

/-- The text of a number: sign, integer digits, fraction digits after a point if
there is one, and the exponent if there is one: its sign, its digits and the place
of its first digit. -/
structure Numeral where
  negative : Bool
  whole : List Nat
  fraction : Option (List Nat)
  exponent : Option (Bool × List Nat × Position)

namespace Cursor

/-- The digits ahead, and the cursor after them. -/
def digits : (c : Cursor) → List Nat × Past c
  | ⟨[], p⟩ => ([], ⟨⟨[], p⟩, Nat.le_refl _⟩)
  | ⟨ch :: r, p⟩ =>
    if isDigit ch then
      let rest := digits ⟨r, p.step ch⟩
      (digitValue ch :: rest.1, (advance ch r p).past.trans rest.2)
    else ([], ⟨⟨ch :: r, p⟩, Nat.le_refl _⟩)
termination_by c => c.rest.length
decreasing_by simp

/-- The sign of an exponent: whether it is positive, and the cursor after the sign
if there is one. -/
def sign : (c : Cursor) → Bool × Past c
  | ⟨'+' :: r, q⟩ => (true, (advance '+' r q).past)
  | ⟨'-' :: r, q⟩ => (false, (advance '-' r q).past)
  | c => (true, c.here)

/-- Reads the digits of an exponent, at least one: their values, the place of the
first, and the cursor after them. -/
def exponentDigits : (c : Cursor) → Result (List Nat × Position × After c)
  | ⟨[], q⟩ => fail .eofInValue q
  | ⟨ch :: r, q⟩ =>
    if isDigit ch then
      let rest := digits ⟨r, q.step ch⟩
      .ok (digitValue ch :: rest.1, q, (advance ch r q).trans rest.2)
    else fail .invalidNumber (q.bump ch)

/-- Reads an exponent whose letter is ahead: sign, digits and the place of the first. -/
def exponentPart : (c : Cursor) → Result ((Bool × List Nat × Position) × After c)
  | ⟨[], p⟩ => fail .eofInValue p
  | ⟨e :: r, p⟩ =>
    let s := sign ⟨r, p.step e⟩
    match exponentDigits s.2.1 with
    | .ok (ds, q, d) => .ok ((s.1, ds, q), (advance e r p).trans (s.2.trans d.past))
    | .error err => .error err

/-- Reads an exponent if one is ahead. -/
def exponentIfAny : (c : Cursor) → Result (Option (Bool × List Nat × Position) × Past c)
  | ⟨ch :: r, p⟩ =>
    if ch = 'e' || ch = 'E' then
      match exponentPart ⟨ch :: r, p⟩ with
      | .ok (x, d) => .ok (some x, d.past)
      | .error err => .error err
    else .ok (none, Cursor.here ⟨ch :: r, p⟩)
  | ⟨[], p⟩ => .ok (none, Cursor.here ⟨[], p⟩)

/-- Reads what may follow the integer digits of a number: a fraction, an exponent. -/
def numeralTail (negative : Bool) (whole : List Nat) :
    (c : Cursor) → Result (Numeral × Past c)
  | ⟨'.' :: r, p⟩ =>
    let fs := digits ⟨r, p.step '.'⟩
    if fs.1.isEmpty then
      match fs.2.1.rest with
      | [] => fail .eofInValue fs.2.1.peekPos
      | _ :: _ => fail .invalidNumber fs.2.1.peekPos
    else
      match exponentIfAny fs.2.1 with
      | .ok (x, d) => .ok (⟨negative, whole, some fs.1, x⟩, (advance '.' r p).past.trans (fs.2.trans d))
      | .error err => .error err
  | c =>
    match exponentIfAny c with
    | .ok (x, d) => .ok (⟨negative, whole, none, x⟩, d)
    | .error err => .error err

/-- Reads the text of a number after its sign. -/
def numeral (negative : Bool) : (c : Cursor) → Result (Numeral × After c)
  | ⟨[], p⟩ => fail .eofInValue p
  | ⟨ch :: r, p⟩ =>
    if ch = '0' then
      match r with
      | d :: tl =>
        if isDigit d then fail .invalidNumber ((p.step ch).bump d)
        else
          match numeralTail negative [0] ⟨d :: tl, p.step ch⟩ with
          | .ok (n, c2) => .ok (n, (advance ch (d :: tl) p).trans c2)
          | .error err => .error err
      | [] => .ok (⟨negative, [0], none, none⟩, advance ch [] p)
    else if isDigit ch then
      let ds := digits ⟨r, p.step ch⟩
      match numeralTail negative (digitValue ch :: ds.1) ds.2.1 with
      | .ok (n, c2) => .ok (n, (advance ch r p).trans (ds.2.trans c2))
      | .error err => .error err
    else fail .invalidNumber (p.bump ch)

end Cursor

/-- Folds digits into a significand while it stays below `2^64`; gives the
significand and the digits left over. -/
def absorb (sig : Nat) : List Nat → Nat × List Nat
  | [] => (sig, [])
  | d :: ds => if sig * 10 + d < Nat.pow 2 64 then absorb (sig * 10 + d) ds else (sig, d :: ds)

/-- Folds exponent digits into an exponent below `2^31`; fails with the index of
the digit at which it would pass `2^31 - 1`. -/
def exponentValue (acc : Nat) (i : Nat) : List Nat → Except Nat Nat
  | [] => .ok acc
  | d :: ds =>
    if acc * 10 + d > 2147483647 then .error i else exponentValue (acc * 10 + d) (i + 1) ds

/-- Clamps an exponent to the 32-bit range. -/
def clamp32 (e : Int) : Int :=
  if e < -2147483648 then -2147483648 else if 2147483647 < e then 2147483647 else e

/-- Multiplies or divides by the power of ten `10^e`; dividing by more than `10^308`
goes in steps of `10^308` and stops at zero. `none` when the product overflows;
`fuel` bounds the number of steps. -/
def scaleByTen (f : Float) (e : Int) : Nat → Option Float
  | 0 => some f
  | fuel + 1 =>
    if e.natAbs ≤ 308 then
      let pow := Float.ofScientific 1 false e.natAbs
      if 0 ≤ e then
        let g := f * pow
        if g.isInf then none else some g
      else some (f / pow)
    else if f == 0 then some f
    else if 0 ≤ e then none
    else scaleByTen (f / Float.ofScientific 1 false 308) (e + 308) fuel

/-- The double `sig · 10^e`, negated when `negative`; `none` when it overflows. -/
def fromParts (negative : Bool) (sig : Nat) (e : Int) : Option Float :=
  (scaleByTen (Float.ofNat sig) e (e.natAbs / 308 + 1)).map fun f => if negative then -f else f

namespace Numeral

/-- The significand and power of ten of a number with a fraction or an exponent,
before the exponent's own digits. -/
def scaled (n : Numeral) : Nat × Int :=
  let whole := absorb 0 n.whole
  let extra : Int := whole.2.length
  match n.fraction with
  | some fs =>
    let frac := absorb whole.1 fs
    (frac.1, extra - ((fs.length - frac.2.length : Nat) : Int))
  | none => (whole.1, extra)

/-- The value of a number, as an error names it. `stop` is the place after the
number, where a double out of range is reported. -/
def found (n : Numeral) (stop : Position) : Result Found :=
  let asFloat (sig : Nat) (e : Int) : Result Found :=
    match fromParts n.negative sig e with
    | some f => .ok (.float f)
    | none => fail .numberOutOfRange stop
  match n.fraction, n.exponent with
  | none, none =>
    let whole := absorb 0 n.whole
    let sig := whole.1
    if whole.2.isEmpty then
      if !n.negative then .ok (.unsigned sig)
      else if 1 ≤ sig ∧ sig ≤ Nat.pow 2 63 then .ok (.signed (-(sig : Int)))
      else asFloat sig 0
    else asFloat sig whole.2.length
  | _, none => asFloat n.scaled.1 n.scaled.2
  | _, some (positive, ds, start) =>
    let sig := n.scaled.1
    let e := n.scaled.2
    match exponentValue 0 0 ds with
    | .error i =>
      if sig ≠ 0 ∧ positive then fail .numberOutOfRange ⟨start.line, start.column + i + 1⟩
      else .ok (.float (if n.negative then -0.0 else 0.0))
    | .ok x => asFloat sig (clamp32 (if positive then e + x else e - x))

end Numeral

namespace Cursor

/-- Checks an exponent whose letter is ahead. -/
def skipExponent : (c : Cursor) → Result (After c)
  | ⟨[], p⟩ => fail .invalidNumber p
  | ⟨e :: r, p⟩ =>
    let s := sign ⟨r, p.step e⟩
    match h : s.2.1 with
    | ⟨[], q⟩ => fail .invalidNumber q
    | ⟨ch :: r', q⟩ =>
      if isDigit ch then
        let rest := digits ⟨r', q.step ch⟩
        .ok ((advance e r p).trans (s.2.trans (h ▸ (advance ch r' q).past.trans rest.2)))
      else fail .invalidNumber (q.bump ch)

/-- Checks an exponent if one is ahead. -/
def skipExponentIfAny : (c : Cursor) → Result (Past c)
  | ⟨ch :: r, p⟩ =>
    if ch = 'e' || ch = 'E' then
      match skipExponent ⟨ch :: r, p⟩ with
      | .ok d => .ok d.past
      | .error err => .error err
    else .ok (Cursor.here ⟨ch :: r, p⟩)
  | ⟨[], p⟩ => .ok (Cursor.here ⟨[], p⟩)

/-- Checks what may follow the integer digits of a number. -/
def skipNumberTail : (c : Cursor) → Result (Past c)
  | ⟨'.' :: r, p⟩ =>
    let fs := digits ⟨r, p.step '.'⟩
    if fs.1.isEmpty then fail .invalidNumber fs.2.1.peekPos
    else
      match skipExponentIfAny fs.2.1 with
      | .ok d => .ok ((advance '.' r p).past.trans (fs.2.trans d))
      | .error err => .error err
  | c => skipExponentIfAny c

/-- Checks the text of a number after its sign. -/
def skipNumber : (c : Cursor) → Result (After c)
  | ⟨[], p⟩ => fail .invalidNumber p
  | ⟨ch :: r, p⟩ =>
    if ch = '0' then
      match r with
      | d :: tl =>
        if isDigit d then fail .invalidNumber ((p.step ch).bump d)
        else
          match skipNumberTail ⟨d :: tl, p.step ch⟩ with
          | .ok c2 => .ok ((advance ch (d :: tl) p).trans c2)
          | .error err => .error err
      | [] => .ok (advance ch [] p)
    else if isDigit ch then
      let ds := digits ⟨r, p.step ch⟩
      match skipNumberTail ds.2.1 with
      | .ok c2 => .ok ((advance ch r p).trans (ds.2.trans c2))
      | .error err => .error err
    else fail .invalidNumber (p.bump ch)

end Cursor

end NodeSwitcher.Json
