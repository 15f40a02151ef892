import NodeSwitcher.Json.Error
/-!
# JSON strings

A string runs from a quote to the next quote that no backslash escapes. Between
them stand characters from U+0020 on, and escapes: `\"`, `\\`, `\/`, `\b`, `\f`,
`\n`, `\r`, `\t`, and `\u` with four hexadecimal digits. A `\u` escape of a
leading surrogate must be followed at once by a `\u` escape of a trailing one,
and the pair stands for one character; a trailing surrogate alone is refused.

`Cursor.readString` gives the characters a string stands for. `Cursor.skipString`
checks a string that is read only to be ignored: it lets surrogates stand alone,
and reports a control character before it rather than after.
-/

namespace NodeSwitcher.Json

/-- The value of a hexadecimal digit. -/
def hexValue (ch : Char) : Option Nat :=
  if '0' ≤ ch ∧ ch ≤ '9' then some (ch.toNat - '0'.toNat)
  else if 'a' ≤ ch ∧ ch ≤ 'f' then some (ch.toNat - 'a'.toNat + 10)
  else if 'A' ≤ ch ∧ ch ≤ 'F' then some (ch.toNat - 'A'.toNat + 10)
  else none

/-- The character that a one-letter escape stands for. -/
def simpleEscape (e : Char) : Option Char :=
  if e = '"' then some '"'
  else if e = '\\' then some '\\'
  else if e = '/' then some '/'
  else if e = 'b' then some '\x08'
  else if e = 'f' then some '\x0c'
  else if e = 'n' then some '\n'
  else if e = 'r' then some '\r'
  else if e = 't' then some '\t'
  else none

/-- The character of a surrogate pair. -/
def joinSurrogates (hi lo : Nat) : Char :=
  Char.ofNat (0x10000 + (hi - 0xD800) * 0x400 + (lo - 0xDC00))

namespace Cursor

/-- Reads the four hexadecimal digits of a `\u` escape. When four bytes remain but
are not all digits, `invalidEscape` is reported after the fourth byte; when fewer
remain, `eofInString` at the end. -/
def hex4 : (c : Cursor) → Result (Nat × After c)
  | ⟨a :: b :: x :: y :: r, p⟩ =>
    match hexValue a, hexValue b, hexValue x, hexValue y with
    | some va, some vb, some vx, some vy =>
      .ok (((va * 16 + vb) * 16 + vx) * 16 + vy,
        ⟨⟨r, (((p.step a).step b).step x).step y⟩,
          Nat.lt_succ_of_lt (Nat.lt_succ_of_lt (Nat.lt_succ_of_lt (Nat.lt_succ_self _)))⟩)
    | _, _, _, _ => fail .invalidEscape (Position.skipBytes 4 (a :: b :: x :: y :: r) p)
  | ⟨cs, p⟩ =>
    if 4 ≤ byteLength cs then fail .invalidEscape (Position.skipBytes 4 cs p)
    else fail .eofInString (Cursor.endPos ⟨cs, p⟩)

/-- Reads a `\u` escape after the `u`, with the trailing half of a surrogate pair. -/
def unicodeEscape (c : Cursor) : Result (Char × After c) :=
  match hex4 c with
  | .error err => .error err
  | .ok (n, d) =>
    if 0xDC00 ≤ n ∧ n ≤ 0xDFFF then fail .loneSurrogate d.1.pos
    else if n < 0xD800 ∨ 0xDBFF < n then .ok (Char.ofNat n, d)
    else
      match h : d.1 with
      | ⟨'\\' :: 'u' :: r, q⟩ =>
        match hex4 ⟨r, (q.step '\\').step 'u'⟩ with
        | .error err => .error err
        | .ok (m, e) =>
          if 0xDC00 ≤ m ∧ m ≤ 0xDFFF then
            .ok (joinSurrogates n m,
              d.trans (h ▸ ⟨e.1, by have := e.2; simp at this ⊢; omega⟩))
          else fail .loneSurrogate e.1.pos
      | ⟨'\\' :: x :: _, q⟩ => fail .unexpectedEndOfHexEscape ((q.step '\\').bump x)
      | ⟨['\\'], q⟩ => fail .eofInString (q.step '\\')
      | ⟨x :: _, q⟩ => fail .unexpectedEndOfHexEscape (q.bump x)
      | ⟨[], q⟩ => fail .eofInString q

/-- Reads an escape after its backslash: the character it stands for. -/
def escape : (c : Cursor) → Result (Char × After c)
  | ⟨[], p⟩ => fail .eofInString p
  | ⟨e :: r, p⟩ =>
    if e = 'u' then
      match unicodeEscape ⟨r, p.step e⟩ with
      | .ok (ch, d) => .ok (ch, (advance e r p).trans d.past)
      | .error err => .error err
    else
      match simpleEscape e with
      | some ch => .ok (ch, advance e r p)
      | none => fail .invalidEscape (p.bump e)

/-- Reads the rest of a string after its opening quote; `acc` holds the characters
read so far, last first. Gives the characters and the cursor after the closing
quote. -/
def readChars (acc : List Char) : (c : Cursor) → Result (String × After c)
  | ⟨[], p⟩ => fail .eofInString p
  | ⟨ch :: r, p⟩ =>
    if ch = '"' then .ok (String.ofList acc.reverse, advance ch r p)
    else if ch = '\\' then
      match escape ⟨r, p.step ch⟩ with
      | .error err => .error err
      | .ok (x, d) =>
        let d' := (advance ch r p).trans d.past
        match readChars (x :: acc) d'.1 with
        | .ok (s, e) => .ok (s, d'.trans e.past)
        | .error err => .error err
    else if ch.toNat < 0x20 then fail .controlCharacter (p.bump ch)
    else
      let d := advance ch r p
      match readChars (ch :: acc) d.1 with
      | .ok (s, e) => .ok (s, d.trans e.past)
      | .error err => .error err
termination_by c => c.rest.length
decreasing_by
  · exact d'.2
  · exact d.2

/-- Reads a string after its opening quote. -/
def readString (c : Cursor) : Result (String × After c) :=
  readChars [] c

/-- Checks an escape after its backslash; a `\u` escape need not pair surrogates. -/
def skipEscape : (c : Cursor) → Result (After c)
  | ⟨[], p⟩ => fail .eofInString p
  | ⟨e :: r, p⟩ =>
    if e = 'u' then
      match hex4 ⟨r, p.step e⟩ with
      | .ok (_, d) => .ok ((advance e r p).trans d.past)
      | .error err => .error err
    else
      match simpleEscape e with
      | some _ => .ok (advance e r p)
      | none => fail .invalidEscape (p.bump e)

/-- Checks the rest of a string after its opening quote. -/
def skipString : (c : Cursor) → Result (After c)
  | ⟨[], p⟩ => fail .eofInString p
  | ⟨ch :: r, p⟩ =>
    if ch = '"' then .ok (advance ch r p)
    else if ch = '\\' then
      match skipEscape ⟨r, p.step ch⟩ with
      | .error err => .error err
      | .ok d =>
        let d' := (advance ch r p).trans d.past
        match skipString d'.1 with
        | .ok e => .ok (d'.trans e.past)
        | .error err => .error err
    else if ch.toNat < 0x20 then fail .controlCharacter p
    else
      let d := advance ch r p
      match skipString d.1 with
      | .ok e => .ok (d.trans e.past)
      | .error err => .error err
termination_by c => c.rest.length
decreasing_by
  · exact d'.2
  · exact d.2

end Cursor

end NodeSwitcher.Json
