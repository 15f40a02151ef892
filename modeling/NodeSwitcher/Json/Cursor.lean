/-!
# Places in a JSON text

Errors about a JSON text name a line, counted from one, and a column, the number
of UTF-8 bytes from the start of the line. A `Cursor` holds the characters not
read yet and the place of the first of them.

An error about the character ahead is reported one byte further on
(`Cursor.peekPos`): after that character when it is a single byte, inside it
otherwise, and at the start of the next line when it is a line feed.

`Cursor.After c` and `Cursor.Past c` are the cursors that have read more than `c`,
or at least as much; readers return them so that loops over a text end.
`Cursor.ahead` looks past the blanks between tokens at the next character.
-/

namespace NodeSwitcher.Json

/-- A place in a text: the line, counted from one, and the column, the number of
UTF-8 bytes between the start of the line and the place. -/
structure Position where
  line : Nat
  column : Nat
  deriving DecidableEq, Repr

namespace Position

/-- The place after a character: a line feed starts a new line, any other character
moves the column on by its UTF-8 length. -/
def step (p : Position) (ch : Char) : Position :=
  if ch = '\n' then ⟨p.line + 1, 0⟩ else ⟨p.line, p.column + ch.utf8Size⟩

/-- The place after the first byte of a character. -/
def bump (p : Position) (ch : Char) : Position :=
  if ch = '\n' then ⟨p.line + 1, 0⟩ else ⟨p.line, p.column + 1⟩

/-- The place `n` bytes further on in `cs`, or the end of `cs` when it is shorter;
the place may fall inside a character. -/
def skipBytes : Nat → List Char → Position → Position
  | 0, _, p => p
  | _ + 1, [], p => p
  | n + 1, ch :: cs, p =>
    if ch.utf8Size ≤ n + 1 then skipBytes (n + 1 - ch.utf8Size) cs (p.step ch)
    else ⟨p.line, p.column + (n + 1)⟩

end Position

/-- The UTF-8 length of a list of characters, in bytes. -/
def byteLength : List Char → Nat
  | [] => 0
  | ch :: cs => ch.utf8Size + byteLength cs

/-- Where reading stands: the characters not read yet, and the place of the first. -/
structure Cursor where
  rest : List Char
  pos : Position

namespace Cursor

/-- The cursor at the start of a text. -/
def ofString (s : String) : Cursor :=
  ⟨s.toList, ⟨1, 0⟩⟩

/-- Cursors that have read at least one character more than `c`. -/
abbrev After (c : Cursor) := { d : Cursor // d.rest.length < c.rest.length }

/-- Cursors that have read at least as much as `c`. -/
abbrev Past (c : Cursor) := { d : Cursor // d.rest.length ≤ c.rest.length }

/-- The cursor itself, as one that has read at least as much. -/
def here (c : Cursor) : Past c :=
  ⟨c, Nat.le_refl _⟩

/-- A cursor after one that has read more, as one after `c`. -/
def After.trans {c : Cursor} (d : After c) (e : Past d.1) : After c :=
  ⟨e.1, Nat.lt_of_le_of_lt e.2 d.2⟩

/-- A cursor past one that has read at least as much. -/
def Past.trans {c : Cursor} (d : Past c) (e : Past d.1) : Past c :=
  ⟨e.1, Nat.le_trans e.2 d.2⟩

/-- A cursor after one that has read at least as much as `c`, as one after `c`. -/
def Past.transAfter {c : Cursor} (d : Past c) (e : After d.1) : After c :=
  ⟨e.1, Nat.lt_of_lt_of_le e.2 d.2⟩

/-- A cursor that has read more, as one that has read at least as much. -/
def After.past {c : Cursor} (d : After c) : Past c :=
  ⟨d.1, Nat.le_of_lt d.2⟩

/-- The cursor after the character `ch` ahead. -/
def advance (ch : Char) (r : List Char) (p : Position) : After ⟨ch :: r, p⟩ :=
  ⟨⟨r, p.step ch⟩, by simp⟩

/-- The next character, if any. -/
def peek? (c : Cursor) : Option Char :=
  c.rest.head?

/-- The place one byte further on, where an error about the next character is
reported; at the end of the text, the end. -/
def peekPos (c : Cursor) : Position :=
  match c.rest with
  | [] => c.pos
  | ch :: _ => c.pos.bump ch

/-- The place of the end of the text. -/
def endPos (c : Cursor) : Position :=
  c.rest.foldl Position.step c.pos

/-- The cursor after the next character; at the end, the cursor itself. -/
def next (c : Cursor) : Past c :=
  match c with
  | ⟨[], p⟩ => ⟨⟨[], p⟩, Nat.le_refl _⟩
  | ⟨ch :: r, p⟩ => ⟨⟨r, p.step ch⟩, by simp⟩

/-- The blanks between the tokens of a JSON text. -/
def isSpace (ch : Char) : Bool :=
  ch == ' ' || ch == '\n' || ch == '\t' || ch == '\r'

/-- The cursor after the blanks ahead. -/
def skipSpace : (c : Cursor) → Past c
  | ⟨[], p⟩ => ⟨⟨[], p⟩, Nat.le_refl _⟩
  | ⟨ch :: r, p⟩ =>
    if isSpace ch then
      let d := skipSpace ⟨r, p.step ch⟩
      ⟨d.1, by have := d.2; simp at this ⊢; omega⟩
    else ⟨⟨ch :: r, p⟩, Nat.le_refl _⟩
termination_by c => c.rest.length

/-- What lies after the blanks ahead of a cursor: the end of the text, at its place,
or a character, with the cursors before and after it. -/
inductive Ahead (c : Cursor) where
  | stop (pos : Position)
  | char (ch : Char) (before : Past c) (after : After c)

/-- Looks past the blanks ahead. -/
def ahead (c : Cursor) : Ahead c :=
  let s := c.skipSpace
  match h : s.1 with
  | ⟨[], q⟩ => .stop q
  | ⟨ch :: r, q⟩ => .char ch s (s.transAfter (h ▸ advance ch r q))

end Cursor

end NodeSwitcher.Json
