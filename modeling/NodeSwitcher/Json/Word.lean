import NodeSwitcher.Json.Error
/-!
# The words of JSON

`null`, `true` and `false`. Once the first letter has been read, the others are
checked one at a time: a different character is reported as `expectedIdent`
just after its first byte, and the end of the text as `eofInValue`.
-/

namespace NodeSwitcher.Json

namespace Cursor

/-- Reads the letters `w` of a word. -/
def word : (c : Cursor) → List Char → Result (Past c)
  | c, [] => .ok c.here
  | ⟨[], p⟩, _ :: _ => fail .eofInValue p
  | ⟨ch :: r, p⟩, w :: ws =>
    if ch = w then
      match word ⟨r, p.step ch⟩ ws with
      | .ok d => .ok ⟨d.1, by have := d.2; simp at this ⊢; omega⟩
      | .error e => .error e
    else fail .expectedIdent (p.bump ch)

/-- Reads the rest of a word whose first letter is ahead: the cursor is after the word. -/
def wordAhead (c : Cursor) (w : List Char) : Result (After c) :=
  match c with
  | ⟨[], p⟩ => fail .eofInValue p
  | ⟨ch :: r, p⟩ =>
    match word ⟨r, p.step ch⟩ w with
    | .ok d => .ok ⟨d.1, by have := d.2; simp at this ⊢; omega⟩
    | .error e => .error e

end Cursor

end NodeSwitcher.Json
