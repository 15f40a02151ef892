/-!
# Blank characters

The characters that trimming removes from both ends of a text: the Unicode
`White_Space` property, 25 code points. Zero-width characters such as U+200B
and U+FEFF, and the information separators U+001C to U+001F, are not blank.

`trimBlank` removes the blank characters at both ends of a text and keeps
everything between them.
-/

namespace NodeSwitcher.Text

/-- The code points of the Unicode `White_Space` property, as closed ranges. -/
def blankRanges : List (Nat × Nat) :=
  [(0x09, 0x0D), (0x20, 0x20), (0x85, 0x85), (0xA0, 0xA0), (0x1680, 0x1680),
   (0x2000, 0x200A), (0x2028, 0x2029), (0x202F, 0x202F), (0x205F, 0x205F),
   (0x3000, 0x3000)]

/-- A character is blank when its code point lies in one of `blankRanges`. -/
def isBlank (c : Char) : Bool :=
  blankRanges.any fun r => r.1 ≤ c.toNat && c.toNat ≤ r.2

/-- The characters of a list after its leading blank ones. -/
def dropBlank : List Char → List Char
  | [] => []
  | c :: cs => if isBlank c then dropBlank cs else c :: cs

/-- A text without the blank characters at its start and at its end. -/
def trimBlank (s : String) : String :=
  String.ofList (dropBlank (dropBlank s.toList).reverse).reverse

/-- A text is all blank when nothing is left after trimming. -/
def allBlank (s : String) : Bool :=
  s.toList.all isBlank

example : isBlank ' ' ∧ isBlank '\u3000' ∧ isBlank '\u0085' ∧ !isBlank '\u200B' ∧
    !isBlank '\uFEFF' ∧ !isBlank '\u001C' := by decide

example : blankRanges.foldl (fun n r => n + (r.2 + 1 - r.1)) 0 = 25 := by decide

end NodeSwitcher.Text
