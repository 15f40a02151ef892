/-!
# Choices

An entry of a drop-down list: the value that the form submits and the text that
the page shows. `lastMatch` finds the entry to select again after a list is
replaced: the last one whose value equals the wanted value, compared character
for character; `preselect` finds the same entry by walking the list and taking
every match. `firstMatch` finds the first of several values equal to one.
-/

namespace NodeSwitcher

/-- An entry of a drop-down list. -/
structure Choice where
  value : String
  text : String
  deriving DecidableEq, Repr

/-- The index of the last choice whose value is `wanted`. -/
def lastMatch : List Choice → String → Option Nat
  | [], _ => none
  | c :: cs, wanted =>
    match lastMatch cs wanted with
    | some i => some (i + 1)
    | none => if c.value = wanted then some 0 else none

/-- Pre-selection as a walk over the list: starting from no index, each entry whose
value is `wanted` makes its index the selected one; `i` is the index of the first
entry of `cs` and `sel` the selection so far. -/
def preselectFrom (wanted : String) : Nat → Option Nat → List Choice → Option Nat
  | _, sel, [] => sel
  | i, sel, c :: cs => preselectFrom wanted (i + 1) (if c.value = wanted then some i else sel) cs

/-- Pre-selection as a walk over the whole list. -/
def preselect (cs : List Choice) (wanted : String) : Option Nat :=
  preselectFrom wanted 0 none cs

/-- The index of the first value equal to `wanted`. -/
def firstMatch : List String → String → Option Nat
  | [], _ => none
  | v :: vs, wanted => if v = wanted then some 0 else (firstMatch vs wanted).map (· + 1)

end NodeSwitcher
