import NodeSwitcher.Choice
import NodeSwitcher.Selector
/-!
# The page

The page holds the three drop-down lists, an error marker beside each, the
loading indicator with the history of its changes, the alerts shown so far and
the number of reloads.

A list's selected value is the value of its selected entry, or the empty text.
Replacing a list's entries selects the wanted index if it is one of them, else
the first entry, else nothing. Selecting an index out of range, or a value no
entry has, changes nothing.
-/

namespace NodeSwitcher

/-- A drop-down list: its entries and the index of the selected one. -/
structure DropDown where
  choices : List Choice := []
  selected : Option Nat := none
  deriving DecidableEq, Repr

namespace DropDown

/-- The value of the selected entry, or the empty text. -/
def selectedValue (d : DropDown) : String :=
  match d.selected with
  | some i => (d.choices[i]?.map Choice.value).getD ""
  | none => ""

/-- The values of the entries. -/
def values (d : DropDown) : List String :=
  d.choices.map Choice.value

/-- Replaces the entries, selecting `preselect` if it is an index of them, else the
first entry if there is one. -/
def replace (cs : List Choice) (preselect : Option Nat) : DropDown :=
  match preselect with
  | some i => if i < cs.length then ⟨cs, some i⟩ else ⟨cs, if cs.isEmpty then none else some 0⟩
  | none => ⟨cs, if cs.isEmpty then none else some 0⟩

/-- Selects the entry at an index, if there is one. -/
def selectIndex (d : DropDown) (i : Nat) : DropDown :=
  if i < d.choices.length then { d with selected := some i } else d

/-- Selects the first entry with a value, if there is one. -/
def selectValue (d : DropDown) (v : String) : DropDown :=
  match firstMatch d.values v with
  | some i => { d with selected := some i }
  | none => d

end DropDown

/-- What the page shows. -/
structure Page where
  area : DropDown := {}
  country : DropDown := {}
  node : DropDown := {}
  areaError : Option String := none
  countryError : Option String := none
  nodeError : Option String := none
  loading : Bool := false
  /-- Every change of the loading indicator, oldest first. -/
  loadingHistory : List Bool := []
  /-- The alerts shown, oldest first. -/
  alerts : List String := []
  reloads : Nat := 0
  deriving DecidableEq, Repr

namespace Page

/-- One of the three lists. -/
def list (p : Page) : Selector → DropDown
  | .area => p.area
  | .country => p.country
  | .node => p.node

/-- Changes one of the three lists. -/
def modifyList (p : Page) (s : Selector) (f : DropDown → DropDown) : Page :=
  match s with
  | .area => { p with area := f p.area }
  | .country => { p with country := f p.country }
  | .node => { p with node := f p.node }

/-- The error marker of a list. -/
def error (p : Page) : Selector → Option String
  | .area => p.areaError
  | .country => p.countryError
  | .node => p.nodeError

/-- Sets or clears the error marker of a list. -/
def setError (p : Page) (s : Selector) (m : Option String) : Page :=
  match s with
  | .area => { p with areaError := m }
  | .country => { p with countryError := m }
  | .node => { p with nodeError := m }

/-- Shows or hides the loading indicator. -/
def setLoading (p : Page) (b : Bool) : Page :=
  { p with loading := b, loadingHistory := p.loadingHistory ++ [b] }

/-- Shows an alert. -/
def alert (p : Page) (m : String) : Page :=
  { p with alerts := p.alerts ++ [m] }

/-- Reloads the page. -/
def reload (p : Page) : Page :=
  { p with reloads := p.reloads + 1 }

end Page

end NodeSwitcher
