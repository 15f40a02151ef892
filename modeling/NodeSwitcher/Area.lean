import NodeSwitcher.Fault
/-!
# Area paths

A node area id such as `eu-west-n1` names where a node sits. Split at every `-`,
its first segment is the area and must not be empty; when there is a second
segment, the country is the area, a `-`, and that segment, even when the segment
is empty (`eu-` gives the country `eu-`).
-/

namespace NodeSwitcher

/-- Where a node sits: its area, and the country within it when the id names one. -/
structure AreaPath where
  area : String
  country : Option String
  deriving DecidableEq, Repr

/-- The characters of a text up to its first `-`, and what follows that `-`, if
there is one. -/
def splitDash (cs : List Char) : List Char × Option (List Char) :=
  match cs.dropWhile (· ≠ '-') with
  | [] => (cs.takeWhile (· ≠ '-'), none)
  | _ :: rest => (cs.takeWhile (· ≠ '-'), some rest)

/-- Reads a node area id. -/
def AreaPath.parse (id : String) : Except Fault AreaPath :=
  let (area, rest) := splitDash id.toList
  if area.isEmpty then .error (.invalidAreaId id)
  else
    .ok ⟨String.ofList area,
      rest.map fun r => String.ofList (area ++ '-' :: (splitDash r).1)⟩

end NodeSwitcher
