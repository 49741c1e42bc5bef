import ScreenCompare.LabelMap
import ScreenCompare.LabelMap.Border

/-!
# Markers

Every outer border, and every hole without an enclosing border, starts a region
of its own and gets the next label, counted from 1.  A hole with a parent takes
its parent's label.  Each border is painted, filled, with its label into a label
map, in the order of the borders.

Filling follows the even-odd rule row by row.  A chain is closed by an edge from
its last place to its first.  An edge crosses a row at the column of the straight
line between its ends; it counts as crossing the row of its upper end, but not
that of its lower end, and no row if it lies in one.  The crossings of a row,
sorted, are taken in pairs, and the cells from the first to the second of a pair
are inside.
-/

namespace ScreenCompare

/--
A place in the plane of columns and rows, which goes on beyond every picture.
-/
structure Site where
  x : Int
  y : Int
deriving DecidableEq, Repr

/-- The place of a cell. -/
def Point.site (point : Point) : Site where
  x := point.x
  y := point.y

namespace LabelMap

/--
The edges of a closed chain: each place with the next one, the last with the
first.
-/
def edges : List Site → List (Site × Site)
  | [] => []
  | first :: rest => (first :: rest).zip (rest ++ [first])

/-- The column in which an edge crosses a row, if it does. -/
def crossing? (row : Int) (edge : Site × Site) : Option Rat :=
  if edge.1.y ≤ row ∧ row < edge.2.y ∨ edge.2.y ≤ row ∧ row < edge.1.y then
    let covered : Rat :=
      ((row - edge.1.y : Int) : Rat) / ((edge.2.y - edge.1.y : Int) : Rat)
    some (edge.1.x + covered * ((edge.2.x - edge.1.x : Int) : Rat))
  else none

/-- The columns in which a closed chain crosses a row, from left to right. -/
def crossings (chain : List Site) (row : Int) : List Rat :=
  ((edges chain).filterMap (crossing? row)).mergeSort

/-- Take the crossings of a row in pairs; one left over is dropped. -/
def spans : List Rat → List (Rat × Rat)
  | first :: second :: rest => (first, second) :: spans rest
  | _ => []

/-- The whole numbers from one up to another. -/
def wholesFrom (first last : Int) : List Int :=
  (List.range (last + 1 - first).toNat).map fun steps : Nat => first + steps

/-- Label a place, if there is a cell. -/
def paint (label : Int) (labels : LabelMap) (site : Site) : LabelMap :=
  if 0 ≤ site.x ∧ 0 ≤ site.y then
    labels.set site.x.toNat site.y.toNat label
  else labels

/-- Label the places of one row from one column up to another. -/
def paintSpan (label row : Int) (labels : LabelMap) (span : Rat × Rat) :
    LabelMap :=
  (wholesFrom span.1.ceil span.2.floor).foldl
    (fun labels x => paint label labels { x, y := row }) labels

/-- Label the places of one row that lie inside a closed chain. -/
def paintRow (label : Int) (chain : List Site) (labels : LabelMap)
    (row : Int) : LabelMap :=
  (spans (crossings chain row)).foldl (paintSpan label row) labels

/-- Label a closed chain of places and everything inside it. -/
def paintFilled (labels : LabelMap) (chain : List Site) (label : Int) :
    LabelMap :=
  match chain with
  | [] => labels
  | first :: rest =>
      let top := rest.foldl (fun row site => min row site.y) first.y
      let bottom := rest.foldl (fun row site => max row site.y) first.y
      let filled := (wholesFrom top bottom).foldl (paintRow label chain) labels
      chain.foldl (paint label) filled

end LabelMap

namespace Border

/-- The places of a border's cells. -/
def sites (border : Border) : List Site :=
  border.points.map Point.site

/-- The labels given so far, one for each border, and the last fresh label. -/
structure Labelling where
  labels : Array Nat
  last : Nat

/--
Give a border its label: a hole that has a parent shares the parent's, every
other border gets a fresh one.
-/
def Labelling.extend (labelling : Labelling) (border : Border) : Labelling :=
  match border.kind, border.parent with
  | .hole, some parent =>
      { labelling with
        labels := labelling.labels.push (labelling.labels.getD parent 0) }
  | _, _ =>
      { labels := labelling.labels.push (labelling.last + 1)
        last := labelling.last + 1 }

/-- The label of every border, in the order of the borders. -/
def labels (borders : List Border) : List Nat :=
  (borders.foldl Labelling.extend { labels := #[], last := 0 }).labels.toList

end Border

/-- Paint every border of a mask, filled, with its label. -/
def LabelMap.ofMask (mask : GrayPicture) : LabelMap :=
  let borders := Border.all mask
  (borders.zip (Border.labels borders)).foldl
    (fun labels (border, label) => labels.paintFilled border.sites label)
    (LabelMap.blank mask.width mask.height)

end ScreenCompare
