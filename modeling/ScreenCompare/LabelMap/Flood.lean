import ScreenCompare.Color
import ScreenCompare.LabelMap
import ScreenCompare.LabelMap.StepQueue
import ScreenCompare.Misuse

/-!
# Flooding a label map

Labelled regions grow over the unknown cells between them.  The picture is taken
as a relief in which the step between two neighboring cells is their largest
channel difference.  Unknown cells beside a region wait in a queue, lowest step
first; a cell taken from it joins the one region it touches, or becomes boundary
if it touches several, and its unknown neighbors start to wait in turn.

The outermost cells of the map are always boundary, so flooding happens in the
interior only, where every cell has four neighbors.
-/

namespace ScreenCompare

namespace LabelMap

/-- The label of cells that wait to be flooded. -/
def waiting : Int := -2

/-- Make the outermost cells boundary. -/
def frame (labels : LabelMap) : LabelMap :=
  Raster.ofFn labels.width labels.height fun x y =>
    if x = 0 ∨ y = 0 ∨ x + 1 = labels.width ∨ y + 1 = labels.height then
      boundary
    else labels.getD x y unknown

/--
The four neighbors of an interior cell, in the order above, left, right, below.
-/
def besides (point : Point) : List Point :=
  [{ x := point.x, y := point.y - 1 }, { x := point.x - 1, y := point.y },
    { x := point.x + 1, y := point.y }, { x := point.x, y := point.y + 1 }]

/-- The label of a cell of the map. -/
@[inline] def labelAt (labels : LabelMap) (point : Point) : Int :=
  labels.getD point.x point.y boundary

/-- The interior cells of the map in row order. -/
def interior (labels : LabelMap) : List Point :=
  (List.range' 1 (labels.height - 2)).flatMap fun y =>
    (List.range' 1 (labels.width - 2)).map fun x => { x, y }

end LabelMap

/-- A label map in the course of flooding, with the cells that wait. -/
structure Flood (Q : Type) where
  labels : LabelMap
  queue : Q

namespace Flood

variable {Q : Type} [StepQueue Q]

/-- The step between two cells of the relief. -/
def stepBetween (relief : Picture) (first second : Point) : Nat :=
  (relief.getD first.x first.y default).step
    (relief.getD second.x second.y default)

/-- Let a cell wait. -/
def await (flood : Flood Q) (point : Point) (height : Nat) : Flood Q where
  labels := flood.labels.set point.x point.y LabelMap.waiting
  queue := StepQueue.push flood.queue height point

/--
Let an unknown cell wait if it touches a region, by its lowest step to one.
-/
def seed (relief : Picture) (flood : Flood Q) (point : Point) : Flood Q :=
  if flood.labels.labelAt point = LabelMap.unknown then
    let steps := (LabelMap.besides point).filterMap fun neighbor =>
      if 0 < flood.labels.labelAt neighbor then
        some (stepBetween relief point neighbor)
      else none
    match steps.min? with
    | some height => flood.await point height
    | none => flood
  else flood

/--
The label agreed on so far, confronted with one more neighbor.  Neighbors
outside regions have no say, and two regions that disagree make a boundary.
-/
def agree (label neighbor : Int) : Int :=
  if neighbor ≤ 0 then label
  else if label = LabelMap.unknown then neighbor
  else if label = neighbor then label
  else LabelMap.boundary

/-- The label of a cell according to its neighbors. -/
def labelFor (labels : LabelMap) (point : Point) : Int :=
  (LabelMap.besides point).foldl
    (fun label neighbor => agree label (labels.labelAt neighbor)) LabelMap.unknown

/-- Let a neighbor of a flooded cell wait if it is unknown. -/
def spread (relief : Picture) (point : Point) (flood : Flood Q)
    (neighbor : Point) : Flood Q :=
  if flood.labels.labelAt neighbor = LabelMap.unknown then
    flood.await neighbor (stepBetween relief point neighbor)
  else flood

/-- Flood one cell that has waited. -/
def settle (relief : Picture) (flood : Flood Q) (point : Point) : Flood Q :=
  let label := labelFor flood.labels point
  let settled := { flood with
    labels := flood.labels.set point.x point.y label }
  if label = LabelMap.boundary then settled
  else (LabelMap.besides point).foldl (spread relief point) settled

/-- Flood waiting cells until none is left. -/
def run (relief : Picture) : (fuel : Nat) → Flood Q → Flood Q
  | 0, flood => flood
  | fuel + 1, flood =>
      match StepQueue.pop? flood.queue with
      | none => flood
      | some (point, queue) =>
          run relief fuel (settle relief { flood with queue } point)

/--
The flood over a framed map with every cell that touches a region waiting.
-/
def start (relief : Picture) (labels : LabelMap) : Flood Q :=
  let framed := labels.frame
  framed.interior.foldl (seed relief)
    { labels := framed, queue := StepQueue.empty }

/--
Flood a label map with a given kind of queue.  A cell waits at most once, so
there are no more rounds than interior cells.
-/
def result (Q : Type) [StepQueue Q] (relief : Picture) (labels : LabelMap) :
    LabelMap :=
  (run relief ((labels.width - 2) * (labels.height - 2))
    (start relief labels : Flood Q)).labels

end Flood

namespace LabelMap

/-- Let the labelled regions of a map grow over its unknown cells. -/
def flood (labels : LabelMap) (relief : Picture) : LabelMap :=
  Flood.result StepBuckets relief labels

/-- Let the regions of a map grow, if the relief has the map's size. -/
def flood? (labels : LabelMap) (relief : Picture) : Except Misuse LabelMap :=
  if relief.SameSize labels then .ok (labels.flood relief)
  else .error .sizesDiffer

end LabelMap

end ScreenCompare
