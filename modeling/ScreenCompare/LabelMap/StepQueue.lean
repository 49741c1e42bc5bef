import ScreenCompare.Raster

/-!
# Queues of waiting cells

Cells that wait to be flooded are taken lowest step first, and among equal steps
in the order in which they came.  The module states what such a queue offers and
gives the one that flooding runs on: one first-in first-out bucket for each of
the 256 possible steps, with the lowest bucket that may hold something
remembered.
-/

namespace ScreenCompare

/-- A collection of cells, each inserted with the height of its step. -/
class StepQueue (Q : Type) where
  /-- The queue without cells. -/
  empty : Q
  /-- Insert a cell with the height of its step. -/
  push : Q → Nat → Point → Q
  /-- Take out the next cell, if there is one. -/
  pop? : Q → Option (Point × Q)

/-- One bucket for each step height.  No bucket below `lowest` holds a cell. -/
structure StepBuckets where
  buckets : Array (Std.Queue Point)
  lowest : Nat

namespace StepBuckets

/--
The number of buckets, one for each possible difference of two channel values.
-/
def count : Nat := 256

/-- The queue without cells. -/
def empty : StepBuckets where
  buckets := Array.replicate count Std.Queue.empty
  lowest := 0

/-- Append a cell to the bucket of its step. -/
def push (queue : StepBuckets) (height : Nat) (point : Point) :
    StepBuckets where
  buckets := queue.buckets.modify height (·.enqueue point)
  lowest := min queue.lowest height

/--
Take the first cell out of the first of some consecutive buckets that has one.
-/
def popFrom? (buckets : Array (Std.Queue Point)) :
    (bucketsLeft level : Nat) → Option (Point × StepBuckets)
  | 0, _ => none
  | bucketsLeft + 1, level =>
      match (buckets.getD level Std.Queue.empty).dequeue? with
      | some (point, rest) =>
          some (point,
            { buckets := buckets.setIfInBounds level rest, lowest := level })
      | none => popFrom? buckets bucketsLeft (level + 1)

/-- Take out the cell with the lowest step that has waited longest. -/
def pop? (queue : StepBuckets) : Option (Point × StepBuckets) :=
  popFrom? queue.buckets (count - queue.lowest) queue.lowest

instance : StepQueue StepBuckets where
  empty := empty
  push := push
  pop? := pop?

end StepBuckets

end ScreenCompare
