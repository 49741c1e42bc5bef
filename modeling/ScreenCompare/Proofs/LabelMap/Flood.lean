import ScreenCompare.LabelMap.Flood
import ScreenCompare.Proofs.Raster

/-!
# Flooding a map on which nothing is to be flooded

A cell starts to wait only if it is unknown and touches a region.  Where no cell
does so once the map is framed, nothing is seeded, the queue stays empty and
flooding ends with the framed map (`flood_eq_frame_of_isQuiet`).  A map that
assigns every cell is the plainest example (`flood_eq_frame`).
-/

namespace ScreenCompare

namespace StepBuckets

theorem popFrom?_replicate_empty (size bucketsLeft level : Nat) :
    popFrom? (Array.replicate size Std.Queue.empty) bucketsLeft level =
      none := by
  induction bucketsLeft generalizing level with
  | zero => rfl
  | succ bucketsLeft inductionHypothesis =>
      have vacant : (Array.replicate size (Std.Queue.empty : Std.Queue Point)).getD
          level Std.Queue.empty = Std.Queue.empty := by
        rw [Array.getD_eq_getD_getElem?, Array.getElem?_replicate]
        split <;> rfl
      rw [popFrom?, vacant]
      exact inductionHypothesis (level + 1)

theorem pop?_empty :
    StepQueue.pop? (StepQueue.empty : StepBuckets) = none := by
  show pop? empty = none
  rw [pop?, empty]
  exact popFrom?_replicate_empty ..

end StepBuckets

namespace LabelMap

/-- Every cell is assigned: no cell of the map is unknown. -/
def IsAssigned (labels : LabelMap) : Prop :=
  ∀ x y, labels.get? x y ≠ some unknown

theorem get?_frame (labels : LabelMap) (x y : Nat) :
    labels.frame.get? x y =
      if x = 0 ∨ y = 0 ∨ x + 1 = labels.width ∨ y + 1 = labels.height then
        (labels.get? x y).map fun _ => boundary
      else labels.get? x y := by
  rw [frame, Raster.get?_ofFn]
  by_cases inside : x < labels.width ∧ y < labels.height
  · rcases Raster.get?_of_contains inside with ⟨label, found⟩
    rw [if_pos inside, found, Raster.getD_eq, found]
    split <;> rfl
  · rw [if_neg inside, Raster.get?_eq_none_iff.2 inside]
    split <;> rfl

theorem IsAssigned.frame {labels : LabelMap} (assigned : labels.IsAssigned) :
    labels.frame.IsAssigned := by
  intro x y found
  rw [get?_frame] at found
  split at found
  · rcases Option.map_eq_some_iff.1 found with ⟨_, _, impossible⟩
    cases impossible
  · exact assigned x y found

/-- No unknown cell touches a region. -/
def IsQuiet (labels : LabelMap) : Prop :=
  ∀ point, labels.labelAt point = unknown →
    ∀ neighbor ∈ besides point, labels.labelAt neighbor ≤ 0

theorem IsAssigned.isQuiet {labels : LabelMap}
    (assigned : labels.IsAssigned) : labels.IsQuiet := by
  intro point isUnknown
  rw [labelAt, Raster.getD_eq] at isUnknown
  cases found : labels.get? point.x point.y with
  | none =>
      rw [found] at isUnknown
      exact absurd isUnknown (by decide)
  | some label =>
      rw [found] at isUnknown
      exact absurd (found.trans (congrArg some isUnknown))
        (assigned point.x point.y)

end LabelMap

namespace Flood

variable {Q : Type} [StepQueue Q]

theorem seed_of_isQuiet (relief : Picture) {flood : Flood Q}
    (quiet : flood.labels.IsQuiet) (point : Point) :
    seed relief flood point = flood := by
  rw [seed]
  split
  · next isUnknown =>
      have vacant : ((LabelMap.besides point).filterMap fun neighbor =>
          if 0 < flood.labels.labelAt neighbor then
            some (stepBetween relief point neighbor)
          else none) = [] := by
        rw [List.filterMap_eq_nil_iff]
        intro neighbor beside
        exact if_neg (Int.not_lt.2 (quiet point isUnknown neighbor beside))
      simp only [vacant, List.min?_nil]
  · rfl

theorem foldl_seed_of_isQuiet (relief : Picture) {flood : Flood Q}
    (quiet : flood.labels.IsQuiet) (points : List Point) :
    points.foldl (seed relief) flood = flood := by
  induction points with
  | nil => rfl
  | cons point rest inductionHypothesis =>
      rw [List.foldl_cons, seed_of_isQuiet relief quiet, inductionHypothesis]

theorem run_of_pop?_eq_none (relief : Picture) (fuel : Nat) {flood : Flood Q}
    (vacant : StepQueue.pop? flood.queue = none) :
    run relief fuel flood = flood := by
  cases fuel with
  | zero => rfl
  | succ fuel => rw [run, vacant]

theorem run_add (relief : Picture) (rounds more : Nat) (flood : Flood Q) :
    run relief (rounds + more) flood =
      run relief more (run relief rounds flood) := by
  induction rounds generalizing flood with
  | zero => rw [Nat.zero_add, run]
  | succ rounds inductionHypothesis =>
      rw [Nat.succ_add, run, run]
      split
      · next vacant => exact (run_of_pop?_eq_none relief more vacant).symm
      · exact inductionHypothesis _

end Flood

namespace LabelMap

theorem eq_of_flood? {labels flooded : LabelMap} {relief : Picture}
    (ok : labels.flood? relief = .ok flooded) :
    labels.flood relief = flooded := by
  rw [flood?] at ok
  split at ok
  · exact Except.ok.inj ok
  · cases ok

/--
Flooding a map that is quiet inside its frame only frames it, over any relief.
-/
theorem flood_eq_frame_of_isQuiet {labels : LabelMap}
    (quiet : labels.frame.IsQuiet) (relief : Picture) :
    labels.flood relief = labels.frame := by
  let still : Flood StepBuckets :=
    { labels := labels.frame, queue := StepQueue.empty }
  have started : Flood.start relief labels = still :=
    Flood.foldl_seed_of_isQuiet relief quiet _
  have vacant : StepQueue.pop? still.queue = none := StepBuckets.pop?_empty
  rw [flood, Flood.result, started, Flood.run_of_pop?_eq_none relief _ vacant]

/--
Flooding a map on which every cell is assigned only frames it, over any relief.
-/
theorem flood_eq_frame {labels : LabelMap} (assigned : labels.IsAssigned)
    (relief : Picture) : labels.flood relief = labels.frame :=
  flood_eq_frame_of_isQuiet assigned.frame.isQuiet relief

end LabelMap

end ScreenCompare
