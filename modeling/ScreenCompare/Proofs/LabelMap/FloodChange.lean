import Mathlib.Logic.Relation
import ScreenCompare.Proofs.LabelMap.FloodProgress

/-!
# The changes that make up a flood

A flood knows two changes.  An unknown cell starts to wait, or the cell whose
turn has come gets the label that the rule gives to it.  Seeding, one round and
a whole run are chains of such changes, so whatever both changes keep holds in
every state of a flood (`run_start_of_changes`).
-/

namespace ScreenCompare

namespace Flood

open LabelMap

variable {Q : Type} [StepQueue Q]

/-- One change in the course of a flood over a map. -/
inductive Change (labels : LabelMap) : Flood Q → Flood Q → Prop where
  /-- An unknown cell starts to wait. -/
  | awaits {flood : Flood Q} {point : Point} {height : Nat}
      (wasUnknown : labels.frame.labelAt point = unknown)
      (inside : flood.labels.Contains point.x point.y)
      (isUnknown : flood.labels.labelAt point = unknown) :
      Change labels flood (flood.await point height)
  /-- A cell that waits beside a region is taken out and labelled. -/
  | settles {flood : Flood Q} {point : Point} {queue : Q} {label : Int}
      (wasUnknown : labels.frame.labelAt point = unknown)
      (inside : flood.labels.Contains point.x point.y)
      (taken : StepQueue.pop? flood.queue = some (point, queue))
      (isWaiting : flood.labels.labelAt point = waiting)
      (touches : (flood.labels.regionsBeside point).Nonempty)
      (settles : Settles (flood.labels.regionsBeside point) label) :
      Change labels flood
        { labels := flood.labels.set point.x point.y label, queue }

/-- One flood arises from another by a chain of changes. -/
def Changes (labels : LabelMap) : Flood Q → Flood Q → Prop :=
  Relation.ReflTransGen (Change labels)

/-- What is kept by every change is kept by a chain of changes. -/
theorem Changes.keep {labels : LabelMap} {Keeps : Flood Q → Prop}
    (change : ∀ {before after : Flood Q},
      Change labels before after → Keeps before → Keeps after)
    {before after : Flood Q} (changes : Changes labels before after)
    (first : Keeps before) : Keeps after := by
  induction changes with
  | refl => exact first
  | tail _ last inductionHypothesis => exact change last inductionHypothesis

variable [LawfulStepQueue Q] {labels : LabelMap}
  {unsettled pending : List Point} {flood : Flood Q} {point : Point}

theorem Progress.changes_await
    (progress : Progress labels unsettled pending flood)
    (isUnknown : flood.labels.labelAt point = unknown) (height : Nat) :
    Changes labels flood (flood.await point height) :=
  .single (.awaits (progress.wasUnknown isUnknown)
    (progress.contains (progress.wasUnknown isUnknown)) isUnknown)

theorem Progress.changes_seed (relief : Picture)
    (progress : Progress labels unsettled pending flood) :
    Changes labels flood (Flood.seed relief flood point) := by
  rw [Flood.seed]
  split
  · next isUnknown =>
      dsimp only
      split
      · exact progress.changes_await isUnknown _
      · exact .refl
  · exact .refl

theorem Progress.changes_seedAll (relief : Picture)
    (progress : Progress labels unsettled pending flood) :
    Changes labels flood (pending.foldl (Flood.seed relief) flood) := by
  induction pending generalizing flood with
  | nil => exact .refl
  | cons point rest inductionHypothesis =>
      exact (progress.changes_seed relief).trans
        (inductionHypothesis (progress.seed relief))

theorem Progress.changes_spreadAll (relief : Picture) {neighbors : List Point}
    (progress : Progress labels unsettled neighbors flood)
    (wasUnknown : labels.frame.labelAt point = unknown)
    (positive : 0 < flood.labels.labelAt point)
    (beside : ∀ neighbor ∈ neighbors, neighbor ∈ besides point) :
    Changes labels flood
      (neighbors.foldl (Flood.spread relief point) flood) := by
  induction neighbors generalizing flood with
  | nil => exact .refl
  | cons neighbor rest inductionHypothesis =>
      rcases progress.spread relief wasUnknown positive
        (beside neighbor (List.mem_cons_self ..)) with ⟨next, same⟩
      have first : Changes labels flood
          (Flood.spread relief point flood neighbor) := by
        rw [Flood.spread]
        split
        · next isUnknown => exact progress.changes_await isUnknown _
        · exact .refl
      exact first.trans (inductionHypothesis next (same.symm ▸ positive)
        fun other member => beside other (List.mem_cons_of_mem _ member))

theorem Progress.changes_settle (relief : Picture)
    (progress : Progress labels unsettled [] flood) {queue : Q}
    (taken : StepQueue.pop? flood.queue = some (point, queue)) :
    Changes labels flood (Flood.settle relief { flood with queue } point) := by
  rcases progress.taken taken with ⟨wasUnknown, isWaiting, touches, _⟩
  have labelled := Relation.ReflTransGen.single (Change.settles wasUnknown
    (progress.contains wasUnknown) taken isWaiting touches
    (settles_labelFor flood.labels point))
  rw [Flood.settle]
  split
  · exact labelled
  · next joins =>
      rcases progress.joins taken joins with ⟨joined, positive⟩
      exact labelled.trans (joined.changes_spreadAll relief wasUnknown positive
        fun _ member => member)

theorem Progress.changes_run (relief : Picture)
    (progress : Progress labels unsettled [] flood) (fuel : Nat) :
    Changes labels flood (Flood.run relief fuel flood) := by
  induction fuel generalizing unsettled flood with
  | zero => exact .refl
  | succ fuel inductionHypothesis =>
      rw [Flood.run]
      split
      · exact .refl
      · next taken =>
          exact (progress.changes_settle relief taken).trans
            (inductionHypothesis (progress.settle relief taken).2)

/--
What holds on the framed map, with nothing waiting, and is kept by every change
holds after any number of rounds.
-/
theorem run_start_of_changes (Keeps : Flood Q → Prop)
    (change : ∀ {before after : Flood Q},
      Change labels before after → Keeps before → Keeps after)
    (framed : Keeps { labels := labels.frame, queue := StepQueue.empty })
    (relief : Picture) (rounds : Nat) :
    Keeps (run relief rounds (start relief labels)) := by
  have seeded := (progress_framed (Q := Q) labels).changes_seedAll relief
  have flooded := (progress_start (Q := Q) relief labels).changes_run relief
    rounds
  exact Changes.keep change (seeded.trans flooded) framed

end Flood

end ScreenCompare
