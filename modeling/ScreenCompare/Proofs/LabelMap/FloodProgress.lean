import ScreenCompare.Proofs.LabelMap.Beside
import ScreenCompare.Proofs.LabelMap.StepQueue

/-!
# Flooding follows its rule

A cell is labelled once, by the neighbors it has when it leaves the queue, and
these may still change afterwards.  That its label nevertheless agrees with its
neighbors in the end is an invariant of the flood (`Flood.Progress`): every cell
that was unknown waits beside a region, or is unknown with its turn still to
come, or has the label that the rule gives by its present neighbors.  A cell
that joins a region tells only unknown neighbors anything new, and these start
to wait at once.

The invariant is kept by whatever queue the flood runs on.  No cell waits twice,
so the rounds suffice, and a flooded map is a fixed point: every cell follows
the rule, and flooding once more changes nothing (`flood_reaches_fixed_point`).
-/

namespace ScreenCompare

namespace Flood

open LabelMap

/-- How far a cell has come that was unknown before the flood. -/
inductive Stage (labels : LabelMap) (pending : List Point) (point : Point) :
    Prop where
  /-- The cell waits, and it does so beside a region. -/
  | waits (isWaiting : labels.labelAt point = waiting)
      (touches : (labels.regionsBeside point).Nonempty)
  /-- The cell is unknown, and its turn is still to come. -/
  | pends (isUnknown : labels.labelAt point = unknown)
      (member : point ∈ pending)
  /-- The cell has the label that the rule gives to it. -/
  | settled (settles : Settles (labels.regionsBeside point)
      (labels.labelAt point))

variable {Q : Type} [StepQueue Q] [LawfulStepQueue Q]

/--
The state of a flood over a map: known cells are as they were, the queue holds
the waiting ones, every cell that was unknown is at one of the stages, and the
ones still without a label are listed.
-/
structure Progress (labels : LabelMap) (unsettled pending : List Point)
    (flood : Flood Q) : Prop where
  sameSize : flood.labels.SameSize labels
  known : ∀ point, labels.frame.labelAt point ≠ unknown →
    flood.labels.labelAt point = labels.frame.labelAt point
  queued : ∃ entries, LawfulStepQueue.Holds flood.queue entries ∧
    (entries.map Prod.snd).Nodup ∧
    ∀ point, point ∈ entries.map Prod.snd ↔
      labels.frame.labelAt point = unknown ∧
        flood.labels.labelAt point = waiting
  listed : ∀ point, labels.frame.labelAt point = unknown →
    flood.labels.labelAt point = unknown ∨
      flood.labels.labelAt point = waiting → point ∈ unsettled
  stage : ∀ point, labels.frame.labelAt point = unknown →
    Stage flood.labels pending point

variable {labels : LabelMap} {unsettled pending : List Point} {flood : Flood Q}
  {point : Point}

namespace Progress

theorem wasUnknown (progress : Progress labels unsettled pending flood)
    (isUnknown : flood.labels.labelAt point = unknown) :
    labels.frame.labelAt point = unknown := by
  apply Classical.byContradiction
  intro wasKnown
  exact wasKnown ((progress.known point wasKnown).symm.trans isUnknown)

theorem contains (progress : Progress labels unsettled pending flood)
    (wasUnknown : labels.frame.labelAt point = unknown) :
    flood.labels.Contains point.x point.y := by
  have inside := contains_of_mem_interior (mem_interior_of_unknown wasUnknown)
  rcases progress.sameSize with ⟨widths, heights⟩
  exact ⟨widths ▸ inside.1, heights ▸ inside.2⟩

/-! ## Cells whose turn comes -/

/-- A cell may be passed over if it is known or touches no region. -/
theorem skip (progress : Progress labels unsettled (point :: pending) flood)
    (idle : flood.labels.labelAt point = unknown →
      flood.labels.regionsBeside point = ∅) :
    Progress labels unsettled pending flood where
  sameSize := progress.sameSize
  known := progress.known
  queued := progress.queued
  listed := progress.listed
  stage := by
    intro other wasUnknown
    cases progress.stage other wasUnknown with
    | waits isWaiting touches => exact .waits isWaiting touches
    | settled settles => exact .settled settles
    | pends isUnknown member =>
        rcases List.mem_cons.1 member with rfl | later
        · exact .settled (isUnknown ▸ .untouched (idle isUnknown))
        · exact .pends isUnknown later

/-- An unknown cell that touches a region may start to wait. -/
theorem await (progress : Progress labels unsettled (point :: pending) flood)
    (isUnknown : flood.labels.labelAt point = unknown)
    (touches : (flood.labels.regionsBeside point).Nonempty) {height : Nat}
    (bound : height < StepBuckets.count) :
    Progress labels unsettled pending (flood.await point height) := by
  have wasUnknown := progress.wasUnknown isUnknown
  have written (other : Point) :
      (flood.await point height).labels.labelAt other =
        if other = point then waiting else flood.labels.labelAt other :=
    labelAt_set (progress.contains wasUnknown) other
  have outside : flood.labels.labelAt point ≤ 0 := Int.le_of_eq isUnknown
  have regions (other : Point) :
      (flood.await point height).labels.regionsBeside other =
        flood.labels.regionsBeside other :=
    regionsBeside_set_of_silent (progress.contains wasUnknown) outside
      fun both => absurd both.1 (by decide)
  refine ⟨?sameSize, ?known, ?queued, ?listed, ?stage⟩
  case sameSize =>
    exact (Raster.SameSize.set flood.labels ..).trans progress.sameSize
  case known =>
    intro other wasKnown
    have elsewhere : other ≠ point := by
      rintro rfl
      exact wasKnown wasUnknown
    rw [written, if_neg elsewhere]
    exact progress.known other wasKnown
  case queued =>
    rcases progress.queued with ⟨entries, holds, nodup, members⟩
    have absent : point ∉ entries.map Prod.snd := by
      intro member
      have isWaiting := ((members point).1 member).2
      rw [isUnknown] at isWaiting
      exact absurd isWaiting (by decide)
    refine ⟨_, LawfulStepQueue.holds_push holds bound, ?_, ?_⟩
    · rw [List.map_append, List.nodup_append]
      refine ⟨nodup, List.pairwise_singleton .., ?_⟩
      rintro first firstMember second secondMember rfl
      obtain rfl := List.mem_singleton.1 secondMember
      exact absent firstMember
    · intro other
      rw [List.map_append, List.mem_append, written, members]
      by_cases here : other = point
      · simp [here, wasUnknown]
      · simp [here]
  case listed =>
    intro other otherUnknown unlabelled
    rw [written] at unlabelled
    by_cases here : other = point
    · rw [here]
      exact progress.listed point wasUnknown (Or.inl isUnknown)
    · rw [if_neg here] at unlabelled
      exact progress.listed other otherUnknown unlabelled
  case stage =>
    intro other otherUnknown
    by_cases here : other = point
    · subst here
      exact .waits ((written other).trans (if_pos rfl))
        ((regions other).symm ▸ touches)
    · have same := (written other).trans (if_neg here)
      cases progress.stage other otherUnknown with
      | waits isWaiting touches =>
          exact .waits (same.trans isWaiting) ((regions other).symm ▸ touches)
      | pends isUnknown member =>
          exact .pends (same.trans isUnknown)
            (List.mem_of_ne_of_mem here member)
      | settled settles =>
          exact .settled ((regions other).symm ▸ same.symm ▸ settles)

end Progress

theorem stepBetween_lt (relief : Picture) (first second : Point) :
    stepBetween relief first second < StepBuckets.count :=
  Color.step_lt ..

/--
The lowest step to a region beside a cell is a step to one of its neighbors.
-/
theorem exists_of_lowestStep {relief : Picture} {labels : LabelMap}
    {point : Point} {height : Nat}
    (lowest : ((besides point).filterMap fun neighbor =>
      if 0 < labels.labelAt neighbor then
        some (stepBetween relief point neighbor)
      else none).min? = some height) :
    ∃ neighbor ∈ besides point, 0 < labels.labelAt neighbor ∧
      height = stepBetween relief point neighbor := by
  rcases List.mem_filterMap.1 (List.min?_mem lowest) with
    ⟨neighbor, beside, step⟩
  rw [Option.ite_none_right_eq_some, Option.some.injEq] at step
  exact ⟨neighbor, beside, step.1, step.2.symm⟩

/-! ## Before the flood -/

theorem Progress.seed (relief : Picture)
    (progress : Progress labels unsettled (point :: pending) flood) :
    Progress labels unsettled pending (seed relief flood point) := by
  rw [Flood.seed]
  split
  · next isUnknown =>
      dsimp only
      split
      · next height lowest =>
          rcases exists_of_lowestStep lowest with
            ⟨neighbor, beside, positive, rfl⟩
          exact progress.await isUnknown ⟨_, mem_regionsBeside beside positive⟩
            (stepBetween_lt relief point neighbor)
      · next vacant =>
          apply progress.skip
          intro _
          rw [List.min?_eq_none_iff, List.filterMap_eq_nil_iff] at vacant
          apply Set.eq_empty_iff_forall_notMem.2
          rintro label ⟨positive, neighbor, beside, rfl⟩
          simpa [positive] using vacant neighbor beside
  · next isKnown =>
      exact progress.skip fun isUnknown => absurd isUnknown isKnown

theorem Progress.seedAll (relief : Picture)
    (progress : Progress labels unsettled pending flood) :
    Progress labels unsettled [] (pending.foldl (Flood.seed relief) flood) := by
  induction pending generalizing flood with
  | nil => exact progress
  | cons point rest inductionHypothesis =>
      exact inductionHypothesis (progress.seed relief)

/--
Nothing waits on the framed map, and the turn of every unknown cell is still to
come.
-/
theorem progress_framed (labels : LabelMap) :
    Progress labels labels.interior labels.interior
      ({ labels := labels.frame, queue := StepQueue.empty } : Flood Q) where
  sameSize := ⟨rfl, rfl⟩
  known := fun _ _ => rfl
  queued := by
    refine ⟨[], LawfulStepQueue.holds_empty, List.nodup_nil, ?_⟩
    intro point
    constructor
    · intro member
      cases member
    · rintro ⟨isUnknown, isWaiting⟩
      exact absurd (isUnknown.symm.trans isWaiting) (by decide)
  listed := fun _ wasUnknown _ => mem_interior_of_unknown wasUnknown
  stage := fun _ wasUnknown =>
    .pends wasUnknown (mem_interior_of_unknown wasUnknown)

/--
When all cells have been looked at, the unknown ones beside a region wait.
-/
theorem progress_start (relief : Picture) (labels : LabelMap) :
    Progress labels labels.interior [] (start relief labels : Flood Q) :=
  (progress_framed labels).seedAll relief

/-! ## One round -/

/--
A neighbor of a cell in a region is looked at and starts to wait if it is
unknown, and the cell keeps its label.
-/
theorem Progress.spread (relief : Picture) {neighbor : Point}
    (progress : Progress labels unsettled (neighbor :: pending) flood)
    (wasUnknown : labels.frame.labelAt point = unknown)
    (positive : 0 < flood.labels.labelAt point)
    (beside : neighbor ∈ besides point) :
    Progress labels unsettled pending (spread relief point flood neighbor) ∧
      (spread relief point flood neighbor).labels.labelAt point =
        flood.labels.labelAt point := by
  rw [Flood.spread]
  split
  · next isUnknown =>
      have neighborWasUnknown := progress.wasUnknown isUnknown
      have bounds := mem_interior.1 (mem_interior_of_unknown wasUnknown)
      have neighborBounds :=
        mem_interior.1 (mem_interior_of_unknown neighborWasUnknown)
      have back : point ∈ besides neighbor :=
        (mem_besides_comm bounds.1 bounds.2.2.1 neighborBounds.1
          neighborBounds.2.2.1).2 beside
      have elsewhere : point ≠ neighbor := by
        rintro rfl
        exact absurd (isUnknown ▸ positive) (by decide)
      refine ⟨progress.await isUnknown ⟨_, mem_regionsBeside back positive⟩
        (stepBetween_lt relief point neighbor), ?_⟩
      exact (labelAt_set (progress.contains neighborWasUnknown) point).trans
        (if_neg elsewhere)
  · next isKnown =>
      exact ⟨progress.skip fun isUnknown => absurd isUnknown isKnown, rfl⟩

/--
The neighbors of a cell in a region are looked at in turn, and the unknown ones
start to wait.
-/
theorem Progress.spreadAll (relief : Picture) {neighbors : List Point}
    (progress : Progress labels unsettled neighbors flood)
    (wasUnknown : labels.frame.labelAt point = unknown)
    (positive : 0 < flood.labels.labelAt point)
    (beside : ∀ neighbor ∈ neighbors, neighbor ∈ besides point) :
    Progress labels unsettled []
      (neighbors.foldl (Flood.spread relief point) flood) := by
  induction neighbors generalizing flood with
  | nil => exact progress
  | cons neighbor rest inductionHypothesis =>
      rcases progress.spread relief wasUnknown positive
        (beside neighbor (List.mem_cons_self ..)) with ⟨next, same⟩
      exact inductionHypothesis next (same.symm ▸ positive)
        fun other member => beside other (List.mem_cons_of_mem _ member)

/--
When a waiting cell gets its label, every other cell stays settled, except for
the unknown neighbors of a cell that joins a region.
-/
theorem Stage.set {labels : LabelMap} {point other : Point} {label : Int}
    (inside : labels.Contains point.x point.y)
    (isWaiting : labels.labelAt point = waiting)
    (settles : Settles (labels.regionsBeside point) label)
    (symmetric : point ∈ besides other → other ∈ besides point)
    (elsewhere : other ≠ point) (stage : Stage labels [] other) :
    Stage (labels.set point.x point.y label)
      (if label = boundary then [] else besides point) other := by
  have outside : labels.labelAt point ≤ 0 := isWaiting ▸ (by decide)
  have same : LabelMap.labelAt (labels.set point.x point.y label) other =
      labels.labelAt other :=
    (labelAt_set inside other).trans (if_neg elsewhere)
  have regions : regionsBeside (labels.set point.x point.y label) other = _ :=
    regionsBeside_set inside outside other
  cases stage with
  | pends _ member => cases member
  | waits otherWaits touches =>
      apply Stage.waits (same.trans otherWaits)
      rw [regions]
      exact touches.mono fun _ => Or.inl
  | settled otherSettles =>
      by_cases silent : ¬ (0 < label ∧ point ∈ besides other)
      · apply Stage.settled
        rw [same, regionsBeside_set_of_silent inside outside silent]
        exact otherSettles
      · rcases not_not.1 silent with ⟨positive, beside⟩
        have joins : label ≠ boundary := by
          rintro rfl
          exact absurd positive (by decide)
        have added : regionsBeside (labels.set point.x point.y label) other =
            insert label (labels.regionsBeside other) := by
          ext region
          simp only [regions, positive, beside, and_self, true_and,
            Set.mem_ofPred_eq, Set.mem_insert_iff]
          exact or_comm
        generalize here : labels.labelAt other = otherLabel at otherSettles same
        cases otherSettles with
        | untouched none =>
            rw [if_neg joins]
            exact .pends same (symmetric beside)
        | joined otherLabel only =>
            have member : otherLabel ∈ labels.regionsBeside other := by
              rw [only, Set.mem_singleton_iff]
            have otherPositive : 0 < labels.labelAt other :=
              here ▸ regionsBeside_pos otherLabel member
            have equal : labels.labelAt other = label := by
              have member := mem_regionsBeside (symmetric beside) otherPositive
              rwa [(settles.eq_iff_of_pos positive).1 rfl] at member
            apply Stage.settled
            rw [same, added, only, ← equal, here, Set.pair_eq_singleton]
            exact .joined otherLabel rfl
        | between several =>
            apply Stage.settled
            rw [same, added]
            exact .between (several.mono (Set.subset_insert ..))

/-- A cell that is taken out of the queue has waited beside a region. -/
theorem Progress.taken (progress : Progress labels unsettled [] flood)
    {queue : Q} (taken : StepQueue.pop? flood.queue = some (point, queue)) :
    labels.frame.labelAt point = unknown ∧
      flood.labels.labelAt point = waiting ∧
      (flood.labels.regionsBeside point).Nonempty ∧
      ∃ entries, LawfulStepQueue.Holds queue entries ∧
        (entries.map Prod.snd).Nodup ∧
        ∀ other, other ∈ entries.map Prod.snd ↔ other ≠ point ∧
          labels.frame.labelAt other = unknown ∧
            flood.labels.labelAt other = waiting := by
  rcases progress.queued with ⟨entries, holds, nodup, members⟩
  rcases LawfulStepQueue.isNext_of_pop? holds taken with
    ⟨height, remaining, next, holdsRemaining⟩
  have cells : (entries.map Prod.snd).Perm (point :: remaining.map Prod.snd) :=
    next.perm.map Prod.snd
  rcases List.nodup_cons.1 (cells.nodup_iff.1 nodup) with
    ⟨absent, remainingNodup⟩
  rcases (members point).1 (cells.mem_iff.2 (List.mem_cons_self ..)) with
    ⟨wasUnknown, isWaiting⟩
  refine ⟨wasUnknown, isWaiting, ?_, remaining, holdsRemaining, remainingNodup,
    ?_⟩
  · cases progress.stage point wasUnknown with
    | waits _ touches => exact touches
    | pends _ member => cases member
    | settled settles =>
        exact absurd isWaiting
          (settles.ne_waiting regionsBeside_pos)
  · intro other
    rw [← members, cells.mem_iff, List.mem_cons]
    constructor
    · intro member
      exact ⟨fun here => absent (here ▸ member), Or.inr member⟩
    · rintro ⟨elsewhere, member⟩
      exact member.resolve_left elsewhere

/--
A waiting cell is taken out of the queue and labelled by its neighbors.  If it
joins a region, its neighbors are to be looked at next.
-/
theorem Progress.label (progress : Progress labels unsettled [] flood)
    {queue : Q} (taken : StepQueue.pop? flood.queue = some (point, queue))
    {label : Int} (settles : Settles (flood.labels.regionsBeside point) label) :
    Progress labels (unsettled.erase point)
      (if label = boundary then [] else besides point)
      { labels := flood.labels.set point.x point.y label, queue : Flood Q } := by
  rcases progress.taken taken with
    ⟨wasUnknown, isWaiting, touches, entries, holds, nodup, members⟩
  have inside := progress.contains wasUnknown
  have isLabel := settles.pos_or_eq_boundary regionsBeside_pos touches
  have written (other : Point) :
      LabelMap.labelAt (flood.labels.set point.x point.y label) other =
        if other = point then label else flood.labels.labelAt other :=
    labelAt_set inside other
  have bounds := mem_interior.1 (mem_interior_of_unknown wasUnknown)
  refine ⟨?sameSize, ?known, ⟨entries, holds, nodup, ?queued⟩, ?listed, ?stage⟩
  case sameSize =>
    exact (Raster.SameSize.set flood.labels ..).trans progress.sameSize
  case known =>
    intro other wasKnown
    have elsewhere : other ≠ point := by
      rintro rfl
      exact wasKnown wasUnknown
    rw [written, if_neg elsewhere]
    exact progress.known other wasKnown
  case queued =>
    intro other
    rw [members, written]
    by_cases here : other = point
    · have moved : label ≠ waiting :=
        settles.ne_waiting regionsBeside_pos
      simp [here, moved]
    · simp [here]
  case listed =>
    intro other otherUnknown unlabelled
    rw [written] at unlabelled
    by_cases here : other = point
    · rw [if_pos here] at unlabelled
      unfold unknown waiting at unlabelled
      unfold boundary at isLabel
      omega
    · rw [if_neg here] at unlabelled
      exact (List.mem_erase_of_ne here).2
        (progress.listed other otherUnknown unlabelled)
  case stage =>
    intro other otherUnknown
    have otherBounds := mem_interior.1 (mem_interior_of_unknown otherUnknown)
    by_cases here : other = point
    · subst here
      apply Stage.settled
      rw [written, if_pos rfl, regionsBeside_set_of_silent inside
        (isWaiting ▸ (by decide)) fun both =>
          not_mem_besides_self bounds.1 bounds.2.2.1 both.2]
      exact settles
    · have symmetric := (mem_besides_comm bounds.1 bounds.2.2.1 otherBounds.1
        otherBounds.2.2.1).1
      exact (progress.stage other otherUnknown).set inside isWaiting settles
        symmetric here

/--
A cell that does not become boundary joins a region, and its neighbors are
looked at next.
-/
theorem Progress.joins (progress : Progress labels unsettled [] flood)
    {queue : Q} (taken : StepQueue.pop? flood.queue = some (point, queue))
    (joins : labelFor flood.labels point ≠ boundary) :
    Progress labels (unsettled.erase point) (besides point)
        { labels := flood.labels.set point.x point.y
            (labelFor flood.labels point), queue : Flood Q } ∧
      0 < LabelMap.labelAt (flood.labels.set point.x point.y
        (labelFor flood.labels point)) point := by
  rcases progress.taken taken with ⟨wasUnknown, _, touches, _⟩
  have settles := settles_labelFor flood.labels point
  have labelled := progress.label taken settles
  rw [if_neg joins] at labelled
  refine ⟨labelled, ?_⟩
  rw [labelAt_set (progress.contains wasUnknown), if_pos rfl]
  exact (settles.pos_or_eq_boundary regionsBeside_pos touches).resolve_right
    joins

/-- One round settles the cell that has been taken out of the queue. -/
theorem Progress.settle (relief : Picture)
    (progress : Progress labels unsettled [] flood) {queue : Q}
    (taken : StepQueue.pop? flood.queue = some (point, queue)) :
    point ∈ unsettled ∧ Progress labels (unsettled.erase point) []
      (settle relief { flood with queue } point) := by
  rcases progress.taken taken with ⟨wasUnknown, isWaiting, _⟩
  refine ⟨progress.listed point wasUnknown (Or.inr isWaiting), ?_⟩
  rw [Flood.settle]
  split
  · next isBoundary =>
      have labelled :=
        progress.label taken (settles_labelFor flood.labels point)
      rwa [if_pos isBoundary] at labelled
  · next joins =>
      rcases progress.joins taken joins with ⟨joined, positive⟩
      exact joined.spreadAll relief wasUnknown positive fun _ member => member

/-! ## All rounds -/

/-- No cell waits any longer. -/
def IsOver (labels : LabelMap) (flood : Flood Q) : Prop :=
  ∀ point, labels.frame.labelAt point = unknown →
    flood.labels.labelAt point ≠ waiting

/--
With a round for every cell without a label, flooding goes on until no cell
waits.
-/
theorem Progress.run (relief : Picture) {fuel : Nat}
    (progress : Progress labels unsettled [] flood)
    (enough : unsettled.length ≤ fuel) :
    IsOver labels (run relief fuel flood) ∧
      ∃ left, Progress labels left [] (run relief fuel flood) := by
  induction fuel generalizing unsettled flood with
  | zero =>
      refine ⟨?_, unsettled, progress⟩
      intro point wasUnknown isWaiting
      have member := progress.listed point wasUnknown (Or.inr isWaiting)
      rw [List.eq_nil_of_length_eq_zero (Nat.le_zero.1 enough)] at member
      cases member
  | succ fuel inductionHypothesis =>
      rw [Flood.run]
      split
      · next vacant =>
          refine ⟨?_, unsettled, progress⟩
          rcases progress.queued with ⟨entries, holds, _, members⟩
          intro point wasUnknown isWaiting
          have member := (members point).2 ⟨wasUnknown, isWaiting⟩
          rw [LawfulStepQueue.eq_nil_of_pop? holds vacant] at member
          cases member
      · next point queue taken =>
          rcases progress.settle relief taken with ⟨member, next⟩
          apply inductionHypothesis next
          rw [List.length_erase_of_mem member]
          omega

end Flood

namespace LabelMap

/-- The flooded map is that of a flood that is over. -/
theorem exists_progress_flood (labels : LabelMap) (relief : Picture) :
    ∃ (flood : Flood StepBuckets) (left : List Point),
      flood.labels = labels.flood relief ∧ Flood.IsOver labels flood ∧
        Flood.Progress labels left [] flood := by
  have started := Flood.progress_start (Q := StepBuckets) relief labels
  rcases started.run relief (Nat.le_of_eq (length_interior labels)) with
    ⟨isOver, left, progress⟩
  exact ⟨_, left, rfl, isOver, progress⟩

theorem sameSize_flood (labels : LabelMap) (relief : Picture) :
    (labels.flood relief).SameSize labels := by
  rcases exists_progress_flood labels relief with ⟨_, _, same, _, progress⟩
  rw [← same]
  exact progress.sameSize

/-- Flooding keeps what is known on the framed map. -/
theorem labelAt_flood_of_known {labels : LabelMap} (relief : Picture)
    {point : Point} (isKnown : labels.frame.labelAt point ≠ unknown) :
    (labels.flood relief).labelAt point = labels.frame.labelAt point := by
  rcases exists_progress_flood labels relief with ⟨_, _, same, _, progress⟩
  rw [← same]
  exact progress.known point isKnown

/-- On the flooded map every cell that was unknown follows the rule. -/
theorem settles_flood {labels : LabelMap} (relief : Picture) {point : Point}
    (wasUnknown : labels.frame.labelAt point = unknown) :
    Settles ((labels.flood relief).regionsBeside point)
      ((labels.flood relief).labelAt point) := by
  rcases exists_progress_flood labels relief with
    ⟨_, _, same, isOver, progress⟩
  rw [← same]
  cases progress.stage point wasUnknown with
  | waits isWaiting _ => exact absurd isWaiting (isOver point wasUnknown)
  | pends _ member => cases member
  | settled settles => exact settles

theorem isQuiet_flood (labels : LabelMap) (relief : Picture) :
    (labels.flood relief).IsQuiet := by
  intro point isUnknown neighbor beside
  have wasUnknown : labels.frame.labelAt point = unknown := by
    apply Classical.byContradiction
    intro wasKnown
    rw [labelAt_flood_of_known relief wasKnown] at isUnknown
    exact wasKnown isUnknown
  have none := ((settles_flood relief wasUnknown).eq_unknown_iff
    regionsBeside_pos).1 isUnknown
  apply Int.not_lt.1
  intro positive
  exact Set.eq_empty_iff_forall_notMem.1 none _
    (mem_regionsBeside beside positive)

theorem frame_flood (labels : LabelMap) (relief : Picture) :
    (labels.flood relief).frame = labels.flood relief := by
  have sizes := sameSize_flood labels relief
  have same : (labels.flood relief).frame.SameSize (labels.flood relief) :=
    ⟨rfl, rfl⟩
  apply Raster.ext_get? same
  intro x y
  rw [get?_frame]
  split
  · next outer =>
      cases found : (labels.flood relief).get? x y with
      | none => rfl
      | some label =>
          have outside : { x, y : Point } ∉ labels.interior := by
            rw [sizes.1, sizes.2] at outer
            intro member
            have bounds : 1 ≤ x ∧ x + 1 < labels.width ∧ 1 ≤ y ∧
                y + 1 < labels.height := mem_interior.1 member
            omega
          have framed : labels.frame.labelAt { x, y } = boundary :=
            (labelAt_frame labels _).trans (if_neg outside)
          have here := labelAt_flood_of_known relief
            (framed.symm ▸ (by decide) :
              labels.frame.labelAt { x, y } ≠ unknown)
          rw [framed, labelAt, Raster.getD_eq, found] at here
          exact congrArg some here.symm
  · rfl

theorem mem_interior_of_flood_pos {labels : LabelMap} {relief : Picture}
    {point : Point} (positive : 0 < (labels.flood relief).labelAt point) :
    point ∈ labels.interior := by
  apply Classical.byContradiction
  intro outside
  have framed : labels.frame.labelAt point = boundary :=
    (labelAt_frame labels point).trans (if_neg outside)
  rw [labelAt_flood_of_known relief (framed.symm ▸ (by decide)), framed]
    at positive
  exact absurd positive (by decide)

/-- A positive label that differs from a neighbor's has been there before. -/
theorem labelAt_of_borders {labels : LabelMap} {relief : Picture}
    {point neighbor : Point} (beside : neighbor ∈ besides point)
    (positive : 0 < (labels.flood relief).labelAt point)
    (neighborPositive : 0 < (labels.flood relief).labelAt neighbor)
    (different : (labels.flood relief).labelAt point ≠
      (labels.flood relief).labelAt neighbor) :
    labels.labelAt point = (labels.flood relief).labelAt point := by
  by_cases wasUnknown : labels.frame.labelAt point = unknown
  · have single := ((settles_flood relief wasUnknown).eq_iff_of_pos
      positive).1 rfl
    have member := mem_regionsBeside beside neighborPositive
    rw [single] at member
    exact absurd member.symm different
  · rw [labelAt_flood_of_known relief wasUnknown, labelAt_frame,
      if_pos (mem_interior_of_flood_pos positive)]

/--
On the flooded map every interior cell that was unknown follows the rule: it is
unknown beside no region, belongs to the only region beside it, and is boundary
between several; none of them waits.  Neighbors in different regions have both
had their labels before, and flooding once more changes nothing.
-/
theorem flood_reaches_fixed_point {relief : Picture} {labels : LabelMap}
    (fits : relief.SameSize labels) :
    ∃ flooded, labels.flood? relief = .ok flooded ∧
      (∀ point ∈ labels.interior, labels.labelAt point = unknown →
        (flooded.labelAt point = unknown ↔
          flooded.regionsBeside point = ∅) ∧
        (∀ label, 0 < label → (flooded.labelAt point = label ↔
          flooded.regionsBeside point = {label})) ∧
        (flooded.labelAt point = boundary ↔
          (flooded.regionsBeside point).Nontrivial) ∧
        flooded.labelAt point ≠ waiting) ∧
      (∀ point, ∀ neighbor ∈ besides point, 0 < flooded.labelAt point →
        0 < flooded.labelAt neighbor →
        flooded.labelAt point ≠ flooded.labelAt neighbor →
        labels.labelAt point = flooded.labelAt point ∧
          labels.labelAt neighbor = flooded.labelAt neighbor) ∧
      flooded.flood? relief = .ok flooded := by
  have sizes := sameSize_flood labels relief
  refine ⟨labels.flood relief, if_pos fits, ?rule, ?seeds, ?again⟩
  case rule =>
    intro point member isUnknown
    have wasUnknown : labels.frame.labelAt point = unknown := by
      rw [labelAt_frame, if_pos member, isUnknown]
    have settles := settles_flood relief wasUnknown
    exact ⟨settles.eq_unknown_iff regionsBeside_pos,
      fun _ => settles.eq_iff_of_pos,
      settles.eq_boundary_iff regionsBeside_pos,
      settles.ne_waiting regionsBeside_pos⟩
  case seeds =>
    intro point neighbor beside positive neighborPositive different
    have bounds := mem_interior.1 (mem_interior_of_flood_pos positive)
    have neighborBounds :=
      mem_interior.1 (mem_interior_of_flood_pos neighborPositive)
    have back : point ∈ besides neighbor :=
      (mem_besides_comm bounds.1 bounds.2.2.1 neighborBounds.1
        neighborBounds.2.2.1).2 beside
    exact ⟨labelAt_of_borders beside positive neighborPositive different,
      labelAt_of_borders back neighborPositive positive different.symm⟩
  case again =>
    have fitsAgain : relief.SameSize (labels.flood relief) :=
      ⟨fits.1.trans sizes.1.symm, fits.2.trans sizes.2.symm⟩
    have quiet : (labels.flood relief).frame.IsQuiet := by
      rw [frame_flood]
      exact isQuiet_flood labels relief
    rw [flood?, if_pos fitsAgain, flood_eq_frame_of_isQuiet quiet, frame_flood]

/--
A cell between two seeds of different regions becomes boundary and stays so.
-/
theorem flood_between_two_seeds :
    let relief : Picture := Raster.filled 5 3 (Color.ofGray 0)
    let labels : LabelMap := ((blank 5 3).set 1 1 2).set 3 1 3
    let middle : Point := { x := 2, y := 1 }
    relief.SameSize labels ∧
      (labels.flood relief).labelAt middle = boundary ∧
      ((labels.flood relief).regionsBeside middle).Nontrivial ∧
      (labels.flood relief).flood? relief = .ok (labels.flood relief) := by
  intro relief labels middle
  have fits : relief.SameSize labels := ⟨rfl, rfl⟩
  have isBoundary : (labels.flood relief).labelAt middle = boundary := by
    decide +kernel
  have isInterior : middle ∈ labels.interior := by decide
  rcases flood_reaches_fixed_point fits with ⟨flooded, ok, rule, _, again⟩
  obtain rfl : labels.flood relief = flooded := by
    rw [flood?, if_pos fits] at ok
    exact Except.ok.inj ok
  exact ⟨fits, isBoundary, (rule middle isInterior rfl).2.2.1.1 isBoundary,
    again⟩

end LabelMap

end ScreenCompare
