import ScreenCompare.Proofs.LabelMap.FloodProgress

/-!
# Two floods side by side

Flooding asks of two labels only whether they are equal, and of one label only
whether it is positive, unknown or boundary; of its queue it learns only which
cell comes next.  Two floods over one relief therefore run in step if their maps
differ by a renaming of regions and their queues are related in a way that every
operation keeps (`mirrors_run_start`).  All lawful queues are related so, since
the next entry is uniquely determined.
-/

namespace ScreenCompare

/-! ## Related queues -/

namespace StepQueue

/--
A relation between two kinds of queues that every operation keeps, and under
which both give out the same cells.
-/
structure IsSimulation {Q R : Type} [StepQueue Q] [StepQueue R]
    (relates : Q → R → Prop) : Prop where
  empty : relates empty empty
  push : ∀ {first : Q} {second : R} {height : Nat} (point : Point),
    relates first second → height < StepBuckets.count →
    relates (push first height point) (push second height point)
  pop? : ∀ {first : Q} {second : R}, relates first second →
    Option.Rel (fun taken other => taken.1 = other.1 ∧ relates taken.2 other.2)
      (pop? first) (pop? second)

/-- Lawful queues that hold the same entries stay so. -/
theorem isSimulation_of_lawful {Q R : Type} [StepQueue Q] [StepQueue R]
    [LawfulStepQueue Q] [LawfulStepQueue R] :
    IsSimulation fun (first : Q) (second : R) => ∃ entries,
      LawfulStepQueue.Holds first entries ∧
        LawfulStepQueue.Holds second entries where
  empty := ⟨[], LawfulStepQueue.holds_empty, LawfulStepQueue.holds_empty⟩
  push := by
    rintro first second height point ⟨entries, holds, otherHolds⟩ bound
    exact ⟨_, LawfulStepQueue.holds_push holds bound,
      LawfulStepQueue.holds_push otherHolds bound⟩
  pop? := by
    rintro first second ⟨entries, holds, otherHolds⟩
    cases taken : StepQueue.pop? first with
    | none =>
        obtain rfl := LawfulStepQueue.eq_nil_of_pop? holds taken
        rw [pop?_of_holds_nil otherHolds]
        exact .none
    | some out =>
        rcases LawfulStepQueue.isNext_of_pop? holds taken with
          ⟨height, remaining, next, holdsRemaining⟩
        cases otherTaken : StepQueue.pop? second with
        | none =>
            obtain rfl := LawfulStepQueue.eq_nil_of_pop? otherHolds otherTaken
            exact absurd next not_isNext_nil
        | some otherOut =>
            rcases LawfulStepQueue.isNext_of_pop? otherHolds otherTaken with
              ⟨otherHeight, otherRemaining, otherNext, otherHoldsRemaining⟩
            rcases next.unique otherNext with ⟨same, rfl⟩
            exact .some ⟨congrArg Prod.snd same, remaining, holdsRemaining,
              otherHoldsRemaining⟩

end StepQueue

/-! ## Renamed regions -/

namespace LabelMap

/-- A renaming of regions keeps regions apart and leaves other labels alone. -/
structure RenamesRegions (rename : Int → Int) : Prop where
  fixes : ∀ label ≤ 0, rename label = label
  positive : ∀ label, 0 < label → 0 < rename label
  injective : Function.Injective rename

theorem renamesRegions_id : RenamesRegions id where
  fixes := fun _ _ => rfl
  positive := fun _ => id
  injective := Function.injective_id

variable {rename : Int → Int}

namespace RenamesRegions

theorem pos_iff (renames : RenamesRegions rename) {label : Int} :
    0 < rename label ↔ 0 < label := by
  constructor
  · intro positive
    apply Classical.byContradiction
    intro outside
    rw [renames.fixes label (Int.not_lt.1 outside)] at positive
    exact outside positive
  · exact renames.positive label

theorem eq_iff_of_nonpos (renames : RenamesRegions rename) {label fixed : Int}
    (outside : fixed ≤ 0) : rename label = fixed ↔ label = fixed := by
  constructor
  · intro same
    exact renames.injective (same.trans (renames.fixes fixed outside).symm)
  · rintro rfl
    exact renames.fixes label outside

theorem agree (renames : RenamesRegions rename) (label neighbor : Int) :
    Flood.agree (rename label) (rename neighbor) =
      rename (Flood.agree label neighbor) := by
  have noRegion : rename neighbor ≤ 0 ↔ neighbor ≤ 0 := by
    rw [← Int.not_lt, ← Int.not_lt, renames.pos_iff]
  have isUnknown : rename label = unknown ↔ label = unknown :=
    renames.eq_iff_of_nonpos (by decide)
  have fixesBoundary : rename boundary = boundary :=
    renames.fixes boundary (by decide)
  simp only [Flood.agree, noRegion, isUnknown, renames.injective.eq_iff]
  split
  · rfl
  · split
    · rfl
    · split
      · rfl
      · exact fixesBoundary.symm

variable {labels : LabelMap}

theorem labelAt (renames : RenamesRegions rename) (point : Point) :
    LabelMap.labelAt (labels.map rename) point =
      rename (labels.labelAt point) := by
  rw [LabelMap.labelAt, LabelMap.labelAt, Raster.getD_eq, Raster.getD_eq,
    Raster.get?_map]
  cases labels.get? point.x point.y with
  | none => exact (renames.fixes boundary (by decide)).symm
  | some label => rfl

theorem labelFor (renames : RenamesRegions rename) (point : Point) :
    Flood.labelFor (labels.map rename) point =
      rename (Flood.labelFor labels point) := by
  calc
    Flood.labelFor (labels.map rename) point =
        (besides point).foldl (fun label neighbor =>
          Flood.agree label (rename (labels.labelAt neighbor)))
          (rename unknown) := by
      rw [renames.fixes unknown (by decide)]
      simp only [Flood.labelFor, renames.labelAt]
    _ = rename (Flood.labelFor labels point) :=
      List.foldl_hom rename fun label neighbor =>
        renames.agree label (labels.labelAt neighbor)

end RenamesRegions

/-! ## Maps with renamed regions -/

theorem frame_map (renames : RenamesRegions rename) (labels : LabelMap) :
    LabelMap.frame (labels.map rename) = labels.frame.map rename := by
  have same : (LabelMap.frame (labels.map rename)).SameSize
      (labels.frame.map rename) := ⟨rfl, rfl⟩
  apply Raster.ext_get? same
  intro x y
  rw [get?_frame, Raster.get?_map, Raster.get?_map, get?_frame]
  have fixesBoundary : rename boundary = boundary :=
    renames.fixes boundary (by decide)
  -- The frame of a renamed map has the map's own width and height.
  show (if x = 0 ∨ y = 0 ∨ x + 1 = labels.width ∨ y + 1 = labels.height then _
    else _) = _
  split
  · cases labels.get? x y with
    | none => rfl
    | some label => exact congrArg some fixesBoundary.symm
  · rfl

theorem set_map (labels : LabelMap) (rename : Int → Int) (point : Point)
    (label : Int) :
    (labels.map rename).set point.x point.y (rename label) =
      (labels.set point.x point.y label).map rename := by
  unfold Raster.set
  -- Both maps have one width, so both writes happen or none does.
  show (if point.x < labels.width then _ else _) = _
  split
  · simp [Raster.setCell, Raster.map, Raster.index]
  · rfl

end LabelMap

namespace Flood

open LabelMap StepQueue

/-! ## Floods in step -/

variable {Q R : Type}

/--
A flood whose regions are those of another one under new names, and whose queue
is related to the other's.
-/
structure Mirrors (rename : Int → Int) (relates : Q → R → Prop)
    (first : Flood Q) (second : Flood R) : Prop where
  labels : second.labels = first.labels.map rename
  queue : relates first.queue second.queue

variable {rename : Int → Int} {relates : Q → R → Prop} {first : Flood Q}
  {second : Flood R}

theorem Mirrors.labelAt (mirrors : Mirrors rename relates first second)
    (renames : RenamesRegions rename) (point : Point) :
    second.labels.labelAt point = rename (first.labels.labelAt point) :=
  mirrors.labels ▸ renames.labelAt point

variable [StepQueue Q] [StepQueue R]

theorem Mirrors.await (mirrors : Mirrors rename relates first second)
    (renames : RenamesRegions rename) (simulation : IsSimulation relates)
    (point : Point) {height : Nat} (bound : height < StepBuckets.count) :
    Mirrors rename relates (first.await point height)
      (second.await point height) where
  labels := by
    have fixesWaiting : rename waiting = waiting :=
      renames.fixes waiting (by decide)
    rw [Flood.await, Flood.await, ← set_map, fixesWaiting, mirrors.labels]
  queue := simulation.push point mirrors.queue bound

theorem Mirrors.seed (mirrors : Mirrors rename relates first second)
    (renames : RenamesRegions rename) (simulation : IsSimulation relates)
    (relief : Picture) (point : Point) :
    Mirrors rename relates (Flood.seed relief first point)
      (Flood.seed relief second point) := by
  have isUnknown : rename (first.labels.labelAt point) = unknown ↔
      first.labels.labelAt point = unknown :=
    renames.eq_iff_of_nonpos (by decide)
  simp only [Flood.seed, mirrors.labelAt renames, isUnknown, renames.pos_iff]
  split
  · split
    · next lowest =>
        rcases exists_of_lowestStep lowest with ⟨neighbor, _, _, rfl⟩
        exact mirrors.await renames simulation point
          (stepBetween_lt relief point neighbor)
    · exact mirrors
  · exact mirrors

theorem Mirrors.spread (mirrors : Mirrors rename relates first second)
    (renames : RenamesRegions rename) (simulation : IsSimulation relates)
    (relief : Picture) (point neighbor : Point) :
    Mirrors rename relates (Flood.spread relief point first neighbor)
      (Flood.spread relief point second neighbor) := by
  have isUnknown : rename (first.labels.labelAt neighbor) = unknown ↔
      first.labels.labelAt neighbor = unknown :=
    renames.eq_iff_of_nonpos (by decide)
  simp only [Flood.spread, mirrors.labelAt renames, isUnknown]
  split
  · exact mirrors.await renames simulation neighbor
      (stepBetween_lt relief point neighbor)
  · exact mirrors

theorem Mirrors.settle (mirrors : Mirrors rename relates first second)
    (renames : RenamesRegions rename) (simulation : IsSimulation relates)
    (relief : Picture) (point : Point) :
    Mirrors rename relates (Flood.settle relief first point)
      (Flood.settle relief second point) := by
  have label : Flood.labelFor second.labels point =
      rename (Flood.labelFor first.labels point) :=
    mirrors.labels ▸ renames.labelFor point
  have isBoundary : rename (Flood.labelFor first.labels point) = boundary ↔
      Flood.labelFor first.labels point = boundary :=
    renames.eq_iff_of_nonpos (by decide)
  have written : second.labels.set point.x point.y
      (rename (Flood.labelFor first.labels point)) =
        (first.labels.set point.x point.y
          (Flood.labelFor first.labels point)).map rename := by
    rw [← set_map, mirrors.labels]
  simp only [Flood.settle, label, isBoundary]
  split
  · exact ⟨written, mirrors.queue⟩
  · exact List.foldl_rel ⟨written, mirrors.queue⟩ fun neighbor _ _ _ next =>
      next.spread renames simulation relief point neighbor

theorem Mirrors.run (mirrors : Mirrors rename relates first second)
    (renames : RenamesRegions rename) (simulation : IsSimulation relates)
    (relief : Picture) (rounds : Nat) :
    Mirrors rename relates (Flood.run relief rounds first)
      (Flood.run relief rounds second) := by
  induction rounds generalizing first second with
  | zero => exact mirrors
  | succ rounds inductionHypothesis =>
      have taken := simulation.pop? mirrors.queue
      rw [Flood.run, Flood.run]
      generalize StepQueue.pop? first.queue = out at taken ⊢
      generalize StepQueue.pop? second.queue = otherOut at taken ⊢
      cases taken with
      | none => exact mirrors
      | @some out otherOut agree =>
          rcases out with ⟨point, queue⟩
          rcases otherOut with ⟨otherPoint, otherQueue⟩
          rcases agree with ⟨rfl, related⟩
          have remaining : Mirrors rename relates { first with queue }
              { second with queue := otherQueue } :=
            ⟨mirrors.labels, related⟩
          exact inductionHypothesis
            (remaining.settle renames simulation relief point)

/--
After any number of rounds, the flood over a map with renamed regions mirrors
the flood over the map.
-/
theorem mirrors_run_start (renames : RenamesRegions rename)
    (simulation : IsSimulation relates) (relief : Picture) (labels : LabelMap)
    (rounds : Nat) :
    Mirrors rename relates (run relief rounds (start relief labels))
      (run relief rounds (start relief (labels.map rename))) := by
  have framed : Mirrors rename relates
      { labels := labels.frame, queue := StepQueue.empty }
      { labels := LabelMap.frame (labels.map rename),
        queue := StepQueue.empty } :=
    ⟨frame_map renames labels, simulation.empty⟩
  have started : Mirrors rename relates (start relief labels)
      (start relief (labels.map rename)) :=
    List.foldl_rel framed fun point _ _ _ next =>
      next.seed renames simulation relief point
  exact started.run renames simulation relief rounds

/--
Floods over one map on related queues have the same labels after any number of
rounds, and their queues stay related.
-/
theorem run_start_agree (simulation : IsSimulation relates) (relief : Picture)
    (labels : LabelMap) (rounds : Nat) :
    (run relief rounds (start relief labels) : Flood Q).labels =
        (run relief rounds (start relief labels) : Flood R).labels ∧
      relates (run relief rounds (start relief labels)).queue
        (run relief rounds (start relief labels)).queue := by
  have unchanged (map : LabelMap) : map.map id = map := by simp [Raster.map]
  have mirrors := mirrors_run_start renamesRegions_id simulation relief labels
    rounds
  rw [unchanged] at mirrors
  exact ⟨(mirrors.labels.trans (unchanged _)).symm, mirrors.queue⟩

end Flood

end ScreenCompare
