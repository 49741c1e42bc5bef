import Mathlib.Order.Monotone.Basic
import ScreenCompare.Phase.Log
import ScreenCompare.Proofs.Phase.Finish

/-!
# Recording phases under a clock

Phases are started and stopped, and the tree is finished and reported, in any
order and any number of times.  Every operation reads a clock, whose readings
never go back but may repeat.  What one operation does is that every phase
continues and that a phase which was not there before has just started
(`Recording.continues_or_fresh`).  So all trees that can be recorded are forests,
and what has been linked or stopped stays that way
(`Recording.record_keeps_forest`).
-/

namespace ScreenCompare

/-- What can be done while phases are recorded. -/
inductive PhaseOperation where
  | start (name : String) (parent : Option Nat)
  | stop (position : Nat)
  | finish
  | report
deriving DecidableEq, Repr

namespace PhaseOperation

/-- How many phases an operation starts. -/
def starts : PhaseOperation → Nat
  | start _ _ => 1
  | stop _ => 0
  | finish => 0
  | report => 0

/-- A parent that an operation names is among a number of phases. -/
def KnowsParent (count : Nat) : PhaseOperation → Prop
  | start _ parent => ∀ earlier, parent = some earlier → earlier < count
  | stop _ => True
  | finish => True
  | report => True

instance (count : Nat) :
    (operation : PhaseOperation) → Decidable (operation.KnowsParent count)
  | start _ none => isTrue nofun
  | start _ (some _) =>
      decidable_of_iff (_ < count)
        ⟨fun below _ same => Option.some.inj same ▸ below, fun all => all _ rfl⟩
  | stop _ => isTrue trivial
  | finish => isTrue trivial
  | report => isTrue trivial

/-- Parents are named only when they have been started. -/
def KnowParents : (count : Nat) → List PhaseOperation → Prop
  | _, [] => True
  | count, operation :: rest =>
      operation.KnowsParent count ∧ KnowParents (count + operation.starts) rest

instance decidableKnowParents :
    (count : Nat) → (operations : List PhaseOperation) →
      Decidable (KnowParents count operations)
  | _, [] => isTrue trivial
  | count, operation :: rest =>
      have := decidableKnowParents (count + operation.starts) rest
      inferInstanceAs (Decidable (_ ∧ _))

end PhaseOperation

/-- The phases recorded so far, and how often the clock has been read. -/
structure Recording where
  tree : PhaseTree
  readings : Nat

namespace Recording

/-- The recording before the first operation. -/
def empty : Recording where
  tree := PhaseTree.empty
  readings := 0

/-- The readings of the clock from now on. -/
def upcoming (recording : Recording) (clock : Nat → Nat) (reading : Nat) : Nat :=
  clock (recording.readings + reading)

/--
Carry out an operation.  Starting or stopping a phase reads the clock once, and
finishing reads it once for every phase.
-/
def perform (clock : Nat → Nat) (recording : Recording) :
    PhaseOperation → Recording
  | .start name parent =>
      { tree :=
          recording.tree.start (clock recording.readings) name parent
        readings := recording.readings + 1 }
  | .stop position =>
      { tree := recording.tree.stop (clock recording.readings) position
        readings := recording.readings + 1 }
  | .finish =>
      { tree := recording.tree.finish (recording.upcoming clock)
        readings := recording.readings + recording.tree.phases.size }
  | .report =>
      { tree := recording.tree.reported (recording.upcoming clock)
        readings := recording.readings + recording.tree.phases.size }

/-- Carry out some operations one after another. -/
def performAll (clock : Nat → Nat) (recording : Recording)
    (operations : List PhaseOperation) : Recording :=
  operations.foldl (perform clock) recording

/-- What some operations record from the beginning. -/
def record (clock : Nat → Nat) (operations : List PhaseOperation) : Recording :=
  empty.performAll clock operations

theorem record_append (clock : Nat → Nat)
    (first second : List PhaseOperation) :
    record clock (first ++ second) =
      (record clock first).performAll clock second :=
  List.foldl_append

theorem record_concat (clock : Nat → Nat) (before : List PhaseOperation)
    (operation : PhaseOperation) :
    record clock (before ++ [operation]) =
      (record clock before).perform clock operation :=
  record_append ..

/-! ## A log is a recording -/

/-- A log as a recording: its time is the number of its events. -/
def ofLog (log : PhaseLog) : Recording where
  tree := log.tree
  readings := log.now

/-- A log records under the clock that counts events. -/
theorem perform_ofLog (log : PhaseLog) :
    (∀ name parent, (ofLog log).perform (· + 1) (.start name parent) =
      ofLog (log.start name parent).2) ∧
    (∀ position, (ofLog log).perform (· + 1) (.stop position) =
      ofLog (log.stop position)) ∧
    (ofLog log).perform (· + 1) .finish = ofLog log.finish ∧
    (ofLog log).perform (· + 1) .report = ofLog log.reported := by
  have clock : (ofLog log).upcoming (· + 1) = log.clock := by
    funext reading
    exact Nat.add_right_comm log.now reading 1
  refine ⟨fun _ _ => rfl, fun _ => rfl, ?_, ?_⟩
  · rw [perform, clock]
    rfl
  · rw [perform, clock]
    rfl

/-! ## What one operation does -/

variable {clock : Nat → Nat} {recording : Recording}
  {operation : PhaseOperation} {operations : List PhaseOperation}

theorem size_perform :
    (recording.perform clock operation).tree.phases.size =
      recording.tree.phases.size + operation.starts := by
  cases operation with
  | start name parent => exact PhaseTree.size_start ..
  | stop position => exact PhaseTree.size_stop _
  | finish => exact PhaseTree.size_finish _ _
  | report =>
      exact (PhaseTree.size_sortChildren _).trans (PhaseTree.size_finish _ _)

theorem readings_le_perform :
    recording.readings ≤ (recording.perform clock operation).readings := by
  cases operation with
  | start name parent => exact Nat.le_succ _
  | stop position => exact Nat.le_succ _
  | finish => exact Nat.le_add_right _ _
  | report => exact Nat.le_add_right _ _

theorem isForest_perform (forest : recording.tree.IsForest)
    (known : operation.KnowsParent recording.tree.phases.size) :
    (recording.perform clock operation).tree.IsForest := by
  cases operation with
  | start name parent => exact forest.start known
  | stop position => exact forest.stop position
  | finish => exact forest.finish
  | report => exact forest.finish.sortChildren

theorem isForest_performAll (forest : recording.tree.IsForest)
    (known : PhaseOperation.KnowParents recording.tree.phases.size
      operations) :
    (recording.performAll clock operations).tree.IsForest := by
  induction operations generalizing recording with
  | nil => exact forest
  | cons operation rest inductionHypothesis =>
      refine inductionHypothesis (isForest_perform forest known.1) ?_
      rw [size_perform]
      exact known.2

section Perform

variable (steady : Monotone clock)
  (known : operation.KnowsParent recording.tree.phases.size)

include steady

theorem le_upcoming (reading : Nat) :
    clock recording.readings ≤ recording.upcoming clock reading :=
  steady (Nat.le_add_right _ _)

include known

theorem extends_perform :
    recording.tree.Extends (clock recording.readings)
      (recording.perform clock operation).tree := by
  cases operation with
  | start name parent => exact PhaseTree.extends_start known
  | stop position => exact PhaseTree.extends_stop (Nat.le_refl _) position
  | finish => exact PhaseTree.extends_finish (le_upcoming steady)
  | report =>
      exact (PhaseTree.extends_finish (le_upcoming steady)).trans
        (PhaseTree.extends_sortChildren _)

/--
A phase after an operation is one from before it or has just been started.
-/
theorem continues_or_fresh {position : Nat} {phase : Phase}
    (found :
      (recording.perform clock operation).tree.phases[position]? = some phase) :
    (∃ earlier, recording.tree.phases[position]? = some earlier ∧
      earlier.Continues (clock recording.readings) phase) ∨
    (recording.tree.phases.size ≤ position ∧
      phase.start = clock recording.readings ∧ phase.stopped = false) := by
  by_cases inside : position < recording.tree.phases.size
  · have present := Array.getElem?_eq_getElem inside
    rcases extends_perform steady known position _ present with
      ⟨next, nextFound, continues⟩
    obtain rfl := Option.some.inj (found.symm.trans nextFound)
    exact .inl ⟨_, present, continues⟩
  · refine .inr ⟨Nat.le_of_not_lt inside, ?_⟩
    have bound := (Array.getElem?_eq_some_iff.1 found).1
    rw [size_perform] at bound
    cases operation with
    | start name parent =>
        have last : position = recording.tree.phases.size :=
          Nat.le_antisymm (Nat.le_of_lt_succ bound) (Nat.le_of_not_lt inside)
        rw [perform, PhaseTree.getElem?_start known, if_pos last] at found
        obtain rfl := Option.some.inj found
        exact ⟨rfl, rfl⟩
    | stop position => exact absurd bound inside
    | finish => exact absurd bound inside
    | report => exact absurd bound inside

end Perform

/-! ## What holds of all recordings -/

/--
A recording is a forest, its phases started in the order of their positions and
not after now, and none was stopped before it started.
-/
structure Sound (clock : Nat → Nat) (recording : Recording) : Prop where
  forest : recording.tree.IsForest
  started : ∀ (position : Nat) (phase : Phase),
    recording.tree.phases[position]? = some phase →
      phase.start ≤ clock recording.readings
  ordered : ∀ (first second : Nat) (earlier later : Phase), first ≤ second →
    recording.tree.phases[first]? = some earlier →
    recording.tree.phases[second]? = some later →
      earlier.start ≤ later.start
  stopped : ∀ (position : Nat) (phase : Phase),
    recording.tree.phases[position]? = some phase → phase.stopped = true →
      phase.start ≤ phase.stop

theorem sound_empty (clock : Nat → Nat) : empty.Sound clock where
  forest := .empty
  started _ _ found := by cases found
  ordered _ _ _ _ _ found := by cases found
  stopped _ _ found := by cases found

section Sound

variable (steady : Monotone clock) (sound : recording.Sound clock)

include steady sound

theorem Sound.perform
    (known : operation.KnowsParent recording.tree.phases.size) :
    (recording.perform clock operation).Sound clock where
  forest := isForest_perform sound.forest known
  started position phase found := by
    refine Nat.le_trans ?_ (steady readings_le_perform)
    rcases continues_or_fresh steady known found with
      ⟨earlier, before, continues⟩ | ⟨_, now, _⟩
    · rw [continues.start]
      exact sound.started position earlier before
    · exact Nat.le_of_eq now
  ordered first second earlier later order firstFound secondFound := by
    rcases continues_or_fresh steady known firstFound with
      ⟨firstBefore, firstThere, firstContinues⟩ | ⟨firstOutside, firstNow, _⟩
    · rw [firstContinues.start]
      rcases continues_or_fresh steady known secondFound with
        ⟨secondBefore, secondThere, secondContinues⟩ | ⟨_, secondNow, _⟩
      · rw [secondContinues.start]
        exact sound.ordered first second _ _ order firstThere secondThere
      · rw [secondNow]
        exact sound.started first firstBefore firstThere
    · rcases continues_or_fresh steady known secondFound with
        ⟨secondBefore, secondThere, _⟩ | ⟨_, secondNow, _⟩
      · have inside := (Array.getElem?_eq_some_iff.1 secondThere).1
        exact absurd (Nat.le_trans firstOutside order)
          (Nat.not_le_of_lt inside)
      · exact Nat.le_of_eq (firstNow.trans secondNow.symm)
  stopped position phase found isStopped := by
    rcases continues_or_fresh steady known found with
      ⟨earlier, before, continues⟩ | ⟨_, _, running⟩
    · rw [continues.start]
      cases already : earlier.stopped with
      | false =>
          exact Nat.le_trans (sound.started position earlier before)
            (continues.stops already isStopped)
      | true =>
          rw [(continues.stopped already).2]
          exact sound.stopped position earlier before already
    · rw [running] at isStopped
      cases isStopped

theorem Sound.performAll
    (known : PhaseOperation.KnowParents recording.tree.phases.size operations) :
    (recording.performAll clock operations).Sound clock := by
  induction operations generalizing recording with
  | nil => exact sound
  | cons operation rest inductionHypothesis =>
      refine inductionHypothesis (sound.perform steady known.1) ?_
      rw [size_perform]
      exact known.2

end Sound

theorem extends_performAll (steady : Monotone clock)
    (known : PhaseOperation.KnowParents recording.tree.phases.size operations) :
    recording.tree.Extends (clock recording.readings)
      (recording.performAll clock operations).tree := by
  induction operations generalizing recording with
  | nil => exact .refl _ _
  | cons operation rest inductionHypothesis =>
      refine (extends_perform steady known.1).trans
        (PhaseTree.Extends.mono (steady readings_le_perform)
          (inductionHypothesis ?_))
      rw [size_perform]
      exact known.2

theorem knowParents_performAll (clock : Nat → Nat) (recording : Recording)
    {first second : List PhaseOperation}
    (known : PhaseOperation.KnowParents recording.tree.phases.size
      (first ++ second)) :
    PhaseOperation.KnowParents recording.tree.phases.size first ∧
      PhaseOperation.KnowParents
        (recording.performAll clock first).tree.phases.size second := by
  induction first generalizing recording with
  | nil => exact ⟨trivial, known⟩
  | cons operation rest inductionHypothesis =>
      have grown : (recording.perform clock operation).tree.phases.size = _ :=
        size_perform
      have ⟨firstKnown, restKnown⟩ := known
      rw [← grown] at restKnown
      have ⟨before, after⟩ := inductionHypothesis _ restKnown
      rw [grown] at before
      exact ⟨⟨firstKnown, before⟩, after⟩

/--
Whatever has been recorded is a forest in which no phase was stopped before it
started.  What is recorded later keeps the phases with their starts, and also
the parents and the ends they have got.
-/
theorem record_keeps_forest (steady : Monotone clock)
    {earlier later : List PhaseOperation}
    (known : PhaseOperation.KnowParents 0 (earlier ++ later)) :
    (record clock (earlier ++ later)).tree.IsForest ∧
      (∀ (position : Nat) (phase : Phase),
        (record clock (earlier ++ later)).tree.phases[position]? = some phase →
          phase.stopped = true → phase.start ≤ phase.stop) ∧
      (record clock earlier).tree.Extends
        (clock (record clock earlier).readings)
        (record clock (earlier ++ later)).tree := by
  have sound : (record clock (earlier ++ later)).Sound clock :=
    (sound_empty clock).performAll steady known
  refine ⟨sound.forest, sound.stopped, ?_⟩
  rw [record_append]
  exact extends_performAll steady (knowParents_performAll clock empty known).2

/--
A phase is stopped twice, and reports come before and after a phase that is
started late.  The clock shows the same time at every other reading.
-/
theorem late_phase_joins_forest :
    let clock (reading : Nat) : Nat := reading / 2
    let earlier : List PhaseOperation :=
      [.start "total" none, .start "load" (some 0), .start "load old" none,
        .stop 2, .stop 2, .stop 1, .report]
    let later : List PhaseOperation :=
      [.start "gate" (some 0), .stop 0, .finish, .report]
    Monotone clock ∧
      PhaseOperation.KnowParents 0 (earlier ++ later) ∧
      (record clock (earlier ++ later)).tree.IsForest ∧
      (∀ (position : Nat) (phase : Phase),
        (record clock (earlier ++ later)).tree.phases[position]? = some phase →
          phase.stopped = true → phase.start ≤ phase.stop) ∧
      (record clock earlier).tree.Extends
        (clock (record clock earlier).readings)
        (record clock (earlier ++ later)).tree := by
  intro clock earlier later
  have steady : Monotone clock := fun _ _ order => Nat.div_le_div_right order
  have known : PhaseOperation.KnowParents 0 (earlier ++ later) := by decide
  exact ⟨steady, known, record_keeps_forest steady known⟩

end Recording

end ScreenCompare
