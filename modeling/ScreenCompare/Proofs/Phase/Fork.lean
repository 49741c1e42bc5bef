import Mathlib.Logic.Relation
import ScreenCompare.Proofs.Phase.Recording

/-!
# Forked phases land under their stage

A stage may fork phases that run side by side, so their starts and stops
interleave in ways that differ from run to run.  Such a phase often names no
parent, and when the tree is finished it may be attached to another fork instead
of the stage.  It is never attached to anything outside the stage, though: the
stage contains it, so its container is the stage or was started after it.
Following the parents from fork to fork therefore leads to the stage
(`Staging.finish_gathers_forks`).
-/

namespace ScreenCompare

namespace PhaseOperation

/-- The operation starts or stops a phase. -/
def IsEvent : PhaseOperation → Prop
  | start _ _ => True
  | stop _ => True
  | finish => False
  | report => False

instance : (operation : PhaseOperation) → Decidable operation.IsEvent
  | start _ _ => isTrue trivial
  | stop _ => isTrue trivial
  | finish => isFalse id
  | report => isFalse id

/-- How many phases some operations start. -/
def started : List PhaseOperation → Nat
  | [] => 0
  | operation :: rest => operation.starts + started rest

end PhaseOperation

namespace PhaseTree

/-- One phase is a parent of another one, or a parent of one of its parents. -/
def IsAncestor (tree : PhaseTree) : (outer inner : Nat) → Prop :=
  Relation.TransGen fun parent child => tree.parentOf? child = some parent

/-- One phase has been stopped no later than another one. -/
def StopsWithin (tree : PhaseTree) (inner outer : Nat) : Prop :=
  ∃ innerPhase outerPhase, tree.phases[inner]? = some innerPhase ∧
    tree.phases[outer]? = some outerPhase ∧
    innerPhase.stopped = true ∧ innerPhase.stop ≤ outerPhase.stop

instance (tree : PhaseTree) (inner outer : Nat) :
    Decidable (tree.StopsWithin inner outer) :=
  decidable_of_iff
    (tree.phases[inner]?.any (fun innerPhase =>
      tree.phases[outer]?.any fun outerPhase =>
        innerPhase.stopped && decide (innerPhase.stop ≤ outerPhase.stop)) = true)
    (by simp [StopsWithin, Option.any_eq_true])

end PhaseTree

namespace Recording

variable {clock : Nat → Nat} {recording : Recording}
  {operation : PhaseOperation} {operations : List PhaseOperation}

/-! ## What starts and stops leave alone -/

theorem size_performAll :
    (recording.performAll clock operations).tree.phases.size =
      recording.tree.phases.size + PhaseOperation.started operations := by
  induction operations generalizing recording with
  | nil => rfl
  | cons operation rest inductionHypothesis =>
      change ((recording.perform clock operation).performAll clock
        rest).tree.phases.size = _
      rw [inductionHypothesis, size_perform, PhaseOperation.started,
        Nat.add_assoc]

theorem size_record (clock : Nat → Nat) (operations : List PhaseOperation) :
    (record clock operations).tree.phases.size =
      PhaseOperation.started operations :=
  size_performAll.trans (Nat.zero_add _)

/--
A parent that an event has set is the one with which the phase was started.
-/
theorem named_of_parentOf?_perform {child parent : Nat}
    (event : operation.IsEvent)
    (known : operation.KnowsParent recording.tree.phases.size)
    (linked :
      (recording.perform clock operation).tree.parentOf? child = some parent) :
    recording.tree.parentOf? child = some parent ∨
      (recording.tree.phases.size ≤ child ∧
        ∃ name, operation = .start name (some parent)) := by
  cases operation with
  | start name named =>
      rw [perform, PhaseTree.parentOf?_start known] at linked
      split at linked
      · next last =>
          exact .inr ⟨Nat.le_of_eq last.symm, name, by rw [linked]⟩
      · exact .inl linked
  | stop position =>
      rw [perform, PhaseTree.parentOf?_stop] at linked
      exact .inl linked
  | finish => exact event.elim
  | report => exact event.elim

theorem named_of_parentOf?_performAll {child parent : Nat}
    (events : ∀ operation ∈ operations, operation.IsEvent)
    (known : PhaseOperation.KnowParents recording.tree.phases.size operations)
    (linked : (recording.performAll clock operations).tree.parentOf? child =
      some parent) :
    recording.tree.parentOf? child = some parent ∨
      (recording.tree.phases.size ≤ child ∧
        ∃ name, .start name (some parent) ∈ operations) := by
  induction operations generalizing recording with
  | nil => exact .inl linked
  | cons operation rest inductionHypothesis =>
      rw [List.forall_mem_cons] at events
      have ⟨knowsParent, knowParents⟩ := known
      rw [← size_perform] at knowParents
      rcases inductionHypothesis events.2 knowParents linked with
        earlier | ⟨outside, name, member⟩
      · rcases named_of_parentOf?_perform events.1 knowsParent earlier with
          before | ⟨outside, name, rfl⟩
        · exact .inl before
        · exact .inr ⟨outside, name, List.mem_cons_self ..⟩
      · rw [size_perform] at outside
        exact .inr ⟨Nat.le_of_add_right_le outside, name,
          List.mem_cons_of_mem _ member⟩

theorem exists_stopped_perform {position : Nat}
    (inside : position < recording.tree.phases.size) :
    ∃ phase,
      (recording.perform clock (.stop position)).tree.phases[position]? =
        some phase ∧ phase.stopped = true := by
  refine ⟨recording.tree.phases[position].stopAt (clock recording.readings),
    ?_, Phase.stopped_stopAt _ _⟩
  rw [perform, PhaseTree.getElem?_stop, Array.getElem?_eq_getElem inside,
    Option.map_some, if_pos rfl]

end Recording

/--
Some operations among which one phase is started, the stage, and stopped again.
-/
structure Staging where
  before : List PhaseOperation
  name : String
  parent : Option Nat
  during : List PhaseOperation
  after : List PhaseOperation

namespace Staging

/-- The position of the stage. -/
def stage (staging : Staging) : Nat :=
  PhaseOperation.started staging.before

/-- All operations in their order. -/
def operations (staging : Staging) : List PhaseOperation :=
  staging.before ++ .start staging.name staging.parent ::
    staging.during ++ .stop staging.stage :: staging.after

/-- A phase is started after the stage and before the stage is stopped. -/
def IsFork (staging : Staging) (position : Nat) : Prop :=
  staging.stage < position ∧
    position ≤ staging.stage + PhaseOperation.started staging.during

instance (staging : Staging) (position : Nat) :
    Decidable (staging.IsFork position) :=
  inferInstanceAs (Decidable (_ ∧ _))

variable {clock : Nat → Nat} {staging : Staging}

/-! ## The recording around a stage -/

/-- The recording at the start of the stage, with the stage in it. -/
def opened (staging : Staging) (clock : Nat → Nat) : Recording :=
  (Recording.record clock staging.before).perform clock
    (.start staging.name staging.parent)

/-- The recording just before the stage is stopped. -/
def forked (staging : Staging) (clock : Nat → Nat) : Recording :=
  (staging.opened clock).performAll clock staging.during

/-- The recording after all operations. -/
def recorded (staging : Staging) (clock : Nat → Nat) : Recording :=
  Recording.record clock staging.operations

theorem record_forked (clock : Nat → Nat) :
    Recording.record clock
        (staging.before ++ .start staging.name staging.parent ::
          staging.during) =
      staging.forked clock :=
  Recording.record_append ..

theorem recorded_eq (clock : Nat → Nat) :
    staging.recorded clock =
      (staging.forked clock).performAll clock
        (.stop staging.stage :: staging.after) := by
  rw [recorded, operations, Recording.record_append, record_forked]

theorem size_opened :
    (staging.opened clock).tree.phases.size = staging.stage + 1 := by
  rw [opened, Recording.size_perform, Recording.size_record]
  rfl

theorem size_forked :
    (staging.forked clock).tree.phases.size =
      staging.stage + 1 + PhaseOperation.started staging.during := by
  rw [forked, Recording.size_performAll, size_opened]

theorem IsFork.lt_size_forked {fork : Nat} (isFork : staging.IsFork fork) :
    fork < (staging.forked clock).tree.phases.size := by
  rw [size_forked]
  have := isFork.2
  omega

section Known

variable (known : PhaseOperation.KnowParents 0 staging.operations)

include known

theorem knowParents_during :
    PhaseOperation.KnowParents (staging.opened clock).tree.phases.size
      staging.during := by
  have ⟨knownForked, _⟩ :=
    Recording.knowParents_performAll clock Recording.empty known
  have ⟨_, knownStage⟩ :=
    Recording.knowParents_performAll clock Recording.empty knownForked
  have knownDuring := knownStage.2
  rwa [← Recording.size_perform] at knownDuring

theorem knowParents_after :
    PhaseOperation.KnowParents (staging.forked clock).tree.phases.size
      (.stop staging.stage :: staging.after) := by
  have ⟨_, knownAfter⟩ :=
    Recording.knowParents_performAll clock Recording.empty known
  rwa [← Recording.record, record_forked] at knownAfter

/--
A parent that a fork has before the tree is finished is the one with which the
fork was started.
-/
theorem IsFork.exists_start {fork parent : Nat} (isFork : staging.IsFork fork)
    (events : ∀ operation ∈ staging.operations, operation.IsEvent)
    (linked :
      (staging.recorded clock).tree.parentOf? fork = some parent) :
    ∃ name, .start name (some parent) ∈ staging.during := by
  rw [operations, List.forall_mem_append, List.forall_mem_append,
    List.forall_mem_cons] at events
  rw [recorded_eq] at linked
  rcases Recording.named_of_parentOf?_performAll events.2
      (knowParents_after known) linked with forked | ⟨outside, _⟩
  · rcases Recording.named_of_parentOf?_performAll events.1.2.2
        (knowParents_during known) forked with opened | ⟨_, started⟩
    · have missing : (staging.opened clock).tree.phases[fork]? = none := by
        rw [Array.getElem?_eq_none]
        rw [size_opened]
        exact isFork.1
      rw [PhaseTree.parentOf?, missing] at opened
      cases opened
    · exact started
  · exact absurd isFork.lt_size_forked (Nat.not_lt_of_le outside)

variable (steady : Monotone clock)

include steady

theorem sound_recorded : (staging.recorded clock).Sound clock :=
  (Recording.sound_empty clock).performAll steady known

theorem exists_stage :
    ∃ phase, (staging.recorded clock).tree.phases[staging.stage]? =
      some phase ∧ phase.stopped = true := by
  have knownAfter : PhaseOperation.KnowParents
      (staging.forked clock).tree.phases.size
      (.stop staging.stage :: staging.after) :=
    knowParents_after known
  have ⟨_, knownRest⟩ := knownAfter
  have inside :
      staging.stage < (staging.forked clock).tree.phases.size := by
    rw [size_forked]
    omega
  rcases Recording.exists_stopped_perform inside with ⟨phase, found, stopped⟩
  rw [← Recording.size_perform] at knownRest
  rcases Recording.extends_performAll steady knownRest _ _ found with
    ⟨next, nextFound, continues⟩
  rw [recorded_eq]
  exact ⟨next, nextFound, (continues.stopped stopped).1⟩

/--
When everything has been stopped, the time span of the stage contains that of a
fork that was stopped no later.
-/
theorem IsFork.contains {fork : Nat} (isFork : staging.IsFork fork)
    (within : (staging.recorded clock).tree.StopsWithin fork staging.stage) :
    ((staging.recorded clock).tree.stopAll
      ((staging.recorded clock).upcoming clock)).Contains staging.stage
        fork := by
  have extension : (staging.recorded clock).tree.Extends
      (clock (staging.recorded clock).readings)
      ((staging.recorded clock).tree.stopAll
        ((staging.recorded clock).upcoming clock)) :=
    PhaseTree.extends_stopAll (Recording.le_upcoming steady)
  rcases within with
    ⟨forkPhase, stagePhase, forkFound, stageFound, forkStopped, noLater⟩
  rcases exists_stage known steady with ⟨sameStage, sameFound, stageStopped⟩
  obtain rfl := Option.some.inj (stageFound.symm.trans sameFound)
  rcases extension _ _ stageFound with ⟨outer, outerFound, outerContinues⟩
  rcases extension _ _ forkFound with ⟨inner, innerFound, innerContinues⟩
  refine ⟨(outer.start, outer.stop), (inner.start, inner.stop), ?_, ?_, ?_, ?_⟩
  · rw [PhaseTree.spanOf?, outerFound]
    rfl
  · rw [PhaseTree.spanOf?, innerFound]
    rfl
  · rw [outerContinues.start, innerContinues.start]
    exact (sound_recorded known steady).ordered _ _ _ _
      (Nat.le_of_lt isFork.1) stageFound forkFound
  · rw [(outerContinues.stopped stageStopped).2,
      (innerContinues.stopped forkStopped).2]
    exact noLater

end Known

/--
Suppose that every phase started between the start and the stop of a stage is
itself stopped no later than the stage, and names no parent or one that is the
stage or another such phase.  Then, after the tree has been finished, the stage
is an ancestor of each of them, however starts and stops interleave and even if
times coincide.
-/
theorem finish_gathers_forks (steady : Monotone clock)
    (events : ∀ operation ∈ staging.operations, operation.IsEvent)
    (known : PhaseOperation.KnowParents 0 staging.operations)
    (within : ∀ fork, staging.IsFork fork →
      (staging.recorded clock).tree.StopsWithin fork staging.stage)
    (named : ∀ name parent, .start name (some parent) ∈ staging.during →
      parent = staging.stage ∨ staging.IsFork parent) :
    ∀ fork, staging.IsFork fork →
      ((staging.recorded clock).perform clock .finish).tree.IsAncestor
        staging.stage fork := by
  intro fork isFork
  -- The parent of a fork is the stage or a fork that was started before it.
  induction fork using Nat.strongRecOn with
  | ind fork inductionHypothesis =>
      have linked : ∃ parent,
          ((staging.recorded clock).perform clock .finish).tree.parentOf? fork =
            some parent ∧ (parent = staging.stage ∨
              (parent < fork ∧ staging.IsFork parent)) := by
        rw [Recording.perform, PhaseTree.parentOf?_finish]
        cases start : (staging.recorded clock).tree.parentOf? fork with
        | some parent =>
            refine ⟨parent, rfl, ?_⟩
            rcases isFork.exists_start known events start with ⟨name, member⟩
            refine (named name parent member).imp_right fun parentIsFork => ?_
            exact ⟨(sound_recorded known steady).forest.parent_lt _ _ start,
              parentIsFork⟩
        | none =>
            rcases PhaseTree.exists_container? isFork.1
                (isFork.contains known steady (within fork isFork)) with
              ⟨parent, container, fromStage, before⟩
            refine ⟨parent, container, ?_⟩
            rcases Nat.lt_or_eq_of_le fromStage with later | same
            · have bound := isFork.2
              exact .inr ⟨before, later, by omega⟩
            · exact .inl same.symm
      rcases linked with ⟨parent, isParent, rfl | ⟨before, parentIsFork⟩⟩
      · exact .single isParent
      · exact .tail (inductionHypothesis parent before parentIsFork) isParent

/--
Two images are loaded side by side.  The second loader starts last and stops
first, and the clock stands still, so it is attached to the first loader and only
that one to the stage.
-/
theorem loaders_land_under_load :
    let staging : Staging :=
      { before := [.start "total" none]
        name := "load"
        parent := some 0
        during :=
          [.start "load old" none, .start "load new" none, .stop 3,
            .start "decode" (some 2), .stop 4, .stop 2]
        after := [.start "gate" (some 0), .stop 5] }
    let clock (_ : Nat) : Nat := 7
    Monotone clock ∧
      (∀ operation ∈ staging.operations, operation.IsEvent) ∧
      PhaseOperation.KnowParents 0 staging.operations ∧
      (∀ fork, staging.IsFork fork →
        (staging.recorded clock).tree.StopsWithin fork staging.stage) ∧
      (∀ name parent, .start name (some parent) ∈ staging.during →
        parent = staging.stage ∨ staging.IsFork parent) ∧
      ((staging.recorded clock).perform clock .finish).tree.parentOf? 3 =
        some 2 ∧
      ∀ fork, staging.IsFork fork →
        ((staging.recorded clock).perform clock .finish).tree.IsAncestor
          staging.stage fork := by
  intro staging clock
  have steady : Monotone clock := fun _ _ _ => Nat.le_refl _
  have events : ∀ operation ∈ staging.operations, operation.IsEvent := by
    decide
  have known : PhaseOperation.KnowParents 0 staging.operations := by decide
  have within (fork : Nat) (isFork : staging.IsFork fork) :
      (staging.recorded clock).tree.StopsWithin fork staging.stage := by
    have all : ∀ other < 5, staging.IsFork other →
        (staging.recorded clock).tree.StopsWithin other staging.stage := by
      decide +kernel
    exact all fork (Nat.lt_succ_of_le isFork.2) isFork
  have named (name : String) (parent : Nat)
      (member : .start name (some parent) ∈ staging.during) :
      parent = staging.stage ∨ staging.IsFork parent := by
    have ⟨_, only⟩ : name = "decode" ∧ parent = 2 := by
      simpa [staging] using member
    rw [only]
    decide
  have nested :
      ((staging.recorded clock).perform clock .finish).tree.parentOf? 3 =
        some 2 := by
    decide +kernel
  exact ⟨steady, events, known, within, named, nested,
    finish_gathers_forks steady events known within named⟩

end Staging

end ScreenCompare
