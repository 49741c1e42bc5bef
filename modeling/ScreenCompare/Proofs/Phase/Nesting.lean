import Mathlib.Data.List.Induction
import ScreenCompare.Proofs.Phase.Finished
import ScreenCompare.Proofs.Phase.Fork

/-!
# Nested phases have nested time spans

Operations nest phases if a phase starts only under one that is running, and
stops only when none of the phases started under it is running.  Then a phase
that has been stopped was stopped no earlier than its children
(`PhaseTree.IsNested`), which every start and every stop keeps up.  Phases may be
left running.  Finishing stops them latest first while the clock goes on, so an
open phase still outlives the open phases within it, and all parents contain
their children in the end (`Recording.finish_nests_phases`).
-/

namespace ScreenCompare

namespace PhaseOperation

/-! ## Operations that nest phases -/

/--
The parent, or its absence, that an operation names for the phase it starts.
-/
def named? : PhaseOperation → Option (Option Nat)
  | start _ parent => some parent
  | stop _ => none
  | finish => none
  | report => none

/-- The parent that was named when the phase at a position was started. -/
def namedParent? (operations : List PhaseOperation) (position : Nat) :
    Option Nat :=
  (operations.filterMap named?)[position]?.join

/-- The phase at a position has been started and not been stopped. -/
def IsRunning (operations : List PhaseOperation) (position : Nat) : Prop :=
  position < started operations ∧ .stop position ∉ operations

instance (operations : List PhaseOperation) (position : Nat) :
    Decidable (IsRunning operations position) :=
  inferInstanceAs (Decidable (_ ∧ _))

/--
After some operations, the next one starts a phase without a parent or under a
running one, or it stops a phase that has been started and under which none is
running.
-/
def Nests (before : List PhaseOperation) : PhaseOperation → Prop
  | start _ none => True
  | start _ (some parent) => IsRunning before parent
  | stop position =>
      position < started before ∧
        ∀ child < started before, namedParent? before child = some position →
          ¬ IsRunning before child
  | finish => False
  | report => False

instance (before : List PhaseOperation) :
    (operation : PhaseOperation) → Decidable (operation.Nests before)
  | start _ none => isTrue trivial
  | start _ (some _) => inferInstanceAs (Decidable (IsRunning _ _))
  | stop _ => inferInstanceAs (Decidable (_ ∧ _))
  | finish => isFalse id
  | report => isFalse id

/-- Every operation nests phases after those before it. -/
def NestPhases (operations : List PhaseOperation) : Prop :=
  ∀ count, (bound : count < operations.length) →
    operations[count].Nests (operations.take count)

instance (operations : List PhaseOperation) :
    Decidable (NestPhases operations) :=
  inferInstanceAs (Decidable (∀ count, (_ : count < _) → _))

variable {before operations : List PhaseOperation} {operation : PhaseOperation}

theorem nestPhases_of_concat (nest : NestPhases (before ++ [operation])) :
    NestPhases before ∧ operation.Nests before := by
  constructor
  · intro count bound
    have inside : count < (before ++ [operation]).length := by
      rw [List.length_append]
      exact Nat.lt_add_right _ bound
    have nests := nest count inside
    rwa [List.getElem_append_left bound,
      List.take_append_of_le_length (Nat.le_of_lt bound)] at nests
  · have nests := nest before.length (by simp)
    rwa [List.getElem_concat_length rfl, List.take_left] at nests

theorem started_concat (before : List PhaseOperation)
    (operation : PhaseOperation) :
    started (before ++ [operation]) = started before + operation.starts := by
  induction before with
  | nil => exact Nat.add_comm _ _
  | cons first rest inductionHypothesis =>
      rw [List.cons_append, started, inductionHypothesis, started,
        Nat.add_assoc]

theorem length_filterMap_named? (operations : List PhaseOperation) :
    (operations.filterMap named?).length = started operations := by
  induction operations with
  | nil => rfl
  | cons operation rest inductionHypothesis =>
      rw [started, ← inductionHypothesis]
      cases operation with
      | start name parent => exact Nat.add_comm _ 1
      | stop position => exact (Nat.zero_add _).symm
      | finish => exact (Nat.zero_add _).symm
      | report => exact (Nat.zero_add _).symm

theorem namedParent?_concat_start (name : String) (parent : Option Nat)
    (position : Nat) :
    namedParent? (before ++ [.start name parent]) position =
      if position = started before then parent
      else namedParent? before position := by
  rw [namedParent?, List.filterMap_append, namedParent?,
    ← length_filterMap_named?]
  change (before.filterMap named? ++ [parent])[position]?.join = _
  rw [List.getElem?_append]
  split
  · next inside =>
      rw [if_neg (Nat.ne_of_lt inside)]
  · next outside =>
      split
      · next last =>
          rw [last, Nat.sub_self]
          rfl
      · rw [List.getElem?_eq_none (by simp; omega),
          List.getElem?_eq_none (by omega)]

theorem namedParent?_concat_stop (place position : Nat) :
    namedParent? (before ++ [.stop place]) position =
      namedParent? before position := by
  rw [namedParent?, List.filterMap_append]
  exact congrArg (fun parents : List (Option Nat) => parents[position]?.join)
    (List.append_nil _)

theorem Nests.knowsParent (nests : operation.Nests before) :
    operation.KnowsParent (started before) := by
  cases operation with
  | start name parent =>
      intro earlier same
      subst same
      exact nests.1
  | stop position => trivial
  | finish => exact nests.elim
  | report => exact nests.elim

end PhaseOperation

/-! ## The times at which phases were stopped -/

namespace Phase

/-- The time at which a phase was stopped, if it was. -/
def stopTime? (phase : Phase) : Option Nat :=
  if phase.stopped then some phase.stop else none

theorem stopTime?_stopAt (phase : Phase) (time : Nat) :
    (phase.stopAt time).stopTime? = some (phase.stopTime?.getD time) := by
  rw [stopAt, stopTime?, stopTime?]
  cases stopped : phase.stopped with
  | false => rfl
  | true => simp [stopped]

theorem stopTime?_eq_some_iff {phase : Phase} {stop : Nat} :
    phase.stopTime? = some stop ↔ phase.stopped = true ∧ phase.stop = stop := by
  rw [stopTime?]
  cases phase.stopped <;> simp

end Phase

namespace PhaseTree

variable {time position : Nat} {tree : PhaseTree} {name : String}
  {parent : Option Nat} {clock : Nat → Nat}

/-- The time at which the phase at a position was stopped, if it was. -/
def stopOf? (tree : PhaseTree) (position : Nat) : Option Nat :=
  tree.phases[position]?.bind Phase.stopTime?

theorem stopOf?_start
    (known : ∀ earlier, parent = some earlier → earlier < tree.phases.size)
    (position : Nat) :
    (tree.start time name parent).stopOf? position = tree.stopOf? position := by
  rw [stopOf?, getElem?_start known, stopOf?]
  split
  · next last =>
      rw [last, Array.getElem?_eq_none (Nat.le_refl _)]
      rfl
  · rw [Option.bind_map]
    congr 1
    funext phase
    rw [Function.comp_apply]
    split <;> rfl

theorem stopOf?_stop {place : Nat} (inside : place < tree.phases.size)
    (position : Nat) :
    (tree.stop time place).stopOf? position =
      if position = place then some ((tree.stopOf? position).getD time)
      else tree.stopOf? position := by
  rw [stopOf?, getElem?_stop, stopOf?]
  by_cases here : position = place
  · subst here
    rw [if_pos rfl, Array.getElem?_eq_getElem inside, Option.map_some,
      Option.bind_some, Option.bind_some, if_pos rfl, Phase.stopTime?_stopAt]
  · rw [if_neg here]
    simp only [if_neg (Ne.symm here), Option.map_id_fun', id]

theorem stopOf?_stopAll (inside : position < tree.phases.size) :
    (tree.stopAll clock).stopOf? position =
      some ((tree.stopOf? position).getD
        (clock (tree.phases.size - 1 - position))) := by
  rw [stopOf?, getElem?_stopAll, stopOf?, Array.getElem?_eq_getElem inside,
    Option.map_some, Option.bind_some, Option.bind_some,
    Phase.stopTime?_stopAt]

/-! ## Trees in which stopped phases are nested -/

/--
No phase was stopped after a time, and a phase that was stopped was stopped no
earlier than each of its children.
-/
structure IsNested (time : Nat) (tree : PhaseTree) : Prop where
  stop_le : ∀ position stop, tree.stopOf? position = some stop → stop ≤ time
  encloses : ∀ child parent stop, tree.parentOf? child = some parent →
    tree.stopOf? parent = some stop →
      ∃ inner, tree.stopOf? child = some inner ∧ inner ≤ stop

namespace IsNested

theorem empty (time : Nat) : PhaseTree.empty.IsNested time where
  stop_le _ _ stopped := by cases stopped
  encloses _ _ _ linked := by cases linked

variable (nested : tree.IsNested time)

include nested

theorem mono {later : Nat} (order : time ≤ later) : tree.IsNested later where
  stop_le position stop stopped :=
    Nat.le_trans (nested.stop_le position stop stopped) order
  encloses := nested.encloses

/-- Starting a phase under a running one keeps stopped phases nested. -/
theorem start
    (known : ∀ earlier, parent = some earlier → earlier < tree.phases.size)
    (running : ∀ earlier, parent = some earlier →
      tree.stopOf? earlier = none) :
    (tree.start time name parent).IsNested time where
  stop_le position stop stopped := by
    rw [stopOf?_start known] at stopped
    exact nested.stop_le position stop stopped
  encloses child earlier stop linked stopped := by
    rw [stopOf?_start known] at stopped
    rw [parentOf?_start known] at linked
    rw [stopOf?_start known]
    split at linked
    · rw [running earlier linked] at stopped
      cases stopped
    · exact nested.encloses child earlier stop linked stopped

/--
Stopping a phase whose children are all stopped keeps stopped phases nested.
-/
theorem stop {place : Nat} (forest : tree.IsForest)
    (inside : place < tree.phases.size)
    (quiet : ∀ child, tree.parentOf? child = some place →
      (tree.stopOf? child).isSome) :
    (tree.stop time place).IsNested time where
  stop_le position stop stopped := by
    rw [stopOf?_stop inside] at stopped
    split at stopped
    · obtain rfl := Option.some.inj stopped
      cases earlier : tree.stopOf? position with
      | none => exact Nat.le_refl time
      | some first => exact nested.stop_le position first earlier
    · exact nested.stop_le position stop stopped
  encloses child parent stop linked stopped := by
    rw [parentOf?_stop] at linked
    have apart : child ≠ parent :=
      Nat.ne_of_gt (forest.parent_lt child parent linked)
    rw [stopOf?_stop inside] at stopped ⊢
    split at stopped
    · next here =>
        subst here
        rw [if_neg apart]
        obtain rfl := Option.some.inj stopped
        cases earlier : tree.stopOf? parent with
        | none =>
            obtain ⟨inner, innerStop⟩ :=
              Option.isSome_iff_exists.1 (quiet child linked)
            exact ⟨inner, innerStop, nested.stop_le child inner innerStop⟩
        | some first => exact nested.encloses child parent first linked earlier
    · obtain ⟨inner, innerStop, inTime⟩ :=
        nested.encloses child parent stop linked stopped
      rw [innerStop, Option.getD_some, ite_self]
      exact ⟨inner, rfl, inTime⟩

/--
Whatever still runs is stopped latest first, so when everything has been stopped
every phase was stopped no earlier than its children.
-/
theorem stopAll (forest : tree.IsForest) (steady : Monotone clock)
    (ahead : ∀ reading, time ≤ clock reading) {child parent : Nat}
    (linked : tree.parentOf? child = some parent) :
    ∃ inner outer, (tree.stopAll clock).stopOf? child = some inner ∧
      (tree.stopAll clock).stopOf? parent = some outer ∧ inner ≤ outer := by
  have inside := lt_size_of_parentOf? linked
  have order := forest.parent_lt child parent linked
  refine ⟨_, _, stopOf?_stopAll inside,
    stopOf?_stopAll (Nat.lt_trans order inside), ?_⟩
  cases outerStop : tree.stopOf? parent with
  | some outer =>
      obtain ⟨inner, innerStop, inTime⟩ :=
        nested.encloses child parent outer linked outerStop
      rw [innerStop]
      exact inTime
  | none =>
      cases innerStop : tree.stopOf? child with
      | some inner =>
          exact Nat.le_trans (nested.stop_le child inner innerStop) (ahead _)
      | none =>
          -- Both still run, and the clock is read for the child first.
          apply steady
          omega

end IsNested

/-! ## Time spans in a finished tree -/

theorem contains_finish {outer inner : Nat} :
    (tree.finish clock).Contains outer inner ↔
      (tree.stopAll clock).Contains outer inner := by
  simp only [Contains, spanOf?_finish]

/--
A phase contains another one that starts no earlier and was stopped no later.
-/
theorem contains_of_stopOf? {outer inner first last : Nat}
    (started : ∀ outerPhase innerPhase, tree.phases[outer]? = some outerPhase →
      tree.phases[inner]? = some innerPhase →
        outerPhase.start ≤ innerPhase.start)
    (innerStop : tree.stopOf? inner = some first)
    (outerStop : tree.stopOf? outer = some last) (order : first ≤ last) :
    tree.Contains outer inner := by
  rw [stopOf?, Option.bind_eq_some_iff] at innerStop outerStop
  obtain ⟨innerPhase, innerFound, innerStop⟩ := innerStop
  obtain ⟨outerPhase, outerFound, outerStop⟩ := outerStop
  obtain ⟨-, rfl⟩ := Phase.stopTime?_eq_some_iff.1 innerStop
  obtain ⟨-, rfl⟩ := Phase.stopTime?_eq_some_iff.1 outerStop
  refine ⟨(outerPhase.start, outerPhase.stop),
    (innerPhase.start, innerPhase.stop), ?_, ?_,
    started _ _ outerFound innerFound, order⟩
  · rw [spanOf?, outerFound]
    rfl
  · rw [spanOf?, innerFound]
    rfl

end PhaseTree

namespace Recording

open PhaseOperation

variable {clock : Nat → Nat} {recording : Recording}
  {before operations : List PhaseOperation} {operation : PhaseOperation}

/-! ## What operations that nest phases record -/

/--
A recording holds exactly the phases that some operations have started, with the
parents named for them, and exactly the phases that they have stopped are
stopped.
-/
structure Tracks (recording : Recording) (operations : List PhaseOperation) :
    Prop where
  size : recording.tree.phases.size = started operations
  parent : ∀ position,
    recording.tree.parentOf? position = namedParent? operations position
  stopped : ∀ position, .stop position ∈ operations ↔
    (recording.tree.stopOf? position).isSome

theorem Tracks.stopOf?_of_isRunning (tracks : recording.Tracks operations)
    {position : Nat} (running : IsRunning operations position) :
    recording.tree.stopOf? position = none := by
  rw [← Option.not_isSome_iff_eq_none, ← tracks.stopped]
  exact running.2

theorem Tracks.isSome_stopOf? (tracks : recording.Tracks operations)
    {position child : Nat} (nests : (stop position).Nests operations)
    (linked : recording.tree.parentOf? child = some position) :
    (recording.tree.stopOf? child).isSome := by
  have inside : child < started operations := by
    rw [← tracks.size]
    exact PhaseTree.lt_size_of_parentOf? linked
  rw [tracks.parent] at linked
  have idle := nests.2 child inside linked
  rw [IsRunning, not_and, Classical.not_not] at idle
  exact (tracks.stopped child).1 (idle inside)

theorem Tracks.perform (tracks : recording.Tracks before)
    (nests : operation.Nests before) :
    (recording.perform clock operation).Tracks (before ++ [operation]) where
  size := by rw [size_perform, tracks.size, started_concat]
  parent position := by
    have known := nests.knowsParent
    rw [← tracks.size] at known
    cases operation with
    | start name parent =>
        rw [Recording.perform, PhaseTree.parentOf?_start known,
          namedParent?_concat_start, tracks.parent, tracks.size]
    | stop place =>
        rw [Recording.perform, PhaseTree.parentOf?_stop,
          namedParent?_concat_stop, tracks.parent]
    | finish => exact nests.elim
    | report => exact nests.elim
  stopped position := by
    have known := nests.knowsParent
    rw [← tracks.size] at known
    rw [List.mem_append, List.mem_singleton, tracks.stopped]
    cases operation with
    | start name parent =>
        rw [Recording.perform, PhaseTree.stopOf?_start known]
        simp
    | stop place =>
        have inside := nests.1
        rw [← tracks.size] at inside
        rw [Recording.perform, PhaseTree.stopOf?_stop inside]
        split
        · next here => simp [here]
        · next apart => simp [apart]
    | finish => exact nests.elim
    | report => exact nests.elim

theorem tracks_record (nest : NestPhases operations) :
    (record clock operations).Tracks operations := by
  induction operations using List.reverseRecOn with
  | nil =>
      exact
        { size := rfl
          parent := fun _ => rfl
          stopped := fun _ => by simp [record, performAll, empty,
            PhaseTree.empty, PhaseTree.stopOf?] }
  | append_singleton before operation inductionHypothesis =>
      obtain ⟨nestBefore, nests⟩ := nestPhases_of_concat nest
      rw [record_concat]
      exact (inductionHypothesis nestBefore).perform nests

theorem isNested_perform (tracks : recording.Tracks before)
    (forest : recording.tree.IsForest)
    (nested : recording.tree.IsNested (clock recording.readings))
    (nests : operation.Nests before) :
    (recording.perform clock operation).tree.IsNested
      (clock recording.readings) := by
  cases operation with
  | start name parent =>
      have known := nests.knowsParent
      rw [← tracks.size] at known
      refine nested.start known fun earlier same => ?_
      subst same
      exact tracks.stopOf?_of_isRunning nests
  | stop position =>
      have inside := nests.1
      rw [← tracks.size] at inside
      exact nested.stop forest inside fun child linked =>
        tracks.isSome_stopOf? nests linked
  | finish => exact nests.elim
  | report => exact nests.elim

section Steady

variable (steady : Monotone clock)

include steady

theorem sound_record (nest : NestPhases operations) :
    (record clock operations).Sound clock := by
  induction operations using List.reverseRecOn with
  | nil => exact sound_empty clock
  | append_singleton before operation inductionHypothesis =>
      obtain ⟨nestBefore, nests⟩ := nestPhases_of_concat nest
      have known := nests.knowsParent
      rw [← size_record clock] at known
      rw [record_concat]
      exact (inductionHypothesis nestBefore).perform steady known

theorem isNested_record (nest : NestPhases operations) :
    (record clock operations).tree.IsNested
      (clock (record clock operations).readings) := by
  induction operations using List.reverseRecOn with
  | nil => exact .empty _
  | append_singleton before operation inductionHypothesis =>
      obtain ⟨nestBefore, nests⟩ := nestPhases_of_concat nest
      rw [record_concat]
      exact (isNested_perform (tracks_record nestBefore)
        (sound_record steady nestBefore).forest
        (inductionHypothesis nestBefore) nests).mono
          (steady readings_le_perform)

/--
Finishing stops the phases that still run, and then every parent that was named
contains its child.
-/
theorem contains_of_namedParent? {child parent : Nat}
    (nest : NestPhases operations)
    (named : namedParent? operations child = some parent) :
    ((record clock operations).perform clock .finish).tree.Contains parent
      child := by
  have sound := sound_record steady nest
  rw [← (tracks_record nest).parent] at named
  have ahead : Monotone ((record clock operations).upcoming clock) :=
    fun _ _ order => steady (Nat.add_le_add_left order _)
  obtain ⟨inner, outer, innerStop, outerStop, order⟩ :=
    (isNested_record steady nest).stopAll sound.forest ahead
      (le_upcoming steady) named
  rw [perform, PhaseTree.contains_finish]
  refine PhaseTree.contains_of_stopOf? (fun _ _ outerFound innerFound => ?_)
    innerStop outerStop order
  rw [PhaseTree.getElem?_stopAll, Option.map_eq_some_iff] at outerFound
  rw [PhaseTree.getElem?_stopAll, Option.map_eq_some_iff] at innerFound
  obtain ⟨outerBefore, outerFound, rfl⟩ := outerFound
  obtain ⟨innerBefore, innerFound, rfl⟩ := innerFound
  rw [PhaseTree.start_stopAt, PhaseTree.start_stopAt]
  exact sound.ordered parent child outerBefore innerBefore
    (Nat.le_of_lt (sound.forest.parent_lt child parent named)) outerFound
    innerFound

end Steady

/--
Suppose that phases start only under running ones and stop only when no phase
started under them is running, while any phases may be left running.  After the
tree has been finished every phase is stopped, and every parent contains its
children.  The parent of a phase is the one that was named for it.  If none was
named, it is the last one before the phase that contains it, and there is none
if no phase before it does.  Finishing the tree again changes nothing.
-/
theorem finish_nests_phases (steady : Monotone clock)
    (nest : NestPhases operations) :
    let tree := ((record clock operations).perform clock .finish).tree
    tree.phases.size = started operations ∧
      (∀ (position : Nat) (phase : Phase),
        tree.phases[position]? = some phase →
          phase.stopped = true ∧ phase.start ≤ phase.stop) ∧
      (∀ child parent, tree.parentOf? child = some parent →
        tree.Contains parent child) ∧
      (∀ child parent, namedParent? operations child = some parent →
        tree.parentOf? child = some parent) ∧
      (∀ child, namedParent? operations child = none →
        (∀ parent, tree.parentOf? child = some parent ↔
          parent < child ∧ tree.Contains parent child ∧
            ∀ between, parent < between → between < child →
              ¬ tree.Contains between child) ∧
        (tree.parentOf? child = none ↔
          ∀ earlier < child, ¬ tree.Contains earlier child)) ∧
      ∀ later, tree.finish later = tree := by
  intro tree
  have sound : ((record clock operations).perform clock .finish).Sound clock :=
    (sound_record steady nest).perform steady trivial
  have finished : tree.IsFinished := PhaseTree.isFinished_finish _ _
  have parent (child : Nat) : tree.parentOf? child =
      (namedParent? operations child).or (tree.container? child) := by
    rw [← (tracks_record nest).parent]
    exact (PhaseTree.parentOf?_finish child).trans
      (congrArg _ (PhaseTree.container?_finish child).symm)
  refine ⟨?_, ?_, ?_, ?_, ?_, finished.finish⟩
  · rw [size_perform, size_record]
    rfl
  · intro position phase found
    have stopped := finished.stopped position phase found
    exact ⟨stopped, sound.stopped position phase found stopped⟩
  · intro child outer linked
    rw [parent] at linked
    cases named : namedParent? operations child with
    | some given =>
        rw [named, Option.some_or] at linked
        rw [← Option.some.inj linked]
        exact contains_of_namedParent? steady nest named
    | none =>
        rw [named, Option.none_or] at linked
        exact (PhaseTree.container?_eq_some_iff.1 linked).2.1
  · intro child outer named
    rw [parent, named, Option.some_or]
  · intro child named
    rw [parent, named, Option.none_or]
    exact ⟨fun _ => PhaseTree.container?_eq_some_iff,
      PhaseTree.container?_eq_none_iff⟩

/--
Four phases are left running.  The clock shows the same time at every other
reading, so the last phase, which names no parent, is contained in the one
before it.
-/
theorem open_phases_are_nested :
    let clock (reading : Nat) : Nat := reading / 2
    let operations : List PhaseOperation :=
      [.start "total" none, .start "load" (some 0), .start "load old" none,
        .stop 2, .stop 1, .start "diff" (some 0), .start "draw" (some 3),
        .start "compare" none]
    let tree := ((record clock operations).perform clock .finish).tree
    Monotone clock ∧ NestPhases operations ∧
      (∀ (position : Nat) (phase : Phase),
        tree.phases[position]? = some phase →
          phase.stopped = true ∧ phase.start ≤ phase.stop) ∧
      (∀ child parent, tree.parentOf? child = some parent →
        tree.Contains parent child) ∧
      (List.range 6).map tree.parentOf? =
        [none, some 0, some 1, some 0, some 3, some 4] ∧
      ∀ later, tree.finish later = tree := by
  intro clock operations tree
  have steady : Monotone clock := fun _ _ order => Nat.div_le_div_right order
  have nest : NestPhases operations := by decide
  have parents : (List.range 6).map tree.parentOf? =
      [none, some 0, some 1, some 0, some 3, some 4] := by
    decide +kernel
  obtain ⟨-, stopped, contained, -, -, repeated⟩ :=
    finish_nests_phases steady nest
  exact ⟨steady, nest, stopped, contained, parents, repeated⟩

end Recording

end ScreenCompare
