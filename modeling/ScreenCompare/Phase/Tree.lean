/-!
# A tree of timed phases

A run consists of phases that start and stop at certain times.  A phase may name
its parent when it starts.  One that does not is attached when the tree is
finished: its parent is then the nearest earlier phase whose time span contains
its own.

Phases are kept in the order in which they started and refer to each other by
their position in it.  Finishing stops whatever still runs, latest first, so
that an open phase outlives the open phases within it.
-/

namespace ScreenCompare

/-- A phase of a run.  `stop` has a meaning once the phase is stopped. -/
structure Phase where
  name : String
  parent : Option Nat
  children : List Nat
  start : Nat
  stop : Nat
  stopped : Bool
deriving DecidableEq, Repr, Inhabited

namespace Phase

/-- The time span of a phase contains that of another one. -/
def Spans (outer inner : Phase) : Prop :=
  outer.start ≤ inner.start ∧ inner.stop ≤ outer.stop

instance (outer inner : Phase) : Decidable (outer.Spans inner) :=
  inferInstanceAs (Decidable (_ ∧ _))

/-- Stop a phase; a phase that is stopped already keeps its time. -/
def stopAt (phase : Phase) (time : Nat) : Phase :=
  if phase.stopped then phase else { phase with stop := time, stopped := true }

end Phase

/-- The phases of a run in the order of their starts. -/
structure PhaseTree where
  phases : Array Phase
deriving DecidableEq, Repr

/-- A line of a report: how deep a phase lies in the tree, and its name. -/
structure PhaseRow where
  depth : Nat
  name : String
deriving DecidableEq, Repr

namespace PhaseTree

/-- The tree without phases. -/
def empty : PhaseTree where
  phases := #[]

/-- Enter a child into the list of its parent. -/
def addChild (tree : PhaseTree) (parent child : Nat) : PhaseTree where
  phases := tree.phases.modify parent fun phase =>
    { phase with children := phase.children ++ [child] }

/-- Start a phase.  Its position is the number of phases before it. -/
def start (tree : PhaseTree) (time : Nat) (name : String)
    (parent : Option Nat) : PhaseTree :=
  let position := tree.phases.size
  let grown : PhaseTree :=
    { phases := tree.phases.push
        { name
          parent
          children := []
          start := time
          stop := 0
          stopped := false } }
  match parent with
  | none => grown
  | some parent => grown.addChild parent position

/-- Stop the phase at a position. -/
def stop (tree : PhaseTree) (time position : Nat) : PhaseTree where
  phases := tree.phases.modify position fun phase => phase.stopAt time

/--
Stop every running phase, latest first.  The clock is read once for every phase,
`clock k` being its reading for the phase `k` places before the last.
-/
def stopAll (tree : PhaseTree) (clock : Nat → Nat) : PhaseTree :=
  (List.range tree.phases.size).foldl
    (fun stopped back =>
      stopped.stop (clock back) (tree.phases.size - 1 - back))
    tree

/-- The nearest earlier phase whose time span contains that of a phase. -/
def container? (tree : PhaseTree) (position : Nat) : Option Nat :=
  match tree.phases[position]? with
  | none => none
  | some inner =>
      (List.range position).reverse.find? fun earlier =>
        match tree.phases[earlier]? with
        | none => false
        | some outer => decide (outer.Spans inner)

/--
Attach a phase without a parent to the phase that contains it, if there is one.
-/
def attach (tree : PhaseTree) (position : Nat) : PhaseTree :=
  match tree.phases[position]? with
  | none => tree
  | some phase =>
      if phase.parent.isSome then tree
      else
        match tree.container? position with
        | none => tree
        | some parent =>
            addChild
              { phases := tree.phases.modify position fun phase =>
                  { phase with parent := some parent } }
              parent position

/-- Stop every running phase and attach the phases without a parent. -/
def finish (tree : PhaseTree) (clock : Nat → Nat) : PhaseTree :=
  (List.range tree.phases.size).foldl attach (tree.stopAll clock)

/-- The time at which the phase at a position started. -/
def startOf (tree : PhaseTree) (position : Nat) : Nat :=
  (tree.phases.getD position default).start

/-- Order the children of every phase by their starts, each child once. -/
def sortChildren (tree : PhaseTree) : PhaseTree where
  phases := tree.phases.map fun phase =>
    { phase with
      children :=
        (phase.children.mergeSort fun first second =>
          decide (tree.startOf first ≤ tree.startOf second)).eraseReps }

/--
The rows of a phase and of everything below it.  No chain of phases is longer
than their number.
-/
def rowsFrom (tree : PhaseTree) :
    (fuel depth position : Nat) → List PhaseRow
  | 0, _, _ => []
  | fuel + 1, depth, position =>
      match tree.phases[position]? with
      | none => []
      | some phase =>
          { depth, name := phase.name } ::
            phase.children.flatMap (tree.rowsFrom fuel (depth + 1))

/-- The positions of the phases without a parent. -/
def roots (tree : PhaseTree) : List Nat :=
  (List.range tree.phases.size).filter fun position =>
    match tree.phases[position]? with
    | none => false
    | some phase => phase.parent.isNone

/-- The rows of all phases, every phase below its parent. -/
def rows (tree : PhaseTree) : List PhaseRow :=
  tree.roots.flatMap (tree.rowsFrom tree.phases.size 0)

/-- The finished tree with its children in order, as a report shows it. -/
def reported (tree : PhaseTree) (clock : Nat → Nat) : PhaseTree :=
  (tree.finish clock).sortChildren

end PhaseTree

end ScreenCompare
