import ScreenCompare.Phase.Tree

/-!
# Logging phases

A log records phases under a logical clock that moves on with every event, so no
two starts or stops share a time.  Its report lists the phases as an indented
tree under a header.  The user, system and real time that a phase took depend on
the machine.  They are not recorded, and their columns stay blank.
-/

namespace ScreenCompare

/-- The phases recorded so far and the time of the last event. -/
structure PhaseLog where
  tree : PhaseTree
  now : Nat
deriving Repr

namespace PhaseLog

/-- The log before the first event. -/
def empty : PhaseLog where
  tree := PhaseTree.empty
  now := 0

/-- Start a phase and tell its position. -/
def start (log : PhaseLog) (name : String) (parent : Option Nat) :
    Nat × PhaseLog :=
  (log.tree.phases.size,
    { tree := log.tree.start (log.now + 1) name parent, now := log.now + 1 })

/-- Stop the phase at a position. -/
def stop (log : PhaseLog) (position : Nat) : PhaseLog where
  tree := log.tree.stop (log.now + 1) position
  now := log.now + 1

/-- The readings of the clock from the next event on. -/
def clock (log : PhaseLog) (reading : Nat) : Nat :=
  log.now + 1 + reading

/-- Stop every running phase and attach the phases without a parent. -/
def finish (log : PhaseLog) : PhaseLog where
  tree := log.tree.finish log.clock
  now := log.now + log.tree.phases.size

/-- Finish the log and put the children of every phase in order. -/
def reported (log : PhaseLog) : PhaseLog where
  tree := log.tree.reported log.clock
  now := log.now + log.tree.phases.size

/-- The header of a report. -/
def header : String :=
  "     User   System     Real  Name"

/-- The width of the columns before a name. -/
def nameColumn : Nat := 29

/--
The line of a row: blank columns, two blanks for each level, and the name.
-/
def line (row : PhaseRow) : String :=
  String.ofList (List.replicate (nameColumn + 2 * row.depth) ' ') ++ row.name

@[simp]
theorem toList_line (row : PhaseRow) :
    (line row).toList =
      List.replicate (29 + 2 * row.depth) ' ' ++ row.name.toList := by
  simp [line, nameColumn]

/-- The text of a report on a finished log. -/
def report (log : PhaseLog) : String :=
  String.join ((header :: log.tree.rows.map line).map (· ++ "\n"))

end PhaseLog

end ScreenCompare
