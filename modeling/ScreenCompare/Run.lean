import ScreenCompare.Canvas
import ScreenCompare.Failure
import ScreenCompare.Gate
import ScreenCompare.Matching.Assignment
import ScreenCompare.Phase.Log
import ScreenCompare.Settings

/-!
# A whole comparison

A run loads two pictures, stops if they are the same, cuts both into segments,
matches the segments, renders the outcome and writes it.  Every stage is a phase
of the run's log, and a stage that fails ends the run with all open phases
stopped, innermost first.

Either all canvases are written or none: when one cannot be written, those
written before it are removed again.
-/

namespace ScreenCompare

/-- What a successful run has written and counted. -/
structure Report where
  differencePath : String
  addedPath : Option String
  deletedPath : Option String
  segmentPaths : List String
  oldSegments : Nat
  newSegments : Nat
  matched : Nat
deriving DecidableEq, Repr

/-- A canvas and the path it is written to. -/
structure Artifact where
  path : String
  canvas : Picture

/-- The state of a run: its phases and the files. -/
structure RunState where
  log : PhaseLog
  store : FileStore

/-- A part of a run, which may fail.  A failure keeps the state. -/
abbrev Run := ExceptT Failure (StateM RunState)

namespace Run

/--
Carry out a part of a run as a phase.  The part is told the phase's position.
-/
def phase {α : Type} (name : String) (parent : Option Nat)
    (part : Nat → Run α) : Run α := fun state =>
  let (position, log) := state.log.start name parent
  let (outcome, state) := part position { state with log }
  (outcome, { state with log := state.log.stop position })

/-- Carry out a part of a run that depends on nothing but its input. -/
def settled {α : Type} (outcome : Except Failure α) : Run α :=
  fun state => (outcome, state)

/-- Carry out a part of a run that can only fail by misuse. -/
def checked {α : Type} (outcome : Except Misuse α) : Run α :=
  settled (outcome.mapError .misuse)

/-- Load an image as a phase and hand on how that ended. -/
def tryLoad (name path : String) : Run (Except Failure LoadedImage) :=
  phase name none fun _ => do
    return (← getThe RunState).store.load path

/-- Load both images.  Both are tried, and the old one's failure comes first. -/
def loadBoth (settings : Settings) (total : Nat) :
    Run (LoadedImage × LoadedImage) :=
  phase "load" (some total) fun _ => do
    let old ← tryLoad "load old" settings.oldPath
    let new ← tryLoad "load new" settings.newPath
    return (← settled old, ← settled new)

/-- End the run if the pictures are the same, or if one of them is empty. -/
def gate (settings : Settings) (old new : LoadedImage) (total : Nat) :
    Run Unit :=
  phase "histogram gate" (some total) fun _ =>
    match old.color.compare new.color with
    | .different => pure ()
    | .same => throw .samePictures
    | .emptyPicture =>
        let path :=
          if old.color.IsEmpty then settings.oldPath else settings.newPath
        throw (.undecodable path .emptyImage)

/-- Cut one picture into segments and describe them. -/
def describe (side : Side) (label : String) (image : LoadedImage)
    (threshold : UInt8) : Run (List Segment) := do
  let segments ← phase ("segment " ++ label) none fun _ =>
    checked (Segment.detect side image.color image.gray threshold)
  phase ("extract " ++ label) none fun _ =>
    return segments.map Segment.describe

/-- Cut both pictures into segments and describe them. -/
def describeBoth (settings : Settings) (old new : LoadedImage) (total : Nat) :
    Run (List Segment × List Segment) :=
  phase "describe" (some total) fun _ => do
    let oldSegments ← describe .old "old" old settings.threshold
    let newSegments ← describe .new "new" new settings.threshold
    return (oldSegments, newSegments)

/-- Render the canvases that the settings ask for. -/
def render (settings : Settings) (old new : LoadedImage)
    (assignment : Assignment) (total : Nat) : Run (List Artifact) :=
  phase "render" (some total) fun render => do
    let difference ← phase "render diff" (some render) fun _ =>
      checked (old.color.renderDifference old.gray new.color assignment.new
        assignment.pairs)
    let changes ←
      if settings.createChangeImage then
        phase "render changes" (some render) fun _ =>
          return [
            { path := settings.artifactPath "added"
              canvas := new.color.outlineUnmatched assignment.new Color.added :
                Artifact },
            { path := settings.artifactPath "deleted"
              canvas :=
                old.color.outlineUnmatched assignment.old Color.deleted }]
      else pure []
    let segments ←
      if settings.saveSegments then
        phase "render segments" (some render) fun _ =>
          return [
            { path := settings.artifactPath "old_segments"
              canvas := old.color.outlineAll assignment.old Color.outline :
                Artifact },
            { path := settings.artifactPath "new_segments"
              canvas := new.color.outlineAll assignment.new Color.outline }]
      else pure []
    let first : Artifact :=
      { path := settings.artifactPath "diff", canvas := difference }
    return first :: changes ++ segments

/--
Write artifacts after those that have been written already.  On a failure the
ones written before are removed again, first to last.
-/
def writeFrom (written : List String) :
    List Artifact → FileStore → Except Failure Unit × FileStore
  | [], store => (.ok (), store)
  | artifact :: rest, store =>
      match store.save artifact.path artifact.canvas with
      | (.ok (), store) =>
          writeFrom (written ++ [artifact.path]) rest store
      | (.error fault, store) =>
          (.error (.cannotWrite artifact.path fault),
            written.foldl FileStore.remove store)

/-- Write all artifacts, or none. -/
def write (artifacts : List Artifact) (total : Nat) : Run Unit :=
  phase "write" (some total) fun _ state =>
    let (outcome, store) := writeFrom [] artifacts state.store
    (outcome, { state with store })

/-- Compare two pictures and write what has changed. -/
def compare (settings : Settings) : Run Report :=
  phase "total" none fun total => do
    let (old, new) ← loadBoth settings total
    gate settings old new total
    let (oldSegments, newSegments) ← describeBoth settings old new total
    let assignment ← phase "match" (some total) fun _ =>
      return (MatchRule.standard settings.crossCheck).assign
        oldSegments newSegments
    let artifacts ← render settings old new assignment total
    write artifacts total
    let changePath (kind : String) : Option String :=
      if settings.createChangeImage then some (settings.artifactPath kind)
      else none
    return {
      differencePath := settings.artifactPath "diff"
      addedPath := changePath "added"
      deletedPath := changePath "deleted"
      segmentPaths :=
        if settings.saveSegments then
          [settings.artifactPath "old_segments",
            settings.artifactPath "new_segments"]
        else []
      oldSegments := oldSegments.length
      newSegments := newSegments.length
      matched := assignment.pairs.length }

end Run

namespace Settings

/-- Run a comparison on some files. -/
def run (settings : Settings) (store : FileStore) :
    Except Failure Report × RunState :=
  Run.compare settings { log := PhaseLog.empty, store }

end Settings

end ScreenCompare
