import ScreenCompare.Run

/-!
# A run without its log

Every stage of a run yields an outcome that depends on the files but not on what
has been logged, and all stages before the last one leave the files alone.  So a
run prepares its artifacts, or fails to, and then writes them
(`yields_compare`).
-/

namespace ScreenCompare

namespace Run

variable {α β : Type} {store middle after : FileStore}

/--
Whatever has been logged, a part of a run on some files has a certain outcome
and leaves certain files.
-/
def Yields (part : Run α) (store : FileStore) (outcome : Except Failure α)
    (after : FileStore) : Prop :=
  ∀ log, ∃ later,
    part { log, store } = (outcome, { log := later, store := after })

theorem yields_pure (value : α) (store : FileStore) :
    Yields (pure value) store (.ok value) store :=
  fun log => ⟨log, rfl⟩

theorem yields_throw (failure : Failure) (store : FileStore) :
    Yields (throw failure : Run α) store (.error failure) store :=
  fun log => ⟨log, rfl⟩

theorem yields_settled (outcome : Except Failure α) (store : FileStore) :
    Yields (settled outcome) store outcome store :=
  fun log => ⟨log, rfl⟩

theorem Yields.bind {part : Run α} {next : α → Run β} {value : α}
    {outcome : Except Failure β} (first : part.Yields store (.ok value) middle)
    (second : (next value).Yields middle outcome after) :
    (part >>= next).Yields store outcome after := by
  intro log
  rcases first log with ⟨middleLog, firstEq⟩
  rcases second middleLog with ⟨later, secondEq⟩
  refine ⟨later, ?_⟩
  change ExceptT.bindCont next (part { log, store }).1
    (part { log, store }).2 = _
  rw [firstEq]
  exact secondEq

theorem Yields.bind_error {part : Run α} {failure : Failure}
    (first : part.Yields store (.error failure) after) (next : α → Run β) :
    (part >>= next).Yields store (.error failure) after := by
  intro log
  rcases first log with ⟨later, firstEq⟩
  refine ⟨later, ?_⟩
  change ExceptT.bindCont next (part { log, store }).1
    (part { log, store }).2 = _
  rw [firstEq]
  rfl

/-- A part that leaves the files alone is followed by another one that does. -/
theorem Yields.andThen {part : Run α} {next : α → Run β}
    {outcome : Except Failure α} {rest : α → Except Failure β}
    (first : part.Yields store outcome store)
    (second : ∀ value, (next value).Yields store (rest value) store) :
    (part >>= next).Yields store (outcome >>= rest) store := by
  cases outcome with
  | error failure => exact first.bind_error next
  | ok value => exact first.bind (second value)

theorem Yields.phase {name : String} {parent : Option Nat}
    {part : Nat → Run α} {outcome : Except Failure α}
    (inner : ∀ position, (part position).Yields store outcome after) :
    (phase name parent part).Yields store outcome after := by
  intro log
  let position := (log.start name parent).1
  let started : RunState := { log := (log.start name parent).2, store }
  rcases inner position started.log with ⟨later, innerEq⟩
  refine ⟨later.stop position, ?_⟩
  change ((part position started).1,
    { (part position started).2 with
      log := (part position started).2.log.stop position }) = _
  rw [innerEq]

/-- Artifacts that are not asked for are rendered as none. -/
theorem Yields.optional {wanted : Bool} {name : String} {parent : Option Nat}
    {artifacts : List Artifact} {next : List Artifact → Run β}
    {outcome : Except Failure β}
    (rest : (next (if wanted then artifacts else [])).Yields store outcome
      after) :
    (if wanted then Run.phase name parent (fun _ => pure artifacts) >>= next
      else pure [] >>= next).Yields store outcome after := by
  cases wanted with
  | false => exact (yields_pure _ store).bind rest
  | true => exact Yields.bind (Yields.phase fun _ => yields_pure _ store) rest

/-! ## The stages without the log -/

/-- Both images, or the first failure to load one. -/
def loaded (settings : Settings) (store : FileStore) :
    Except Failure (LoadedImage × LoadedImage) := do
  let old ← store.load settings.oldPath
  let new ← store.load settings.newPath
  return (old, new)

/--
The failure that ends a run after the images have been compared, if there is one.
-/
def judged (settings : Settings) (old new : LoadedImage) : Except Failure Unit :=
  match old.color.compare new.color with
  | .different => .ok ()
  | .same => .error .samePictures
  | .emptyPicture =>
      .error (.undecodable
        (if old.color.IsEmpty then settings.oldPath else settings.newPath)
        .emptyImage)

/-- The described segments of one image. -/
def described (side : Side) (image : LoadedImage) (threshold : UInt8) :
    Except Failure (List Segment) := do
  let segments ←
    (Segment.detect side image.color image.gray threshold).mapError .misuse
  return segments.map Segment.describe

/-- The described segments of both images. -/
def describedBoth (settings : Settings) (old new : LoadedImage) :
    Except Failure (List Segment × List Segment) := do
  let oldSegments ← described .old old settings.threshold
  let newSegments ← described .new new settings.threshold
  return (oldSegments, newSegments)

/-- The artifacts that the settings ask for, with a given difference canvas. -/
def artifacts (settings : Settings) (old new : LoadedImage)
    (assignment : Assignment) (difference : Picture) : List Artifact :=
  { path := settings.artifactPath "diff", canvas := difference } ::
    (if settings.createChangeImage then
      [ { path := settings.artifactPath "added"
          canvas := new.color.outlineUnmatched assignment.new Color.added },
        { path := settings.artifactPath "deleted"
          canvas := old.color.outlineUnmatched assignment.old Color.deleted }]
    else []) ++
    (if settings.saveSegments then
      [ { path := settings.artifactPath "old_segments"
          canvas := old.color.outlineAll assignment.old Color.outline },
        { path := settings.artifactPath "new_segments"
          canvas := new.color.outlineAll assignment.new Color.outline }]
    else [])

/-- The rendered artifacts. -/
def rendered (settings : Settings) (old new : LoadedImage)
    (assignment : Assignment) : Except Failure (List Artifact) := do
  let difference ← (old.color.renderDifference old.gray new.color
    assignment.new assignment.pairs).mapError .misuse
  return artifacts settings old new assignment difference

section Stages

variable (settings : Settings) (total : Nat) (store : FileStore)

theorem yields_tryLoad (name path : String) :
    (tryLoad name path).Yields store (.ok (store.load path)) store :=
  Yields.phase fun _ log => ⟨log, rfl⟩

theorem yields_loadBoth :
    (loadBoth settings total).Yields store (loaded settings store) store := by
  refine Yields.phase fun _ => ?_
  refine (yields_tryLoad store _ _).bind ?_
  refine (yields_tryLoad store _ _).bind ?_
  refine (yields_settled _ store).andThen fun old => ?_
  exact (yields_settled _ store).andThen fun new => yields_pure _ store

theorem yields_gate (old new : LoadedImage) :
    (gate settings old new total).Yields store (judged settings old new)
      store := by
  refine Yields.phase fun _ => ?_
  rw [judged]
  cases old.color.compare new.color with
  | different => exact yields_pure _ store
  | same => exact yields_throw _ store
  | emptyPicture => exact yields_throw _ store

theorem yields_describe (side : Side) (label : String) (image : LoadedImage)
    (threshold : UInt8) :
    (describe side label image threshold).Yields store
      (described side image threshold) store := by
  refine Yields.andThen (Yields.phase fun _ => yields_settled _ store) ?_
  exact fun segments => Yields.phase fun _ => yields_pure _ store

theorem yields_describeBoth (old new : LoadedImage) :
    (describeBoth settings old new total).Yields store
      (describedBoth settings old new) store := by
  refine Yields.phase fun _ => ?_
  refine (yields_describe store _ _ _ _).andThen fun oldSegments => ?_
  exact (yields_describe store _ _ _ _).andThen fun _ => yields_pure _ store

theorem yields_render (old new : LoadedImage) (assignment : Assignment) :
    (render settings old new assignment total).Yields store
      (rendered settings old new assignment) store := by
  refine Yields.phase fun _ => ?_
  refine Yields.andThen (Yields.phase fun _ => yields_settled _ store) ?_
  intro difference
  exact Yields.optional (Yields.optional (yields_pure _ store))

theorem yields_write (artifacts : List Artifact) :
    (write artifacts total).Yields store (writeFrom [] artifacts store).1
      (writeFrom [] artifacts store).2 :=
  Yields.phase fun _ log => ⟨log, rfl⟩

end Stages

end Run

namespace Settings

/-- The report on a run that has written all its artifacts. -/
def report (settings : Settings) (oldSegments newSegments : List Segment)
    (assignment : Assignment) : Report where
  differencePath := settings.artifactPath "diff"
  addedPath :=
    if settings.createChangeImage then some (settings.artifactPath "added")
    else none
  deletedPath :=
    if settings.createChangeImage then some (settings.artifactPath "deleted")
    else none
  segmentPaths :=
    if settings.saveSegments then
      [settings.artifactPath "old_segments",
        settings.artifactPath "new_segments"]
    else []
  oldSegments := oldSegments.length
  newSegments := newSegments.length
  matched := assignment.pairs.length

/--
All that happens before the first write: the artifacts and the report on them.
-/
def prepare (settings : Settings) (store : FileStore) :
    Except Failure (List Artifact × Report) := do
  let (old, new) ← Run.loaded settings store
  Run.judged settings old new
  let (oldSegments, newSegments) ← Run.describedBoth settings old new
  let assignment :=
    (MatchRule.standard settings.crossCheck).assign oldSegments newSegments
  let artifacts ← Run.rendered settings old new assignment
  return (artifacts, settings.report oldSegments newSegments assignment)

end Settings

namespace Run

/--
The end of a run that has come as far as the first write or has failed before:
its outcome and the files it leaves.
-/
def finish (store : FileStore) :
    Except Failure (List Artifact × Report) → Except Failure Report × FileStore
  | .error failure => (.error failure, store)
  | .ok (artifacts, report) =>
      let (outcome, after) := writeFrom [] artifacts store
      (outcome.map fun _ => report, after)

theorem Yields.andFinish {part : Run α} {next : α → Run Report}
    {outcome : Except Failure α}
    {rest : α → Except Failure (List Artifact × Report)}
    (first : part.Yields store outcome store)
    (second : ∀ value, (next value).Yields store
      (finish store (rest value)).1 (finish store (rest value)).2) :
    (part >>= next).Yields store (finish store (outcome >>= rest)).1
      (finish store (outcome >>= rest)).2 := by
  cases outcome with
  | error failure => exact first.bind_error next
  | ok value => exact first.bind (second value)

/--
A run prepares its artifacts without touching the files, and then writes them.
-/
theorem yields_compare (settings : Settings) (store : FileStore) :
    (compare settings).Yields store
      (finish store (settings.prepare store)).1
      (finish store (settings.prepare store)).2 := by
  refine Yields.phase fun total => ?_
  refine (yields_loadBoth settings total store).andFinish fun images => ?_
  refine (yields_gate settings total store _ _).andFinish fun _ => ?_
  refine (yields_describeBoth settings total store _ _).andFinish
    fun segments => ?_
  refine Yields.bind (Yields.phase fun _ => yields_pure _ store) ?_
  refine (yields_render settings total store _ _ _).andFinish
    fun artifacts => ?_
  have written := yields_write total store artifacts
  simp only [pure, Except.pure, finish]
  cases outcome : (writeFrom [] artifacts store).1 with
  | error failure =>
      rw [outcome] at written
      exact written.bind_error _
  | ok _ =>
      rw [outcome] at written
      exact written.bind (yields_pure _ _)

end Run

namespace Settings

/-- The outcome of a run and the files it leaves. -/
theorem run_eq (settings : Settings) (store : FileStore) :
    (settings.run store).1 = (Run.finish store (settings.prepare store)).1 ∧
      (settings.run store).2.store =
        (Run.finish store (settings.prepare store)).2 := by
  rcases Run.yields_compare settings store PhaseLog.empty with ⟨log, run⟩
  rw [Settings.run, run]
  exact ⟨rfl, rfl⟩

end Settings

end ScreenCompare
