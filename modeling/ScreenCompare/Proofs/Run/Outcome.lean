import ScreenCompare.Proofs.Run

/-!
# How a run ends

A run ends with the first of these that applies: the old picture cannot be
loaded, the new one cannot, both are the same.  In none of these cases is a file
touched.  A run that succeeds has changed no file but those of its artifacts,
has left each artifact's canvas under its path, and has reported these paths and
the numbers of segments and pairs (`run_outcome_and_files`).
-/

namespace ScreenCompare

theorem bind_ne_error {ε α β : Type} {first : Except ε α}
    {next : α → Except ε β} {failure : ε} (firstNe : first ≠ .error failure)
    (nextNe : ∀ value, next value ≠ .error failure) :
    (first >>= next) ≠ .error failure := by
  cases first with
  | error other =>
      intro failed
      cases failed
      exact firstNe rfl
  | ok value => exact nextNe value

/-- The paths that a report lists. -/
def Report.paths (report : Report) : List String :=
  report.differencePath :: report.addedPath.toList ++
    report.deletedPath.toList ++ report.segmentPaths

namespace Run

variable {settings : Settings} {old new : LoadedImage}

/-! ## Only equal pictures are reported as the same -/

theorem mapError_misuse_ne_samePictures {α : Type} (outcome : Except Misuse α) :
    outcome.mapError Failure.misuse ≠ .error .samePictures := by
  cases outcome <;> nofun

theorem described_ne_samePictures (side : Side) (image : LoadedImage)
    (threshold : UInt8) :
    described side image threshold ≠ .error .samePictures :=
  bind_ne_error (mapError_misuse_ne_samePictures _) fun _ => nofun

theorem describedBoth_ne_samePictures :
    describedBoth settings old new ≠ .error .samePictures :=
  bind_ne_error (described_ne_samePictures _ _ _) fun _ =>
    bind_ne_error (described_ne_samePictures _ _ _) fun _ => nofun

theorem rendered_ne_samePictures {assignment : Assignment} :
    rendered settings old new assignment ≠ .error .samePictures :=
  bind_ne_error (mapError_misuse_ne_samePictures _) fun _ => nofun

/-! ## What has been described and rendered -/

theorem exists_of_describedBoth {oldSegments newSegments : List Segment}
    (done : describedBoth settings old new = .ok (oldSegments, newSegments)) :
    described .old old settings.threshold = .ok oldSegments ∧
      described .new new settings.threshold = .ok newSegments := by
  rcases exists_of_bind_eq_ok done with ⟨_, oldDone, done⟩
  rcases exists_of_bind_eq_ok done with ⟨_, newDone, done⟩
  cases done
  exact ⟨oldDone, newDone⟩

theorem exists_of_rendered {assignment : Assignment} {all : List Artifact}
    (done : rendered settings old new assignment = .ok all) :
    ∃ difference,
      old.color.renderDifference old.gray new.color assignment.new
        assignment.pairs = .ok difference ∧
      all = artifacts settings old new assignment difference := by
  rcases exists_of_bind_eq_ok done with ⟨difference, painted, done⟩
  cases done
  refine ⟨difference, ?_, rfl⟩
  cases outcome : old.color.renderDifference old.gray new.color assignment.new
      assignment.pairs with
  | error misuse =>
      rw [outcome] at painted
      cases painted
  | ok canvas =>
      rw [outcome] at painted
      cases painted
      rfl

end Run

namespace Settings

variable {settings : Settings} {store : FileStore} {old new : LoadedImage}

/-! ## Artifacts have different files -/

/-- The kinds of all artifacts there can be. -/
def artifactKinds : List String :=
  ["diff", "added", "deleted", "old_segments", "new_segments"]

theorem artifactPath_apart {first second : String}
    (firstNoSlash : '/' ∉ ("_" ++ first ++ ".png").toList)
    (secondNoSlash : '/' ∉ ("_" ++ second ++ ".png").toList)
    (different : "_" ++ first ++ ".png" ≠ "_" ++ second ++ ".png")
    (settings : Settings) :
    FileStore.Apart (settings.artifactPath first)
      (settings.artifactPath second) := by
  have whole (kind : String) : settings.artifactPath kind =
      settings.outputPrefix ++ ("_" ++ kind ++ ".png") := by
    rw [artifactPath, String.append_assoc, String.append_assoc,
      String.append_assoc]
  have filled (kind : String) : "_" ++ kind ++ ".png" ≠ "" := by
    simp
  rw [whole, whole]
  exact FileStore.apart_append (filled first) (filled second) firstNoSlash
    secondNoSlash different

theorem artifactPaths_apart (settings : Settings) :
    settings.artifactPaths.Pairwise FileStore.Apart := by
  have kinds : artifactKinds.Pairwise fun first second =>
      '/' ∉ ("_" ++ first ++ ".png").toList ∧
        '/' ∉ ("_" ++ second ++ ".png").toList ∧
        "_" ++ first ++ ".png" ≠ "_" ++ second ++ ".png" := by
    decide
  have all :
      (artifactKinds.map settings.artifactPath).Pairwise FileStore.Apart :=
    List.pairwise_map.2 (kinds.imp fun apart =>
      artifactPath_apart apart.1 apart.2.1 apart.2.2 settings)
  have among : settings.artifactPaths.Sublist
      (artifactKinds.map settings.artifactPath) := by
    rw [artifactPaths, artifactKinds]
    cases settings.createChangeImage <;> cases settings.saveSegments <;> simp
  exact all.sublist among

theorem paths_report (oldSegments newSegments : List Segment)
    (assignment : Assignment) :
    (settings.report oldSegments newSegments assignment).paths =
      settings.artifactPaths := by
  rw [Report.paths, report, artifactPaths]
  cases settings.createChangeImage <;> cases settings.saveSegments <;> rfl

/-! ## What ends a run before it describes the pictures -/

theorem prepare_of_old_error {failure : Failure}
    (oldFailed : store.load settings.oldPath = .error failure) :
    settings.prepare store = .error failure := by
  rw [prepare, Run.loaded, oldFailed]
  rfl

theorem prepare_of_new_error {failure : Failure}
    (oldLoaded : store.load settings.oldPath = .ok old)
    (newFailed : store.load settings.newPath = .error failure) :
    settings.prepare store = .error failure := by
  rw [prepare, Run.loaded, oldLoaded, newFailed]
  rfl

section Loaded

variable (oldLoaded : store.load settings.oldPath = .ok old)
  (newLoaded : store.load settings.newPath = .ok new)

include oldLoaded newLoaded

theorem not_isEmpty_of_loaded :
    ¬ (old.color.IsEmpty ∨ new.color.IsEmpty) :=
  not_or.2 ⟨FileStore.not_isEmpty_of_load oldLoaded,
    FileStore.not_isEmpty_of_load newLoaded⟩

theorem prepare_of_agrees (agrees : old.color.Agrees new.color) :
    settings.prepare store = .error .samePictures := by
  have same := Picture.compare_eq_same_iff.2
    ⟨not_isEmpty_of_loaded oldLoaded newLoaded, agrees⟩
  rw [prepare, Run.loaded, oldLoaded, newLoaded]
  simp only [bind, Except.bind, pure, Except.pure, Run.judged, same]

theorem prepare_ne_samePictures (disagree : ¬ old.color.Agrees new.color) :
    settings.prepare store ≠ .error .samePictures := by
  rw [prepare_of_ne oldLoaded newLoaded
    fun equal => disagree (Raster.agrees_iff_eq.2 equal)]
  refine bind_ne_error Run.describedBoth_ne_samePictures fun segments => ?_
  exact bind_ne_error Run.rendered_ne_samePictures fun _ => nofun

theorem run_eq_samePictures_iff :
    (settings.run store).1 = .error .samePictures ↔
      old.color.Agrees new.color := by
  constructor
  · intro same
    by_contra disagree
    cases prepared : settings.prepare store with
    | error failure =>
        rw [(store_of_prepare_error prepared).1] at same
        cases same
        exact prepare_ne_samePictures oldLoaded newLoaded disagree prepared
    | ok both =>
        obtain ⟨artifacts, report⟩ := both
        rw [(run_of_prepare prepared).1] at same
        cases written : Run.writeFrom [] artifacts store with
        | mk result after =>
            rw [written] at same
            cases result with
            | ok _ => cases same
            | error failure =>
                cases same
                rcases Run.writeFrom_error (filled_of_prepare prepared) written
                  with ⟨_, _, _, _, _, reason, _⟩
                cases reason
  · intro agrees
    exact (store_of_prepare_error
      (prepare_of_agrees oldLoaded newLoaded agrees)).1

end Loaded

/-! ## What a successful run leaves -/

theorem exists_of_run_ok {report : Report}
    (succeeded : (settings.run store).1 = .ok report) :
    ∃ artifacts, settings.prepare store = .ok (artifacts, report) ∧
      store.SavedAt artifacts (settings.run store).2.store := by
  cases prepared : settings.prepare store with
  | error failure =>
      rw [(store_of_prepare_error prepared).1] at succeeded
      cases succeeded
  | ok both =>
      obtain ⟨artifacts, prepares⟩ := both
      have ⟨outcome, files⟩ := run_of_prepare prepared
      rw [succeeded] at outcome
      cases written : Run.writeFrom [] artifacts store with
      | mk result after =>
          rw [written] at outcome files
          cases result with
          | error failure => cases outcome
          | ok _ =>
              cases outcome
              refine ⟨artifacts, rfl, ?_⟩
              rw [files]
              refine Run.savedAt_of_writeFrom_ok (filled_of_prepare prepared)
                ?_ written
              rw [paths_of_prepare prepared]
              exact artifactPaths_apart settings

/--
A run that has prepared its artifacts succeeds if all their paths can be
written.
-/
theorem run_ok_of_writable {artifacts : List Artifact} {report : Report}
    (prepared : settings.prepare store = .ok (artifacts, report))
    (writables : ∀ path ∈ settings.artifactPaths, ∃ place,
      store.writable path = .ok place) :
    (settings.run store).1 = .ok report := by
  rw [← paths_of_prepare prepared, List.forall_mem_map] at writables
  rw [(run_of_prepare prepared).1,
    Run.writeFrom_ok_of_writable (filled_of_prepare prepared) writables]
  rfl

/--
A run fails like the load of the old picture if that fails, else like the load
of the new one if that fails, and else because of equal pictures exactly if
their sizes and cells agree; the first comparison never finds an empty picture.
No file is touched in these cases.

A successful run has saved the artifacts that were asked for, each with the
canvas rendered for it, and has left all other places alone.  Its report lists
exactly their paths and counts the segments and the pairs.
-/
theorem run_outcome_and_files (settings : Settings) (store : FileStore) :
    (∀ failure, store.load settings.oldPath = .error failure →
      (settings.run store).1 = .error failure ∧
        (settings.run store).2.store = store) ∧
    (∀ old failure, store.load settings.oldPath = .ok old →
      store.load settings.newPath = .error failure →
        (settings.run store).1 = .error failure ∧
          (settings.run store).2.store = store) ∧
    (∀ old new, store.load settings.oldPath = .ok old →
      store.load settings.newPath = .ok new →
        old.color.compare new.color ≠ .emptyPicture ∧
        ((settings.run store).1 = .error .samePictures ↔
          old.color.Agrees new.color) ∧
        (old.color.Agrees new.color →
          (settings.run store).2.store = store)) ∧
    ∀ report, (settings.run store).1 = .ok report →
      ∃ old new oldSegments newSegments difference,
        store.load settings.oldPath = .ok old ∧
        store.load settings.newPath = .ok new ∧
        Run.described .old old settings.threshold = .ok oldSegments ∧
        Run.described .new new settings.threshold = .ok newSegments ∧
        let assignment := (MatchRule.standard settings.crossCheck).assign
          oldSegments newSegments
        let artifacts :=
          Run.artifacts settings old new assignment difference
        old.color.renderDifference old.gray new.color assignment.new
          assignment.pairs = .ok difference ∧
        store.SavedAt artifacts (settings.run store).2.store ∧
        (∀ artifact ∈ artifacts,
          (settings.run store).2.store.resolve artifact.path =
            .ok (.file (.image (.color artifact.canvas)))) ∧
        report = settings.report oldSegments newSegments assignment ∧
        report.paths = artifacts.map Artifact.path ∧
        report.oldSegments = oldSegments.length ∧
        report.newSegments = newSegments.length ∧
        report.matched = assignment.pairs.length := by
  refine ⟨?oldFails, ?newFails, ?bothLoad, ?succeeds⟩
  case oldFails =>
    intro failure oldFailed
    exact store_of_prepare_error (prepare_of_old_error oldFailed)
  case newFails =>
    intro old failure oldLoaded newFailed
    exact store_of_prepare_error (prepare_of_new_error oldLoaded newFailed)
  case bothLoad =>
    intro old new oldLoaded newLoaded
    refine ⟨?_, run_eq_samePictures_iff oldLoaded newLoaded, ?_⟩
    · rw [Ne, Picture.compare_eq_emptyPicture_iff]
      exact not_isEmpty_of_loaded oldLoaded newLoaded
    · intro agrees
      exact (store_of_prepare_error
        (prepare_of_agrees oldLoaded newLoaded agrees)).2
  case succeeds =>
    intro report succeeded
    rcases exists_of_run_ok succeeded with ⟨artifacts, prepared, saved⟩
    rcases exists_of_prepare prepared with
      ⟨old, new, oldSegments, newSegments, oldLoaded, newLoaded, _, segmented,
        rendered, rfl⟩
    rcases Run.exists_of_describedBoth segmented with
      ⟨oldDescribed, newDescribed⟩
    rcases Run.exists_of_rendered rendered with ⟨difference, painted, rfl⟩
    refine ⟨old, new, oldSegments, newSegments, difference, oldLoaded,
      newLoaded, oldDescribed, newDescribed, painted, saved,
      fun artifact member => saved.resolve member, rfl, ?_, rfl, rfl, rfl⟩
    rw [paths_report, paths_of_prepare prepared]

/-! ## A run that saves everything -/

/-- A black and a white picture. -/
def twoPictures : FileStore where
  entries :=
    [(["old.png"], .file (.image (.gray (Raster.filled 1 1 0)))),
      (["new.png"], .file (.image (.gray (Raster.filled 1 1 255))))]

/-- Settings that ask for all artifacts. -/
def everything : Settings :=
  { standard "old.png" "new.png" with
    outputPrefix := "out"
    createChangeImage := true
    saveSegments := true }

theorem exists_prepare_everything :
    ∃ artifacts report,
      everything.prepare twoPictures = .ok (artifacts, report) := by
  have oldLoaded : twoPictures.load everything.oldPath = .ok (grayCell 0) := rfl
  have newLoaded : twoPictures.load everything.newPath =
      .ok (grayCell 255) := rfl
  rw [prepare_of_ne oldLoaded newLoaded black_ne_white, ← Prod.exists']
  exact exists_of_isOk (by decide +kernel)

/--
A black and a white picture differ, and all five artifacts are found under the
paths that are reported.
-/
theorem run_saves_five_artifacts :
    ∃ report, (everything.run twoPictures).1 = .ok report ∧
      report.paths = everything.artifactPaths ∧
      ∀ path ∈ report.paths, ∃ canvas,
        (everything.run twoPictures).2.store.resolve path =
          .ok (.file (.image (.color canvas))) := by
  rcases exists_prepare_everything with ⟨artifacts, report, prepared⟩
  have writables : ∀ path ∈ everything.artifactPaths, ∃ place,
      twoPictures.writable path = .ok place := by
    have paths : everything.artifactPaths =
        ["out_diff.png", "out_added.png", "out_deleted.png",
          "out_old_segments.png", "out_new_segments.png"] := rfl
    rw [paths]
    simp only [List.forall_mem_cons]
    exact ⟨⟨_, rfl⟩, ⟨_, rfl⟩, ⟨_, rfl⟩, ⟨_, rfl⟩, ⟨_, rfl⟩, nofun⟩
  have succeeded := run_ok_of_writable prepared writables
  rcases (run_outcome_and_files everything twoPictures).2.2.2 report succeeded
    with ⟨_, _, _, _, _, _, _, _, _, _, _, found, _, paths, _⟩
  refine ⟨report, succeeded, ?_, ?_⟩
  · rw [paths]
    rfl
  · rw [paths, List.forall_mem_map]
    intro artifact member
    exact ⟨artifact.canvas, found artifact member⟩

end Settings

end ScreenCompare
