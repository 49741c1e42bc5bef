import ScreenCompare.Proofs.Canvas
import ScreenCompare.Proofs.Gate
import ScreenCompare.Proofs.Run.Stages
import ScreenCompare.Proofs.Run.Write

/-!
# What a failed run leaves behind

A run that fails before the first write leaves the files alone.  One that cannot
write an artifact clears the paths of those it has written before, so a file
that already existed under such a path is lost (`run_error_clears_written`).
-/

namespace ScreenCompare

theorem exists_of_bind_eq_ok {ε α β : Type} {first : Except ε α}
    {next : α → Except ε β} {result : β}
    (ok : (first >>= next) = .ok result) :
    ∃ value, first = .ok value ∧ next value = .ok result := by
  cases first with
  | error failure => cases ok
  | ok value => exact ⟨value, rfl, ok⟩

theorem exists_of_isOk {ε α : Type} {outcome : Except ε α}
    (done : outcome.isOk = true) : ∃ value, outcome = .ok value := by
  cases outcome with
  | error failure => cases done
  | ok value => exact ⟨value, rfl⟩

/-! ## Loaded images have cells -/

theorem FileContent.not_isEmpty_of_decode {content : FileContent}
    {image : LoadedImage} (decoded : content.decode = .ok image) :
    ¬ image.color.IsEmpty := by
  have checked : ∃ data : ImageData,
      (if data.colors.IsEmpty then .error .emptyImage
        else .ok { color := data.colors, gray := data.luma }) =
        (.ok image : Except DecodeFault LoadedImage) := by
    cases content with
    | bytes raw =>
        rcases exists_of_bind_eq_ok decoded with ⟨data, _, checked⟩
        exact ⟨data, checked⟩
    | image data => exact ⟨data, decoded⟩
  rcases checked with ⟨data, checked⟩
  split at checked
  · cases checked
  · next filled =>
      cases checked
      exact filled

theorem FileStore.not_isEmpty_of_load {store : FileStore} {path : String}
    {image : LoadedImage} (loaded : store.load path = .ok image) :
    ¬ image.color.IsEmpty := by
  rw [load] at loaded
  split at loaded
  · cases loaded
  · cases loaded
  · next content _ =>
      cases decoded : content.decode with
      | error fault =>
          rw [decoded] at loaded
          cases loaded
      | ok decodedImage =>
          rw [decoded] at loaded
          cases loaded
          exact FileContent.not_isEmpty_of_decode decoded

namespace Settings

variable {settings : Settings} {store : FileStore}
  {artifacts : List Artifact} {report : Report}

/-! ## What has been prepared -/

/-- The paths of the artifacts that the settings ask for. -/
def artifactPaths (settings : Settings) : List String :=
  settings.artifactPath "diff" ::
    (if settings.createChangeImage then
      [settings.artifactPath "added", settings.artifactPath "deleted"]
    else []) ++
    (if settings.saveSegments then
      [settings.artifactPath "old_segments",
        settings.artifactPath "new_segments"]
    else [])

theorem exists_of_prepare
    (prepared : settings.prepare store = .ok (artifacts, report)) :
    ∃ old new oldSegments newSegments,
      store.load settings.oldPath = .ok old ∧
      store.load settings.newPath = .ok new ∧
      old.color.compare new.color = .different ∧
      Run.describedBoth settings old new = .ok (oldSegments, newSegments) ∧
      Run.rendered settings old new
        ((MatchRule.standard settings.crossCheck).assign
          oldSegments newSegments) = .ok artifacts ∧
      report = settings.report oldSegments newSegments
        ((MatchRule.standard settings.crossCheck).assign
          oldSegments newSegments) := by
  rcases exists_of_bind_eq_ok prepared with ⟨⟨old, new⟩, loaded, prepared⟩
  rcases exists_of_bind_eq_ok prepared with ⟨_, judged, prepared⟩
  rcases exists_of_bind_eq_ok prepared with
    ⟨⟨oldSegments, newSegments⟩, described, prepared⟩
  rcases exists_of_bind_eq_ok prepared with ⟨_, rendered, prepared⟩
  cases prepared
  rcases exists_of_bind_eq_ok loaded with ⟨_, oldLoaded, loaded⟩
  rcases exists_of_bind_eq_ok loaded with ⟨_, newLoaded, loaded⟩
  cases loaded
  refine ⟨old, new, oldSegments, newSegments, oldLoaded, newLoaded, ?_,
    described, rendered, rfl⟩
  rw [Run.judged] at judged
  split at judged
  · assumption
  · cases judged
  · cases judged

theorem paths_of_rendered {old new : LoadedImage} {assignment : Assignment}
    (rendered : Run.rendered settings old new assignment = .ok artifacts) :
    artifacts.map Artifact.path = settings.artifactPaths := by
  rcases exists_of_bind_eq_ok rendered with ⟨difference, _, rendered⟩
  cases rendered
  rw [Run.artifacts, artifactPaths]
  cases settings.createChangeImage <;> cases settings.saveSegments <;> rfl

theorem filled_of_rendered {old new : LoadedImage} {assignment : Assignment}
    (oldFilled : ¬ old.color.IsEmpty) (newFilled : ¬ new.color.IsEmpty)
    (rendered : Run.rendered settings old new assignment = .ok artifacts) :
    ∀ artifact ∈ artifacts, ¬ artifact.canvas.IsEmpty := by
  rcases exists_of_bind_eq_ok rendered with ⟨difference, painted, rendered⟩
  cases rendered
  have sameSize : difference.SameSize old.color := by
    cases done : old.color.renderDifference old.gray new.color assignment.new
        assignment.pairs with
    | error misuse =>
        rw [done] at painted
        cases painted
    | ok canvas =>
        rw [done] at painted
        cases painted
        exact Picture.sameSize_of_renderDifference done
  have oldCanvas {canvas : Picture} (same : canvas.SameSize old.color) :
      ¬ canvas.IsEmpty := by
    rwa [same.isEmpty_iff]
  have newCanvas {canvas : Picture} (same : canvas.SameSize new.color) :
      ¬ canvas.IsEmpty := by
    rwa [same.isEmpty_iff]
  simp only [Run.artifacts, List.cons_append, List.forall_mem_cons,
    List.forall_mem_append]
  refine ⟨oldCanvas sameSize, ?_, ?_⟩
  · split
    · simp only [List.forall_mem_cons]
      exact ⟨newCanvas (Picture.sameSize_outlineUnmatched ..),
        oldCanvas (Picture.sameSize_outlineUnmatched ..), nofun⟩
    · exact nofun
  · split
    · simp only [List.forall_mem_cons]
      exact ⟨oldCanvas (Picture.sameSize_outlineAll ..),
        newCanvas (Picture.sameSize_outlineAll ..), nofun⟩
    · exact nofun

theorem filled_of_prepare
    (prepared : settings.prepare store = .ok (artifacts, report)) :
    ∀ artifact ∈ artifacts, ¬ artifact.canvas.IsEmpty := by
  rcases exists_of_prepare prepared with
    ⟨_, _, _, _, oldLoaded, newLoaded, _, _, rendered, _⟩
  exact filled_of_rendered (FileStore.not_isEmpty_of_load oldLoaded)
    (FileStore.not_isEmpty_of_load newLoaded) rendered

theorem paths_of_prepare
    (prepared : settings.prepare store = .ok (artifacts, report)) :
    artifacts.map Artifact.path = settings.artifactPaths := by
  rcases exists_of_prepare prepared with ⟨_, _, _, _, _, _, _, _, rendered, _⟩
  exact paths_of_rendered rendered

/-! ## How a run ends -/

section End

variable {state : RunState}

theorem store_of_prepare_error {failure : Failure}
    (unprepared : settings.prepare store = .error failure) :
    (settings.run store).1 = .error failure ∧
      (settings.run store).2.store = store := by
  have run := settings.run_eq store
  rwa [unprepared] at run

theorem run_of_prepare
    (prepared : settings.prepare store = .ok (artifacts, report)) :
    (settings.run store).1 =
        ((Run.writeFrom [] artifacts store).1.map fun _ => report) ∧
      (settings.run store).2.store = (Run.writeFrom [] artifacts store).2 := by
  have run := settings.run_eq store
  rwa [prepared] at run

/-- A run succeeds only if all its artifacts can be written. -/
theorem writable_of_run_ok {report : Report}
    (succeeded : settings.run store = (.ok report, state)) :
    ∀ path ∈ settings.artifactPaths, ∃ place,
      store.writable path = .ok place := by
  cases prepared : settings.prepare store with
  | error failure =>
      have failed := (store_of_prepare_error prepared).1
      rw [succeeded] at failed
      cases failed
  | ok both =>
      obtain ⟨artifacts, report⟩ := both
      have outcome := (run_of_prepare prepared).1
      rw [succeeded] at outcome
      cases written : Run.writeFrom [] artifacts store with
      | mk result after =>
          rw [written] at outcome
          cases result with
          | error failure => cases outcome
          | ok done =>
              rw [← paths_of_prepare prepared, List.forall_mem_map]
              exact Run.writable_of_writeFrom_ok (filled_of_prepare prepared)
                written

/--
A run that fails although everything has been prepared has come to the first
path that cannot be written, and has cleared the paths before it.
-/
theorem cleared_of_run_error {failure : Failure}
    (prepared : settings.prepare store = .ok (artifacts, report))
    (failed : settings.run store = (.error failure, state)) :
    ∃ saved path rest fault,
      settings.artifactPaths = saved ++ path :: rest ∧
      failure = .cannotWrite path (.path fault) ∧
      (∀ earlier ∈ saved, ∃ place, store.writable earlier = .ok place) ∧
      (∀ place, store.writable path ≠ .ok place) ∧
      store.ClearedAt saved state.store := by
  have ⟨outcome, files⟩ := run_of_prepare prepared
  rw [failed] at outcome files
  cases written : Run.writeFrom [] artifacts store with
  | mk result after =>
      rw [written] at outcome files
      cases result with
      | ok _ => cases outcome
      | error reason =>
          cases outcome
          rw [files, ← paths_of_prepare prepared]
          exact Run.writeFrom_error (filled_of_prepare prepared) written

/--
A failed run has cleared the paths before the one that cannot be written, or
none if it has failed for another reason.
-/
theorem exists_saved_of_run_error {failure : Failure}
    (failed : settings.run store = (.error failure, state)) :
    ∃ saved rest, settings.artifactPaths = saved ++ rest ∧ rest ≠ [] ∧
      (saved = [] ∨ ∃ path others fault, rest = path :: others ∧
        failure = .cannotWrite path (.path fault)) ∧
      store.ClearedAt saved state.store ∧
      ∀ path ∈ saved, ∃ place, store.writable path = .ok place := by
  cases prepared : settings.prepare store with
  | error reason =>
      have same := (store_of_prepare_error prepared).2
      rw [failed] at same
      refine ⟨[], settings.artifactPaths, rfl, List.cons_ne_nil _ _,
        Or.inl rfl, ?_, nofun⟩
      rw [same]
      exact FileStore.ClearedAt.refl store
  | ok both =>
      rcases cleared_of_run_error prepared failed with
        ⟨saved, path, rest, fault, paths, reason, writables, _, cleared⟩
      exact ⟨saved, path :: rest, paths, List.cons_ne_nil _ _,
        Or.inr ⟨path, rest, fault, rfl, reason⟩, cleared, writables⟩

/--
A failed run clears the paths of the artifacts it has written, which are those
before the one that cannot be written, and leaves everything else alone.  If no
file was under the paths of its artifacts, all is as it was.
-/
theorem run_error_clears_written {failure : Failure}
    (failed : settings.run store = (.error failure, state)) :
    (∃ saved rest, settings.artifactPaths = saved ++ rest ∧ rest ≠ [] ∧
      (saved = [] ∨ ∃ path others fault, rest = path :: others ∧
        failure = .cannotWrite path (.path fault)) ∧
      store.ClearedAt saved state.store ∧
      ∀ path ∈ saved, ∃ place, store.writable path = .ok place ∧
        store.get? place ≠ some .directory ∧
        state.store.get? place = none) ∧
      ((∀ path ∈ settings.artifactPaths, ∀ place,
          store.writable path = .ok place → store.get? place = none) →
        ∀ place, state.store.get? place = store.get? place) := by
  rcases exists_saved_of_run_error failed with
    ⟨saved, rest, paths, unfinished, blocked, cleared, writables⟩
  constructor
  · refine ⟨saved, rest, paths, unfinished, blocked, cleared, ?_⟩
    intro path member
    rcases writables path member with ⟨place, opened⟩
    exact ⟨place, opened, FileStore.not_directory_of_writable opened,
      cleared.cleared path member place opened⟩
  · intro free
    apply cleared.get?_eq_of_free
    intro path member
    exact free path (paths ▸ List.mem_append_left _ member)

end End

/-- Different pictures are segmented, matched and rendered. -/
theorem prepare_of_ne {old new : LoadedImage}
    (oldLoaded : store.load settings.oldPath = .ok old)
    (newLoaded : store.load settings.newPath = .ok new)
    (different : old.color ≠ new.color) :
    settings.prepare store = (do
      let (oldSegments, newSegments) ← Run.describedBoth settings old new
      let assignment :=
        (MatchRule.standard settings.crossCheck).assign oldSegments newSegments
      let artifacts ← Run.rendered settings old new assignment
      return (artifacts,
        settings.report oldSegments newSegments assignment)) := by
  have filled : ¬ (old.color.IsEmpty ∨ new.color.IsEmpty) :=
    not_or.2 ⟨FileStore.not_isEmpty_of_load oldLoaded,
      FileStore.not_isEmpty_of_load newLoaded⟩
  rw [prepare, Run.loaded, oldLoaded, newLoaded]
  simp only [bind, Except.bind, pure, Except.pure, Run.judged,
    Picture.compare_of_ne filled different]

/-- A picture of one gray cell, as it is loaded. -/
def grayCell (brightness : UInt8) : LoadedImage :=
  let data : ImageData := .gray (Raster.filled 1 1 brightness)
  { color := data.colors, gray := data.luma }

theorem black_ne_white : (grayCell 0).color ≠ (grayCell 255).color := by
  decide +kernel

/-! ## A run that is blocked by a directory -/

/--
A black and a white picture, a directory at the path of the second artifact, and
whatever else there is.
-/
def blockedStore (others : List (List String × Entry)) : FileStore where
  entries :=
    [(["old.png"], .file (.image (.gray (Raster.filled 1 1 0)))),
      (["new.png"], .file (.image (.gray (Raster.filled 1 1 255)))),
      (["out_added.png"], .directory)] ++ others

/-- Settings that ask for the canvases of unmatched segments. -/
def blockedSettings : Settings :=
  { standard "old.png" "new.png" with
    outputPrefix := "out"
    createChangeImage := true }

theorem blockedSettings_artifactPaths :
    blockedSettings.artifactPaths =
      ["out_diff.png", "out_added.png", "out_deleted.png"] := by
  rfl

theorem writable_blocked (others : List (List String × Entry)) :
    (blockedStore others).writable "out_added.png" = .error .isDirectory := by
  rfl

theorem exists_prepare_blocked (others : List (List String × Entry)) :
    ∃ artifacts report,
      blockedSettings.prepare (blockedStore others) =
        .ok (artifacts, report) := by
  have oldLoaded : (blockedStore others).load blockedSettings.oldPath =
      .ok (grayCell 0) := rfl
  have newLoaded : (blockedStore others).load blockedSettings.newPath =
      .ok (grayCell 255) := rfl
  rw [prepare_of_ne oldLoaded newLoaded black_ne_white, ← Prod.exists']
  exact exists_of_isOk (by decide +kernel)

theorem exists_run_blocked (others : List (List String × Entry)) :
    ∃ failure state,
      blockedSettings.run (blockedStore others) = (.error failure, state) := by
  cases run : blockedSettings.run (blockedStore others) with
  | mk outcome state =>
      cases outcome with
      | error failure => exact ⟨failure, state, rfl⟩
      | ok report =>
          have opens := writable_of_run_ok run
          rw [blockedSettings_artifactPaths] at opens
          rcases opens "out_added.png" (by simp) with ⟨place, opened⟩
          rw [writable_blocked] at opened
          cases opened

/-- If nothing was at the path of the first artifact, all is as it was. -/
theorem blocked_run_leaves_no_trace :
    ∃ failure state,
      blockedSettings.run (blockedStore []) = (.error failure, state) ∧
        ∀ place, state.store.get? place = (blockedStore []).get? place := by
  rcases exists_run_blocked [] with ⟨failure, state, failed⟩
  refine ⟨failure, state, failed, (run_error_clears_written failed).2 ?_⟩
  have difference : (blockedStore []).writable "out_diff.png" =
      .ok ["out_diff.png"] := rfl
  have deleted : (blockedStore []).writable "out_deleted.png" =
      .ok ["out_deleted.png"] := rfl
  rw [blockedSettings_artifactPaths]
  simp only [List.forall_mem_cons, difference, deleted, writable_blocked,
    Except.ok.injEq]
  refine ⟨?_, nofun, ?_, nofun⟩
  · rintro _ rfl
    rfl
  · rintro _ rfl
    rfl

/-- A file at the path of the first artifact is overwritten and then removed. -/
theorem blocked_run_removes_existing_file :
    let store :=
      blockedStore [(["out_diff.png"], .file (.bytes [1, 2, 3]))]
    ∃ failure state,
      blockedSettings.run store = (.error failure, state) ∧
        store.get? ["out_diff.png"] = some (.file (.bytes [1, 2, 3])) ∧
        state.store.get? ["out_diff.png"] = none := by
  intro store
  rcases exists_prepare_blocked
      [(["out_diff.png"], .file (.bytes [1, 2, 3]))] with
    ⟨artifacts, report, prepared⟩
  rcases exists_run_blocked
      [(["out_diff.png"], .file (.bytes [1, 2, 3]))] with
    ⟨failure, state, failed⟩
  refine ⟨failure, state, failed, rfl, ?_⟩
  have opened : store.writable "out_diff.png" = .ok ["out_diff.png"] := rfl
  rcases cleared_of_run_error prepared failed with
    ⟨saved, path, rest, _, paths, _, _, closed, cleared⟩
  rw [blockedSettings_artifactPaths] at paths
  -- The first artifact can be written, so it is not the one that failed.
  cases saved with
  | nil =>
      obtain ⟨rfl, _⟩ := List.cons.inj paths
      exact absurd opened (closed _)
  | cons first others =>
      obtain ⟨rfl, _⟩ := List.cons.inj paths
      exact cleared.cleared _ (List.mem_cons_self ..) _ opened

end Settings

end ScreenCompare
