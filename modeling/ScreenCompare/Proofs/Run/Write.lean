import ScreenCompare.Proofs.File.Path
import ScreenCompare.Run

/-!
# Writing all canvases or none

Canvases with cells are written one after another until a path cannot be
written.  Then the paths before it are cleared, whatever they held at first, and
everything else is as it was (`writeFrom_error`).  If all paths can be written
and are apart, every canvas is found under its path in the end and everything
else is as it was (`savedAt_of_writeFrom_ok`).
-/

namespace ScreenCompare

namespace FileStore

/--
Some artifacts have been saved: each of them is where its path led before, and
places to which none of their paths led hold what they held before.
-/
structure SavedAt (before : FileStore) (artifacts : List Artifact)
    (after : FileStore) : Prop where
  saved : ∀ artifact ∈ artifacts, ∃ place,
    before.writable artifact.path = .ok place ∧
      after.get? place = some (.file (.image (.color artifact.canvas)))
  kept : ∀ place,
    (∀ artifact ∈ artifacts, before.writable artifact.path ≠ .ok place) →
      after.get? place = before.get? place

namespace SavedAt

variable {first second : FileStore} {artifacts : List Artifact}

theorem refl (store : FileStore) : store.SavedAt [] store :=
  ⟨nofun, fun _ _ => rfl⟩

/-- An artifact stays saved while others are saved elsewhere. -/
theorem of_put {artifact : Artifact} {place : List String}
    (opened : first.writable artifact.path = .ok place)
    (elsewhere : ∀ other ∈ artifacts, first.writable other.path ≠ .ok place)
    (right : (first.put place
      (.file (.image (.color artifact.canvas)))).SavedAt artifacts second) :
    first.SavedAt (artifact :: artifacts) second := by
  have free := not_directory_of_writable opened
  have same := sameDirectories_put free (.image (.color artifact.canvas))
  constructor
  · rw [List.forall_mem_cons]
    constructor
    · refine ⟨place, opened, ?_⟩
      rw [right.kept place fun other member otherOpened =>
          elsewhere other member (same.writable otherOpened),
        get?_put_of_free free, if_pos rfl]
    · intro other member
      rcases right.saved other member with ⟨otherPlace, otherOpened, held⟩
      exact ⟨otherPlace, same.writable otherOpened, held⟩
  · intro otherPlace apart
    rw [List.forall_mem_cons] at apart
    have different : otherPlace ≠ place := by
      rintro rfl
      exact apart.1 opened
    rw [right.kept otherPlace fun other member otherOpened =>
        apart.2 other member (same.writable otherOpened),
      get?_put_of_free free, if_neg different]

theorem sameDirectories (saved : first.SavedAt artifacts second) :
    first.SameDirectories second := by
  intro place
  by_cases leads : ∃ artifact ∈ artifacts,
      first.writable artifact.path = .ok place
  · rcases leads with ⟨artifact, member, opened⟩
    rcases saved.saved artifact member with ⟨samePlace, sameOpened, held⟩
    obtain rfl := Except.ok.inj (opened.symm.trans sameOpened)
    rw [held]
    exact iff_of_false (not_directory_of_writable opened) nofun
  · rw [saved.kept place fun artifact member opened =>
      leads ⟨artifact, member, opened⟩]

/-- Opening the path of a saved artifact yields its canvas. -/
theorem resolve (saved : first.SavedAt artifacts second) {artifact : Artifact}
    (member : artifact ∈ artifacts) :
    second.resolve artifact.path =
      .ok (.file (.image (.color artifact.canvas))) := by
  rcases saved.saved artifact member with ⟨place, opened, held⟩
  exact resolve_of_writable (saved.sameDirectories.writable opened) held

end SavedAt

end FileStore

namespace Run

variable {artifacts : List Artifact} {written : List String}
  {store after : FileStore} {failure : Failure}

theorem writeFrom_cons_of_writable {artifact : Artifact} {place : List String}
    (filled : ¬ artifact.canvas.IsEmpty)
    (opened : store.writable artifact.path = .ok place) :
    writeFrom written (artifact :: artifacts) store =
      writeFrom (written ++ [artifact.path]) artifacts
        (store.put place (.file (.image (.color artifact.canvas)))) := by
  rw [writeFrom, FileStore.save_of_writable filled opened]

theorem writeFrom_cons_of_not_writable {artifact : Artifact} {fault : PathFault}
    (closed : store.writable artifact.path = .error fault) :
    writeFrom written (artifact :: artifacts) store =
      (.error (.cannotWrite artifact.path (.path fault)),
        written.foldl FileStore.remove store) := by
  rw [writeFrom, FileStore.save_of_not_writable closed]

/--
A write that fails has come to the first path that cannot be written, and has
cleared those before it.
-/
theorem writeFrom_error
    (filled : ∀ artifact ∈ artifacts, ¬ artifact.canvas.IsEmpty)
    (failed : writeFrom written artifacts store = (.error failure, after)) :
    ∃ saved path rest fault,
      artifacts.map Artifact.path = saved ++ path :: rest ∧
      failure = .cannotWrite path (.path fault) ∧
      (∀ earlier ∈ saved, ∃ place, store.writable earlier = .ok place) ∧
      (∀ place, store.writable path ≠ .ok place) ∧
      store.ClearedAt (written ++ saved) after := by
  induction artifacts generalizing written store with
  | nil => cases failed
  | cons artifact rest inductionHypothesis =>
      rw [List.forall_mem_cons] at filled
      cases opened : store.writable artifact.path with
      | error fault =>
          rw [writeFrom_cons_of_not_writable opened] at failed
          cases failed
          refine ⟨[], artifact.path, rest.map Artifact.path, fault, rfl, rfl,
            nofun, ?_, ?_⟩
          · rw [opened]
            nofun
          · rw [List.append_nil]
            exact FileStore.clearedAt_foldl_remove written store
      | ok place =>
          rw [writeFrom_cons_of_writable filled.1 opened] at failed
          rcases inductionHypothesis filled.2 failed with
            ⟨saved, path, others, fault, paths, reason, writables, closed,
              cleared⟩
          have same := FileStore.sameDirectories_put
            (FileStore.not_directory_of_writable opened)
            (.image (.color artifact.canvas))
          refine ⟨artifact.path :: saved, path, others, fault, ?_, reason, ?_,
            ?_, ?_⟩
          · rw [List.map_cons, paths, List.cons_append]
          · rw [List.forall_mem_cons]
            refine ⟨⟨place, opened⟩, ?_⟩
            intro earlier member
            rcases writables earlier member with ⟨found, there⟩
            exact ⟨found, same.writable there⟩
          · intro found there
            exact closed found (same.symm.writable there)
          · rw [List.append_cons]
            refine cleared.of_put opened ?_
            exact List.mem_append_left _ (List.mem_append_right _
              (List.mem_singleton_self _))

/-- Only if all paths can be written does a write succeed. -/
theorem writable_of_writeFrom_ok
    (filled : ∀ artifact ∈ artifacts, ¬ artifact.canvas.IsEmpty)
    (done : writeFrom written artifacts store = (.ok (), after)) :
    ∀ artifact ∈ artifacts, ∃ place,
      store.writable artifact.path = .ok place := by
  induction artifacts generalizing written store with
  | nil => exact nofun
  | cons artifact rest inductionHypothesis =>
      rw [List.forall_mem_cons] at *
      cases opened : store.writable artifact.path with
      | error fault =>
          rw [writeFrom_cons_of_not_writable opened] at done
          cases done
      | ok place =>
          rw [writeFrom_cons_of_writable filled.1 opened] at done
          have same := FileStore.sameDirectories_put
            (FileStore.not_directory_of_writable opened)
            (.image (.color artifact.canvas))
          refine ⟨⟨place, rfl⟩, ?_⟩
          intro other member
          rcases inductionHypothesis filled.2 done other member with
            ⟨found, there⟩
          exact ⟨found, same.writable there⟩

/--
A write that succeeds has saved its artifacts, provided that no two of them have
paths of one file.
-/
theorem savedAt_of_writeFrom_ok
    (filled : ∀ artifact ∈ artifacts, ¬ artifact.canvas.IsEmpty)
    (apart : (artifacts.map Artifact.path).Pairwise FileStore.Apart)
    (done : writeFrom written artifacts store = (.ok (), after)) :
    store.SavedAt artifacts after := by
  induction artifacts generalizing written store with
  | nil =>
      cases done
      exact FileStore.SavedAt.refl _
  | cons artifact rest inductionHypothesis =>
      rw [List.forall_mem_cons] at filled
      rw [List.map_cons, List.pairwise_cons, List.forall_mem_map] at apart
      cases opened : store.writable artifact.path with
      | error fault =>
          rw [writeFrom_cons_of_not_writable opened] at done
          cases done
      | ok place =>
          rw [writeFrom_cons_of_writable filled.1 opened] at done
          have elsewhere : ∀ other ∈ rest,
              store.writable other.path ≠ .ok place :=
            fun other member => apart.1 other member _ place opened
          exact (inductionHypothesis filled.2 apart.2 done).of_put opened
            elsewhere

/-- If all paths can be written, a write succeeds. -/
theorem writeFrom_ok_of_writable
    (filled : ∀ artifact ∈ artifacts, ¬ artifact.canvas.IsEmpty)
    (writables : ∀ artifact ∈ artifacts, ∃ place,
      store.writable artifact.path = .ok place) :
    (writeFrom written artifacts store).1 = .ok () := by
  cases outcome : writeFrom written artifacts store with
  | mk result after =>
      cases result with
      | ok _ => rfl
      | error failure =>
          rcases writeFrom_error filled outcome with
            ⟨saved, path, rest, _, paths, _, _, closed, _⟩
          have member : path ∈ artifacts.map Artifact.path := by
            rw [paths]
            exact List.mem_append_right _ (List.mem_cons_self ..)
          rcases List.mem_map.1 member with ⟨artifact, inArtifacts, rfl⟩
          rcases writables artifact inArtifacts with ⟨place, opened⟩
          exact absurd opened (closed place)

end Run

end ScreenCompare
