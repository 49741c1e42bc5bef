import ScreenCompare.File.Store

/-!
# What saving and removing leave alone

Where a path leads depends on the directories of a store only, and neither
saving a picture nor removing a file changes these.  So a path keeps leading to
the same place while files come and go, and removing files clears exactly the
places to which their paths led in the first place (`clearedAt_foldl_remove`).
-/

namespace ScreenCompare.FileStore

/-! ## Directories decide where paths lead -/

/-- Both stores have the same directories. -/
def SameDirectories (first second : FileStore) : Prop :=
  ∀ place, first.get? place = some .directory ↔
    second.get? place = some .directory

section SameDirectories

variable {first second : FileStore}

theorem SameDirectories.refl (store : FileStore) : store.SameDirectories store :=
  fun _ => Iff.rfl

theorem SameDirectories.symm (same : first.SameDirectories second) :
    second.SameDirectories first :=
  fun place => (same place).symm

theorem enter_eq_ok_iff {store : FileStore} {place next : List String}
    {part : String} :
    store.enter place part = .ok next ↔
      Path.isTooLong part = false ∧
        store.get? (descend place part) = some .directory ∧
        descend place part = next := by
  rw [enter]
  cases Path.isTooLong part with
  | true => simp
  | false =>
      cases store.get? (descend place part) with
      | none => simp
      | some entry => cases entry <;> simp

theorem SameDirectories.enter (same : first.SameDirectories second)
    {place next : List String} {part : String}
    (entered : first.enter place part = .ok next) :
    second.enter place part = .ok next := by
  rw [enter_eq_ok_iff] at *
  rwa [← same (descend place part)]

theorem SameDirectories.foldlM_enter (same : first.SameDirectories second)
    {parts : List String} {place next : List String}
    (entered : parts.foldlM first.enter place = .ok next) :
    parts.foldlM second.enter place = .ok next := by
  induction parts generalizing place with
  | nil => exact entered
  | cons part rest inductionHypothesis =>
      rw [List.foldlM_cons] at *
      cases step : first.enter place part with
      | error fault =>
          rw [step] at entered
          cases entered
      | ok middle =>
          rw [step] at entered
          rw [same.enter step]
          exact inductionHypothesis entered

theorem SameDirectories.target (same : first.SameDirectories second)
    {path : String} {found : Target}
    (reached : first.target path = .ok found) :
    second.target path = .ok found := by
  simp only [FileStore.target] at *
  by_cases nul : Path.hasNul path = true
  · rw [if_pos nul] at reached
    cases reached
  by_cases empty : path = ""
  · rw [if_neg nul, if_pos empty] at reached
    cases reached
  by_cases long : Path.longest < path.utf8ByteSize
  · rw [if_neg nul, if_neg empty, if_pos long] at reached
    cases reached
  rw [if_neg nul, if_neg empty, if_neg long] at *
  have follow (parts : List String) (name : Option String)
      (walked : (do
        let directory ← parts.foldlM first.enter (start path)
        return { directory, name : Target }) = .ok found) :
      (do
        let directory ← parts.foldlM second.enter (start path)
        return { directory, name : Target }) =
          (.ok found : Except PathFault Target) := by
    cases entered : parts.foldlM first.enter (start path) with
    | error fault =>
        rw [entered] at walked
        cases walked
    | ok directory =>
        rw [same.foldlM_enter entered]
        rwa [entered] at walked
  split at reached
  · exact follow _ none reached
  · next name _ => exact follow _ (some name) reached

theorem writable_eq_ok_iff {store : FileStore} {path : String}
    {place : List String} :
    store.writable path = .ok place ↔
      ∃ directory name, store.target path = .ok { directory, name := some name } ∧
        Path.endsWithSlash path = false ∧ Path.isTooLong name = false ∧
        store.get? (directory ++ [name]) ≠ some .directory ∧
        directory ++ [name] = place := by
  rw [writable]
  cases reached : store.target path with
  | error fault => exact iff_of_false nofun (by rintro ⟨_, _, ⟨⟩, _⟩)
  | ok found =>
      obtain ⟨directory, name⟩ := found
      cases name with
      | none => exact iff_of_false nofun (by rintro ⟨_, _, ⟨⟩, _⟩)
      | some name =>
          simp only [bind, Except.bind, Except.ok.injEq, Target.mk.injEq,
            Option.some.injEq, and_assoc, exists_and_left, exists_eq_left']
          cases Path.endsWithSlash path with
          | true => simp
          | false =>
              cases Path.isTooLong name with
              | true => simp
              | false =>
                  cases store.get? (directory ++ [name]) with
                  | none => simp
                  | some entry => cases entry <;> simp

theorem SameDirectories.writable (same : first.SameDirectories second)
    {path : String} {place : List String}
    (opened : first.writable path = .ok place) :
    second.writable path = .ok place := by
  rw [writable_eq_ok_iff] at *
  rcases opened with ⟨directory, name, reached, noSlash, short, free, here⟩
  exact ⟨directory, name, same.target reached, noSlash, short,
    fun directoryThere => free ((same _).2 directoryThere), here⟩

end SameDirectories

/-! ## Changing a file -/

section Change

variable {store : FileStore} {place : List String}

theorem not_directory_of_writable {path : String}
    (opened : store.writable path = .ok place) :
    store.get? place ≠ some .directory := by
  rw [writable_eq_ok_iff] at opened
  rcases opened with ⟨directory, name, _, _, _, free, rfl⟩
  exact free

/-- A file where a path lets one be written is what the path leads to. -/
theorem resolve_of_writable {path : String} {content : FileContent}
    (opened : store.writable path = .ok place)
    (held : store.get? place = some (.file content)) :
    store.resolve path = .ok (.file content) := by
  rw [writable_eq_ok_iff] at opened
  rcases opened with ⟨directory, name, reached, noSlash, short, _, rfl⟩
  rw [resolve, reached]
  simp only [bind, Except.bind, short, held, noSlash, Bool.false_eq_true,
    if_false]

theorem isGiven_of_not_directory
    (free : store.get? place ≠ some .directory) : isGiven place = false := by
  rw [← Bool.not_eq_true]
  intro given
  exact free (if_pos given)

theorem get?_of_isGiven (given : isGiven place = true) :
    store.get? place = some .directory :=
  if_pos given

variable (free : store.get? place ≠ some .directory)

include free

theorem get?_put_of_free (entry : Entry) (other : List String) :
    (store.put place entry).get? other =
      if other = place then some entry else store.get? other := by
  have notGiven := isGiven_of_not_directory free
  cases given : isGiven other with
  | false => exact get?_put given
  | true =>
      have apart : other ≠ place := by
        rintro rfl
        rw [given] at notGiven
        cases notGiven
      rw [if_neg apart, get?_of_isGiven given, get?_of_isGiven given]

theorem get?_erase_of_free (other : List String) :
    (store.erase place).get? other =
      if other = place then none else store.get? other := by
  have notGiven := isGiven_of_not_directory free
  cases given : isGiven other with
  | false => exact get?_erase given
  | true =>
      have apart : other ≠ place := by
        rintro rfl
        rw [given] at notGiven
        cases notGiven
      rw [if_neg apart, get?_of_isGiven given, get?_of_isGiven given]

theorem sameDirectories_put (content : FileContent) :
    (store.put place (.file content)).SameDirectories store := by
  intro other
  rw [get?_put_of_free free]
  by_cases here : other = place
  · subst here
    rw [if_pos rfl]
    exact iff_of_false nofun free
  · rw [if_neg here]

theorem sameDirectories_erase :
    (store.erase place).SameDirectories store := by
  intro other
  rw [get?_erase_of_free free]
  by_cases here : other = place
  · subst here
    rw [if_pos rfl]
    exact iff_of_false nofun free
  · rw [if_neg here]

end Change

/-! ## Saving -/

/-- A picture with cells is saved wherever its path can be written. -/
theorem save_of_writable {store : FileStore} {path : String} {picture : Picture}
    {place : List String} (filled : ¬ picture.IsEmpty)
    (opened : store.writable path = .ok place) :
    store.save path picture =
      (.ok (), store.put place (.file (.image (.color picture)))) := by
  rw [save, opened]
  dsimp only
  rw [if_neg fun width => filled (Or.inl width),
    if_neg fun height => filled (Or.inr height)]

theorem save_of_not_writable {store : FileStore} {path : String}
    {picture : Picture} {fault : PathFault}
    (closed : store.writable path = .error fault) :
    store.save path picture = (.error (.path fault), store) := by
  rw [save, closed]

/-! ## Removing -/

/--
Some paths have been cleared: the places to which they led hold nothing, and all
others hold what they held before.
-/
structure ClearedAt (before : FileStore) (paths : List String)
    (after : FileStore) : Prop where
  cleared : ∀ path ∈ paths, ∀ place, before.writable path = .ok place →
    after.get? place = none
  kept : ∀ place, (∀ path ∈ paths, before.writable path ≠ .ok place) →
    after.get? place = before.get? place

namespace ClearedAt

variable {first second third : FileStore} {paths otherPaths : List String}

theorem refl (store : FileStore) : store.ClearedAt [] store :=
  ⟨nofun, fun _ _ => rfl⟩

theorem append (left : first.ClearedAt paths second)
    (same : second.SameDirectories first)
    (right : second.ClearedAt otherPaths third) :
    first.ClearedAt (paths ++ otherPaths) third := by
  constructor
  · intro path member place opened
    by_cases again : ∃ other ∈ otherPaths, second.writable other = .ok place
    · rcases again with ⟨other, otherMember, otherOpened⟩
      exact right.cleared other otherMember place otherOpened
    · rcases List.mem_append.1 member with here | there
      · rw [right.kept place fun other otherMember otherOpened =>
          again ⟨other, otherMember, otherOpened⟩]
        exact left.cleared path here place opened
      · exact absurd ⟨path, there, same.symm.writable opened⟩ again
  · intro place apart
    rw [right.kept place fun path member opened =>
        apart path (List.mem_append_right _ member) (same.writable opened),
      left.kept place fun path member =>
        apart path (List.mem_append_left _ member)]

/-- What was put at a place before it was cleared does not matter. -/
theorem of_put {path : String} {place : List String} {content : FileContent}
    (opened : first.writable path = .ok place) (member : path ∈ paths)
    (right : (first.put place (.file content)).ClearedAt paths second) :
    first.ClearedAt paths second := by
  have free := not_directory_of_writable opened
  have same := sameDirectories_put free content
  constructor
  · intro other otherMember otherPlace otherOpened
    exact right.cleared other otherMember otherPlace
      (same.symm.writable otherOpened)
  · intro otherPlace apart
    have elsewhere : otherPlace ≠ place := by
      rintro rfl
      exact apart path member opened
    rw [right.kept otherPlace fun other otherMember otherOpened =>
        apart other otherMember (same.writable otherOpened),
      get?_put_of_free free, if_neg elsewhere]

/-- If no file was there, clearing has changed nothing. -/
theorem get?_eq_of_free (cleared : first.ClearedAt paths second)
    (free : ∀ path ∈ paths, ∀ place, first.writable path = .ok place →
      first.get? place = none) (place : List String) :
    second.get? place = first.get? place := by
  by_cases leads : ∃ path ∈ paths, first.writable path = .ok place
  · rcases leads with ⟨path, member, opened⟩
    rw [cleared.cleared path member place opened, free path member place opened]
  · exact cleared.kept place fun path member opened =>
      leads ⟨path, member, opened⟩

end ClearedAt

theorem sameDirectories_remove (store : FileStore) (path : String) :
    (store.remove path).SameDirectories store := by
  rw [remove]
  split
  · exact SameDirectories.refl store
  · next opened =>
      exact sameDirectories_erase (not_directory_of_writable opened)

theorem clearedAt_remove (store : FileStore) (path : String) :
    store.ClearedAt [path] (store.remove path) := by
  rw [remove]
  constructor
  · intro other member place opened
    obtain rfl := List.mem_singleton.1 member
    rw [opened]
    dsimp only
    rw [get?_erase_of_free (not_directory_of_writable opened), if_pos rfl]
  · intro place apart
    have elsewhere := apart path (List.mem_singleton_self _)
    split
    · rfl
    · next opened =>
        rw [get?_erase_of_free (not_directory_of_writable opened), if_neg]
        rintro rfl
        exact elsewhere opened

/--
Removing files one by one clears the places to which their paths led at first.
-/
theorem clearedAt_foldl_remove (paths : List String) (store : FileStore) :
    store.ClearedAt paths (paths.foldl remove store) := by
  induction paths generalizing store with
  | nil => exact ClearedAt.refl store
  | cons path rest inductionHypothesis =>
      exact (clearedAt_remove store path).append
        (sameDirectories_remove store path) (inductionHypothesis _)

end ScreenCompare.FileStore
