import ScreenCompare.Proofs.File.Store

/-!
# Paths that end in different names

The place at which a path lets a file be written ends in the last part of the
path.  What is appended to a path without a slash goes to its last part, so paths
that differ in such an ending are never paths of the same file
(`apart_append`).
-/

namespace ScreenCompare

namespace Path

/-! ## The last part of a path -/

theorem split_ne_nil (letters : List Char) : split letters ≠ [] := by
  cases letters with
  | nil => exact List.cons_ne_nil _ _
  | cons letter rest =>
      rw [split]
      split
      · exact List.cons_ne_nil _ _
      · split <;> exact List.cons_ne_nil _ _

theorem exists_split_eq_cons (letters : List Char) :
    ∃ part others, split letters = part :: others :=
  List.exists_cons_of_ne_nil (split_ne_nil letters)

theorem split_cons_slash (rest : List Char) :
    split ('/' :: rest) = [] :: split rest :=
  if_pos rfl

theorem split_cons_of_ne {letter : Char} {rest part : List Char}
    {others : List (List Char)} (noSlash : letter ≠ '/')
    (parts : split rest = part :: others) :
    split (letter :: rest) = (letter :: part) :: others := by
  rw [split, if_neg noSlash, parts]

theorem split_of_noSlash {letters : List Char} (noSlash : '/' ∉ letters) :
    split letters = [letters] := by
  induction letters with
  | nil => rfl
  | cons letter rest inductionHypothesis =>
      rw [List.mem_cons, not_or] at noSlash
      exact split_cons_of_ne (Ne.symm noSlash.1)
        (inductionHypothesis noSlash.2)

/-- Letters that hold no slash go to the last part of those before them. -/
theorem split_append {letters ending last : List Char}
    {before : List (List Char)} (noSlash : '/' ∉ ending)
    (parts : split letters = before ++ [last]) :
    split (letters ++ ending) = before ++ [last ++ ending] := by
  induction letters generalizing before last with
  | nil =>
      rcases List.append_eq_singleton_iff.1 parts.symm with
        ⟨rfl, sameLast⟩ | ⟨_, noLast⟩
      · obtain ⟨rfl, _⟩ := List.cons.inj sameLast
        exact split_of_noSlash noSlash
      · cases noLast
  | cons letter rest inductionHypothesis =>
      rcases exists_split_eq_cons rest with ⟨part, others, restParts⟩
      by_cases slash : letter = '/'
      · subst slash
        rw [split_cons_slash] at parts
        -- A slash begins a part, and the last part is behind it.
        cases before with
        | nil => exact absurd (List.cons.inj parts).2 (split_ne_nil rest)
        | cons first middle =>
            obtain ⟨rfl, tail⟩ := List.cons.inj parts
            rw [List.cons_append, split_cons_slash, inductionHypothesis tail]
            rfl
      · rw [split_cons_of_ne slash restParts] at parts
        -- Any other letter belongs to the first part, which may be the last.
        cases before with
        | nil =>
            obtain ⟨rfl, rfl⟩ := List.cons.inj parts
            have lone : split rest = [] ++ [part] := restParts
            exact split_cons_of_ne slash (inductionHypothesis lone)
        | cons first middle =>
            obtain ⟨rfl, rfl⟩ := List.cons.inj parts
            have further : split rest = (part :: middle) ++ [last] := restParts
            exact split_cons_of_ne slash (inductionHypothesis further)

/--
The last part of a path with something appended that holds no slash depends on
the path by what it begins with.
-/
theorem exists_getLast?_parts_append (path : String) :
    ∃ last : String, ∀ ending : String, ending ≠ "" → '/' ∉ ending.toList →
      (parts (path ++ ending)).getLast? = some (last ++ ending) := by
  let all := split path.toList
  let last := all.getLast (split_ne_nil _)
  have whole : split path.toList = all.dropLast ++ [last] :=
    (List.dropLast_concat_getLast _).symm
  refine ⟨String.ofList last, ?_⟩
  intro ending filled noSlash
  have kept : [last ++ ending.toList].filter (· != []) =
      [last ++ ending.toList] := by
    simpa using fun _ => filled
  rw [parts, String.toList_append, split_append noSlash whole,
    List.filter_append, kept, List.map_append, List.map_singleton,
    List.getLast?_concat, String.ofList_append, String.ofList_toList]

end Path

namespace FileStore

/-! ## Paths of different files -/

theorem getLast?_parts_of_target {store : FileStore} {path name : String}
    {directory : List String}
    (reached : store.target path = .ok { directory, name := some name }) :
    (Path.parts path).getLast? = some name := by
  have follow (parts : List String) (lastName : Option String)
      (walked : (do
        let directory ← parts.foldlM store.enter (start path)
        return { directory, name := lastName : Target }) =
          (.ok { directory, name := some name } :
            Except PathFault Target)) :
      lastName = some name := by
    cases entered : parts.foldlM store.enter (start path) with
    | error fault =>
        rw [entered] at walked
        cases walked
    | ok place =>
        rw [entered] at walked
        cases walked
        rfl
  simp only [FileStore.target] at reached
  split at reached
  · cases reached
  split at reached
  · cases reached
  split at reached
  · cases reached
  split at reached
  · cases follow _ none reached
  · next lastName lastPart =>
      obtain rfl := Option.some.inj (follow _ (some lastName) reached)
      exact Option.eq_some_of_filter_eq_some lastPart

/--
The place at which a file can be written ends in the last part of its path.
-/
theorem getLast?_of_writable {store : FileStore} {path : String}
    {place : List String} (opened : store.writable path = .ok place) :
    (Path.parts path).getLast? = place.getLast? := by
  rw [writable_eq_ok_iff] at opened
  rcases opened with ⟨directory, name, reached, _, _, _, rfl⟩
  rw [getLast?_parts_of_target reached, List.getLast?_concat]

/-- Whatever directories there are, no file has both paths. -/
def Apart (first second : String) : Prop :=
  ∀ (store : FileStore) (place : List String),
    store.writable first = .ok place → store.writable second ≠ .ok place

theorem apart_append {path first second : String} (firstFilled : first ≠ "")
    (secondFilled : second ≠ "") (firstNoSlash : '/' ∉ first.toList)
    (secondNoSlash : '/' ∉ second.toList) (different : first ≠ second) :
    Apart (path ++ first) (path ++ second) := by
  intro store place firstOpened secondOpened
  rcases Path.exists_getLast?_parts_append path with ⟨last, lastPart⟩
  have same : some (last ++ first) = some (last ++ second) := by
    rw [← lastPart first firstFilled firstNoSlash,
      ← lastPart second secondFilled secondNoSlash,
      getLast?_of_writable firstOpened, getLast?_of_writable secondOpened]
  exact different (String.append_right_inj last |>.1 (Option.some.inj same))

end FileStore

end ScreenCompare
