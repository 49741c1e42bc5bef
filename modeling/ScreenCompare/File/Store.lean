import ScreenCompare.File.Decoding
import ScreenCompare.File.Path

/-!
# A store of files

A store holds files and directories at places, a place being the list of names
that leads to it from the working directory.  That directory itself, those above
it and the start of absolute paths are always directories.  Opening follows a
path from part to part; everything on the way to the last part has to be a
directory, and so does everything that a dot follows.

Saving a picture creates or empties its file first, so a picture without cells,
which no format can hold, leaves an empty file behind.
-/

namespace ScreenCompare

/-- A file or a directory. -/
inductive Entry where
  | directory
  | file (content : FileContent)

/-- Why a picture cannot be saved. -/
inductive SaveFault where
  | path (fault : PathFault)
  | zeroWidth
  | zeroHeight
deriving DecidableEq, Repr

namespace SaveFault

/-- The reason in words. -/
def message : SaveFault → String
  | path fault => fault.message
  | zeroWidth => "Zero width not allowed"
  | zeroHeight => "Zero height not allowed"

end SaveFault

/-- Files and directories with their places. -/
structure FileStore where
  entries : List (List String × Entry)

namespace FileStore

/-- The store without files. -/
def empty : FileStore where
  entries := []

/--
The place is the working directory, above it, or the start of absolute paths.
-/
def isGiven (place : List String) : Bool :=
  place.all fun name => name == Path.above || name == Path.absolute

/-- What is at a place. -/
def get? (store : FileStore) (place : List String) : Option Entry :=
  if isGiven place then some .directory else store.entries.lookup place

/-- The place one level up.  Nothing is above the start of absolute paths. -/
def parent (place : List String) : List String :=
  if place == [Path.absolute] then place
  else if isGiven place then place ++ [Path.above]
  else place.dropLast

/-- Clear a place. -/
def erase (store : FileStore) (place : List String) : FileStore where
  entries := store.entries.filter fun entry => entry.1 != place

/-- Put something at a place, instead of what was there. -/
def put (store : FileStore) (place : List String) (entry : Entry) :
    FileStore where
  entries := (place, entry) :: (store.erase place).entries

theorem lookup_filter_ne {entries : List (List String × Entry)}
    {place other : List String} :
    (entries.filter fun entry => entry.1 != place).lookup other =
      if other = place then none else entries.lookup other := by
  induction entries with
  | nil => simp
  | cons entry rest inductionHypothesis =>
      obtain ⟨here, content⟩ := entry
      by_cases erased : here = place
      · subst erased
        by_cases same : other = here
        · simpa [same] using inductionHypothesis
        · have apart : (other == here) = false := by simpa using same
          simp [List.lookup_cons, apart, inductionHypothesis]
      · by_cases same : other = here
        · simp [same, erased]
        · have apart : (other == here) = false := by simpa using same
          simp [erased, List.lookup_cons, apart, inductionHypothesis]

/--
A place that has been cleared is empty, and all others keep what they hold.
-/
theorem get?_erase {store : FileStore} {place other : List String}
    (free : isGiven other = false) :
    (store.erase place).get? other =
      if other = place then none else store.get? other := by
  simp [get?, free, erase, lookup_filter_ne]

/--
What is put at a place is found there, and all others keep what they hold.
-/
theorem get?_put {store : FileStore} {place other : List String}
    {entry : Entry} (free : isGiven other = false) :
    (store.put place entry).get? other =
      if other = place then some entry else store.get? other := by
  by_cases same : other = place
  · simp [get?, put, ← same, free]
  · have apart : (other == place) = false := by simpa using same
    simp [get?, put, free, List.lookup_cons, apart, erase, lookup_filter_ne,
      same]

/-- The place at which a path is started to be followed. -/
def start (path : String) : List String :=
  if Path.isAbsolute path then [Path.absolute] else []

/-- The place one part further. -/
def descend (place : List String) (part : String) : List String :=
  if part = Path.here then place
  else if part = Path.above then parent place
  else place ++ [part]

/-- The places at which one comes by when following parts from a place. -/
def placesAlong : (place : List String) → List String → List (List String)
  | _, [] => []
  | place, part :: rest =>
      descend place part :: placesAlong (descend place part) rest

/-- Create a directory where nothing is. -/
def provide (store : FileStore) (place : List String) : FileStore :=
  match store.get? place with
  | none => store.put place .directory
  | some _ => store

/-- Create a directory and the directories above it. -/
def makeDirectory (store : FileStore) (path : String) : FileStore :=
  (placesAlong (start path) (Path.parts path)).foldl provide store

/-- Go one part further, which has to lead to a directory. -/
def enter (store : FileStore) (place : List String) (part : String) :
    Except PathFault (List String) :=
  if Path.isTooLong part then .error .nameTooLong
  else
    match store.get? (descend place part) with
    | none => .error .missing
    | some (.file _) => .error .notDirectory
    | some .directory => .ok (descend place part)

/--
Where a path leads: to a directory, or to a name in it that may be missing.
-/
structure Target where
  directory : List String
  name : Option String

/--
Follow a path up to its last part, and through that as well if it is no name.
-/
def target (store : FileStore) (path : String) : Except PathFault Target :=
  let parts := Path.parts path
  if Path.hasNul path then .error .holdsNul
  else if path = "" then .error .missing
  else if Path.longest < path.utf8ByteSize then .error .nameTooLong
  else
    match parts.getLast?.filter Path.isName with
    | none => do
        let directory ← parts.foldlM store.enter (start path)
        return { directory, name := none }
    | some name => do
        let directory ← parts.dropLast.foldlM store.enter (start path)
        return { directory, name := some name }

/--
What is at the end of a path.  A slash at the end admits only a directory.
-/
def resolve (store : FileStore) (path : String) : Except PathFault Entry := do
  let target ← store.target path
  match target.name with
  | none => .ok .directory
  | some name =>
      if Path.isTooLong name then .error .nameTooLong
      else
        match store.get? (target.directory ++ [name]) with
        | none => .error .missing
        | some .directory => .ok .directory
        | some (.file content) =>
            if Path.endsWithSlash path then .error .notDirectory
            else .ok (.file content)

/--
The place at which a path lets a file be written.  A name with a slash behind it
is taken for a directory, whatever is there.
-/
def writable (store : FileStore) (path : String) :
    Except PathFault (List String) := do
  let target ← store.target path
  match target.name with
  | none => .error .isDirectory
  | some name =>
      if Path.endsWithSlash path then .error .isDirectory
      else if Path.isTooLong name then .error .nameTooLong
      else
        match store.get? (target.directory ++ [name]) with
        | some .directory => .error .isDirectory
        | _ => .ok (target.directory ++ [name])

/-- Save a picture under a path. -/
def save (store : FileStore) (path : String) (picture : Picture) :
    Except SaveFault Unit × FileStore :=
  match store.writable path with
  | .error fault => (.error (.path fault), store)
  | .ok place =>
      if picture.width = 0 then
        (.error .zeroWidth, store.put place (.file (.bytes [])))
      else if picture.height = 0 then
        (.error .zeroHeight, store.put place (.file (.bytes [])))
      else (.ok (), store.put place (.file (.image (.color picture))))

/-- Remove the file at the end of a path, if there is one. -/
def remove (store : FileStore) (path : String) : FileStore :=
  match store.writable path with
  | .error _ => store
  | .ok place => store.erase place

/-- All files with their places. -/
def files (store : FileStore) : List (List String × FileContent) :=
  store.entries.filterMap fun (place, entry) =>
    match entry with
    | .directory => none
    | .file content => some (place, content)

end FileStore

end ScreenCompare
