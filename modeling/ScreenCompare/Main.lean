import ScreenCompare.File.Png
import ScreenCompare.Program

/-!
# The command line program

The program looks at the files its arguments name, lets the comparison run on
what it has found, and carries the outcome back to the file system.
-/

namespace ScreenCompare.Main

/-- What is at a path, as far as it can be read. -/
def look (path : String) : IO (Option Entry) := do
  let location := (← IO.currentDir) / path
  if ← location.isDir then return some .directory
  try
    let bytes ← IO.FS.readBinFile location
    return some (.file (.bytes bytes.toList))
  catch _ => return none

/-- The path of a place. -/
def pathOf (place : List String) : String :=
  match place with
  | [] => "."
  | first :: rest =>
      if first = Path.absolute then "/" ++ String.intercalate "/" rest
      else String.intercalate "/" place

/-- Take everything on the way along a path into a store. -/
def survey (store : FileStore) (path : String) : IO FileStore := do
  let places := FileStore.placesAlong (FileStore.start path) (Path.parts path)
  places.foldlM
    (fun store place => do
      match ← look (pathOf place) with
      | some entry => return store.put place entry
      | none => return store)
    store

/-- The paths that a run reads or writes. -/
def pathsOf (settings : Settings) : List String :=
  [settings.oldPath, settings.newPath] ++
    ["diff", "added", "deleted", "old_segments", "new_segments"].map
      settings.artifactPath

/-- Carry the file at one place from a store to the file system. -/
def carryOut (before after : FileStore) (path : String) : IO Unit := do
  match after.writable path with
  | .error _ => return ()
  | .ok place =>
      match after.get? place, before.get? place with
      | some (.file (.image data)), _ =>
          IO.FS.writeBinFile path ⟨(Png.encode data.colors).toArray⟩
      | none, some (.file _) => IO.FS.removeFile path
      | _, _ => return ()

end ScreenCompare.Main

/-- Run the program with the arguments after its name. -/
def main (arguments : List String) : IO UInt32 := do
  let vector := ScreenCompare.CommandLine.defaultName :: arguments
  let paths :=
    match ScreenCompare.CommandLine.parse vector with
    | .ok (.run parsed) => ScreenCompare.Main.pathsOf parsed.settings
    | _ => []
  let before ← paths.foldlM ScreenCompare.Main.survey
    ScreenCompare.FileStore.empty
  let result := ScreenCompare.Program.run vector before
  for path in paths do
    ScreenCompare.Main.carryOut before result.store path
  (← IO.getStdout).putStr result.output
  (← IO.getStderr).putStr result.errors
  return UInt32.ofNat result.code
