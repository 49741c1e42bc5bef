import ScreenCompare.CommandLine.Problem
import ScreenCompare.File.Store
import ScreenCompare.Misuse

/-!
# Failures

Every failure ends a run and is reported by one message.  That two pictures are
the same is a failure too: there is nothing to show.
-/

namespace ScreenCompare

/-- What ended a run. -/
inductive Failure where
  /-- The command line is not valid. -/
  | usage (problem : CommandLine.Problem)
  /-- An input file cannot be opened. -/
  | cannotOpen (path : String) (fault : PathFault)
  /-- An input path names a directory. -/
  | cannotMap (path : String)
  /-- An input file holds no usable image. -/
  | undecodable (path : String) (fault : DecodeFault)
  /-- The two pictures are the same. -/
  | samePictures
  /-- An output file cannot be written. -/
  | cannotWrite (path : String) (fault : SaveFault)
  /-- The parts of the library do not fit together. -/
  | misuse (misuse : Misuse)
deriving DecidableEq, Repr

namespace Failure

/-- The message of a failure. -/
def message : Failure → String
  | usage problem => problem.message
  | cannotOpen path fault => "cannot open " ++ path ++ ": " ++ fault.message
  | cannotMap path => path ++ ": mmap failed: No such device (os error 19)"
  | undecodable path fault =>
      "failed to decode image file " ++ path ++ ": " ++ fault.message
  | samePictures => "two images are same"
  | cannotWrite path fault =>
      "failed to write " ++ path ++ ": " ++ fault.message
  | misuse broken => broken.message

end Failure

namespace FileStore

/-- Load the image at a path. -/
def load (store : FileStore) (path : String) : Except Failure LoadedImage :=
  match store.resolve path with
  | .error fault => .error (.cannotOpen path fault)
  | .ok .directory => .error (.cannotMap path)
  | .ok (.file content) => content.decode.mapError (.undecodable path)

end FileStore

end ScreenCompare
