/-!
# Settings of a comparison

The settings name the two pictures and say how they are compared and what is
written.  Every output file has the same prefix, followed by an underscore and
the kind of its content.
-/

namespace ScreenCompare

/-- What a comparison needs to know. -/
structure Settings where
  oldPath : String
  newPath : String
  outputPrefix : String
  threshold : UInt8
  createChangeImage : Bool
  crossCheck : Bool
  saveSegments : Bool
deriving DecidableEq, Repr

namespace Settings

/-- The prefix of output files unless another one is given. -/
def defaultPrefix : String := "image_difference"

/--
The threshold above which a cell counts as bright unless another one is given.
-/
def defaultThreshold : UInt8 := 200

/-- The settings for two pictures, with defaults for all else. -/
def standard (oldPath newPath : String) : Settings where
  oldPath := oldPath
  newPath := newPath
  outputPrefix := defaultPrefix
  threshold := defaultThreshold
  createChangeImage := false
  crossCheck := false
  saveSegments := false

/-- The path of the output file with a kind of content. -/
def artifactPath (settings : Settings) (kind : String) : String :=
  settings.outputPrefix ++ "_" ++ kind ++ ".png"

end Settings

end ScreenCompare
