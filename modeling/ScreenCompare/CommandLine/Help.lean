import ScreenCompare.CommandLine.PlainText
import ScreenCompare.File.Path

/-!
# The help text

The help text names the program as its path does, and lists the options.
-/

namespace ScreenCompare.CommandLine

/-- The name the program goes by unless its path gives one. -/
def defaultName : String := "shot_diff"

/--
The program's name: the last part of its path that is not a dot.  A path without
such a part, or one that ends by going up, names nothing.
-/
def programName (path : String) : String :=
  match ((Path.parts path).filter (· != Path.here)).getLast? with
  | none => defaultName
  | some part => if Path.isName part then part else defaultName

/--
The help text for a program of the given name, which is shown as plain text.
-/
def help (name : String) : String :=
  String.join (List.map (· ++ "\n")
    ["Highlights added, deleted and altered regions between two screenshots",
      "",
      "Usage: " ++ plainText name ++ " [OPTIONS] --new <PATH> --old <PATH>",
      "",
      "Options:",
      "      --new <PATH>           New (after) image file",
      "      --old <PATH>           Old (before) image file",
      "  -o, --output <PREFIX>      Prefix of the output files " ++
        "[default: image_difference]",
      "      --threshold <INT>      Binarization threshold used by the " ++
        "segmenter (0-255) [default: 200]",
      "      --create_change_image  Also write <PREFIX>_added.png and " ++
        "<PREFIX>_deleted.png",
      "      --cross_check          Keep only mutually consistent descriptor " ++
        "matches",
      "      --thread_count <INT>   Worker pool size [default: min(available " ++
        "cores, 16)]",
      "      --perf                 Print a timing report after completion",
      "      --color-diagnostics    Colorize fatal error messages",
      "      --save_segments        Also write every detected segment of each " ++
        "image",
      "  -h, --help                 Print help",
      "",
      "Single-dash long flags (-new, -old, -threshold, ...) are accepted as " ++
        "well."])

end ScreenCompare.CommandLine
