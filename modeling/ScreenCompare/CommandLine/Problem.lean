import ScreenCompare.CommandLine.PlainText

/-!
# Problems with a command line

The options of the program, and the problems that arguments can have with their
messages.
-/

namespace ScreenCompare.CommandLine

/-- An option that takes a value. -/
inductive ValueOption where
  | new
  | old
  | output
  | threshold
  | threadCount
deriving DecidableEq, Repr

namespace ValueOption

/-- How messages name an option. -/
def label : ValueOption → String
  | new => "--new <PATH>"
  | old => "--old <PATH>"
  | output => "--output <PREFIX>"
  | threshold => "--threshold <INT>"
  | threadCount => "--thread_count <INT>"

end ValueOption

/-- An option that is given or not. -/
inductive Switch where
  | createChangeImage
  | crossCheck
  | perf
  | colorDiagnostics
  | saveSegments
deriving DecidableEq, Repr

namespace Switch

/-- How messages name a switch. -/
def label : Switch → String
  | createChangeImage => "--create_change_image"
  | crossCheck => "--cross_check"
  | perf => "--perf"
  | colorDiagnostics => "--color-diagnostics"
  | saveSegments => "--save_segments"

end Switch

/-- Why a text is not an acceptable whole number. -/
inductive NumberFault where
  | empty
  | invalidDigit
  | tooLarge
  | tooSmall
  | outOfRange (number low high : Int)
deriving DecidableEq, Repr

namespace NumberFault

/-- The reason in words. -/
def message : NumberFault → String
  | empty => "cannot parse integer from empty string"
  | invalidDigit => "invalid digit found in string"
  | tooLarge => "number too large to fit in target type"
  | tooSmall => "number too small to fit in target type"
  | outOfRange number low high =>
      toString number ++ " is not in " ++ toString low ++ "..=" ++ toString high

end NumberFault

/-- A problem with a command line. -/
inductive Problem where
  /-- An argument that is neither a known option nor the value of one. -/
  | unexpectedArgument (shown : String)
  /-- A switch with a value. -/
  | unexpectedValue (value switch : String)
  /-- An option without its value. -/
  | valueRequired (option : ValueOption)
  /-- An option or a switch given twice. -/
  | repeated (label : String)
  /-- A value that is not an acceptable number. -/
  | invalidNumber (value : String) (option : ValueOption) (fault : NumberFault)
  /-- One of the two pictures is not named. -/
  | missingPaths
deriving DecidableEq, Repr

/-- The first line of a text, without its line break. -/
def firstLine (text : String) : String :=
  let line := text.toList.takeWhile (· ≠ '\n')
  let broken := text.toList.contains '\n'
  String.ofList
    (if broken && line.getLast? == some '\r' then line.dropLast else line)

namespace Problem

/--
The whole description of a problem.  Arguments are shown in it as plain text,
and may bring line breaks into it.
-/
def description : Problem → String
  | unexpectedArgument shown =>
      "unexpected argument '" ++ plainText shown ++ "' found"
  | unexpectedValue value switch =>
      "unexpected value '" ++ plainText value ++ "' for '" ++ switch ++
        "' found; no more were expected"
  | valueRequired option =>
      "a value is required for '" ++ option.label ++ "' but none was supplied"
  | repeated label =>
      "the argument '" ++ label ++ "' cannot be used multiple times"
  | invalidNumber value option fault =>
      "invalid value '" ++ plainText value ++ "' for '" ++ option.label ++
        "': " ++ fault.message
  | missingPaths => "the following required arguments were not provided:"

/-- The message of a problem, the first line of its description. -/
def message (problem : Problem) : String :=
  firstLine problem.description

end Problem

end ScreenCompare.CommandLine
