/-!
# Spelling of long options

Long options may be written with one dash or with two.  Before the arguments are
read, every known long option that stands where an option may stand gets its
second dash.  The value of an option is never touched, whatever it looks like;
an option takes the next argument as its value if it is written without an
equals sign.
-/

namespace ScreenCompare.CommandLine

/-- The names of all long options. -/
def longNames : List String :=
  ["new", "old", "output", "threshold", "create_change_image", "cross_check",
    "thread_count", "perf", "color-diagnostics", "save_segments", "help"]

/-- The options that take the next argument as their value. -/
def valueOptions : List String :=
  ["--new", "--old", "--output", "-o", "--threshold", "--thread_count"]

/-- The part of a text before its first equals sign. -/
def beforeEquals (text : List Char) : List Char :=
  text.takeWhile (· ≠ '=')

/-- The part of a text after its first equals sign, if it has one. -/
def afterEquals? (text : List Char) : Option (List Char) :=
  match text.dropWhile (· ≠ '=') with
  | [] => none
  | _ :: value => some value

/-- The argument is a known long option with a single dash. -/
def lacksDash (argument : String) : Bool :=
  match argument.toList with
  | '-' :: rest =>
      !rest.head?.any (· = '-') &&
        longNames.contains (String.ofList (beforeEquals rest))
  | _ => false

/-- An argument in option position with its second dash, if it lacks one. -/
def normalizeOption (argument : String) : String :=
  if lacksDash argument then "-" ++ argument else argument

/-- A normalized option takes the next argument as its value. -/
def expectsValue (option : String) : Bool :=
  !option.toList.contains '=' && valueOptions.contains option

/-- Normalize the remaining arguments; the first of them may be a value. -/
def normalizeFrom : (isValue : Bool) → List String → List String
  | _, [] => []
  | true, value :: rest => value :: normalizeFrom false rest
  | false, argument :: rest =>
      let option := normalizeOption argument
      option :: normalizeFrom (expectsValue option) rest

/--
Normalize an argument vector.  Its first entry is the program's name and is left
alone.
-/
def normalize (arguments : List String) : List String :=
  normalizeFrom true arguments

/--
Colored messages are asked for somewhere among the arguments, in either
spelling.  The arguments need not be valid.
-/
def asksForColor (arguments : List String) : Bool :=
  (arguments.drop 1).any fun argument =>
    argument == "-color-diagnostics" || argument == "--color-diagnostics"

end ScreenCompare.CommandLine
