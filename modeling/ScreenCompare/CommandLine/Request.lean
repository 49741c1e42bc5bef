import ScreenCompare.CommandLine.Help
import ScreenCompare.CommandLine.Number
import ScreenCompare.CommandLine.Spelling
import ScreenCompare.Settings

/-!
# What a command line asks for

Arguments are read from left to right, and the first problem ends the reading.
An argument that cannot be an option is a problem at once.  An option that takes
the next argument as its value, or finds none, is pending: it is checked when the
next known option or switch is met, or after the last argument.  Switches and
options with an attached value are checked where they stand.
-/

namespace ScreenCompare.CommandLine

/--
The settings of a comparison and the options that concern only the program
around it.
-/
structure Arguments where
  settings : Settings
  threadCount : Option Nat
  perf : Bool
  colorDiagnostics : Bool
deriving DecidableEq, Repr

/-- What a command line asks for. -/
inductive Request where
  /-- Compare two pictures. -/
  | run (arguments : Arguments)
  /-- Show a help text. -/
  | help (text : String)
deriving DecidableEq, Repr

/-! ## Reading one argument -/

/-- A single argument on its own. -/
inductive Token where
  /-- Two dashes: no option follows. -/
  | separator
  /-- Something that is not an option, and how a message shows it. -/
  | unexpected (shown : String)
  /-- A switch with a value. -/
  | switchWithValue (value switch : String)
  | help
  | switch (switch : Switch)
  /-- An option, with its value if that is attached. -/
  | option (option : ValueOption) (attached : Option String)
deriving DecidableEq, Repr

/-- The option with a long name. -/
def valueOption? : String → Option ValueOption
  | "new" => some .new
  | "old" => some .old
  | "output" => some .output
  | "threshold" => some .threshold
  | "thread_count" => some .threadCount
  | _ => none

/-- The switch with a long name. -/
def switch? : String → Option Switch
  | "create_change_image" => some .createChangeImage
  | "cross_check" => some .crossCheck
  | "perf" => some .perf
  | "color-diagnostics" => some .colorDiagnostics
  | "save_segments" => some .saveSegments
  | _ => none

namespace Token

/-- A token without a value, unless a value is attached to it. -/
def withoutValue (token : Token) (label : String) :
    (attached : Option (List Char)) → Token
  | none => token
  | some value => .switchWithValue (String.ofList value) label

/-- Read what follows two dashes. -/
def ofLong (text : List Char) : Token :=
  let name := String.ofList (beforeEquals text)
  let attached := afterEquals? text
  match valueOption? name, switch? name with
  | some found, _ => .option found (attached.map String.ofList)
  | none, some found => withoutValue (.switch found) found.label attached
  | none, none =>
      if name = "help" then withoutValue .help "--help" attached
      else .unexpected ("--" ++ name)

/--
Read what follows a single dash.  Only the first letter is looked at, and all
that follows the letter of the output option is its value.
-/
def ofShort (letter : Char) (rest : List Char) : Token :=
  if letter = 'o' then
    match rest with
    | [] => .option .output none
    | '=' :: value => .option .output (some (String.ofList value))
    | value => .option .output (some (String.ofList value))
  else if letter = 'h' then .help
  else .unexpected (String.ofList ['-', letter])

/-- Read one argument. -/
def read (argument : String) : Token :=
  match argument.toList with
  | ['-', '-'] => .separator
  | '-' :: '-' :: text => ofLong text
  | '-' :: letter :: rest => ofShort letter rest
  | _ => .unexpected argument

end Token

/--
An argument can be the value of the option before it: it does not start with a
dash, or is nothing but a dash.
-/
def canBeValue (argument : String) : Bool :=
  argument == "-" || !argument.toList.head?.any (· = '-')

/-! ## Collecting the options -/

/-- The options checked so far. -/
structure Draft where
  new : Option String
  old : Option String
  output : Option String
  threshold : Option UInt8
  threadCount : Option Nat
  createChangeImage : Bool
  crossCheck : Bool
  perf : Bool
  colorDiagnostics : Bool
  saveSegments : Bool
deriving DecidableEq, Repr

namespace Draft

/-- No options yet. -/
def empty : Draft where
  new := none
  old := none
  output := none
  threshold := none
  threadCount := none
  createChangeImage := false
  crossCheck := false
  perf := false
  colorDiagnostics := false
  saveSegments := false

/-- The option has been given before. -/
def has (draft : Draft) : ValueOption → Bool
  | .new => draft.new.isSome
  | .old => draft.old.isSome
  | .output => draft.output.isSome
  | .threshold => draft.threshold.isSome
  | .threadCount => draft.threadCount.isSome

/-- The switch has been given before. -/
def isOn (draft : Draft) : Switch → Bool
  | .createChangeImage => draft.createChangeImage
  | .crossCheck => draft.crossCheck
  | .perf => draft.perf
  | .colorDiagnostics => draft.colorDiagnostics
  | .saveSegments => draft.saveSegments

/-- Turn a switch on. -/
def turnOn (draft : Draft) : Switch → Draft
  | .createChangeImage => { draft with createChangeImage := true }
  | .crossCheck => { draft with crossCheck := true }
  | .perf => { draft with perf := true }
  | .colorDiagnostics => { draft with colorDiagnostics := true }
  | .saveSegments => { draft with saveSegments := true }

/-- Check a switch and turn it on. -/
def addSwitch (draft : Draft) (switch : Switch) : Except Problem Draft :=
  if draft.isOn switch then .error (.repeated switch.label)
  else .ok (draft.turnOn switch)

/-- Take the value of an option that was not given before. -/
def store (draft : Draft) (option : ValueOption) (value : String) :
    Except Problem Draft :=
  let number (low high : Int) : Except Problem Int :=
    (readBetween low high value).mapError (.invalidNumber value option)
  match option with
  | .new =>
      if value = "" then .error (.valueRequired option)
      else .ok { draft with new := some value }
  | .old =>
      if value = "" then .error (.valueRequired option)
      else .ok { draft with old := some value }
  | .output => .ok { draft with output := some value }
  | .threshold =>
      (number 0 255).map fun threshold =>
        { draft with threshold := some (UInt8.ofNat threshold.toNat) }
  | .threadCount =>
      (number 1 4294967295).map fun count =>
        { draft with threadCount := some count.toNat }

/-- Check an option with the value found for it and store it. -/
def addOption (draft : Draft) (option : ValueOption) (value : Option String) :
    Except Problem Draft :=
  match value with
  | none => .error (.valueRequired option)
  | some value =>
      if draft.has option then .error (.repeated option.label)
      else draft.store option value

/-- Check the pending option, if there is one. -/
def settle (draft : Draft) :
    (pending : Option (ValueOption × Option String)) → Except Problem Draft
  | none => .ok draft
  | some (option, value) => draft.addOption option value

/--
The arguments of a draft in which both pictures are named, with the defaults for
what was not given.
-/
def complete (draft : Draft) : Except Problem Arguments :=
  match draft.new, draft.old with
  | some new, some old =>
      .ok
        { settings :=
            { oldPath := old
              newPath := new
              outputPrefix := draft.output.getD Settings.defaultPrefix
              threshold := draft.threshold.getD Settings.defaultThreshold
              createChangeImage := draft.createChangeImage
              crossCheck := draft.crossCheck
              saveSegments := draft.saveSegments }
          threadCount := draft.threadCount
          perf := draft.perf
          colorDiagnostics := draft.colorDiagnostics }
  | _, _ => .error .missingPaths

end Draft

/--
Read the remaining arguments.  The result is the finished draft, or `none` if
help is asked for.
-/
def readFrom :
    (draft : Draft) → (pending : Option (ValueOption × Option String)) →
      List String → Except Problem (Option Draft)
  | draft, pending, [] => (draft.settle pending).map some
  | draft, pending, argument :: rest =>
      match Token.read argument with
      | .separator =>
          match rest with
          | [] => (draft.settle pending).map some
          | next :: _ => .error (.unexpectedArgument next)
      | .unexpected shown => .error (.unexpectedArgument shown)
      | .switchWithValue value switch => .error (.unexpectedValue value switch)
      | .help => (draft.settle pending).map fun _ => none
      | .switch switch =>
          match (draft.settle pending).bind (·.addSwitch switch) with
          | .error problem => .error problem
          | .ok draft => readFrom draft none rest
      | .option option (some value) =>
          match (draft.settle pending).bind (·.addOption option (some value)) with
          | .error problem => .error problem
          | .ok draft => readFrom draft none rest
      | .option option none =>
          match draft.settle pending with
          | .error problem => .error problem
          | .ok draft =>
              match rest with
              | [] => readFrom draft (some (option, none)) []
              | value :: others =>
                  if canBeValue value then
                    readFrom draft (some (option, some value)) others
                  else readFrom draft (some (option, none)) (value :: others)
termination_by _ _ arguments => arguments.length

/-- Read an argument vector, the program's name included. -/
def parse (arguments : List String) : Except Problem Request :=
  match readFrom Draft.empty none ((normalize arguments).drop 1) with
  | .error problem => .error problem
  | .ok none => .ok (.help (help (programName (arguments.headD ""))))
  | .ok (some draft) => draft.complete.map .run

end ScreenCompare.CommandLine
