import ScreenCompare.CommandLine.Request
import ScreenCompare.Run

/-!
# The program

The program reads its arguments, runs a comparison on the files and reports.  A
failure is shown as one line on the error stream, in bold red if colored
messages are asked for, and makes the exit code 1.
-/

namespace ScreenCompare

/--
How the program ends: its exit code, what it prints, and the files afterwards.
-/
structure ProgramEnd where
  code : Nat
  output : String
  errors : String
  store : FileStore

namespace Program

/-- What makes a terminal show bold red text. -/
def boldRed : List Char :=
  ['\x1b', '[', '1', ';', '3', '1', 'm']

/-- What makes a terminal show ordinary text again. -/
def ordinary : List Char :=
  ['\x1b', '[', '0', 'm']

/-- Set bold red again after everything in a text that makes it ordinary. -/
def stayBoldRed : List Char → List Char
  | [] => []
  | '\x1b' :: '[' :: '0' :: 'm' :: rest =>
      ordinary ++ boldRed ++ stayBoldRed rest
  | letter :: rest => letter :: stayBoldRed rest

/-- A text in bold red throughout. -/
def inBoldRed (text : String) : String :=
  String.ofList (boldRed ++ stayBoldRed text.toList ++ ordinary)

/-- The line for a failure. -/
def failureLine (colored : Bool) (failure : Failure) : String :=
  let text := CommandLine.defaultName ++ ": fatal: " ++ failure.message
  (if colored then inBoldRed text else text) ++ "\n"

/-- Run the program with an argument vector on some files. -/
def run (arguments : List String) (store : FileStore) : ProgramEnd :=
  let failed (failure : Failure) (store : FileStore) : ProgramEnd :=
    { code := 1
      output := ""
      errors := failureLine (CommandLine.asksForColor arguments) failure
      store }
  match CommandLine.parse arguments with
  | .error problem => failed (.usage problem) store
  | .ok (.help text) => { code := 0, output := text, errors := "", store }
  | .ok (.run parsed) =>
      match parsed.settings.run store with
      | (.error failure, state) => failed failure state.store
      | (.ok _, state) =>
          { code := 0
            output := if parsed.perf then state.log.reported.report else ""
            errors := ""
            store := state.store }

end Program

end ScreenCompare
