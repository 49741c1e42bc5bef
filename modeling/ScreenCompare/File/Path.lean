/-!
# Paths and what can go wrong with them

A path is a text of parts separated by slashes.  Empty parts say nothing, a
single dot stays where it is, two dots go up, and every other part is a name.  A
path that starts with a slash is absolute and is followed from the start of all
absolute paths.
-/

namespace ScreenCompare

/-- Why a path leads nowhere. -/
inductive PathFault where
  /-- The path is empty, or something on the way is missing. -/
  | missing
  /-- Something on the way is a file. -/
  | notDirectory
  /-- A file is to be written where a directory is. -/
  | isDirectory
  /-- A name has more than 255 bytes, or the path more than 4095. -/
  | nameTooLong
  /-- The path holds a NUL character, which no system call can carry. -/
  | holdsNul
deriving DecidableEq, Repr

namespace PathFault

/--
The message for a fault, with the system's number if the system has found it.
-/
def message : PathFault → String
  | missing => "No such file or directory (os error 2)"
  | notDirectory => "Not a directory (os error 20)"
  | isDirectory => "Is a directory (os error 21)"
  | nameTooLong => "File name too long (os error 36)"
  | holdsNul => "file name contained an unexpected NUL byte"

end PathFault

namespace Path

/-- The parts of a text between its slashes. -/
def split : List Char → List (List Char)
  | [] => [[]]
  | letter :: rest =>
      if letter = '/' then [] :: split rest
      else
        match split rest with
        | [] => [[letter]]
        | part :: parts => (letter :: part) :: parts

/-- The parts of a path that are not empty. -/
def parts (path : String) : List String :=
  ((split path.toList).filter (· != [])).map String.ofList

/-- The part that stays where it is. -/
def here : String := "."

/-- The part that goes up. -/
def above : String := ".."

/-- A part names a file or a directory. -/
def isName (part : String) : Bool :=
  part != here && part != above

/-- What stands for the start of absolute paths. -/
def absolute : String := "/"

/-- The path starts with a slash. -/
def isAbsolute (path : String) : Bool :=
  path.toList.head? == some '/'

/-- The path ends with a slash. -/
def endsWithSlash (path : String) : Bool :=
  path.toList.getLast? == some '/'

/-- The path holds a NUL character. -/
def hasNul (path : String) : Bool :=
  path.toList.contains '\x00'

/-- A name is longer than a file system allows. -/
def isTooLong (name : String) : Bool :=
  decide (255 < name.utf8ByteSize)

/-- The longest path in bytes. -/
def longest : Nat := 4095

end Path

end ScreenCompare
