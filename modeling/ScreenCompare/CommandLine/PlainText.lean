/-!
# Plain text

Arguments come back in messages and in the help text, where they are shown as
plain text.  Terminal escape sequences are left out, and so are control
characters other than white space.

An escape character opens a sequence, and the character after it decides which
one.  A short sequence and a control sequence end at a final character; white
space breaks them off and is shown.  A title ends at a bell.  A device string
has a head that leads to a body, and other strings are all body; a body ends at
a character with the byte 9C in its UTF-8 form, which terminals with 8-bit
controls read as the end of a string.  A new escape character always starts
anew.
-/

namespace ScreenCompare.CommandLine

/-- Where a reader of terminal text stands. -/
inductive TerminalMode where
  /-- In ordinary text. -/
  | text
  /-- Directly behind an escape character. -/
  | escape
  /-- In a short sequence, ended by a digit, a letter or most punctuation. -/
  | designation
  /-- In a control sequence, ended by a letter or a few other characters. -/
  | control
  /-- In a string that ends at a bell. -/
  | title
  /-- At the start of a device string. -/
  | deviceStart
  /-- In the parameters of a device string. -/
  | deviceParameters
  /-- Behind the parameters of a device string, before its body. -/
  | deviceIntermediate
  /-- In the body of a string. -/
  | body
deriving DecidableEq, Repr

/-- White space that may stand in plain text. -/
def isPlainSpace (character : Char) : Bool :=
  character == '\t' || character == '\n' || character == '\x0c' ||
    character == '\r'

/-- A character between two others in the order of characters, ends included. -/
def isBetween (first last character : Char) : Bool :=
  decide (first ≤ character) && decide (character ≤ last)

/--
The UTF-8 form of a character contains the end of a string for terminals with
8-bit controls.
-/
def holdsStringEnd (character : Char) : Bool :=
  (String.utf8EncodeChar character).contains 0x9c

namespace TerminalMode

/-- A character is shown by a reader in a mode. -/
def shows (mode : TerminalMode) (character : Char) : Bool :=
  match mode with
  | text =>
      isPlainSpace character ||
        (decide (' ' ≤ character) && character != '\x7f')
  | escape | designation | control => isPlainSpace character
  | title | deviceStart | deviceParameters | deviceIntermediate | body => false

/-- The mode after the character behind an escape character. -/
def afterEscape (character : Char) : TerminalMode :=
  match character with
  | '[' => control
  | ']' => title
  | 'P' => deviceStart
  | 'X' | '^' | '_' => body
  | _ =>
      if isBetween ' ' '/' character then designation
      else if isBetween '0' '~' character then text
      else escape

/--
The mode after a character in the head of a device string.  Parameters that come
too late make the rest of the string a body without a meaning.
-/
def afterDeviceHead (mode : TerminalMode) (character : Char) : TerminalMode :=
  if isBetween '@' '~' character then body
  else if isBetween ' ' '/' character then deviceIntermediate
  else if isBetween '0' ';' character then
    if mode = deviceIntermediate then body else deviceParameters
  else if isBetween '<' '?' character then
    if mode = deviceStart then deviceParameters else body
  else mode

/-- The mode after a character that is not shown. -/
def after (mode : TerminalMode) (character : Char) : TerminalMode :=
  if character = '\x1b' then escape
  else if character = '\x18' ∨ character = '\x1a' then text
  else
    match mode with
    | text => text
    | escape => afterEscape character
    | designation => if isBetween '0' '~' character then text else designation
    | control => if isBetween '@' '~' character then text else control
    | title => if character = '\x07' then text else title
    | deviceStart | deviceParameters | deviceIntermediate =>
        afterDeviceHead mode character
    | body => if holdsStringEnd character then text else body

end TerminalMode

/-- The characters that a reader in a mode shows. -/
def shownFrom : TerminalMode → List Char → List Char
  | _, [] => []
  | mode, character :: rest =>
      if mode.shows character then character :: shownFrom .text rest
      else shownFrom (mode.after character) rest

/-- A text without escape sequences and control characters. -/
def plainText (text : String) : String :=
  String.ofList (shownFrom .text text.toList)

end ScreenCompare.CommandLine
