import ScreenCompare.CommandLine.Problem

/-!
# Whole numbers on the command line

A whole number is a nonempty run of decimal digits with an optional sign in
front.  It has to fit into 64 bits, and then into the range of its option.
-/

namespace ScreenCompare.CommandLine

/--
Read the remaining digits of a number after a value.  The first character that
is no digit, or the first digit that takes the value past the limit, ends the
reading.
-/
def readDigits (limit : Nat) (beyond : NumberFault) :
    (value : Nat) → List Char → Except NumberFault Nat
  | value, [] => .ok value
  | value, digit :: rest =>
      if '0' ≤ digit ∧ digit ≤ '9' then
        let grown := 10 * value + (digit.toNat - '0'.toNat)
        if limit < grown then .error beyond
        else readDigits limit beyond grown rest
      else .error .invalidDigit

/-- Read a number without its sign. -/
def readMagnitude (limit : Nat) (beyond : NumberFault) (digits : List Char) :
    Except NumberFault Nat :=
  if digits.isEmpty then .error .invalidDigit
  else readDigits limit beyond 0 digits

/-- Read a signed 64-bit number. -/
def readInteger (text : List Char) : Except NumberFault Int :=
  match text with
  | [] => .error .empty
  | '-' :: digits =>
      (readMagnitude 0x8000000000000000 .tooSmall digits).map fun magnitude =>
        -(magnitude : Int)
  | '+' :: digits =>
      (readMagnitude 0x7fffffffffffffff .tooLarge digits).map Int.ofNat
  | digits =>
      (readMagnitude 0x7fffffffffffffff .tooLarge digits).map Int.ofNat

/-- Read a number between two bounds. -/
def readBetween (low high : Int) (text : String) : Except NumberFault Int := do
  let number ← readInteger text.toList
  if low ≤ number ∧ number ≤ high then .ok number
  else .error (.outOfRange number low high)

end ScreenCompare.CommandLine
