/-!
# Single-precision numbers by their bits

Descriptor entries and distances are single-precision numbers kept as bits.  The
arithmetic is that of `Float32`; the bits add the one thing it does not show,
the sign of a value that is not a number.  That sign matters for sorting: in the
total order such values come first if their sign bit is set, and last if not.
-/

namespace ScreenCompare

/-- A single-precision number, given by its 32 bits. -/
structure Single where
  bits : UInt32
deriving DecidableEq, Repr, Inhabited

namespace Single

/-- The number itself. -/
@[inline] def value (single : Single) : Float32 :=
  Float32.ofBits single.bits

/-- The number 0. -/
def zero : Single where
  bits := 0

/-- The number 1. -/
def one : Single where
  bits := 0x3f800000

/-- A value that is not a number, with the given sign. -/
def notANumber (negative : Bool) : Single where
  bits := if negative then 0xffc00000 else 0x7fc00000

/-- The sign bit is set. -/
def isNegative (single : Single) : Bool :=
  decide (0x80000000 ≤ single.bits.toNat)

/--
The place of a number in the total order.  Magnitudes count upwards from 0, and
downwards from -1 when the sign bit is set, so that minus zero comes directly
before zero.
-/
def rank (single : Single) : Int :=
  if single.bits.toNat < 0x80000000 then single.bits.toNat
  else 0x7fffffff - (single.bits.toNat : Int)

/-- The total order of all single-precision numbers. -/
def totalOrder (first second : Single) : Bool :=
  decide (first.rank ≤ second.rank)

/--
The sign of the first difference of two rows that is not a number.  A difference
takes the sign of the first operand that is not a number; the difference of two
equal infinities has the sign bit set.
-/
def differenceSign : List Single → List Single → Bool
  | first :: firsts, second :: seconds =>
      if (first.value - second.value).isNaN then
        if first.value.isNaN then first.isNegative
        else if second.value.isNaN then second.isNegative
        else true
      else differenceSign firsts seconds
  | _, _ => false

/--
Add the squared differences of two rows to a sum, up to the end of the shorter
row.
-/
def addSquares : List Single → List Single → Float32 → Float32
  | first :: firsts, second :: seconds, sum =>
      let difference := first.value - second.value
      addSquares firsts seconds (sum + difference * difference)
  | _, _, sum => sum

/--
The Euclidean distance of two rows.  The sum of squares starts at minus zero.
-/
def distance (first second : List Single) : Single :=
  let length := (addSquares first second (Float32.ofBits 0x80000000)).sqrt
  if length.isNaN then notANumber (differenceSign first second)
  else { bits := length.toBits }

end Single

end ScreenCompare
