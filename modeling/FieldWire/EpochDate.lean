import FieldWire.Binary

/-!
# Dates as milliseconds since the epoch

A date is a distance from the epoch in whole seconds and nanoseconds.  On the wire it is a
floating-point number of milliseconds.

Going there follows floating-point arithmetic: the seconds times a thousand, plus the nanoseconds
divided by a million, with a minus sign before the epoch.  Coming back divides by a thousand in
floating-point arithmetic and rounds that number of seconds, taken exactly, to the nearest
nanosecond, a half to the even one.  What is no date after the epoch, or too far from it, is read as
the epoch itself.
-/

set_option autoImplicit false

namespace FieldWire

/-- A point in time. -/
structure EpochDate where
  /-- Whether it lies before the epoch. -/
  before : Bool
  /-- The whole seconds between it and the epoch. -/
  seconds : Nat
  /-- The nanoseconds beyond them. -/
  nanos : Nat
deriving DecidableEq, Repr

namespace Binary64

/-- The biased exponent. -/
def exponent (number : Binary64) : Nat := number.magnitude / 0x10000000000000

/-- The significand of a finite number, with the bit that is not stored. -/
def significand (number : Binary64) : Nat :=
  let stored := number.magnitude % 0x10000000000000
  if number.exponent = 0 then stored else stored + 0x10000000000000

/-- Whether the sign bit is set. -/
def isNegative (number : Binary64) : Bool := decide (0x8000000000000000 ≤ number.bits.toNat)

/-- Whether the pattern is neither infinite nor no number. -/
def isFinite (number : Binary64) : Bool := decide (number.magnitude < 0x7ff0000000000000)

end Binary64

/-- The natural number nearest to a fraction, the even one if two are equally near. -/
def roundHalfEven (numerator denominator : Nat) : Nat :=
  let quotient := numerator / denominator
  let twice := 2 * (numerator % denominator)
  if twice < denominator then quotient
  else if denominator < twice then quotient + 1
  else quotient + quotient % 2

namespace EpochDate

/-- The nanoseconds in a second. -/
def nanosPerSecond : Nat := 1000000000

/-- The epoch itself. -/
def epoch : EpochDate := ⟨false, 0, 0⟩

/-- The date at a distance from the epoch, with the nanoseconds kept below a second.  The epoch does
not lie before itself. -/
def make (before : Bool) (seconds nanos : Nat) : EpochDate :=
  let total := seconds * nanosPerSecond + nanos
  ⟨before && total != 0, total / nanosPerSecond, total % nanosPerSecond⟩

/-- The seconds after the epoch that no date reaches.  A date may lie just as many before it. -/
def secondsLimit : Nat := 0x8000000000000000

/-- Whether the whole seconds from the epoch to a date, rounded down, fit a signed 64-bit number. -/
def inRange (date : EpochDate) : Bool :=
  date.seconds < secondsLimit || (date.before && date.seconds == secondsLimit && date.nanos == 0)

/-- The date at a distance from the epoch, unless it is too far away. -/
def make? (before : Bool) (seconds nanos : Nat) : Option EpochDate :=
  let date := make before seconds nanos
  if date.inRange then some date else none

/-- The distance from the epoch in milliseconds, without its sign. -/
def distance (date : EpochDate) : Float :=
  (UInt64.ofNat date.seconds).toFloat * 1000.0 + (UInt64.ofNat date.nanos).toFloat / 1000000.0

/-- The number on the wire. -/
def toMillis (date : EpochDate) : Binary64 :=
  ⟨(if date.before then -date.distance else date.distance).toBits⟩

/-- A finite number of seconds, not negative, in nanoseconds. -/
def nanosOf (seconds : Binary64) : Nat :=
  -- A finite number is its significand times two to the power of its exponent less 1075.
  let power := max seconds.exponent 1
  if 1075 ≤ power then seconds.significand * Nat.pow 2 (power - 1075) * nanosPerSecond
  else roundHalfEven (seconds.significand * nanosPerSecond) (Nat.pow 2 (1075 - power))

/-- The date of a number on the wire. -/
def ofMillis (millis : Binary64) : EpochDate :=
  let seconds : Binary64 := ⟨(Float.ofBits millis.bits / 1000.0).toBits⟩
  if !seconds.isFinite || (seconds.isNegative && seconds.magnitude != 0) then epoch
  else (make? false 0 (nanosOf seconds)).getD epoch

end EpochDate

end FieldWire
