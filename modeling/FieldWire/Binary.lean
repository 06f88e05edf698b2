import FieldWire.Bytes

/-!
# Floating-point numbers as bit patterns

The format moves floating-point numbers without looking at them, so they are kept as their bits.
Comparison is the usual one of binary floating point: a not-a-number differs from everything, itself
included, and the two zeros are equal.
-/

set_option autoImplicit false

namespace FieldWire

/-- A 32-bit binary floating-point number. -/
structure Binary32 where
  /-- Sign, exponent and significand, from the most significant bit down. -/
  bits : UInt32
deriving DecidableEq, Repr

/-- A 64-bit binary floating-point number. -/
structure Binary64 where
  /-- Sign, exponent and significand, from the most significant bit down. -/
  bits : UInt64
deriving DecidableEq, Repr

namespace Binary32

/-- Positive zero. -/
def zero : Binary32 := ⟨0⟩

/-- The bits without the sign. -/
def magnitude (number : Binary32) : Nat := number.bits.toNat % 0x80000000

/-- Whether the pattern is not a number: all exponent bits set and a significand other than zero. -/
def isNaN (number : Binary32) : Bool := decide (0x7f800000 < number.magnitude)

/-- Numeric equality. -/
def same (left right : Binary32) : Bool :=
  !left.isNaN && !right.isNaN &&
    (left.bits == right.bits || (left.magnitude == 0 && right.magnitude == 0))

/-- The four bytes on the wire. -/
def encode (number : Binary32) : Bytes := Bytes.littleEndian 4 number.bits.toNat

/-- The number with the given four bytes on the wire. -/
def ofWire (bytes : Bytes) : Binary32 := ⟨UInt32.ofNat (Bytes.ofLittleEndian bytes)⟩

end Binary32

namespace Binary64

/-- Positive zero. -/
def zero : Binary64 := ⟨0⟩

/-- The bits without the sign. -/
def magnitude (number : Binary64) : Nat := number.bits.toNat % 0x8000000000000000

/-- Whether the pattern is not a number: all exponent bits set and a significand other than zero. -/
def isNaN (number : Binary64) : Bool := decide (0x7ff0000000000000 < number.magnitude)

/-- Numeric equality. -/
def same (left right : Binary64) : Bool :=
  !left.isNaN && !right.isNaN &&
    (left.bits == right.bits || (left.magnitude == 0 && right.magnitude == 0))

/-- The eight bytes on the wire. -/
def encode (number : Binary64) : Bytes := Bytes.littleEndian 8 number.bits.toNat

/-- The number with the given eight bytes on the wire. -/
def ofWire (bytes : Bytes) : Binary64 := ⟨UInt64.ofNat (Bytes.ofLittleEndian bytes)⟩

end Binary64

end FieldWire
