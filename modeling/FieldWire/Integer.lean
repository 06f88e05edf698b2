/-!
# Bounded integers

Signed integers of four widths.  All of them travel as the same zigzag varint; the width only
decides which numbers a reader accepts.
-/

set_option autoImplicit false

namespace FieldWire

/-- The width of a signed integer. -/
inductive Width where
  | byte
  | short
  | int
  | long
deriving DecidableEq, Repr

namespace Width

/-- The number of bits, sign included. -/
def bits : Width → Nat
  | .byte => 8
  | .short => 16
  | .int => 32
  | .long => 64

/-- The name used in messages. -/
def name : Width → String
  | .byte => "i8"
  | .short => "i16"
  | .int => "i32"
  | .long => "i64"

/-- The numbers of this width reach from `-bound` up to, and without, `bound`. -/
def bound (width : Width) : Int := Int.ofNat (Nat.pow 2 (width.bits - 1))

end Width

/-- An integer that fits the given width. -/
structure Integer (width : Width) where
  /-- The number itself. -/
  val : Int
  lower : -width.bound ≤ val
  upper : val < width.bound
deriving DecidableEq

namespace Integer

/-- The number as one of the given width, if it fits. -/
def ofInt? (width : Width) (value : Int) : Option (Integer width) :=
  if h : -width.bound ≤ value ∧ value < width.bound then some ⟨value, h.1, h.2⟩ else none

/-- Zero fits every width. -/
def zero (width : Width) : Integer width :=
  ⟨0, by cases width <;> decide, by cases width <;> decide⟩

theorem ofInt?_val {width : Width} (number : Integer width) :
    ofInt? width number.val = some number := by
  simp [ofInt?, number.lower, number.upper]

theorem ofInt?_eq_none_iff (width : Width) (value : Int) :
    ofInt? width value = none ↔ value < -width.bound ∨ width.bound ≤ value := by
  simp only [ofInt?, dite_eq_right_iff, reduceCtorEq, imp_false]
  omega

end Integer

end FieldWire
