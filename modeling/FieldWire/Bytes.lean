/-!
# Byte strings

Everything on the wire is a list of bytes.  This module holds the few questions that the rest of
the library asks about such lists: whether enough of them are left, and how a number is laid out in
a fixed number of them with the least significant byte first.
-/

set_option autoImplicit false

namespace FieldWire

/-- A run of bytes, first byte first. -/
abbrev Bytes := List UInt8

namespace Bytes

/-- Whether at least `count` bytes are there.  It looks at no more than `count` of them. -/
def hasAtLeast : Nat → Bytes → Bool
  | 0, _ => true
  | _ + 1, [] => false
  | count + 1, _ :: rest => hasAtLeast count rest

theorem hasAtLeast_iff (count : Nat) (bytes : Bytes) :
    hasAtLeast count bytes = true ↔ count ≤ bytes.length := by
  induction count generalizing bytes with
  | zero => simp [hasAtLeast]
  | succ count ih =>
    cases bytes with
    | nil => simp [hasAtLeast]
    | cons byte rest => simp [hasAtLeast, ih]

/-- The low `width` bytes of `value`, least significant first. -/
def littleEndian : Nat → Nat → Bytes
  | 0, _ => []
  | width + 1, value => UInt8.ofNat (value % 256) :: littleEndian width (value / 256)

/-- The number whose bytes, least significant first, are the given ones. -/
def ofLittleEndian : Bytes → Nat
  | [] => 0
  | byte :: rest => byte.toNat + 256 * ofLittleEndian rest

@[simp]
theorem littleEndian_length (width value : Nat) : (littleEndian width value).length = width := by
  induction width generalizing value with
  | zero => rfl
  | succ width ih => simp [littleEndian, ih]

theorem ofLittleEndian_littleEndian (width value : Nat) (bound : value < Nat.pow 256 width) :
    ofLittleEndian (littleEndian width value) = value := by
  induction width generalizing value with
  | zero => simp [littleEndian, ofLittleEndian] at bound ⊢; omega
  | succ width ih =>
    have smaller : value / 256 < Nat.pow 256 width := by
      rw [Nat.div_lt_iff_lt_mul (by decide)]; exact bound
    have byte : (UInt8.ofNat (value % 256)).toNat = value % 256 := by simp
    rw [littleEndian, ofLittleEndian, byte, ih _ smaller]
    omega

end Bytes

end FieldWire
