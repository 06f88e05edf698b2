import FieldWire.ZigZag
import Mathlib.Algebra.Order.Ring.Nat

/-!
# Zigzag words

Every integer of every width travels as a 64-bit word, and comes back as the same number.
-/

set_option autoImplicit false

namespace FieldWire

theorem Width.bound_le_long (width : Width) : width.bound ≤ Width.long.bound := by
  cases width <;> decide

/-- An integer of any width as one of the largest. -/
def Integer.widen {width : Width} (value : Integer width) : Integer .long :=
  ⟨value.val, by have := value.lower; have := width.bound_le_long; omega,
    by have := value.upper; have := width.bound_le_long; omega⟩

theorem Integer.val_of_ofInt? {width : Width} {value : Int} {number : Integer width}
    (narrowed : Integer.ofInt? width value = some number) : number.val = value := by
  rw [Integer.ofInt?] at narrowed
  split at narrowed
  · cases narrowed
    rfl
  · cases narrowed

namespace ZigZag

theorem encode_lt {value : Int} (lower : -Width.long.bound ≤ value)
    (upper : value < Width.long.bound) : encode value < 2 ^ 64 := by
  have limit : Width.long.bound = 9223372036854775808 := by decide
  rw [limit] at lower upper
  cases value with
  | ofNat number =>
    rw [Int.ofNat_eq_natCast] at upper
    rw [encode]
    omega
  | negSucc number =>
    rw [encode]
    omega

theorem toNat_ofInteger {width : Width} (value : Integer width) :
    (ofInteger value).toNat = encode value.val := by
  have fits : encode value.val < 2 ^ 64 := encode_lt value.widen.lower value.widen.upper
  rw [ofInteger, UInt64.toNat_ofNat', Nat.mod_eq_of_lt fits]

theorem val_toLong_ofInteger {width : Width} (value : Integer width) :
    (toLong (ofInteger value)).val = value.val := by
  change decode (ofInteger value).toNat = value.val
  rw [toNat_ofInteger, decode_encode]

theorem toLong_ofInteger {width : Width} (value : Integer width) :
    toLong (ofInteger value) = value.widen := by
  have same := val_toLong_ofInteger value
  cases found : toLong (ofInteger value) with
  | mk number lower upper =>
    rw [found] at same
    cases same
    rfl

theorem ofInteger_toLong (word : UInt64) : ofInteger (toLong word) = word := by
  apply UInt64.toNat_inj.mp
  rw [toNat_ofInteger]
  exact encode_decode word.toNat

end ZigZag

end FieldWire
