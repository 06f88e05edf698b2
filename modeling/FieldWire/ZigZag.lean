import FieldWire.Varint

/-!
# Zigzag numbering

Signed numbers are numbered 0, -1, 1, -2, 2, … so that numbers near zero, of either sign, have short
varints.  On all integers the numbering is a bijection with the natural numbers; on 64-bit integers
it is one with the 64-bit words.
-/

set_option autoImplicit false

namespace FieldWire.ZigZag

/-- The place of an integer in the list 0, -1, 1, -2, 2, …. -/
def encode : Int → Nat
  | .ofNat n => 2 * n
  | .negSucc n => 2 * n + 1

/-- The integer at a place of the list 0, -1, 1, -2, 2, …. -/
def decode (place : Nat) : Int :=
  if place % 2 = 0 then Int.ofNat (place / 2) else Int.negSucc (place / 2)

theorem decode_encode (value : Int) : decode (encode value) = value := by
  cases value with
  | ofNat n => simp [encode, decode]
  | negSucc n =>
    have odd : (2 * n + 1) % 2 = 1 := by omega
    have half : (2 * n + 1) / 2 = n := by omega
    simp [encode, decode, odd, half]

theorem encode_decode (place : Nat) : encode (decode place) = place := by
  unfold decode
  split
  · rw [encode.eq_1]; omega
  · rw [encode.eq_2]; omega

theorem decode_bounds (place : Nat) (bound : place < UInt64.size) :
    -Width.long.bound ≤ decode place ∧ decode place < Width.long.bound := by
  have limit : Width.long.bound = 9223372036854775808 := by decide
  have words : UInt64.size = 18446744073709551616 := rfl
  rw [limit]
  rw [words] at bound
  unfold decode
  split
  · constructor <;> (simp only [Int.ofNat_eq_natCast]; omega)
  · constructor <;> omega

/-- The 64-bit integer that travels under a word. -/
def toLong (word : UInt64) : Integer .long :=
  have bounds := decode_bounds word.toNat word.toNat_lt
  ⟨decode word.toNat, bounds.1, bounds.2⟩

/-- The word under which an integer of any width travels. -/
def ofInteger {width : Width} (value : Integer width) : UInt64 := UInt64.ofNat (encode value.val)

end FieldWire.ZigZag
