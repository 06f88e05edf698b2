import FieldWire.Bytes
import FieldWire.Error

/-!
# Varints

A 64-bit word is written in groups of seven bits, low groups first, and every byte but the last has
its high bit set.  Ten groups are enough, and the tenth holds a single bit.

`encode` writes the fewest groups, `size` counts them without writing, and `decode` reads a word
from the front of a byte string.  `decode` tells an input that ends too early (`none`) from one that
no further byte can mend (an error).
-/

set_option autoImplicit false

namespace FieldWire.Varint

/-- The longest varint. -/
def maxLength : Nat := 10

/-- The groups of `value`, with at most `room` groups before the last. -/
def groups : Nat → Nat → Bytes
  | 0, value => [UInt8.ofNat value]
  | room + 1, value =>
    if value < 128 then [UInt8.ofNat value]
    else UInt8.ofNat (value % 128 + 128) :: groups room (value / 128)

/-- The varint of a word. -/
def encode (word : UInt64) : Bytes := groups (maxLength - 1) word.toNat

/-- The number of groups that a number takes. -/
def groupCount (value : Nat) : Nat :=
  if value = 0 then 1 else (value.log2 + 7) / 7

/-- The length of the varint of a word. -/
def size (word : UInt64) : Nat := groupCount word.toNat

/-- Reads a varint that has at most `room` groups before its last one.  The answer is the number
together with the count of bytes it took, or `none` when the bytes end inside the varint. -/
def scan : Nat → Bytes → Except CodecError (Option (Nat × Nat))
  | _, [] => .ok none
  | 0, byte :: _ =>
    -- The last group of a word holds one bit, and nothing may follow it.
    if byte.toNat ≤ 1 then .ok (some (byte.toNat, 1)) else .error (.malformedVarint maxLength)
  | room + 1, byte :: rest =>
    if byte.toNat < 128 then .ok (some (byte.toNat, 1))
    else
      match scan room rest with
      | .ok (some (high, length)) => .ok (some (byte.toNat - 128 + 128 * high, length + 1))
      | .ok none => .ok none
      | .error error => .error error

/-- Reads a word from the front of `bytes`, and says how many bytes it took. -/
def decode (bytes : Bytes) : Except CodecError (Option (UInt64 × Nat)) :=
  match scan (maxLength - 1) bytes with
  | .ok (some (value, length)) => .ok (some (UInt64.ofNat value, length))
  | .ok none => .ok none
  | .error error => .error error

end FieldWire.Varint
