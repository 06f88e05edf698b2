import FieldWire.Varint

/-!
# Length tags

Every length and every element count is written as a word: the count in the bits from 2 up, and in
the two bits below them the wire type of the elements.  Spans of bytes (strings, blobs, nested
objects, envelopes) have the wire type `list` and count bytes.
-/

set_option autoImplicit false

namespace FieldWire.LengthTag

/-- The tag for `count` elements.  The two high bits of a 64-bit count do not fit and are lost. -/
def encode (count : Nat) (scheme : WireType) : UInt64 := UInt64.ofNat (4 * count + scheme.tag)

/-- The tag for a span of `length` bytes. -/
def span (length : Nat) : UInt64 := encode length .list

/-- The count of a tag, whatever its wire type. -/
def count (tag : UInt64) : Nat := tag.toNat / 4

/-- The wire type of a tag. -/
def scheme (tag : UInt64) : WireType := WireType.ofTag tag.toNat

/-- The count of a tag that must have the wire type `expected`. -/
def decode (tag : UInt64) (expected : WireType) : Except CodecError Nat :=
  if scheme tag = expected then .ok (count tag)
  else .error (.countSchemeMismatch expected (scheme tag))

/-- The bytes that the tag for `count` elements takes. -/
def size (count : Nat) (scheme : WireType) : Nat := Varint.size (encode count scheme)

/-- The bytes that a span takes together with its tag. -/
def spanSize (length : Nat) : Nat := size length .list + length

/-- The bytes that a span takes together with its tag, if a 64-bit word can count them. -/
def spanSize? (length : Nat) : Option Nat :=
  if spanSize length < UInt64.size then some (spanSize length) else none

end FieldWire.LengthTag
