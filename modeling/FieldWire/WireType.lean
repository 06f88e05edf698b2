/-!
# Wire types

Four ways in which a value can stand on the wire.  The two-bit tag of a wire type is fixed by the
format; it is written in every field set header and in every length tag.
-/

set_option autoImplicit false

namespace FieldWire

/-- How one value is laid out. -/
inductive WireType where
  /-- Length-delimited: strings, blobs, nested objects, collections. -/
  | list
  /-- Zigzag varint: truth values and integers of every width. -/
  | varint
  /-- Four raw bytes. -/
  | fourByte
  /-- Eight raw bytes. -/
  | eightByte
deriving DecidableEq, Repr, Inhabited

namespace WireType

/-- All wire types in the order of their tags. -/
def all : List WireType := [.list, .varint, .fourByte, .eightByte]

/-- The two-bit tag. -/
def tag : WireType → Nat
  | .list => 0
  | .varint => 1
  | .fourByte => 2
  | .eightByte => 3

/-- The wire type named by the low two bits of a header or length tag.  Every word names one. -/
def ofTag (word : Nat) : WireType :=
  match word % 4 with
  | 0 => .list
  | 1 => .varint
  | 2 => .fourByte
  | _ => .eightByte

/-- The width of one value, for the wire types that fix it. -/
def fixedWidth? : WireType → Option Nat
  | .list => none
  | .varint => none
  | .fourByte => some 4
  | .eightByte => some 8

/-- The smallest number of bytes that one element can take.  It bounds declared counts. -/
def minimalWidth : WireType → Nat
  | .list => 1
  | .varint => 1
  | .fourByte => 4
  | .eightByte => 8

/-- The name used in messages. -/
def name : WireType → String
  | .list => "list"
  | .varint => "varint"
  | .fourByte => "four-byte"
  | .eightByte => "eight-byte"

theorem tag_lt_four (wireType : WireType) : wireType.tag < 4 := by
  cases wireType <;> decide

theorem ofTag_add_tag (wireType : WireType) (high : Nat) :
    ofTag (4 * high + wireType.tag) = wireType := by
  have low : (4 * high + wireType.tag) % 4 = wireType.tag := by
    have := wireType.tag_lt_four; omega
  rw [ofTag, low]; cases wireType <;> rfl

theorem tag_ofTag (word : Nat) : (ofTag word).tag = word % 4 := by
  have : word % 4 = 0 ∨ word % 4 = 1 ∨ word % 4 = 2 ∨ word % 4 = 3 := by omega
  rcases this with h | h | h | h <;> simp [ofTag, h, tag]

end WireType

end FieldWire
