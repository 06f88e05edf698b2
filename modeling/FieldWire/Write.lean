import FieldWire.Binary
import FieldWire.LengthTag
import FieldWire.Text
import FieldWire.ZigZag

/-!
# Writing single values

The bytes of each thing that can stand on the wire.  Writing never fails: whoever writes a whole
object has checked its size before.
-/

set_option autoImplicit false

namespace FieldWire.Write

/-- A varint. -/
def word (value : UInt64) : Bytes := Varint.encode value

/-- A signed number. -/
def integer {width : Width} (value : Integer width) : Bytes :=
  Varint.encode (ZigZag.ofInteger value)

/-- The bytes that a signed number takes. -/
def integerSize {width : Width} (value : Integer width) : Nat :=
  Varint.size (ZigZag.ofInteger value)

/-- A truth value, as one or zero. -/
def bool (value : Bool) : Bytes :=
  Varint.encode (UInt64.ofNat (ZigZag.encode (if value then 1 else 0)))

/-- The tag in front of `count` elements. -/
def lengthTag (count : Nat) (scheme : WireType) : Bytes :=
  Varint.encode (LengthTag.encode count scheme)

/-- A span of bytes with its length in front. -/
def blob (bytes : Bytes) : Bytes := Varint.encode (LengthTag.span bytes.length) ++ bytes

/-- A text with its length in front. -/
def text (value : Text) : Bytes := blob value.bytes

/-- A string with its length in front. -/
def string (value : String) : Bytes := blob (Text.utf8 value)

end FieldWire.Write
