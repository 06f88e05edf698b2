import FieldWire.Binary
import FieldWire.Cursor
import FieldWire.LengthTag
import FieldWire.Text
import FieldWire.ZigZag

/-!
# Readers of single values

One reader for each thing that can stand on the wire.  A reader checks before it moves: a fixed
number of bytes, a span and a count are looked for in what is left before any of it is read.  What a
failed reader has consumed is what it had read before the failing check.
-/

set_option autoImplicit false

namespace FieldWire.Reader

/-- A varint. -/
def word : Reader UInt64 := do
  let cursor ← get
  match Varint.decode cursor.rest with
  | .ok (some (value, length)) => do
    advance length
    return value
  | .ok none => throw (.bufferUnderrun (cursor.rest.length + 1) cursor.rest.length)
  | .error error => throw error

/-- A varint that must fit 32 bits.  A wider one has been consumed when it is refused. -/
def word32 : Reader UInt32 := do
  let value ← word
  if value.toNat < UInt32.size then return value.toUInt32
  else throw (.malformedVarint Varint.maxLength)

/-- A signed number of any size that the wire can carry. -/
def long : Reader (Integer .long) := do return ZigZag.toLong (← word)

/-- A signed number that must fit `width`.  A wider one has been consumed when it is refused. -/
def integer (width : Width) : Reader (Integer width) := do
  let value ← long
  match Integer.ofInt? width value.val with
  | some number => return number
  | none => throw (.varintOutOfRange value.val width)

/-- A truth value: every number but zero is true. -/
def bool : Reader Bool := do return (← long).val != 0

/-- The next `length` bytes. -/
def span (length : Nat) : Reader Bytes := do
  ensure length
  let cursor ← get
  advance length
  return cursor.rest.take length

/-- Four bytes. -/
def binary32 : Reader Binary32 := do return Binary32.ofWire (← span 4)

/-- Eight bytes. -/
def binary64 : Reader Binary64 := do return Binary64.ofWire (← span 8)

/-- A length tag of the expected wire type. -/
def lengthTag (expected : WireType) : Reader Nat := do
  match LengthTag.decode (← word) expected with
  | .ok count => return count
  | .error error => throw error

/-- The length of a span, within the limit.  The span itself may still be too short. -/
def spanLength : Reader Nat := do
  let length ← lengthTag .list
  withinLimit length
  return length

/-- The size of the largest count that is told apart from larger ones. -/
def largestSize : Nat := UInt64.size - 1

/-- The number of elements that follow.  Even if each were as short as its wire type allows, the
elements must keep to the limit and to what is left. -/
def count (scheme : WireType) : Reader Nat := do
  let count ← lengthTag scheme
  let needed := min (count * scheme.minimalWidth) largestSize
  withinLimit needed
  ensure needed
  return count

/-- The length of a span all of which is there. -/
def openSpan : Reader Nat := do
  let length ← spanLength
  ensure length
  return length

/-- A span of bytes with its length. -/
def blob : Reader Bytes := do span (← spanLength)

/-- A text, unchecked. -/
def text : Reader Text := do return Text.ofWire (← blob)

/-- A text that must be a string. -/
def string : Reader String := do
  match (← text).read with
  | .ok string => return string
  | .error error => throw error

/-- A span together with the length tag in front of it, exactly as they stand. -/
def object : Reader Bytes := do
  let start ← get
  let length ← openSpan
  advance length
  let stop ← position
  return start.rest.take (stop - start.pos)

/-- Passes over one value of a wire type. -/
def skip : WireType → Reader Unit
  | .varint => do
    let _ ← word
    return ()
  | .fourByte => do
    ensure 4
    advance 4
  | .eightByte => do
    ensure 8
    advance 8
  | .list => do
    let length ← openSpan
    advance length

end FieldWire.Reader
