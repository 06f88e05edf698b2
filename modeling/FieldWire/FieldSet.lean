import FieldWire.Reader
import FieldWire.Write

/-!
# Field sets

The fields of a structure are grouped into segments of up to 61 fields of one wire type.  A field
set says which fields of one segment are present.  On the wire it is a header word,

    bits 0-1   the wire type
    bit  2     whether a continuation follows
    bits 3-63  one presence bit for each field

and, for every segment but the first of its wire type, a continuation: the index of the segment
less one.

A mask of fields is a word with the bits of those fields set, as they stand in the header.
-/

set_option autoImplicit false

namespace FieldWire

/-- The bits of a header that hold the wire type. -/
def typeMask : UInt64 := 3

/-- The bit of a header that says that a continuation follows. -/
def continuationFlag : UInt64 := 4

/-- The place of the first presence bit of a header. -/
def firstFieldBit : Nat := 3

/-- The number of fields in one segment. -/
def fieldsPerSegment : Nat := 61

/-- The bits of a header that are presence bits. -/
def presenceMask : UInt64 := ~~~(typeMask ||| continuationFlag)

/-- The mask of the field at a position below 61. -/
def fieldBit (position : Nat) : UInt64 := UInt64.ofNat (Nat.pow 2 (firstFieldBit + position))

/-- The mask of the field at a position, if a segment has that position. -/
def fieldBit? (position : Nat) : Option UInt64 :=
  if position < fieldsPerSegment then some (fieldBit position) else none

/-- The masks of the single fields in a mask, in ascending order. -/
def fieldsOf (mask : UInt64) : List UInt64 :=
  ((List.range fieldsPerSegment).map fieldBit).filter fun field => mask &&& field != 0

/-- Which fields of one segment are present. -/
structure FieldSet where
  /-- The wire type of the fields. -/
  wireType : WireType
  /-- The place of the segment among those of its wire type. -/
  index : UInt32
  /-- The mask of the present fields. -/
  bits : UInt64
deriving DecidableEq, Repr

namespace FieldSet

/-- The field set of a segment, with the fields of a mask present. -/
def ofBits (wireType : WireType) (index : UInt32) (bits : UInt64) : FieldSet :=
  ⟨wireType, index, bits &&& presenceMask⟩

/-- The field set of a segment, with no field present. -/
def empty (wireType : WireType) (index : UInt32) : FieldSet := ⟨wireType, index, 0⟩

/-- Whether no field is present. -/
def isEmpty (set : FieldSet) : Bool := set.bits == 0

/-- Whether some field of a mask is present. -/
def has (set : FieldSet) (fields : UInt64) : Bool := set.bits &&& fields != 0

/-- Makes the fields of a mask present or absent. -/
def set (set : FieldSet) (fields : UInt64) (present : Bool) : FieldSet :=
  if present then { set with bits := set.bits ||| (fields &&& presenceMask) }
  else { set with bits := set.bits &&& ~~~fields }

/-- The bits of a mask that are not set. -/
def missing (set : FieldSet) (required : UInt64) : UInt64 := required &&& ~~~set.bits

/-- The masks of the present fields, in ascending order. -/
def presentFields (set : FieldSet) : List UInt64 := fieldsOf set.bits

/-- The header word. -/
def header (set : FieldSet) : UInt64 :=
  set.bits ||| (if set.index = 0 then 0 else continuationFlag) ||| UInt64.ofNat set.wireType.tag

/-- The continuation word, for every segment but the first of its wire type. -/
def continuation (set : FieldSet) : UInt64 := set.index.toUInt64 - 1

/-- The bytes that header and continuation take. -/
def encodedSize (set : FieldSet) : Nat :=
  Varint.size set.header + if set.index = 0 then 0 else Varint.size set.continuation

/-- Header and continuation. -/
def encode (set : FieldSet) : Bytes :=
  Write.word set.header ++ if set.index = 0 then [] else Write.word set.continuation

/-- The index that a continuation names.  The largest continuation has no successor among the
indices and names the same one as its predecessor. -/
def indexAfter (continuation : UInt32) : UInt32 :=
  if continuation = 0xffffffff then 0xffffffff else continuation + 1

/-- Reads a header and, if the header announces one, a continuation. -/
def read : Reader FieldSet := do
  let header ← Reader.word
  let index ← if header &&& continuationFlag = 0 then pure 0
    else do pure (indexAfter (← Reader.word32))
  return ofBits (WireType.ofTag header.toNat) index header

end FieldSet

end FieldWire
