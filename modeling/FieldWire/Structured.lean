import FieldWire.Layout
import FieldWire.ObjectFormat

/-!
# Structured objects

The body of a structured object is a run of blocks.  A block is the header of a field set and then
the values of the present fields in ascending order.  Writing emits one block for each field set
that is not empty, in the order of the layout.  Reading takes blocks in any order:

* a block must name a segment of the layout and have all the fields that the segment requires;
* fields that the layout does not know come after those it knows, and are passed over;
* a later block for the same segment replaces the presence of an earlier one;
* segments with required fields must have had a block when the body ends.

The size of the body is remembered until a setter forgets it.  Reading remembers the declared size
unless it passed over a field, because such fields are not written again.
-/

set_option autoImplicit false

namespace FieldWire

/-- How the fields of a structure are written and read, one segment at a time. -/
structure SegmentFormat (φ : Type) where
  /-- The segments. -/
  layout : Layout
  /-- The fields of a new object. -/
  empty : φ
  /-- The number of bytes of the values of a field set. -/
  size : FieldSet → φ → Nat × φ
  /-- The values of a field set. -/
  encode : FieldSet → φ → Bytes × φ
  /-- Reads the values of a field set. -/
  load : FieldSet → Loader φ Unit
  /-- Whether two objects have the same fields. -/
  same : φ → φ → Bool × φ × φ

/-- An object made of fields. -/
structure Structured (φ : Type) where
  /-- Which fields are present. -/
  presence : Presence
  /-- The size of the body, if it is remembered. -/
  memo : Option Nat
  /-- The values of the fields, present or not. -/
  fields : φ

namespace SegmentFormat

variable {φ : Type}

/-- The size of the blocks of some field sets. -/
def blocksSize (format : SegmentFormat φ) : List FieldSet → φ → Nat × φ
  | [], fields => (0, fields)
  | set :: sets, fields =>
    let (size, fields) := format.size set fields
    let (rest, fields) := format.blocksSize sets fields
    (set.encodedSize + size + rest, fields)

/-- The blocks of some field sets. -/
def blocks (format : SegmentFormat φ) : List FieldSet → φ → Bytes × φ
  | [], fields => ([], fields)
  | set :: sets, fields =>
    let (values, fields) := format.encode set fields
    let (rest, fields) := format.blocks sets fields
    (set.encode ++ values ++ rest, fields)

/-- Fields without memory: looking at them does not change them. -/
def ofPlain (layout : Layout) (empty : φ) (size : FieldSet → φ → Nat)
    (encode : FieldSet → φ → Bytes) (load : FieldSet → Loader φ Unit) (same : φ → φ → Bool) :
    SegmentFormat φ where
  layout := layout
  empty := empty
  size set fields := (size set fields, fields)
  encode set fields := (encode set fields, fields)
  load := load
  same left right := (same left right, left, right)

end SegmentFormat

namespace Structured

variable {φ : Type}

/-- A new object. -/
def empty (format : SegmentFormat φ) : Structured φ := ⟨format.layout.fresh, none, format.empty⟩

/-- Forgets the remembered size. -/
def forget (object : Structured φ) : Structured φ := { object with memo := none }

/-- Makes fields present or absent.  The remembered size stays. -/
def mark (object : Structured φ) (slot : Nat) (fields : UInt64) (present : Bool) : Structured φ :=
  { object with presence := object.presence.set slot fields present }

/-- Changes values and forgets the remembered size. -/
def change (object : Structured φ) (update : φ → φ) : Structured φ :=
  { object with memo := none, fields := update object.fields }

/-- The size of the body, remembered from now on. -/
def size (format : SegmentFormat φ) (object : Structured φ) : Nat × Structured φ :=
  match object.memo with
  | some size => (size, object)
  | none =>
    let (size, fields) := format.blocksSize object.presence.written object.fields
    (size, { object with memo := some size, fields := fields })

/-- The envelope.  Its length is the remembered size. -/
def encode (format : SegmentFormat φ) (object : Structured φ) : Bytes × Structured φ :=
  let (size, object) := object.size format
  let (body, fields) := format.blocks object.presence.written object.fields
  (Write.word (LengthTag.span size) ++ body, { object with fields := fields })

/-- Whether two objects have the same fields present and the same values, absent ones included. -/
def same (format : SegmentFormat φ) (left right : Structured φ) :
    Bool × Structured φ × Structured φ :=
  if left.presence = right.presence then
    let (answer, leftFields, rightFields) := format.same left.fields right.fields
    (answer, { left with fields := leftFields }, { right with fields := rightFields })
  else (false, left, right)

/-- Works on the values. -/
def onFields {α : Type} (loader : Loader φ α) : Loader (Structured φ) α :=
  Loader.part Structured.fields (fun object fields => { object with fields := fields }) loader

/-- Reads a block.  The answer is its slot and whether fields were passed over. -/
def loadBlock (format : SegmentFormat φ) : Loader (Structured φ) (Nat × Bool) := do
  let header ← Loader.read FieldSet.read
  match format.layout.locate? header.wireType header.index with
  | none =>
    if format.layout.hasWireType header.wireType then
      throw (.unknownFieldSetIndex header.wireType header.index)
    else throw (.unexpectedFieldSetType header.wireType.tag)
  | some (segment, slot) => do
    let missing := header.missing segment.required
    if missing != 0 then
      throw (.requiredFieldMissing segment.wireType segment.index missing)
    let known := FieldSet.ofBits segment.wireType segment.index (header.bits &&& segment.known)
    Loader.update fun object => { object with presence := object.presence.replace slot known }
    onFields (format.load known)
    let unknown := fieldsOf (header.bits &&& ~~~segment.known)
    Loader.read (unknown.forM fun _ => Reader.skip segment.wireType)
    return (slot, !unknown.isEmpty)

/-- Reads blocks until `declared` bytes after `start` have been read.  Each block takes at least a
byte, so that `declared` is fuel enough.  The answer is the slots in the order of their blocks, and
whether fields were passed over. -/
def loadBlocks (format : SegmentFormat φ) (start declared : Nat) :
    Nat → Loader (Structured φ) (List Nat × Bool)
  | 0 => return ([], false)
  | fuel + 1 => do
    let here ← Loader.read Reader.position
    if here - start < declared then
      let (slot, skipped) ← loadBlock format
      let (slots, more) ← loadBlocks format start declared fuel
      return (slot :: slots, skipped || more)
    else return ([], false)

/-- Reads an envelope. -/
def load (format : SegmentFormat φ) : Loader (Structured φ) Unit := do
  let declared ← Loader.read Reader.openSpan
  let start ← Loader.read Reader.position
  Loader.update fun object => { object with presence := object.presence.clear }
  let (seen, skipped) ← loadBlocks format start declared declared
  let stop ← Loader.read Reader.position
  if stop - start != declared then
    throw (.lengthMismatch declared (stop - start))
  match format.layout.firstUnseen? seen with
  | some segment =>
    throw (.requiredFieldMissing segment.wireType segment.index segment.required)
  | none =>
    Loader.update fun object => { object with memo := if skipped then none else some declared }

/-- The format of structured objects. -/
def format (format : SegmentFormat φ) : ObjectFormat (Structured φ) where
  empty := empty format
  size := size format
  encode := encode format
  load := load format
  same := same format

end Structured

end FieldWire
