import FieldWire.EpochDate
import FieldWire.Structured

/-!
# Signed chunks

A frame of a signed stream: when it was signed, the signature, and the encoded object that was
signed, which may be absent.  The object is carried as it came.
-/

set_option autoImplicit false

namespace FieldWire

/-- The fields of a signed chunk. -/
structure SignedChunk.Fields where
  /-- Milliseconds since the epoch. -/
  date : Binary64
  /-- The signature. -/
  signature : Bytes
  /-- The encoded object last set or read. -/
  chunk : Option Bytes

/-- A frame of a signed stream. -/
abbrev SignedChunk := Structured SignedChunk.Fields

namespace SignedChunk

/-- The slot of the segment with signature and chunk. -/
def slot : Nat := 1

/-- The mask of the date. -/
def dateField : UInt64 := fieldBit 0

/-- The mask of the signature. -/
def signatureField : UInt64 := fieldBit 0

/-- The mask of the chunk. -/
def chunkField : UInt64 := fieldBit 1

/-- The chunk, if a field set says that it is present. -/
def Fields.shown (fields : Fields) (set : FieldSet) : Option Bytes :=
  if set.has chunkField then fields.chunk else none

/-- The number of bytes of the values of a field set. -/
def fieldsSize (set : FieldSet) (fields : Fields) : Nat :=
  match set.wireType with
  | .eightByte => 8
  | .list =>
    LengthTag.spanSize fields.signature.length + ((fields.shown set).map List.length).getD 0
  | .varint => 0
  | .fourByte => 0

/-- The values of a field set. -/
def encodeFields (set : FieldSet) (fields : Fields) : Bytes :=
  match set.wireType with
  | .eightByte => fields.date.encode
  | .list => Write.blob fields.signature ++ (fields.shown set).getD []
  | .varint => []
  | .fourByte => []

/-- Reads the values of a field set.  A chunk that is not there is forgotten. -/
def loadFields (set : FieldSet) : Loader Fields Unit :=
  match set.wireType with
  | .eightByte => do
    let date ← Loader.read Reader.binary64
    Loader.update fun fields => { fields with date := date }
  | .list => do
    let signature ← Loader.read Reader.blob
    Loader.update fun fields => { fields with signature := signature }
    if set.has chunkField then
      let chunk ← Loader.read Reader.object
      Loader.update fun fields => { fields with chunk := some chunk }
    else Loader.update fun fields => { fields with chunk := none }
  | .varint => return ()
  | .fourByte => return ()

/-- How the fields are written and read. -/
def segments : SegmentFormat Fields :=
  SegmentFormat.ofPlain
    [Segment.make .eightByte 0 dateField dateField,
      Segment.make .list 0 signatureField (signatureField ||| chunkField)]
    ⟨Binary64.zero, [], none⟩
    fieldsSize
    encodeFields
    loadFields
    (fun left right =>
      left.date.same right.date && left.signature == right.signature && left.chunk == right.chunk)

/-- The format of signed chunks. -/
def format : ObjectFormat SignedChunk := Structured.format segments

/-- When the chunk was signed, in milliseconds since the epoch. -/
def dateMillis (chunk : SignedChunk) : Binary64 := chunk.fields.date

/-- Sets the date in milliseconds since the epoch. -/
def setDateMillis (chunk : SignedChunk) (millis : Binary64) : SignedChunk :=
  chunk.change fun fields => { fields with date := millis }

/-- When the chunk was signed. -/
def date (chunk : SignedChunk) : EpochDate := EpochDate.ofMillis chunk.dateMillis

/-- Sets the date. -/
def setDate (chunk : SignedChunk) (date : EpochDate) : SignedChunk :=
  setDateMillis chunk date.toMillis

/-- The signature. -/
def signature (chunk : SignedChunk) : Bytes := chunk.fields.signature

/-- Sets the signature. -/
def setSignature (chunk : SignedChunk) (signature : Bytes) : SignedChunk :=
  chunk.change fun fields => { fields with signature := signature }

/-- Whether there is a signed object. -/
def hasChunk (chunk : SignedChunk) : Bool := chunk.presence.has slot chunkField

/-- The signed object, if there is one. -/
def chunk? (chunk : SignedChunk) : Option Bytes :=
  if hasChunk chunk then chunk.fields.chunk else none

/-- Sets the signed object. -/
def setChunk (chunk : SignedChunk) (bytes : Bytes) : SignedChunk :=
  (chunk.change fun fields => { fields with chunk := some bytes }).mark slot chunkField true

/-- Removes the signed object. -/
def clearChunk (chunk : SignedChunk) : SignedChunk :=
  (chunk.change fun fields => { fields with chunk := none }).mark slot chunkField false

/-- The chunk with a signature and a date. -/
def make (signature : Bytes) (date : EpochDate) : SignedChunk :=
  setDate (setSignature format.empty signature) date

end SignedChunk

end FieldWire
