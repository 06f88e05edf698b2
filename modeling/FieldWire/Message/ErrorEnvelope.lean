import FieldWire.Structured

/-!
# Error envelopes

An encoded error object together with the name of its type.  Both are always present.  The encoded
object is carried as it came and is decoded only by whoever knows the type.
-/

set_option autoImplicit false

namespace FieldWire

/-- The fields of an error envelope. -/
structure ErrorEnvelope.Fields where
  /-- The name of the type of the error. -/
  errorType : Text
  /-- The encoded error. -/
  serializedError : Bytes

/-- An encoded error with the name of its type. -/
abbrev ErrorEnvelope := Structured ErrorEnvelope.Fields

namespace ErrorEnvelope

/-- The mask of the type name. -/
def typeField : UInt64 := fieldBit 0

/-- The mask of the encoded error. -/
def errorField : UInt64 := fieldBit 1

/-- An envelope without a body. -/
def emptyObject : Bytes := [0]

/-- Reads both fields. -/
def loadFields (_ : FieldSet) : Loader Fields Unit := do
  let errorType ← Loader.read Reader.text
  Loader.update fun fields => { fields with errorType := errorType }
  let serializedError ← Loader.read Reader.object
  Loader.update fun fields => { fields with serializedError := serializedError }

/-- How the fields are written and read. -/
def segments : SegmentFormat Fields :=
  SegmentFormat.ofPlain
    [Segment.make .list 0 (typeField ||| errorField) (typeField ||| errorField)]
    ⟨Text.empty, emptyObject⟩
    (fun _ fields => fields.errorType.encodedSize + fields.serializedError.length)
    (fun _ fields => Write.text fields.errorType ++ fields.serializedError)
    loadFields
    (fun left right =>
      left.errorType.same right.errorType && left.serializedError == right.serializedError)

/-- The format of error envelopes. -/
def format : ObjectFormat ErrorEnvelope := Structured.format segments

/-- The name of the type of the error. -/
def errorType (envelope : ErrorEnvelope) : Except CodecError String :=
  envelope.fields.errorType.read

/-- Names the type of the error. -/
def setErrorType (envelope : ErrorEnvelope) (errorType : Text) : ErrorEnvelope :=
  envelope.change fun fields => { fields with errorType := errorType }

/-- The encoded error. -/
def serializedError (envelope : ErrorEnvelope) : Bytes := envelope.fields.serializedError

/-- Sets the encoded error. -/
def setSerializedError (envelope : ErrorEnvelope) (bytes : Bytes) : ErrorEnvelope :=
  envelope.change fun fields => { fields with serializedError := bytes }

/-- The error, decoded as an object of the given format. -/
def decodeError {σ : Type} (inner : ObjectFormat σ) (envelope : ErrorEnvelope) :
    Except CodecError σ :=
  inner.deserialize envelope.serializedError

/-- The envelope of an encoded error. -/
def ofEncoded (errorType : Text) (bytes : Bytes) : ErrorEnvelope :=
  setSerializedError (setErrorType format.empty errorType) bytes

/-- The bytes of an error in its envelope. -/
def encodeError {σ : Type} (inner : ObjectFormat σ) (errorType : Text) (error : σ) : Bytes :=
  (format.serialize (ofEncoded errorType (inner.serialize error).1)).1

end ErrorEnvelope

end FieldWire
