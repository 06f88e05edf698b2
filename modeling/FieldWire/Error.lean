import FieldWire.WireType
import FieldWire.Integer

/-!
# Why coding fails

One constructor per cause, with the facts that its message reports.  `CodecError.kind` and
`CodecError.message` are the only places that hold the wording.
-/

set_option autoImplicit false

namespace FieldWire

/-- Why reading or writing a value failed. -/
inductive CodecError where
  /-- A varint did not end within `limit` bytes, or holds more than the word it was read into. -/
  | malformedVarint (limit : Nat)
  /-- More bytes were needed than were left. -/
  | bufferUnderrun (needed remaining : Nat)
  /-- A declared length or count disagrees with what was read. -/
  | lengthMismatch (declared consumed : Nat)
  /-- A field set header has a wire type that no segment of the structure has. -/
  | unexpectedFieldSetType (tag : Nat)
  /-- A field set header names a segment that the structure does not have. -/
  | unknownFieldSetIndex (wireType : WireType) (index : UInt32)
  /-- The presence bits `missing`, which the segment requires, are not set. -/
  | requiredFieldMissing (wireType : WireType) (index : UInt32) (missing : UInt64)
  /-- A length tag was written for another kind of element. -/
  | countSchemeMismatch (expected found : WireType)
  /-- The bytes of a text are not UTF-8. -/
  | invalidUtf8
  /-- A declared or computed size exceeds the limit. -/
  | payloadTooLarge (size max : Nat)
  /-- Bytes were left over after the object that should fill the buffer. -/
  | trailingBytes (count : Nat)
  /-- A number does not fit the width it was read into. -/
  | varintOutOfRange (value : Int) (target : Width)
deriving DecidableEq, Repr

namespace CodecError

/-- The name of the cause. -/
def kind : CodecError → String
  | .malformedVarint _ => "MalformedVarint"
  | .bufferUnderrun _ _ => "BufferUnderrun"
  | .lengthMismatch _ _ => "LengthMismatch"
  | .unexpectedFieldSetType _ => "UnexpectedFieldSetType"
  | .unknownFieldSetIndex _ _ => "UnknownFieldSetIndex"
  | .requiredFieldMissing _ _ _ => "RequiredFieldMissing"
  | .countSchemeMismatch _ _ => "CountSchemeMismatch"
  | .invalidUtf8 => "InvalidUtf8"
  | .payloadTooLarge _ _ => "PayloadTooLarge"
  | .trailingBytes _ => "TrailingBytes"
  | .varintOutOfRange _ _ => "VarintOutOfRange"

/-- Lower-case hexadecimal digits, as in `0x1f`. -/
def hexadecimal (word : UInt64) : String :=
  "0x" ++ String.ofList (Nat.toDigits 16 word.toNat)

/-- The text reported for an error. -/
def message : CodecError → String
  | .malformedVarint limit => s!"Malformed varint: more than {limit} continuation bytes"
  | .bufferUnderrun needed remaining =>
    s!"Buffer underrun: needed {needed} bytes, {remaining} remaining"
  | .lengthMismatch declared consumed =>
    s!"Length mismatch: declared {declared} bytes, consumed {consumed}"
  | .unexpectedFieldSetType tag => s!"Unexpected field set type: {tag}"
  | .unknownFieldSetIndex wireType index =>
    s!"Unknown field set index {index.toNat} for {wireType.name} fields"
  | .requiredFieldMissing wireType index missing =>
    s!"Required {wireType.name} field(s) missing in segment {index.toNat}: mask "
      ++ hexadecimal missing
  | .countSchemeMismatch expected found =>
    s!"Count scheme mismatch: expected {expected.name}, found {found.name}"
  | .invalidUtf8 => "Invalid UTF-8 in string field"
  | .payloadTooLarge size max => s!"Payload size {size} exceeds maximum {max}"
  | .trailingBytes count => s!"{count} trailing bytes after decoded object"
  | .varintOutOfRange value target => s!"Varint value {value} does not fit in {target.name}"

end CodecError

end FieldWire
