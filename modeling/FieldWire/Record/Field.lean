import FieldWire.Message.FrameworkError
import FieldWire.Sequence
import FieldWire.Deferred

/-!
# Fields of records

The kinds of value that a record field can hold, and how each is written and read.
-/

set_option autoImplicit false

namespace FieldWire

/-- A list of 32-bit integers. -/
abbrev IntList := Sequence (Integer .int)

/-- The format of lists of 32-bit integers. -/
def IntList.format : ObjectFormat IntList := Sequence.format (ElementFormat.integer .int)

namespace Record

/-- The kind of a field. -/
inductive FieldKind where
  | long
  | int
  | bool
  | float
  | double
  | text
  | blob
  | ints
  | error
deriving DecidableEq, Repr

/-- The value of a field. -/
inductive FieldValue where
  | long (value : Integer .long)
  | int (value : Integer .int)
  | bool (value : Bool)
  | float (value : Binary32)
  | double (value : Binary64)
  | text (value : Text)
  | blob (value : Bytes)
  | ints (value : Deferred IntList)
  | error (value : Deferred FrameworkError)

namespace FieldValue

/-- The kind of a value. -/
def kind : FieldValue → FieldKind
  | .long _ => .long
  | .int _ => .int
  | .bool _ => .bool
  | .float _ => .float
  | .double _ => .double
  | .text _ => .text
  | .blob _ => .blob
  | .ints _ => .ints
  | .error _ => .error

/-- The value of a new field. -/
def initial : FieldKind → FieldValue
  | .long => .long (Integer.zero .long)
  | .int => .int (Integer.zero .int)
  | .bool => .bool false
  | .float => .float Binary32.zero
  | .double => .double Binary64.zero
  | .text => .text Text.empty
  | .blob => .blob []
  | .ints => .ints (Deferred.empty IntList.format)
  | .error => .error (Deferred.empty FrameworkError.format)

/-- The number of bytes of a value. -/
def size : FieldValue → Nat × FieldValue
  | .long value => (Write.integerSize value, .long value)
  | .int value => (Write.integerSize value, .int value)
  | .bool value => (1, .bool value)
  | .float value => (4, .float value)
  | .double value => (8, .double value)
  | .text value => (value.encodedSize, .text value)
  | .blob value => (LengthTag.spanSize value.length, .blob value)
  | .ints value =>
    let (size, value) := value.encodedSize IntList.format
    (size, .ints value)
  | .error value =>
    let (size, value) := value.encodedSize FrameworkError.format
    (size, .error value)

/-- The bytes of a value. -/
def encode : FieldValue → Bytes × FieldValue
  | .long value => (Write.integer value, .long value)
  | .int value => (Write.integer value, .int value)
  | .bool value => (Write.bool value, .bool value)
  | .float value => (value.encode, .float value)
  | .double value => (value.encode, .double value)
  | .text value => (Write.text value, .text value)
  | .blob value => (Write.blob value, .blob value)
  | .ints value =>
    let (bytes, value) := value.encode IntList.format
    (bytes, .ints value)
  | .error value =>
    let (bytes, value) := value.encode FrameworkError.format
    (bytes, .error value)

/-- Reads a value. -/
def read : FieldKind → Reader FieldValue
  | .long => do return .long (← Reader.long)
  | .int => do return .int (← Reader.integer .int)
  | .bool => do return .bool (← Reader.bool)
  | .float => do return .float (← Reader.binary32)
  | .double => do return .double (← Reader.binary64)
  | .text => do return .text (← Reader.text)
  | .blob => do return .blob (← Reader.blob)
  | .ints => do return .ints (← Deferred.read)
  | .error => do return .error (← Deferred.read)

/-- Whether two values are equal. -/
def same : FieldValue → FieldValue → Bool × FieldValue × FieldValue
  | .long left, .long right => (left.val == right.val, .long left, .long right)
  | .int left, .int right => (left.val == right.val, .int left, .int right)
  | .bool left, .bool right => (left == right, .bool left, .bool right)
  | .float left, .float right => (left.same right, .float left, .float right)
  | .double left, .double right => (left.same right, .double left, .double right)
  | .text left, .text right => (left.same right, .text left, .text right)
  | .blob left, .blob right => (left == right, .blob left, .blob right)
  | .ints left, .ints right =>
    let (answer, left, right) := Deferred.same IntList.format left right
    (answer, .ints left, .ints right)
  | .error left, .error right =>
    let (answer, left, right) := Deferred.same FrameworkError.format left right
    (answer, .error left, .error right)
  | left, right => (false, left, right)

end FieldValue

end Record

end FieldWire
