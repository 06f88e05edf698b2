import FieldWire.Structured

/-!
# Framework errors

The error that the coding layer itself reports: a message, which may be absent.
-/

set_option autoImplicit false

namespace FieldWire

/-- The fields of a framework error. -/
structure FrameworkError.Fields where
  /-- The message last set or read. -/
  message : Option Text

/-- An error of the coding layer. -/
abbrev FrameworkError := Structured FrameworkError.Fields

namespace FrameworkError

/-- The slot of the only segment. -/
def slot : Nat := 0

/-- The mask of the message. -/
def messageField : UInt64 := fieldBit 0

/-- The message, if a field set says that it is present. -/
def Fields.shown (fields : Fields) (set : FieldSet) : Option Text :=
  if set.has messageField then fields.message else none

/-- Whether two messages are both missing or have the same bytes. -/
def Fields.same (left right : Fields) : Bool :=
  match left.message, right.message with
  | some left, some right => left.same right
  | none, none => true
  | _, _ => false

/-- Reads the message if a field set says that it is present. -/
def loadFields (set : FieldSet) : Loader Fields Unit := do
  if set.has messageField then
    let message ← Loader.read Reader.text
    Loader.update fun _ => ⟨some message⟩

/-- How the fields are written and read. -/
def segments : SegmentFormat Fields :=
  SegmentFormat.ofPlain
    [Segment.make .list 0 0 messageField]
    ⟨none⟩
    (fun set fields => ((fields.shown set).map Text.encodedSize).getD 0)
    (fun set fields => ((fields.shown set).map Write.text).getD [])
    loadFields
    Fields.same

/-- The format of framework errors. -/
def format : ObjectFormat FrameworkError := Structured.format segments

/-- Whether there is a message. -/
def hasMessage (error : FrameworkError) : Bool := error.presence.has slot messageField

/-- The message as a string, if there is one. -/
def message? (error : FrameworkError) : Except CodecError (Option String) :=
  match error.fields.message with
  | some message => if hasMessage error then (message.read).map some else .ok none
  | none => .ok none

/-- Sets the message. -/
def setMessage (error : FrameworkError) (message : Text) : FrameworkError :=
  (error.change fun _ => ⟨some message⟩).mark slot messageField true

/-- Removes the message. -/
def clearMessage (error : FrameworkError) : FrameworkError :=
  (error.change fun _ => ⟨none⟩).mark slot messageField false

/-- The error with a message. -/
def ofMessage (message : Text) : FrameworkError := setMessage format.empty message

end FrameworkError

end FieldWire
