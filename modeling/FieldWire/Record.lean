import FieldWire.Record.Field
import FieldWire.Structured

/-!
# Records

A record is a structured object whose fields are given by a table: for each slot the segment, and
for each field its position and kind and whether it is required.  A record holds a value for every
field from the start.  Reading a block overwrites, in ascending order of position, the values of the
present fields; the value of an absent field stays.
-/

set_option autoImplicit false

namespace FieldWire

namespace Record

/-- A field of a table. -/
structure FieldSpec where
  /-- The position in the segment. -/
  position : Nat
  /-- The kind of its values. -/
  kind : FieldKind
  /-- Whether it must be present. -/
  required : Bool
deriving DecidableEq, Repr

/-- A segment of a table, with its fields in ascending order of position. -/
structure SegmentSpec where
  /-- The wire type of the fields. -/
  wireType : WireType
  /-- The place among the segments of this wire type. -/
  index : UInt32
  /-- The fields. -/
  fields : List FieldSpec
deriving DecidableEq, Repr

/-- The segments and fields of a type of records. -/
abbrev Table := List SegmentSpec

/-- The mask of some fields. -/
def maskOf (fields : List FieldSpec) : UInt64 :=
  fields.foldl (fun mask field => mask ||| fieldBit field.position) 0

/-- The segment of the layout. -/
def SegmentSpec.segment (spec : SegmentSpec) : Segment :=
  Segment.make spec.wireType spec.index (maskOf (spec.fields.filter (·.required)))
    (maskOf spec.fields)

/-- The layout of a table. -/
def layoutOf (table : Table) : Layout := table.map SegmentSpec.segment

/-- A field of a record. -/
structure Field where
  /-- The slot of its segment. -/
  slot : Nat
  /-- The position in the segment. -/
  position : Nat
  /-- The value, whether present or not. -/
  value : FieldValue

/-- The fields of a record, in ascending order of slot and position. -/
abbrev Fields := List Field

/-- The fields of a new record. -/
def Fields.initial (table : Table) : Fields :=
  table.zipIdx.flatMap fun entry =>
    entry.1.fields.map fun field => ⟨entry.2, field.position, FieldValue.initial field.kind⟩

/-- Whether a field belongs to a slot and is present in a field set. -/
def Field.isIn (field : Field) (slot : Option Nat) (set : FieldSet) : Bool :=
  slot == some field.slot && set.has (fieldBit field.position)

/-- Looks at the fields that are present in a field set and leaves the others alone. -/
def visit {α : Type} (look : FieldValue → α × FieldValue) (slot : Option Nat) (set : FieldSet)
    (fields : Fields) : List α × Fields :=
  let visited : List (Option α × Field) := fields.map fun field =>
    if field.isIn slot set then
      let (answer, value) := look field.value
      (some answer, { field with value := value })
    else (none, field)
  (visited.filterMap (·.1), visited.map (·.2))

/-- Puts a value into the field at a slot and position. -/
def put (slot position : Nat) (value : FieldValue) (fields : Fields) : Fields :=
  fields.map fun field =>
    if field.slot = slot ∧ field.position = position then { field with value := value } else field

/-- The value of the field at a slot and position. -/
def valueAt? (slot position : Nat) (fields : Fields) : Option FieldValue :=
  (fields.find? fun field => field.slot == slot && field.position == position).map (·.value)

/-- Reads values for the given fields, one after the other. -/
def loadValues : List Field → Loader Fields Unit
  | [] => return ()
  | field :: rest => do
    let value ← Loader.read (FieldValue.read field.value.kind)
    Loader.update (put field.slot field.position value)
    loadValues rest

/-- Reads the values of the fields that are present in a field set. -/
def loadFields (slot : Option Nat) (set : FieldSet) : Loader Fields Unit := do
  let (fields, _) ← get
  loadValues (fields.filter fun field => field.isIn slot set)

/-- Whether all values are equal, absent ones included.  The comparison stops at the first two that
differ. -/
def sameFields : Fields → Fields → Bool × Fields × Fields
  | left :: lefts, right :: rights =>
    match FieldValue.same left.value right.value with
    | (true, leftValue, rightValue) =>
      let (answer, lefts, rights) := sameFields lefts rights
      (answer, { left with value := leftValue } :: lefts,
        { right with value := rightValue } :: rights)
    | (false, leftValue, rightValue) =>
      (false, { left with value := leftValue } :: lefts,
        { right with value := rightValue } :: rights)
  | lefts, rights => (lefts.isEmpty && rights.isEmpty, lefts, rights)

/-- How the fields are written and read. -/
def segments (table : Table) : SegmentFormat Fields where
  layout := layoutOf table
  empty := Fields.initial table
  size set fields :=
    let slot := (layoutOf table).slotOf? set.wireType set.index
    let (sizes, fields) := visit FieldValue.size slot set fields
    (sizes.foldr (· + ·) 0, fields)
  encode set fields :=
    let slot := (layoutOf table).slotOf? set.wireType set.index
    let (values, fields) := visit FieldValue.encode slot set fields
    (values.flatten, fields)
  load set := loadFields ((layoutOf table).slotOf? set.wireType set.index) set
  same := sameFields

end Record

/-- An object whose fields are given by a table. -/
abbrev Record := Structured Record.Fields

namespace Record

/-- The format of records. -/
def format (table : Table) : ObjectFormat Record := Structured.format (segments table)

/-- Stores a value and makes its field present. -/
def set (record : Record) (slot position : Nat) (value : FieldValue) : Record :=
  (record.change (put slot position value)).mark slot (fieldBit position) true

/-- Makes a field absent, if a segment has its position.  Its value stays. -/
def unset? (record : Record) (slot position : Nat) : Option Record := do
  return record.forget.mark slot (← fieldBit? position) false

/-- The stored value of a field, present or not. -/
def value? (record : Record) (slot position : Nat) : Option FieldValue :=
  valueAt? slot position record.fields

/-- Stores a value that was looked at. -/
def refresh (record : Record) (slot position : Nat) (value : FieldValue) : Record :=
  { record with fields := put slot position value record.fields }

/-- Whether a field of the record is present. -/
def isPresent (record : Record) (field : Field) : Bool :=
  record.presence.has field.slot (fieldBit field.position)

end Record

end FieldWire
