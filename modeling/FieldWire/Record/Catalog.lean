import FieldWire.Record

/-!
# A catalogue of tables

Four types of records.  Between them they have every kind of field, several segments of one wire
type, segments with high indices, required fields beside optional ones, and no fields at all.
-/

set_option autoImplicit false

namespace FieldWire.Record.Catalog

/-- A required field. -/
def required (position : Nat) (kind : FieldKind) : FieldSpec := ⟨position, kind, true⟩

/-- A field that may be absent. -/
def optional (position : Nat) (kind : FieldKind) : FieldSpec := ⟨position, kind, false⟩

/-- A measured value with a label, a counter, a flag and a second counter. -/
def sample : Table :=
  [⟨.eightByte, 0, [required 0 .double]⟩,
    ⟨.list, 0, [optional 0 .text]⟩,
    ⟨.varint, 0, [optional 0 .long, optional 1 .bool]⟩,
    ⟨.varint, 1, [optional 0 .long]⟩]

/-- A measured value with a label, a nested list of samples, a counter and a flag. -/
def reading : Table :=
  [⟨.eightByte, 0, [required 0 .double]⟩,
    ⟨.list, 0, [optional 0 .text, optional 1 .ints]⟩,
    ⟨.varint, 0, [optional 0 .long, optional 1 .bool]⟩]

/-- Segments of all wire types, at low and at high indices and positions. -/
def wide : Table :=
  [⟨.list, 0, [required 0 .text, optional 1 .text, optional 60 .blob]⟩,
    ⟨.varint, 0, [required 0 .long, optional 30 .int, optional 60 .long]⟩,
    ⟨.fourByte, 0, [optional 0 .float, required 1 .float]⟩,
    ⟨.eightByte, 2, [optional 0 .double]⟩,
    ⟨.varint, 300, [optional 5 .long]⟩,
    ⟨.list, 1, [optional 0 .error]⟩,
    ⟨.varint, 4294967295, [optional 0 .long]⟩]

/-- No segments. -/
def bare : Table := []

end FieldWire.Record.Catalog
