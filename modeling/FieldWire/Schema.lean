import FieldWire.Dictionary
import FieldWire.Message.ErrorEnvelope
import FieldWire.Message.Optional
import FieldWire.Message.SignedChunk
import FieldWire.Record
import FieldWire.Tree

/-!
# Schemas

A schema names a type of objects.  Collections and optional payloads take schemas as parameters, so
that schemas nest to any depth.  `Schema.Carrier` is the type of the objects and `Schema.format`
says how they are written and read.
-/

set_option autoImplicit false

namespace FieldWire

mutual

/-- A type of objects. -/
inductive Schema where
  /-- A list of elements. -/
  | sequence (element : ElementKind)
  /-- Entries with distinct keys. -/
  | dictionary (element : ElementKind)
  /-- An error of the coding layer. -/
  | frameworkError
  /-- An encoded error with the name of its type. -/
  | errorEnvelope
  /-- A frame of a signed stream. -/
  | signedChunk
  /-- An object that may be absent. -/
  | optional (item : Schema)
  /-- A record with the fields of a table. -/
  | record (table : Record.Table)
  /-- A list of trees. -/
  | tree

/-- A type of elements of a collection. -/
inductive ElementKind where
  /-- A truth value. -/
  | bool
  /-- An integer of the given width. -/
  | integer (width : Width)
  /-- A four-byte floating-point number. -/
  | float
  /-- An eight-byte floating-point number. -/
  | double
  /-- A text. -/
  | text
  /-- An object. -/
  | object (schema : Schema)

end

mutual

/-- The objects of a schema. -/
def Schema.Carrier : Schema → Type
  | .sequence element => Sequence element.Carrier
  | .dictionary element => Dictionary element.Carrier
  | .frameworkError => FrameworkError
  | .errorEnvelope => ErrorEnvelope
  | .signedChunk => SignedChunk
  | .optional item => Optional item.Carrier
  | .record _ => Record
  | .tree => Tree

/-- The elements of a kind. -/
def ElementKind.Carrier : ElementKind → Type
  | .bool => Bool
  | .integer width => Integer width
  | .float => Binary32
  | .double => Binary64
  | .text => Text
  | .object schema => schema.Carrier

end

mutual

/-- How the objects of a schema are written and read. -/
def Schema.format : (schema : Schema) → ObjectFormat schema.Carrier
  | .sequence element => Sequence.format element.format
  | .dictionary element => Dictionary.format element.format
  | .frameworkError => FrameworkError.format
  | .errorEnvelope => ErrorEnvelope.format
  | .signedChunk => SignedChunk.format
  | .optional item => Optional.format item.format
  | .record table => Record.format table
  | .tree => Tree.format

/-- How the elements of a kind are written and read. -/
def ElementKind.format : (kind : ElementKind) → ElementFormat kind.Carrier
  | .bool => ElementFormat.bool
  | .integer width => ElementFormat.integer width
  | .float => ElementFormat.binary32
  | .double => ElementFormat.binary64
  | .text => ElementFormat.text
  | .object schema => ElementFormat.object schema.format

end

end FieldWire
