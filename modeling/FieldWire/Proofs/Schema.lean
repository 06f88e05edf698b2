import FieldWire.Proofs.Dictionary
import FieldWire.Proofs.Optional
import FieldWire.Proofs.Tree
import FieldWire.Schema

/-!
# Schemas

The standard schemas are those without records: collections of any kind of element, messages and
optional payloads, nested to any depth.  Their formats are faithful, readable and measured, by
induction on the schema.
-/

set_option autoImplicit false

namespace FieldWire

mutual

/-- Whether no record occurs in a schema. -/
def Schema.isStandard : Schema → Bool
  | .sequence element => element.isStandard
  | .dictionary element => element.isStandard
  | .frameworkError => true
  | .errorEnvelope => true
  | .signedChunk => true
  | .optional item => item.isStandard
  | .record _ => false
  | .tree => true

def ElementKind.isStandard : ElementKind → Bool
  | .bool => true
  | .integer _ => true
  | .float => true
  | .double => true
  | .text => true
  | .object schema => schema.isStandard

end

mutual

/-- What is seen of the objects of a schema. -/
def Schema.view : (schema : Schema) → schema.isStandard = true → View schema.Carrier
  | .sequence element, standard => Sequence.view element.format.scheme (element.view standard)
  | .dictionary element, standard => Dictionary.view element.format.scheme (element.view standard)
  | .frameworkError, _ => Structured.view FrameworkError.segments.layout FrameworkError.fieldView
  | .errorEnvelope, _ => Structured.view ErrorEnvelope.segments.layout ErrorEnvelope.fieldView
  | .signedChunk, _ => Structured.view SignedChunk.segments.layout SignedChunk.fieldView
  | .optional item, standard => Structured.view (Optional.segments item.format).layout
      (Optional.fieldView item.format (item.view standard))
  | .record _, standard => absurd standard Bool.false_ne_true
  | .tree, _ => Tree.view

def ElementKind.view : (kind : ElementKind) → kind.isStandard = true → View kind.Carrier
  | .bool, _ => ElementFormat.boolView
  | .integer width, _ => ElementFormat.integerView width
  | .float, _ => ElementFormat.binary32View
  | .double, _ => ElementFormat.binary64View
  | .text, _ => ElementFormat.textView
  | .object schema, standard => (schema.view standard).spanned

end

mutual

theorem Schema.faithful : (schema : Schema) → (standard : schema.isStandard = true) →
    schema.format.Faithful (schema.view standard)
  | .sequence element, standard => Sequence.faithful (element.faithful standard)
  | .dictionary element, standard => Dictionary.faithful (element.faithful standard)
  | .frameworkError, _ => Structured.faithful FrameworkError.segments_faithful
  | .errorEnvelope, _ => Structured.faithful ErrorEnvelope.segments_faithful
  | .signedChunk, _ => Structured.faithful SignedChunk.segments_faithful
  | .optional item, standard =>
    Structured.faithful (Optional.segments_faithful (item.faithful standard))
  | .record _, standard => absurd standard Bool.false_ne_true
  | .tree, _ => Tree.faithful

theorem ElementKind.faithful : (kind : ElementKind) → (standard : kind.isStandard = true) →
    kind.format.Faithful (kind.view standard)
  | .bool, _ => ElementFormat.bool_faithful
  | .integer width, _ => ElementFormat.integer_faithful width
  | .float, _ => ElementFormat.fixed_faithful .binary32 _
  | .double, _ => ElementFormat.fixed_faithful .binary64 _
  | .text, _ => ElementFormat.text_faithful
  | .object schema, standard => ElementFormat.object_faithful (schema.faithful standard)

end

mutual

theorem Schema.readable : (schema : Schema) → (standard : schema.isStandard = true) →
    schema.format.Readable (schema.view standard)
  | .sequence element, standard => Sequence.readable (element.readable standard)
  | .dictionary element, standard => Dictionary.readable (element.readable standard)
  | .frameworkError, _ => Structured.readable FrameworkError.segments_faithful
      FrameworkError.segments_readable (List.pairwise_singleton _ _)
  | .errorEnvelope, _ => Structured.readable ErrorEnvelope.segments_faithful
      ErrorEnvelope.segments_readable (List.pairwise_singleton _ _)
  | .signedChunk, _ => Structured.readable SignedChunk.segments_faithful
      SignedChunk.segments_readable SignedChunk.distinct
  | .optional item, standard =>
    Structured.readable (Optional.segments_faithful (item.faithful standard))
      (Optional.segments_readable (item.readable standard)) (List.pairwise_singleton _ _)
  | .record _, standard => absurd standard Bool.false_ne_true
  | .tree, _ => Tree.readable

theorem ElementKind.readable : (kind : ElementKind) → (standard : kind.isStandard = true) →
    kind.format.Readable (kind.view standard)
  | .bool, _ => ElementFormat.bool_readable
  | .integer width, _ => ElementFormat.integer_readable width
  | .float, _ => ElementFormat.fixed_readable .binary32 _
  | .double, _ => ElementFormat.fixed_readable .binary64 _
  | .text, _ => ElementFormat.text_readable
  | .object schema, standard => ElementFormat.object_readable (schema.readable standard)

end

mutual

theorem Schema.measured : (schema : Schema) → (standard : schema.isStandard = true) →
    schema.format.Measured (schema.view standard)
  | .sequence element, standard =>
    Sequence.measured (element.faithful standard) (element.measured standard)
  | .dictionary element, standard =>
    Dictionary.measured (element.faithful standard) (element.measured standard)
  | .frameworkError, _ => Structured.measured FrameworkError.segments_measured
  | .errorEnvelope, _ => Structured.measured ErrorEnvelope.segments_measured
  | .signedChunk, _ => Structured.measured SignedChunk.segments_measured
  | .optional _, _ => Structured.measured Optional.segments_measured
  | .record _, standard => absurd standard Bool.false_ne_true
  | .tree, _ => Tree.measured

theorem ElementKind.measured : (kind : ElementKind) → (standard : kind.isStandard = true) →
    kind.format.Measured (kind.view standard)
  | .bool, _ => ElementFormat.bool_measured
  | .integer width, _ => ElementFormat.integer_measured width
  | .float, _ => ElementFormat.fixed_measured .binary32 _
  | .double, _ => ElementFormat.fixed_measured .binary64 _
  | .text, _ => ElementFormat.text_measured
  | .object schema, standard => ElementFormat.object_measured (schema.measured standard)

end

theorem Schema.opensSpan (schema : Schema) : schema.format.OpensSpan := by
  cases schema with
  | sequence element => exact Sequence.opensSpan
  | dictionary element => exact Dictionary.opensSpan
  | frameworkError => exact Structured.opensSpan
  | errorEnvelope => exact Structured.opensSpan
  | signedChunk => exact Structured.opensSpan
  | optional item => exact Structured.opensSpan
  | record table => exact Structured.opensSpan
  | tree => exact Tree.opensSpan

end FieldWire
