import FieldWire.Proofs.Held

/-!
# Schemas of objects that are held in full

What is seen of an object of a standard schema that was never read, and that it lasts when the object
is looked at, by induction on the schema.
-/

set_option autoImplicit false

namespace FieldWire

mutual

/-- What is seen of the objects of a schema that are held in full. -/
def Schema.heldView : (schema : Schema) → schema.isStandard = true → View schema.Carrier
  | .sequence element, standard => Sequence.view element.format.scheme (element.heldView standard)
  | .dictionary element, standard =>
    Dictionary.view element.format.scheme (element.heldView standard)
  | .frameworkError, _ => Structured.view FrameworkError.segments.layout FrameworkError.fieldView
  | .errorEnvelope, _ => Structured.view ErrorEnvelope.segments.layout ErrorEnvelope.carrierView
  | .signedChunk, _ => Structured.view SignedChunk.segments.layout SignedChunk.carrierView
  | .optional item, standard => Structured.view (Optional.segments item.format).layout
      (Optional.payloadView (Deferred.heldView item.format (item.heldView standard)))
  | .record _, standard => absurd standard Bool.false_ne_true
  | .tree, _ => Tree.view

def ElementKind.heldView : (kind : ElementKind) → kind.isStandard = true → View kind.Carrier
  | .bool, _ => ElementFormat.boolView
  | .integer width, _ => ElementFormat.integerView width
  | .float, _ => ElementFormat.binary32View
  | .double, _ => ElementFormat.binary64View
  | .text, _ => ElementFormat.textView
  | .object schema, standard => (schema.heldView standard).spanned

end

mutual

theorem Schema.held_faithful : (schema : Schema) → (standard : schema.isStandard = true) →
    schema.format.Faithful (schema.heldView standard)
  | .sequence element, standard => Sequence.faithful (element.held_faithful standard)
  | .dictionary element, standard => Dictionary.faithful (element.held_faithful standard)
  | .frameworkError, _ => Structured.faithful FrameworkError.segments_faithful
  | .errorEnvelope, _ => Structured.faithful ErrorEnvelope.carrier_faithful
  | .signedChunk, _ => Structured.faithful SignedChunk.carrier_faithful
  | .optional item, standard => Structured.faithful
      (Optional.payload_faithful (Deferred.held_faithful (item.held_faithful standard)))
  | .record _, standard => absurd standard Bool.false_ne_true
  | .tree, _ => Tree.faithful

theorem ElementKind.held_faithful : (kind : ElementKind) → (standard : kind.isStandard = true) →
    kind.format.Faithful (kind.heldView standard)
  | .bool, _ => ElementFormat.bool_faithful
  | .integer width, _ => ElementFormat.integer_faithful width
  | .float, _ => ElementFormat.fixed_faithful .binary32 _
  | .double, _ => ElementFormat.fixed_faithful .binary64 _
  | .text, _ => ElementFormat.text_faithful
  | .object schema, standard => ElementFormat.object_faithful (schema.held_faithful standard)

end

mutual

/-- What is written for an object that is held in full is determined by its contents. -/
theorem Schema.held_determined : (schema : Schema) → (standard : schema.isStandard = true) →
    (schema.heldView standard).Determined
  | .sequence element, standard => Sequence.determined (element.held_determined standard) _
  | .dictionary element, standard => Dictionary.determined (element.held_determined standard) _
  | .frameworkError, _ => Structured.determined FrameworkError.fieldView_determined
  | .errorEnvelope, _ => Structured.determined ErrorEnvelope.carrierView_determined
  | .signedChunk, _ => Structured.determined SignedChunk.carrierView_determined
  | .optional item, standard => Structured.determined
      (Optional.payload_determined (Deferred.held_determined (item.held_determined standard)))
  | .record _, standard => absurd standard Bool.false_ne_true
  | .tree, _ => Tree.determined

theorem ElementKind.held_determined : (kind : ElementKind) → (standard : kind.isStandard = true) →
    (kind.heldView standard).Determined
  | .bool, _ => View.plain_determined fun _ _ => congrArg Write.bool
  | .integer _, _ => View.plain_determined fun _ _ => congrArg Write.integer
  | .float, _ => View.plain_determined fun _ _ => congrArg Binary32.encode
  | .double, _ => View.plain_determined fun _ _ => congrArg Binary64.encode
  | .text, _ => View.plain_determined fun _ _ => congrArg Write.blob
  | .object schema, standard => (schema.held_determined standard).spanned

end

mutual

/-- What is seen of an object that is held in full lasts when it is looked at. -/
theorem Schema.held_follows : (schema : Schema) → (standard : schema.isStandard = true) →
    schema.format.Follows (schema.heldView standard).Lasting
  | .sequence element, standard =>
    Sequence.lasting (element.held_faithful standard) (element.held_follows standard)
  | .dictionary element, standard =>
    Dictionary.lasting (element.held_faithful standard) (element.held_follows standard)
  | .frameworkError, _ => Structured.ofPlain_lasting FrameworkError.segments_faithful
  | .errorEnvelope, _ => Structured.ofPlain_lasting ErrorEnvelope.carrier_faithful
  | .signedChunk, _ => Structured.ofPlain_lasting SignedChunk.carrier_faithful
  | .optional item, standard =>
    Optional.lasting (Deferred.held_faithful (item.held_faithful standard))
      (Deferred.held_allows.follows (item.held_follows standard))
  | .record _, standard => absurd standard Bool.false_ne_true
  | .tree, _ => Tree.lasting

theorem ElementKind.held_follows : (kind : ElementKind) → (standard : kind.isStandard = true) →
    kind.format.Follows (kind.heldView standard).Lasting
  | .bool, _ => ElementFormat.ofPlain_lasting
  | .integer _, _ => ElementFormat.ofPlain_lasting
  | .float, _ => ElementFormat.ofPlain_lasting
  | .double, _ => ElementFormat.ofPlain_lasting
  | .text, _ => ElementFormat.ofPlain_lasting
  | .object schema, standard => ElementFormat.spanned_follows (schema.held_follows standard).element

end

mutual

theorem Schema.lasting_of_peek : (schema : Schema) → (standard : schema.isStandard = true) →
    ∀ object later, schema.Peek standard object later →
      (schema.heldView standard).Lasting object later
  | .sequence element, standard, _, _, peek =>
    (Schema.held_follows (.sequence element) standard).of_peek (fun _ _ =>
      Sequence.rel_of_inside (element.held_follows standard)
        (fun _ _ memo items => Sequence.lasting_items memo items)
        (element.lasting_of_peek standard)) peek
  | .dictionary element, standard, _, _, peek =>
    (Schema.held_follows (.dictionary element) standard).of_peek (fun _ _ =>
      Dictionary.rel_of_inside (element.held_follows standard)
        (fun _ _ memo entries => Dictionary.lasting_entries memo entries)
        (element.lasting_of_peek standard)) peek
  | .frameworkError, standard, _, _, peek =>
    (Schema.held_follows .frameworkError standard).of_peek (fun _ _ => False.elim) peek
  | .errorEnvelope, standard, _, _, peek =>
    (Schema.held_follows .errorEnvelope standard).of_peek (fun _ _ => False.elim) peek
  | .signedChunk, standard, _, _, peek =>
    (Schema.held_follows .signedChunk standard).of_peek (fun _ _ => False.elim) peek
  | .optional item, standard, _, _, peek =>
    (Schema.held_follows (.optional item) standard).of_peek (fun _ _ =>
      Optional.rel_of_inside Deferred.held_allows (View.Lasting.refl _)
        (fun presence memo _ _ => Optional.lasting_item presence memo)
        (item.lasting_of_peek standard)) peek
  | .record _, standard, _, _, _ => absurd standard Bool.false_ne_true
  | .tree, _, _, _, peek => Tree.lasting_of_peek peek

theorem ElementKind.lasting_of_peek : (kind : ElementKind) → (standard : kind.isStandard = true) →
    ∀ value later, kind.Peek standard value later → (kind.heldView standard).Lasting value later
  | .bool, _, _, _, rfl => View.Lasting.refl _ _
  | .integer _, _, _, _, rfl => View.Lasting.refl _ _
  | .float, _, _, _, rfl => View.Lasting.refl _ _
  | .double, _, _, _, rfl => View.Lasting.refl _ _
  | .text, _, _, _, rfl => View.Lasting.refl _ _
  | .object schema, standard, _, _, peek => (schema.lasting_of_peek standard _ _ peek).spanned

end

end FieldWire
