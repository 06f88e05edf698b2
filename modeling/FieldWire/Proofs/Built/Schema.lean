import FieldWire.Proofs.Built.Message
import FieldWire.Proofs.Schema

/-!
# Built objects of a schema

The objects of a standard schema that constructors and setters make, with elements and payloads that
were made in the same way.  They are sound, by induction on the schema.
-/

set_option autoImplicit false

namespace FieldWire

mutual

/-- The objects that constructors and setters make. -/
def Schema.Built : (schema : Schema) → schema.isStandard = true → schema.Carrier → Prop
  | .sequence element, standard =>
    (Sequence.format element.format).Built (Sequence.Step (element.Built standard))
  | .dictionary element, standard =>
    (Dictionary.format element.format).Built (Dictionary.Step (element.Built standard))
  | .frameworkError, _ => FrameworkError.format.Built FrameworkError.Step
  | .errorEnvelope, _ => ErrorEnvelope.format.Built ErrorEnvelope.Step
  | .signedChunk, _ => SignedChunk.format.Built SignedChunk.Step
  | .optional item, standard =>
    (Optional.format item.format).Built (Optional.Step item.format (item.Built standard))
  | .record _, standard => absurd standard Bool.false_ne_true
  | .tree, _ => Tree.Built

/-- Any value, or an object that was made. -/
def ElementKind.Built : (kind : ElementKind) → kind.isStandard = true → kind.Carrier → Prop
  | .bool, _ => fun _ => True
  | .integer _, _ => fun _ => True
  | .float, _ => fun _ => True
  | .double, _ => fun _ => True
  | .text, _ => fun _ => True
  | .object schema, standard => schema.Built standard

end

theorem Schema.built_of_look : (schema : Schema) → (standard : schema.isStandard = true) →
    ∀ object later, schema.Built standard object → schema.format.Look object later →
      schema.Built standard later
  | .sequence _, _, _, _, built, look => ObjectFormat.Built.look built look
  | .dictionary _, _, _, _, built, look => ObjectFormat.Built.look built look
  | .frameworkError, _, _, _, built, look => ObjectFormat.Built.look built look
  | .errorEnvelope, _, _, _, built, look => ObjectFormat.Built.look built look
  | .signedChunk, _, _, _, built, look => ObjectFormat.Built.look built look
  | .optional _, _, _, _, built, look => ObjectFormat.Built.look built look
  | .record _, standard, _, _, _, _ => absurd standard Bool.false_ne_true
  | .tree, _, _, _, built, look => Tree.Built.look built look

mutual

theorem Schema.sound_of_built : (schema : Schema) → (standard : schema.isStandard = true) →
    ∀ object, schema.Built standard object → (schema.view standard).Sound object
  | .sequence element, standard, _, built =>
    ObjectFormat.Built.sound (Schema.faithful (.sequence element) standard) Sequence.sound_empty
      (fun _ _ => Sequence.sound_of_step (element.sound_of_built standard)) built
  | .dictionary element, standard, _, built =>
    ObjectFormat.Built.sound (Schema.faithful (.dictionary element) standard)
      Dictionary.sound_empty
      (fun _ _ => Dictionary.sound_of_step (element.sound_of_built standard)) built
  | .frameworkError, standard, _, built =>
    ObjectFormat.Built.sound (Schema.faithful .frameworkError standard) FrameworkError.sound_empty
      (fun _ _ => FrameworkError.sound_of_step) built
  | .errorEnvelope, standard, _, built =>
    ObjectFormat.Built.sound (Schema.faithful .errorEnvelope standard) ErrorEnvelope.sound_empty
      (fun _ _ => ErrorEnvelope.sound_of_step) built
  | .signedChunk, standard, _, built =>
    ObjectFormat.Built.sound (Schema.faithful .signedChunk standard) SignedChunk.sound_empty
      (fun _ _ => SignedChunk.sound_of_step) built
  | .optional item, standard, _, built =>
    (Optional.sound_of_built (item.faithful standard) (item.sound_of_built standard)
      (item.built_of_look standard) built).sound
  | .record _, standard, _, _ => absurd standard Bool.false_ne_true
  | .tree, _, _, built => Tree.Built.sound built

theorem ElementKind.sound_of_built : (kind : ElementKind) → (standard : kind.isStandard = true) →
    ∀ value, kind.Built standard value → (kind.view standard).Sound value
  | .bool, _, _, _ => ⟨trivial, trivial⟩
  | .integer _, _, _, _ => ⟨trivial, trivial⟩
  | .float, _, _, _ => ⟨trivial, trivial⟩
  | .double, _, _, _ => ⟨trivial, trivial⟩
  | .text, _, _, _ => ⟨trivial, trivial⟩
  | .object schema, standard, value, built =>
    ⟨(schema.sound_of_built standard value built).valid,
      (schema.sound_of_built standard value built).exact⟩

end

end FieldWire
