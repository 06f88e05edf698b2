import FieldWire.Proofs.Held

/-!
# Objects as they were received

An object that comes from the wire holds its payloads as bytes until someone asks for them.  Here they
are compared as bytes, whether or not they decode: what is seen of a received object is what it holds
and not what could be made of it.
-/

set_option autoImplicit false

namespace FieldWire

/-! ## Payloads -/

namespace Deferred

variable {σ : Type} {format : ObjectFormat σ}

/-- The bytes of a payload that nobody has asked for, or that did not decode. -/
def unread? : Deferred σ → Option Bytes
  | .raw bytes => some bytes
  | .decoded _ _ => none
  | .owned _ => none

theorem eq_raw_of_unread? {deferred : Deferred σ} {bytes : Bytes}
    (unread : deferred.unread? = some bytes) : deferred = .raw bytes := by
  cases deferred with
  | raw held => exact congrArg raw (Option.some.inj unread)
  | decoded held object => cases unread
  | owned object => cases unread

/-- What is seen of a payload as it was received: its bytes. -/
def receivedView : View (Deferred σ) where
  Contents := Option Bytes
  contents := unread?
  bytes deferred := deferred.unread?.getD []
  forget deferred := deferred
  Exact _ := True
  Valid deferred := ∃ bytes, deferred = .raw bytes ∧ LengthTag.IsEnvelope bytes

theorem received_faithful : (element format).Faithful receivedView where
  afterSize := by
    rintro deferred ⟨bytes, rfl, _⟩
    exact View.Alike.refl _ _
  afterWrite := by
    rintro deferred ⟨bytes, rfl, _⟩
    exact View.Alike.refl _ _
  size_eq := by
    rintro deferred ⟨bytes, rfl, _⟩ _
    rfl
  write_eq := by
    rintro deferred ⟨bytes, rfl, _⟩ _
    rfl
  forgotten deferred _ := ⟨View.Alike.refl _ deferred, trivial⟩
  fixed _ _ found := by cases found

theorem received_recoverable : Optional.Recoverable (receivedView : View (Deferred σ)) := by
  rintro deferred ⟨bytes, rfl, envelope⟩ _
  exact ⟨envelope, rfl⟩

theorem received_carries : Optional.Carries (receivedView : View (Deferred σ)) where
  bytes _ := rfl
  exact _ := trivial
  valid bytes envelope := ⟨bytes, rfl, envelope⟩

theorem received_determined : (receivedView : View (Deferred σ)).Determined := by
  rintro deferred other ⟨bytes, rfl, _⟩ ⟨otherBytes, rfl, _⟩ same
  exact Option.some.inj same

end Deferred

theorem ErrorEnvelope.fieldView_determined : fieldView.Determined segments.layout :=
  fun place segment set fields other found admits nonempty _ _ same =>
    carrierView_determined place segment set fields other found admits nonempty trivial trivial same

theorem SignedChunk.fieldView_determined : fieldView.Determined segments.layout := by
  have carried : ∀ set fields, fieldView.Valid set fields → carrierView.Valid set fields := by
    intro set fields valid list has
    obtain ⟨chunk, there, _⟩ := valid list has
    exact Option.isSome_of_eq_some there
  intro place segment set fields other found admits nonempty valid otherValid same
  exact carrierView_determined place segment set fields other found admits nonempty
    (carried set fields valid) (carried set other otherValid) same

/-! ## Lawful formats -/

/-- Everything that a format owes to a view, for elements. -/
structure ElementFormat.Lawful {α : Type} (format : ElementFormat α) (view : View α) : Prop where
  faithful : format.Faithful view
  readable : format.Readable view
  measured : format.Measured view
  determined : view.Determined

/-- The same for objects. -/
structure ObjectFormat.Lawful {σ : Type} (format : ObjectFormat σ) (view : View σ) : Prop where
  faithful : format.Faithful view
  readable : format.Readable view
  measured : format.Measured view
  determined : view.Determined

theorem ElementFormat.fixed_lawful {α : Type} (code : FixedWidth α) (same : α → α → Bool) :
    (fixed code same).Lawful (fixedView code) where
  faithful := fixed_faithful code same
  readable := fixed_readable code same
  measured := fixed_measured code same
  determined := View.plain_determined fun _ _ => congrArg code.encode

theorem ElementFormat.object_lawful {σ : Type} {format : ObjectFormat σ} {view : View σ}
    (objects : format.Lawful view) : (object format).Lawful view.spanned where
  faithful := object_faithful objects.faithful
  readable := object_readable objects.readable
  measured := object_measured objects.measured
  determined := objects.determined.spanned

section Collections

variable {α : Type} {format : ElementFormat α} {view : View α}

theorem Sequence.lawful (elements : format.Lawful view) :
    (Sequence.format format).Lawful (Sequence.view format.scheme view) where
  faithful := faithful elements.faithful
  readable := readable elements.readable
  measured := measured elements.faithful elements.measured
  determined := determined elements.determined _

theorem Dictionary.lawful (elements : format.Lawful view) :
    (Dictionary.format format).Lawful (Dictionary.view format.scheme view) where
  faithful := faithful elements.faithful
  readable := readable elements.readable
  measured := measured elements.faithful elements.measured
  determined := determined elements.determined _

end Collections

theorem Structured.lawful {φ : Type} {format : SegmentFormat φ} {fieldView : SegmentView φ}
    (segments : format.Faithful fieldView) (loads : format.Readable fieldView)
    (sized : format.Measured fieldView) (written : fieldView.Determined format.layout)
    (distinct : format.layout.Distinct) :
    (Structured.format format).Lawful (Structured.view format.layout fieldView) where
  faithful := faithful segments
  readable := readable segments loads distinct
  measured := measured sized
  determined := determined written

theorem FrameworkError.lawful :
    format.Lawful (Structured.view segments.layout fieldView) :=
  Structured.lawful segments_faithful segments_readable segments_measured fieldView_determined
    (List.pairwise_singleton _ _)

theorem ErrorEnvelope.lawful : format.Lawful (Structured.view segments.layout fieldView) :=
  Structured.lawful segments_faithful segments_readable segments_measured fieldView_determined
    (List.pairwise_singleton _ _)

theorem SignedChunk.lawful : format.Lawful (Structured.view segments.layout fieldView) :=
  Structured.lawful segments_faithful segments_readable segments_measured fieldView_determined distinct

theorem Optional.received_lawful {σ : Type} (inner : ObjectFormat σ) :
    (Optional.format inner).Lawful
      (Structured.view (segments inner).layout (payloadView Deferred.receivedView)) :=
  Structured.lawful (payload_faithful Deferred.received_faithful)
    (payload_readable Deferred.received_recoverable) (payload_measured Deferred.received_carries)
    (payload_determined Deferred.received_determined) (List.pairwise_singleton _ _)

/-! ## Schemas -/

mutual

/-- What is seen of the objects of a schema that were received. -/
def Schema.receivedView : (schema : Schema) → schema.isStandard = true → View schema.Carrier
  | .sequence element, standard => Sequence.view element.format.scheme (element.receivedView standard)
  | .dictionary element, standard =>
    Dictionary.view element.format.scheme (element.receivedView standard)
  | .frameworkError, _ => Structured.view FrameworkError.segments.layout FrameworkError.fieldView
  | .errorEnvelope, _ => Structured.view ErrorEnvelope.segments.layout ErrorEnvelope.fieldView
  | .signedChunk, _ => Structured.view SignedChunk.segments.layout SignedChunk.fieldView
  | .optional item, _ => Structured.view (Optional.segments item.format).layout
      (Optional.payloadView Deferred.receivedView)
  | .record _, standard => absurd standard Bool.false_ne_true
  | .tree, _ => Tree.view

def ElementKind.receivedView : (kind : ElementKind) → kind.isStandard = true → View kind.Carrier
  | .bool, _ => ElementFormat.boolView
  | .integer width, _ => ElementFormat.integerView width
  | .float, _ => ElementFormat.binary32View
  | .double, _ => ElementFormat.binary64View
  | .text, _ => ElementFormat.textView
  | .object schema, standard => (schema.receivedView standard).spanned

end

mutual

theorem Schema.received_lawful : (schema : Schema) → (standard : schema.isStandard = true) →
    schema.format.Lawful (schema.receivedView standard)
  | .sequence element, standard => Sequence.lawful (element.received_lawful standard)
  | .dictionary element, standard => Dictionary.lawful (element.received_lawful standard)
  | .frameworkError, _ => FrameworkError.lawful
  | .errorEnvelope, _ => ErrorEnvelope.lawful
  | .signedChunk, _ => SignedChunk.lawful
  | .optional item, _ => Optional.received_lawful item.format
  | .record _, standard => absurd standard Bool.false_ne_true
  | .tree, _ => ⟨Tree.faithful, Tree.readable, Tree.measured, Tree.determined⟩

theorem ElementKind.received_lawful : (kind : ElementKind) → (standard : kind.isStandard = true) →
    kind.format.Lawful (kind.receivedView standard)
  | .bool, _ => ⟨ElementFormat.bool_faithful, ElementFormat.bool_readable,
      ElementFormat.bool_measured, View.plain_determined fun _ _ => congrArg Write.bool⟩
  | .integer width, _ => ⟨ElementFormat.integer_faithful width, ElementFormat.integer_readable width,
      ElementFormat.integer_measured width, View.plain_determined fun _ _ => congrArg Write.integer⟩
  | .float, _ => ElementFormat.fixed_lawful .binary32 _
  | .double, _ => ElementFormat.fixed_lawful .binary64 _
  | .text, _ => ⟨ElementFormat.text_faithful, ElementFormat.text_readable,
      ElementFormat.text_measured, View.plain_determined fun _ _ => congrArg Write.blob⟩
  | .object schema, standard => ElementFormat.object_lawful (schema.received_lawful standard)

end

end FieldWire
