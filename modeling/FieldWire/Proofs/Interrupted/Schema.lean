import FieldWire.Proofs.History.Schema
import FieldWire.Proofs.Interrupted

/-!
# What a load that fails leaves to be written

An object that was made remembers nothing wrong.  A load into it that fails leaves the size that was
remembered for the old contents, in whatever way the contents have changed.  What is written
afterwards is one envelope exactly if that size happens to be the length of the new body; if nothing
was remembered, the size is worked out anew, and it is right unless elements were read in a longer
form than they are written in.
-/

set_option autoImplicit false

namespace FieldWire

/-! ## The same sizes are right -/

mutual

/-- What is seen of an object that is held in full differs only in what it asks of its values. -/
theorem Schema.heldView_eq : (schema : Schema) → (standard : schema.isStandard = true) →
    ∃ Valid, schema.heldView standard = { schema.view standard with Valid := Valid }
  | .sequence element, standard => by
    obtain ⟨Valid, same⟩ := element.heldView_eq standard
    let elements : View element.Carrier := { element.view standard with Valid := Valid }
    refine ⟨(Sequence.view element.format.scheme elements).Valid, ?_⟩
    rw [Schema.heldView, same]
    rfl
  | .dictionary element, standard => by
    obtain ⟨Valid, same⟩ := element.heldView_eq standard
    let elements : View element.Carrier := { element.view standard with Valid := Valid }
    refine ⟨(Dictionary.view element.format.scheme elements).Valid, ?_⟩
    rw [Schema.heldView, same]
    rfl
  | .frameworkError, _ => ⟨_, rfl⟩
  | .errorEnvelope, _ => ⟨_, rfl⟩
  | .signedChunk, _ => ⟨_, rfl⟩
  | .optional item, standard => by
    obtain ⟨Valid, same⟩ := item.heldView_eq standard
    let payload : View item.Carrier := { item.view standard with Valid := Valid }
    refine ⟨(Optional.heldView item.format payload).Valid, ?_⟩
    rw [Schema.heldView, same]
    rfl
  | .record _, standard => absurd standard Bool.false_ne_true
  | .tree, _ => ⟨_, rfl⟩

theorem ElementKind.heldView_eq : (kind : ElementKind) → (standard : kind.isStandard = true) →
    ∃ Valid, kind.heldView standard = { kind.view standard with Valid := Valid }
  | .bool, _ => ⟨_, rfl⟩
  | .integer _, _ => ⟨_, rfl⟩
  | .float, _ => ⟨_, rfl⟩
  | .double, _ => ⟨_, rfl⟩
  | .text, _ => ⟨_, rfl⟩
  | .object schema, standard => by
    obtain ⟨Valid, same⟩ := schema.heldView_eq standard
    refine ⟨Valid, ?_⟩
    rw [ElementKind.heldView, ElementKind.view, same]
    rfl

end

namespace Schema

theorem exact_of_held (schema : Schema) (standard : schema.isStandard = true) :
    (schema.heldView standard).Exact = (schema.view standard).Exact := by
  obtain ⟨Valid, same⟩ := schema.heldView_eq standard
  rw [same]

/-- The object with the size of its body forgotten.  What is inside of it is left alone. -/
def unsized : (schema : Schema) → schema.Carrier → schema.Carrier
  | .sequence _ => fun sequence => ⟨sequence.items, none⟩
  | .dictionary _ => fun dictionary => ⟨dictionary.entries, none⟩
  | .frameworkError => Structured.forget
  | .errorEnvelope => Structured.forget
  | .signedChunk => Structured.forget
  | .optional _ => Structured.forget
  | .record _ => Structured.forget
  | .tree => fun tree => .node ⟨tree.children.items, none⟩

/-- Whether a load takes over objects that it has just read one by one. -/
def takesObjects : Schema → Bool
  | .sequence (.object _) => true
  | .tree => true
  | _ => false

/-- How an object is written that a load left behind when it failed. -/
structure LeftBehind (schema : Schema) (standard : schema.isStandard = true)
    (object later : schema.Carrier) (body : Bytes) : Prop where
  /-- The size that was remembered for the old contents is still remembered. -/
  remembered : schema.remembered? later = schema.remembered? object
  /-- Once that size is forgotten nothing wrong is remembered, except in objects that were read. -/
  exact : schema.takesObjects = false → (schema.view standard).Exact (schema.unsized later)
  /-- The body is written behind that size, and behind the one that is worked out anew. -/
  framed : schema.format.Framed later (schema.unsized later)
    ((schema.view standard).Exact (schema.unsized later)) body

end Schema

/-! ## Each kind of object -/

theorem Sequence.leftBehind {element : ElementKind} {standard : element.isStandard = true}
    {object later : Sequence element.Carrier} {cursor after : Cursor} {error : CodecError}
    (sound : ((Schema.sequence element).heldView standard).Sound object)
    (failed : Sequence.load element.format (object, cursor) = .error error (later, after)) :
    ∃ body, (Schema.sequence element).LeftBehind standard object later body := by
  obtain ⟨remembered, body, framed⟩ := Sequence.framed_of_load_eq_error
    (element.held_faithful standard) (element.faithful standard) (element.measured standard)
    ((Schema.sequence element).exact_of_held standard) sound failed
  refine ⟨body, remembered, ?_, framed⟩
  intro plain
  refine ⟨remembers_none _, fun item _ => ?_⟩
  cases element with
  | object schema => cases plain
  | bool => exact trivial
  | integer width => exact trivial
  | float => exact trivial
  | double => exact trivial
  | text => exact trivial

theorem Dictionary.leftBehind {element : ElementKind} {standard : element.isStandard = true}
    {object later : Dictionary element.Carrier} {cursor after : Cursor} {error : CodecError}
    (sound : ((Schema.dictionary element).heldView standard).Sound object)
    (failed : Dictionary.load element.format (object, cursor) = .error error (later, after)) :
    ∃ body, (Schema.dictionary element).LeftBehind standard object later body := by
  obtain rfl := Dictionary.eq_of_load_eq_error failed
  obtain ⟨distinct, each⟩ := Dictionary.sound_entries sound
  have fresh : ((Schema.dictionary element).heldView standard).Sound ⟨later.entries, none⟩ :=
    Dictionary.sound_of_none distinct each
  have framed := ObjectFormat.framed_of_sound
    ((Schema.dictionary element).held_faithful standard) sound fresh rfl
  have same := congrFun ((Schema.dictionary element).exact_of_held standard) ⟨later.entries, none⟩
  exact ⟨_, rfl, fun _ => same.mp fresh.exact, framed.imp (iff_of_eq same)⟩

theorem Optional.leftBehind {item : Schema} {standard : item.isStandard = true}
    {object later : Optional item.Carrier} {cursor after : Cursor} {error : CodecError}
    (made : (Schema.optional item).Made standard object)
    (failed : Structured.load (Optional.segments item.format) (object, cursor) =
      .error error (later, after)) :
    ∃ body, (Schema.optional item).LeftBehind standard object later body := by
  have items : ∀ payload, item.Becomes standard item.format.empty payload →
      (item.heldView standard).Sound payload := fun payload made =>
    item.sound_of_becomes standard _ payload made (item.held_sound_empty standard)
  have stored := Optional.stored_of_held (Optional.stored_of_history items
    (item.sound_of_becomes standard) (item.held_follows standard) (item.lasting_of_peek standard)
    made Optional.stored_none)
  have sound := (Schema.optional item).sound_of_becomes standard _ object made
    ((Schema.optional item).held_sound_empty standard)
  have measured : (Optional.segments item.format).Measured
      (Optional.fieldView item.format (item.view standard)) := Optional.segments_measured
  obtain ⟨remembered, still, framed⟩ := Structured.framed_of_load_eq_error measured.wellFormed
    (Optional.stored_steady (Deferred.element_faithful (item.held_faithful standard)))
    Optional.keeps_loadFields sound.valid.1 stored failed
  have exact : ((Schema.optional item).view standard).Exact later.forget := by
    refine ⟨remembers_none _, fun set _ _ payload found => ?_⟩
    have payloadExact := (still payload found).exact
    obtain ⟨Valid, same⟩ := item.heldView_eq standard
    rw [same] at payloadExact
    exact payloadExact
  obtain ⟨body, framed⟩ := framed _ exact
  exact ⟨body, remembered, fun _ => exact, framed⟩

namespace Schema

theorem leftBehind_of_load_eq_error {schema : Schema} (standard : schema.isStandard = true)
    {object later : schema.Carrier} (made : schema.Made standard object) {cursor after : Cursor}
    {error : CodecError} (failed : schema.format.load (object, cursor) = .error error (later, after)) :
    ∃ body, schema.LeftBehind standard object later body := by
  have sound := schema.sound_of_becomes standard _ object made (schema.held_sound_empty standard)
  cases schema with
  | sequence element => exact Sequence.leftBehind sound failed
  | dictionary element => exact Dictionary.leftBehind sound failed
  | frameworkError =>
    obtain ⟨remembered, exact, body, framed⟩ := Structured.ofPlain_framed
      FrameworkError.segments_measured.wellFormed FrameworkError.fieldsSize_eq sound.valid.1 failed
    exact ⟨body, remembered, fun _ => exact, framed⟩
  | errorEnvelope =>
    obtain ⟨remembered, exact, body, framed⟩ := Structured.ofPlain_framed
      ErrorEnvelope.segments_measured.wellFormed ErrorEnvelope.fieldsSize_eq sound.valid.1 failed
    exact ⟨body, remembered, fun _ => exact, framed⟩
  | signedChunk =>
    obtain ⟨remembered, exact, body, framed⟩ := Structured.ofPlain_framed
      SignedChunk.segments_measured.wellFormed SignedChunk.fieldsSize_eq sound.valid.1 failed
    exact ⟨body, remembered, fun _ => exact, framed⟩
  | optional item => exact Optional.leftBehind made failed
  | record table => cases standard
  | tree =>
    obtain ⟨remembered, body, framed⟩ := Tree.framed_of_load_eq_error sound failed
    exact ⟨body, remembered, fun plain => absurd plain Bool.true_eq_false.mp, framed⟩

section Envelope

variable {schema : Schema} {standard : schema.isStandard = true} {object later : schema.Carrier}
  {body : Bytes}

/-- An object that remembers no size is the same without it. -/
theorem unsized_of_none : {schema : Schema} → {object : schema.Carrier} →
    schema.remembered? object = none → schema.unsized object = object
  | .sequence _, ⟨_, none⟩, _ => rfl
  | .dictionary _, ⟨_, none⟩, _ => rfl
  | .frameworkError, ⟨_, none, _⟩, _ => rfl
  | .errorEnvelope, ⟨_, none, _⟩, _ => rfl
  | .signedChunk, ⟨_, none, _⟩, _ => rfl
  | .optional _, ⟨_, none, _⟩, _ => rfl
  | .record _, ⟨_, none, _⟩, _ => rfl
  | .tree, .node ⟨_, none⟩, _ => rfl

theorem LeftBehind.isEnvelope_iff_of_none (left : schema.LeftBehind standard object later body)
    (small : (schema.format.size later).1 < 2 ^ 62) (none : schema.remembered? object = none) :
    LengthTag.IsEnvelope (schema.format.serialize later).1 ↔
      (schema.view standard).Exact (schema.unsized later) := by
  have same := unsized_of_none (left.remembered.trans none)
  have length := left.framed.length_eq_iff
  rw [same] at length
  rw [left.framed.isEnvelope_iff small, same]
  exact eq_comm.trans length

theorem LeftBehind.isEnvelope_iff_of_some (left : schema.LeftBehind standard object later body)
    (small : (schema.format.size later).1 < 2 ^ 62) {size : Nat}
    (there : schema.remembered? object = some size) :
    LengthTag.IsEnvelope (schema.format.serialize later).1 ↔ size = body.length := by
  rw [left.framed.isEnvelope_iff small, size_of_remembered (left.remembered.trans there)]

theorem isEnvelope_of_made (made : schema.Made standard object)
    (small : (schema.format.size object).1 < 2 ^ 62) :
    LengthTag.IsEnvelope (schema.format.serialize object).1 := by
  obtain ⟨accounted, _⟩ := accounted_of_made standard made
  obtain ⟨body, written, length⟩ := accounted.bytes small
  rw [written]
  exact (LengthTag.isEnvelope_span _ body small).mpr length

end Envelope

/-- After a load that failed, an object is written with the size that was remembered for its old
contents, if one was, in front of a body that is in order.  So what is written is one envelope
exactly if that size is the length of the new body; if no size was remembered, exactly if no object
that was read inside declares too much, which only happens in sequences of objects.  A dictionary is
unchanged and always written well. -/
theorem isEnvelope_iff_of_loadFrom_error {schema : Schema} (standard : schema.isStandard = true)
    {object later : schema.Carrier} (made : schema.Made standard object) {limit stop : Nat}
    {bytes : Bytes} {error : CodecError}
    (failed : schema.format.loadFrom limit bytes object = (.error error, later, stop)) :
    ∃ body, schema.LeftBehind standard object later body ∧
      ((schema.format.size later).1 < 2 ^ 62 →
        (schema.remembered? object = none →
          (LengthTag.IsEnvelope (schema.format.serialize later).1 ↔
            (schema.view standard).Exact (schema.unsized later))) ∧
        (∀ size, schema.remembered? object = some size →
          (LengthTag.IsEnvelope (schema.format.serialize later).1 ↔ size = body.length)) ∧
        (schema.takesObjects = false →
          (LengthTag.IsEnvelope (schema.format.serialize later).1 ↔
            (schema.format.size later).1 = (schema.format.size (schema.unsized later)).1)) ∧
        ∀ element, schema = .dictionary element →
          later = object ∧ LengthTag.IsEnvelope (schema.format.serialize later).1) := by
  obtain ⟨cursor, ran⟩ : ∃ cursor, schema.format.load (object, Cursor.ofBytes bytes limit) =
      .error error (later, cursor) := by
    rw [ObjectFormat.loadFrom] at failed
    split at failed
    · cases failed
    · rename_i reason final cursor stopped
      cases failed
      exact ⟨cursor, stopped⟩
  obtain ⟨body, left⟩ := leftBehind_of_load_eq_error standard made ran
  refine ⟨body, left, fun small => ⟨left.isEnvelope_iff_of_none small,
    fun size there => left.isEnvelope_iff_of_some small there, ?_, ?_⟩⟩
  · intro plain
    rw [left.framed.isEnvelope_iff small, left.framed.length_eq_iff.mpr (left.exact plain)]
  · rintro element rfl
    obtain rfl : later = object := Dictionary.eq_of_load_eq_error ran
    exact ⟨rfl, isEnvelope_of_made made small⟩

/-- An error with a message, measured, and then a load of a block of the wrong type; and a list of
two values, measured, and then a load of a span that holds less than it says.  Both declare three
bytes; none and two follow. -/
theorem isEnvelope_iff_of_loadFrom_error_examples :
    (let schema : Schema := .frameworkError
      let object : schema.Carrier :=
        (schema.format.size (FrameworkError.ofMessage (Text.ofWire [0x61]))).2
      let later : schema.Carrier :=
        (schema.format.loadFrom defaultPayloadLimit [0x04, 0x01] object).2.1
      (schema.Made rfl object ∧ schema.format.loadFrom defaultPayloadLimit [0x04, 0x01] object =
          (.error (.unexpectedFieldSetType 1), later, 2)) ∧
        (schema.format.serialize later).1 = [0x0c] ∧
        (schema.format.serialize (schema.unsized later)).1 = [0x00] ∧
        ¬LengthTag.IsEnvelope (schema.format.serialize later).1) ∧
    (let schema : Schema := .sequence .bool
      let object : schema.Carrier := (schema.format.size (Sequence.ofList [true, true])).2
      let later : schema.Carrier := (⟨[true], some 3⟩ : Sequence Bool)
      (schema.Made rfl object ∧
          schema.format.loadFrom defaultPayloadLimit [0x10, 0x05, 0x02, 0x02, 0x02] object =
            (.error (.lengthMismatch 4 2), later, 3)) ∧
        (schema.format.serialize later).1 = [0x0c, 0x05, 0x02] ∧
        ¬LengthTag.IsEnvelope (schema.format.serialize later).1) := by
  constructor
  · intro schema object later
    have made : schema.Made rfl object :=
      (Relation.ReflTransGen.single (.change (.setMessage _))).tail (.look (.size .start))
    have failed : schema.format.loadFrom defaultPayloadLimit [0x04, 0x01] object =
        (.error (.unexpectedFieldSetType 1), later, 2) := rfl
    obtain ⟨body, _, small⟩ := isEnvelope_iff_of_loadFrom_error rfl made failed
    obtain ⟨_, _, exactly, _⟩ := small (by decide)
    refine ⟨⟨made, failed⟩, rfl, rfl, ?_⟩
    rw [exactly rfl]
    decide
  · intro schema object later
    have made : schema.Made rfl object := (Relation.ReflTransGen.single
      (.change (.ofList fun _ _ => trivial))).tail (.look (.size .start))
    have failed : schema.format.loadFrom defaultPayloadLimit [0x10, 0x05, 0x02, 0x02, 0x02] object =
        (.error (.lengthMismatch 4 2), later, 3) := rfl
    obtain ⟨body, _, small⟩ := isEnvelope_iff_of_loadFrom_error rfl made failed
    obtain ⟨_, _, exactly, _⟩ := small (by decide)
    refine ⟨⟨made, failed⟩, rfl, ?_⟩
    rw [exactly rfl]
    decide

end Schema

end FieldWire
