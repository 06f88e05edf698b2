import FieldWire.Proofs.History

/-!
# Size accounting

The objects of a standard schema that were made: by a constructor and any calls of mutators, with
calls that only look in between, never by reading.  Whatever they remember is right, what is written
for them is as long as they say, and it depends on nothing but their contents.
-/

set_option autoImplicit false

namespace FieldWire

mutual

/-- The objects that an object becomes by calls.  What is put inside of it was made. -/
def Schema.Becomes : (schema : Schema) → schema.isStandard = true →
    schema.Carrier → schema.Carrier → Prop
  | .sequence element, standard =>
    History (Sequence.Step (element.Made standard)) (Schema.Peek (.sequence element) standard)
  | .dictionary element, standard =>
    History (Dictionary.Step (element.Made standard)) (Schema.Peek (.dictionary element) standard)
  | .frameworkError, standard => History FrameworkError.Step (Schema.Peek .frameworkError standard)
  | .errorEnvelope, standard => History ErrorEnvelope.Change (Schema.Peek .errorEnvelope standard)
  | .signedChunk, standard => History SignedChunk.Change (Schema.Peek .signedChunk standard)
  | .optional item, standard =>
    History (Optional.Change item.format (item.Becomes standard item.format.empty)
      (item.Becomes standard)) (Schema.Peek (.optional item) standard)
  | .record _, standard => absurd standard Bool.false_ne_true
  | .tree, _ => Tree.Becomes

/-- Any value, or an object that a new one became. -/
def ElementKind.Made : (kind : ElementKind) → kind.isStandard = true → kind.Carrier → Prop
  | .bool, _ => fun _ => True
  | .integer _, _ => fun _ => True
  | .float, _ => fun _ => True
  | .double, _ => fun _ => True
  | .text, _ => fun _ => True
  | .object schema, standard => schema.Becomes standard schema.format.empty

end

theorem Schema.held_sound_empty (schema : Schema) (standard : schema.isStandard = true) :
    (schema.heldView standard).Sound schema.format.empty := by
  cases schema with
  | sequence => exact Sequence.sound_empty
  | dictionary => exact Dictionary.sound_empty
  | frameworkError => exact FrameworkError.sound_empty
  | errorEnvelope => exact ErrorEnvelope.carrier_sound_empty
  | signedChunk => exact SignedChunk.carrier_sound_empty
  | optional => exact Optional.held_sound_empty
  | record => cases standard
  | tree => exact Tree.sound_leaf

mutual

theorem Schema.sound_of_becomes : (schema : Schema) → (standard : schema.isStandard = true) →
    ∀ first last, schema.Becomes standard first last → (schema.heldView standard).Sound first →
      (schema.heldView standard).Sound last
  | .sequence element, standard, _, _, history, sound =>
    View.sound_of_history (fun _ _ => Sequence.sound_of_step (element.sound_of_made standard))
      (Schema.lasting_of_peek (.sequence element) standard) history sound
  | .dictionary element, standard, _, _, history, sound =>
    View.sound_of_history (fun _ _ => Dictionary.sound_of_step (element.sound_of_made standard))
      (Schema.lasting_of_peek (.dictionary element) standard) history sound
  | .frameworkError, standard, _, _, history, sound =>
    View.sound_of_history (fun _ _ => FrameworkError.sound_of_step)
      (Schema.lasting_of_peek .frameworkError standard) history sound
  | .errorEnvelope, standard, _, _, history, sound =>
    View.sound_of_history (fun _ _ => ErrorEnvelope.carrier_sound_of_change)
      (Schema.lasting_of_peek .errorEnvelope standard) history sound
  | .signedChunk, standard, _, _, history, sound =>
    View.sound_of_history (fun _ _ => SignedChunk.carrier_sound_of_change)
      (Schema.lasting_of_peek .signedChunk standard) history sound
  | .optional item, standard, _, _, history, sound =>
    View.sound_of_history (fun _ _ => Optional.held_sound_of_change
        (fun payload made => item.sound_of_becomes standard _ payload made
          (item.held_sound_empty standard)) (item.sound_of_becomes standard))
      (Schema.lasting_of_peek (.optional item) standard) history sound
  | .record _, standard, _, _, _, _ => absurd standard Bool.false_ne_true
  | .tree, _, _, _, becomes, sound => Tree.sound_of_becomes becomes sound

theorem ElementKind.sound_of_made : (kind : ElementKind) → (standard : kind.isStandard = true) →
    ∀ value, kind.Made standard value → (kind.heldView standard).Sound value
  | .bool, _, _, _ => ⟨trivial, trivial⟩
  | .integer _, _, _, _ => ⟨trivial, trivial⟩
  | .float, _, _, _ => ⟨trivial, trivial⟩
  | .double, _, _, _ => ⟨trivial, trivial⟩
  | .text, _, _, _ => ⟨trivial, trivial⟩
  | .object schema, standard, value, made =>
    have sound := schema.sound_of_becomes standard _ value made (schema.held_sound_empty standard)
    ⟨sound.valid, sound.exact⟩

end

namespace Schema

/-- The objects that a new one becomes by calls. -/
def Made (schema : Schema) (standard : schema.isStandard = true) : schema.Carrier → Prop :=
  schema.Becomes standard schema.format.empty

/-- The size that an object remembers. -/
def remembered? : (schema : Schema) → schema.Carrier → Option Nat
  | .sequence _ => Sequence.memo
  | .dictionary _ => Dictionary.memo
  | .frameworkError => Structured.memo
  | .errorEnvelope => Structured.memo
  | .signedChunk => Structured.memo
  | .optional _ => Structured.memo
  | .record _ => Structured.memo
  | .tree => fun tree => tree.children.memo

/-- A remembered size is not worked out again. -/
theorem size_of_remembered : {schema : Schema} → {object : schema.Carrier} → {size : Nat} →
    schema.remembered? object = some size → (schema.format.size object).1 = size
  | .sequence _, ⟨_, some _⟩, _, rfl => rfl
  | .dictionary _, ⟨_, some _⟩, _, rfl => rfl
  | .frameworkError, ⟨_, some _, _⟩, _, rfl => rfl
  | .errorEnvelope, ⟨_, some _, _⟩, _, rfl => rfl
  | .signedChunk, ⟨_, some _, _⟩, _, rfl => rfl
  | .optional _, ⟨_, some _, _⟩, _, rfl => rfl
  | .record _, ⟨_, some _, _⟩, _, rfl => rfl
  | .tree, .node ⟨_, some _⟩, _, rfl => rfl

theorem remembered_forget : {schema : Schema} → (standard : schema.isStandard = true) →
    (object : schema.Carrier) →
      schema.remembered? ((schema.heldView standard).forget object) = none
  | .sequence _, _, _ => rfl
  | .dictionary _, _, _ => rfl
  | .frameworkError, _, _ => rfl
  | .errorEnvelope, _, _ => rfl
  | .signedChunk, _, _ => rfl
  | .optional _, _, _ => rfl
  | .record _, standard, _ => absurd standard Bool.false_ne_true
  | .tree, _, .node _ => rfl

/-- Sizes and bytes of an object are those that are worked out anew. -/
structure Accounted (schema : Schema) (standard : schema.isStandard = true)
    (object : schema.Carrier) : Prop where
  /-- Whatever is remembered inside, to any depth, is right. -/
  exact : (schema.heldView standard).Exact object
  /-- The copy that sizes are compared with has the same contents and remembers nothing. -/
  copy : (schema.heldView standard).contents ((schema.heldView standard).forget object) =
      (schema.heldView standard).contents object ∧
    schema.remembered? ((schema.heldView standard).forget object) = none
  /-- A size that the object remembers is the one that a copy without memory works out. -/
  remembered : ∀ size, schema.remembered? object = some size →
    size = (schema.format.size ((schema.heldView standard).forget object)).1
  /-- So is the size that the object gives. -/
  size : (schema.format.size object).1 =
    (schema.format.size ((schema.heldView standard).forget object)).1
  /-- As many bytes are written as the object says. -/
  length : (schema.format.serialize object).1.length = (schema.format.encodedSize object).1
  /-- They are the size, shifted by two, and a body of that size. -/
  bytes : (schema.format.size object).1 < 2 ^ 62 → ∃ body,
    (schema.format.serialize object).1 =
      Varint.encode (UInt64.ofNat (4 * (schema.format.size object).1)) ++ body ∧
    body.length = (schema.format.size object).1

theorem accounted_of_sound {schema : Schema} {standard : schema.isStandard = true}
    {object : schema.Carrier} (sound : (schema.heldView standard).Sound object) :
    schema.Accounted standard object := by
  have faithful := schema.held_faithful standard
  obtain ⟨alike, freshExact⟩ := faithful.forgotten object sound.valid
  have size := faithful.size_eq object sound.valid sound.exact
  have written := faithful.encode_eq object sound.valid sound.exact
  have fresh := faithful.size_eq _ (alike.valid sound.valid) freshExact
  rw [alike.bytes, ← size] at fresh
  refine ⟨sound.exact, ⟨alike.contents, remembered_forget standard object⟩, ?_, fresh.symm, ?_, ?_⟩
  · intro remembered there
    rw [fresh, size_of_remembered there]
  · rw [ObjectFormat.serialize, written, Write.length_blob, ← size]
    rfl
  · intro _
    refine ⟨(schema.heldView standard).bytes object, ?_, size.symm⟩
    rw [ObjectFormat.serialize, written, size]
    rfl

/-- Whatever history an object has, its accounts are right, and what is written for it is what is
written for any other object with the same contents. -/
theorem accounted_of_made {schema : Schema} (standard : schema.isStandard = true)
    {object : schema.Carrier} (made : schema.Made standard object) :
    schema.Accounted standard object ∧
      ∀ other, schema.Made standard other →
        (schema.heldView standard).contents other = (schema.heldView standard).contents object →
          (schema.format.serialize other).1 = (schema.format.serialize object).1 := by
  have start := schema.held_sound_empty standard
  have sound := schema.sound_of_becomes standard _ object made start
  refine ⟨accounted_of_sound sound, ?_⟩
  intro other otherMade same
  have otherSound := schema.sound_of_becomes standard _ other otherMade start
  have faithful := schema.held_faithful standard
  have bytes := schema.held_determined standard object other sound.valid otherSound.valid same
  rw [ObjectFormat.serialize, ObjectFormat.serialize,
    faithful.encode_eq object sound.valid sound.exact,
    faithful.encode_eq other otherSound.valid otherSound.exact, bytes]

/-- A payload that was measured inside of its wrapper and then changed where it is, and one that was
put into its wrapper as it is. -/
theorem accounted_of_made_example :
    let schema : Schema := .optional (.sequence .text)
    let inner := Sequence.format ElementFormat.text
    let first : schema.Carrier := Optional.ofItem inner (Sequence.ofList [Text.ofWire [0x61]])
    let sized : schema.Carrier := (schema.format.size first).2
    let last : schema.Carrier :=
      (Optional.modifyItem inner (fun list => ((), list.push (Text.ofWire [0x62]))) sized).2
    let other : schema.Carrier :=
      Optional.ofItem inner (Sequence.ofList [Text.ofWire [0x61], Text.ofWire [0x62]])
    (schema.Made rfl last ∧ schema.Made rfl other ∧
        (schema.heldView rfl).contents other = (schema.heldView rfl).contents last) ∧
      schema.remembered? sized = some 5 ∧ schema.Accounted rfl last ∧
      (schema.format.serialize last).1 = [0x1c, 0x08, 0x14, 0x08, 0x04, 0x61, 0x04, 0x62] ∧
      (schema.format.serialize other).1 = (schema.format.serialize last).1 := by
  intro schema inner first sized last other
  have text : ∀ value, (ElementKind.text).Made rfl value := fun _ => trivial
  have list : ∀ values : List Text, (Schema.sequence .text).Made rfl (Sequence.ofList values) :=
    fun values => .single (.change (.ofList fun value _ => text value))
  have push : ∀ value : Text, ∀ object,
      (Schema.sequence .text).Becomes rfl object (Sequence.push object value) :=
    fun value _ => .single (.change (.push (text value)))
  have firstMade : schema.Made rfl first := .single (.change (.setItem (list _)))
  have sizedMade : schema.Made rfl sized := firstMade.tail (.look (.size .start))
  have made : schema.Made rfl last := sizedMade.tail (.change (.modifyItem (push _)))
  have otherMade : schema.Made rfl other := .single (.change (.setItem (list _)))
  have same : (schema.heldView rfl).contents other = (schema.heldView rfl).contents last := rfl
  obtain ⟨accounted, determined⟩ := accounted_of_made rfl made
  exact ⟨⟨made, otherMade, same⟩, rfl, accounted, by decide, determined other otherMade same⟩

end Schema

end FieldWire
