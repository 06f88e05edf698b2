import FieldWire.Proofs.Built.Schema
import FieldWire.Proofs.Delimited

/-!
# The payload limit

A limit is compared with every span and every collection that is read, at any depth.  All these
comparisons come down to the first: in an envelope that is read to its end, nothing inside is larger
than the body.  So a limit refuses just the envelopes that declare more than it admits, and writing
and reading agree about the objects that keep to it.
-/

set_option autoImplicit false

namespace FieldWire

namespace LengthTag

/-- The bytes begin with the tag of a span of `number` bytes, whether or not these follow. -/
def BeginsSpan (bytes : Bytes) (number : Nat) : Prop :=
  ∃ tag tagSize, Varint.decode bytes = .ok (some (tag, tagSize)) ∧ scheme tag = .list ∧
    count tag = number

theorem BeginsSpan.unique {bytes : Bytes} {first second : Nat} (left : BeginsSpan bytes first)
    (right : BeginsSpan bytes second) : first = second := by
  obtain ⟨tag, tagSize, decoded, _, rfl⟩ := left
  obtain ⟨other, otherSize, again, _, rfl⟩ := right
  rw [decoded] at again
  cases again
  rfl

theorem beginsSpan_blob {bytes : Bytes} (fits : bytes.length < 2 ^ 62) :
    BeginsSpan (Write.blob bytes) bytes.length :=
  ⟨_, _, Varint.decode_encode_append _ _, scheme_encode _ _, count_encode _ _ fits⟩

end LengthTag

namespace Reader

theorem beginsSpan_of_openSpan {cursor after : Cursor} {number : Nat}
    (opened : openSpan cursor = .ok number after) :
    LengthTag.BeginsSpan cursor.rest number ∧ number ≤ cursor.limit := by
  obtain ⟨tag, tagSize, decoded, listed, counted, within, _, _⟩ := openSpan_eq_ok opened
  exact ⟨⟨tag, tagSize, decoded, listed, counted⟩, within⟩

theorem openSpan_of_large {cursor : Cursor} {number : Nat}
    (begins : LengthTag.BeginsSpan cursor.rest number) (large : cursor.limit < number) :
    ∃ after, openSpan cursor = .error (.payloadTooLarge number cursor.limit) after := by
  obtain ⟨tag, tagSize, decoded, listed, rfl⟩ := begins
  have refused : spanLength cursor = .error _ (cursor.advance tagSize) :=
    (bind_of_ok (lengthTag_of_decode decoded listed)).trans
      (bind_of_error (withinLimit_of_lt large))
  exact ⟨_, bind_of_error refused⟩

end Reader

namespace ObjectFormat

variable {σ : Type} {format : ObjectFormat σ} {bytes : Bytes} {object : σ} {limit : Nat}

/-- What a limit admits is read as it is with any larger limit, and of what is read with a larger
limit all is admitted that declares no more. -/
theorem Confined.deserializeWithin_iff (confined : format.Confined) {larger : Nat}
    (ordered : limit ≤ larger) :
    format.deserializeWithin limit bytes = .ok object ↔
      format.deserializeWithin larger bytes = .ok object ∧
        ∃ declared, LengthTag.BeginsSpan bytes declared ∧ declared ≤ limit := by
  constructor
  · intro accepted
    obtain ⟨tagSize, declared, opened, _, takes⟩ := confined.span_of_deserializeWithin accepted
    obtain ⟨begins, within⟩ := Reader.beginsSpan_of_openSpan opened
    have fits : declared ≤ larger := Nat.le_trans within ordered
    exact ⟨deserializeWithin_of_takes (takes larger fits), declared, begins, within⟩
  · rintro ⟨accepted, declared, begins, within⟩
    obtain ⟨tagSize, found, opened, _, takes⟩ := confined.span_of_deserializeWithin accepted
    obtain rfl := begins.unique (Reader.beginsSpan_of_openSpan opened).1
    exact deserializeWithin_of_takes (takes limit within)

theorem OpensSpan.deserializeWithin_of_large (opens : format.OpensSpan) {declared : Nat}
    (begins : LengthTag.BeginsSpan bytes declared) (large : limit < declared) :
    format.deserializeWithin limit bytes = .error (.payloadTooLarge declared limit) := by
  have refused : ∃ after, Reader.openSpan (Cursor.ofBytes bytes limit) = .error _ after :=
    Reader.openSpan_of_large begins large
  obtain ⟨after, refused⟩ := refused
  exact deserializeWithin_of_error (Loader.toReader_of_error (opens _ _ _ _ refused))

theorem serializeWithin_of_lt (large : limit < (format.size object).1) :
    (format.serializeWithin limit object).1 =
      .error (.payloadTooLarge (format.size object).1 limit) := by
  simp [serializeWithin, Nat.not_le.mpr large]

section Sound

variable {view : View σ}

/-- The size is asked for before the bytes, and that does not change them. -/
theorem Faithful.serializeWithin_of_le (faithful : format.Faithful view) (sound : view.Sound object)
    (within : (format.size object).1 ≤ limit) :
    (format.serializeWithin limit object).1 = .ok (format.serialize object).1 := by
  simp [serializeWithin, within, serialize, faithful.encode_size sound]

theorem Faithful.deserializeWithin_of_le (faithful : format.Faithful view)
    (readable : format.Readable view) (sound : view.Sound object)
    (within : (format.size object).1 ≤ limit) (default : limit ≤ defaultPayloadLimit) :
    ∃ back, format.deserializeWithin limit (format.serialize object).1 = .ok back ∧
      view.contents back = view.contents object := by
  rw [faithful.size_eq object sound.valid sound.exact] at within
  rw [faithful.serialize_eq sound]
  exact deserializeWithin_of_recovers (readable limit object sound.valid within default)

/-- What is written for a sound object declares its size. -/
theorem Faithful.beginsSpan_serialize (faithful : format.Faithful view) (sound : view.Sound object)
    (small : (format.size object).1 < 2 ^ 62) :
    LengthTag.BeginsSpan (format.serialize object).1 (format.size object).1 := by
  rw [faithful.size_eq object sound.valid sound.exact] at small ⊢
  rw [faithful.serialize_eq sound]
  exact LengthTag.beginsSpan_blob small

/-- An object that is read back with a limit keeps to it.  A length of 2^62 or more does not survive
its tag, but then the body is longer than the tag says and is not read to its end. -/
theorem Faithful.size_le_of_deserializeWithin (faithful : format.Faithful view)
    (confined : format.Confined) (sound : view.Sound object) {back : σ}
    (accepted : format.deserializeWithin limit (format.serialize object).1 = .ok back) :
    (format.size object).1 ≤ limit := by
  rw [faithful.serialize_eq sound] at accepted
  obtain ⟨tagSize, declared, opened, whole, _⟩ := confined.span_of_deserializeWithin accepted
  obtain ⟨tag, length, decoded, _, counted, within, _, same⟩ := Reader.openSpan_eq_ok opened
  obtain rfl := Cursor.advance_injective same
  have front : Varint.decode (Write.blob (view.bytes object)) = _ :=
    Varint.decode_encode_append _ _
  have decoded : Varint.decode (Write.blob (view.bytes object)) = .ok (some (tag, tagSize)) :=
    decoded
  rw [front] at decoded
  cases decoded
  rw [Write.length_blob] at whole
  have body : (view.bytes object).length = declared := Nat.add_left_cancel whole
  rw [faithful.size_eq object sound.valid sound.exact, body]
  exact within

end Sound

end ObjectFormat

namespace Schema

/-- A limit acts on the outermost envelope and there alone.  Of two limits the smaller one admits
just what the larger one admits and what declares no more than the smaller, with the same result, and
anything that declares more is refused for that.  An object that was built is written with a limit if
and only if it is read back with it, and the refusals tell its size and the limit.  (A size of 2^62
or more, which no memory holds, cannot be told from a tag.) -/
theorem limit_acts_on_envelope (schema : Schema) :
    (∀ limit larger bytes object, limit ≤ larger →
      (schema.format.deserializeWithin limit bytes = .ok object ↔
        schema.format.deserializeWithin larger bytes = .ok object ∧
          ∃ declared, LengthTag.BeginsSpan bytes declared ∧ declared ≤ limit)) ∧
    (∀ limit bytes declared, LengthTag.BeginsSpan bytes declared → limit < declared →
      schema.format.deserializeWithin limit bytes = .error (.payloadTooLarge declared limit)) ∧
    ∀ (standard : schema.isStandard = true) (object : schema.Carrier) (limit : Nat),
      schema.Built standard object → limit ≤ defaultPayloadLimit →
        let written := schema.format.serializeWithin limit object
        let read := schema.format.deserializeWithin limit (schema.format.serialize object).1
        ((∃ bytes, written.1 = .ok bytes) ↔ ∃ back, read = .ok back) ∧
        (∀ bytes, written.1 = .ok bytes → bytes = (schema.format.serialize object).1) ∧
        (∀ back, read = .ok back →
          (schema.view standard).contents back = (schema.view standard).contents object) ∧
        (∀ error, written.1 = .error error →
          error = .payloadTooLarge (schema.format.size object).1 limit) ∧
        ∀ error, (schema.format.size object).1 < 2 ^ 62 → read = .error error →
          error = .payloadTooLarge (schema.format.size object).1 limit := by
  refine ⟨fun limit larger bytes object ordered => schema.confined.deserializeWithin_iff ordered,
    fun limit bytes declared begins large =>
      schema.opensSpan.deserializeWithin_of_large begins large, ?_⟩
  intro standard object limit built default written read
  have sound := schema.sound_of_built standard object built
  have faithful := schema.faithful standard
  rcases Nat.lt_or_ge limit (schema.format.size object).1 with large | within
  · have refused : written.1 = .error _ := ObjectFormat.serializeWithin_of_lt large
    have unread : ∀ back, read ≠ .ok back := fun back accepted =>
      absurd (faithful.size_le_of_deserializeWithin schema.confined sound accepted)
        (Nat.not_le_of_lt large)
    refine ⟨?_, ?_, fun back accepted => absurd accepted (unread back), ?_, ?_⟩
    · simp [refused, unread]
    · simp [refused]
    · simp [refused]
    · intro error small failed
      have told : read = .error _ := schema.opensSpan.deserializeWithin_of_large
        (faithful.beginsSpan_serialize sound small) large
      rw [told] at failed
      cases failed
      rfl
  · have admitted : written.1 = .ok _ := faithful.serializeWithin_of_le sound within
    obtain ⟨back, accepted, contents⟩ :=
      faithful.deserializeWithin_of_le (schema.readable standard) sound within default
    have accepted : read = .ok back := accepted
    refine ⟨?_, ?_, ?_, ?_, ?_⟩
    · simp [admitted, accepted]
    · simp [admitted]
    · intro other again
      rw [accepted] at again
      cases again
      exact contents
    · simp [admitted]
    · simp [accepted]

/-- A list of one list of one truth value with an overlong varint, whose body declares five bytes, and
a built optional list of one text with a body of five bytes, with limits of four, five and six. -/
theorem limit_acts_on_envelope_examples :
    let flags : Schema := .sequence (.object (.sequence .bool))
    let bytes : Bytes := [0x14, 0x04, 0x0c, 0x05, 0x82, 0x00]
    let name : Schema := .optional (.sequence .text)
    let object : name.Carrier := Optional.ofItem (Sequence.format ElementFormat.text)
      (Sequence.ofList [Text.ofWire [0x61]])
    (∃ object, flags.format.deserializeWithin 6 bytes = .ok object ∧
      flags.format.deserializeWithin 5 bytes = .ok object) ∧
    flags.format.deserializeWithin 4 bytes = .error (.payloadTooLarge 5 4) ∧
    name.Built rfl object ∧
    (∃ back, name.format.deserializeWithin 5 (name.format.serialize object).1 = .ok back) ∧
    (name.format.serializeWithin 4 object).1 = .error (.payloadTooLarge 5 4) ∧
    name.format.deserializeWithin 4 (name.format.serialize object).1 =
      .error (.payloadTooLarge 5 4) := by
  intro flags bytes name object
  obtain ⟨larger, refused, _⟩ := limit_acts_on_envelope flags
  obtain ⟨_, _, both⟩ := limit_acts_on_envelope name
  have begins : LengthTag.BeginsSpan bytes 5 := ⟨0x14, 1, rfl, rfl, rfl⟩
  have payload : (Schema.sequence .text).Built rfl (Sequence.ofList [Text.ofWire [0x61]]) :=
    .step .empty (.ofList fun _ _ => trivial)
  have built : name.Built rfl object := .step .empty (.setItem payload)
  have size : (name.format.size object).1 = 5 := by decide
  obtain ⟨agree, _⟩ := both rfl object 5 built (by decide)
  obtain ⟨_, _, _, writing, reading⟩ := both rfl object 4 built (by decide)
  have whole : flags.format.deserializeWithin 6 bytes = .ok _ := rfl
  refine ⟨⟨_, whole, (larger 5 6 bytes _ (by decide)).mpr ⟨whole, 5, begins, by decide⟩⟩,
    refused 4 bytes 5 begins (by decide), built, agree.mp ⟨_, rfl⟩, ?_, ?_⟩
  · have failed : (name.format.serializeWithin 4 object).1 = .error _ := rfl
    rw [failed, writing _ failed, size]
  · have failed : name.format.deserializeWithin 4 (name.format.serialize object).1 = .error _ := rfl
    rw [failed, reading _ (by rw [size]; decide) failed, size]

end Schema

end FieldWire
