import FieldWire.Proofs.Built.Message
import FieldWire.Proofs.Normal

/-!
# Payloads are forwarded as they came

Optional payloads, error envelopes and signed chunks carry an encoded object as bytes.  Whoever reads
such a wrapper and writes it again forwards these bytes as they are, whether or not they decode and
however their length is written, and setting the other fields in between changes nothing in them.
-/

set_option autoImplicit false

namespace FieldWire

/-- A type of objects that carry a payload as bytes, beside other values. -/
structure Wrapper (σ : Type) where
  format : ObjectFormat σ
  /-- The values beside the payload. -/
  Others : Type
  /-- The shortest body with the given values and payload. -/
  body : Others → Bytes → Bytes
  /-- The object has the given values and payload, and no other field is present. -/
  Holds : σ → Others → Bytes → Prop
  /-- The setters of the other values, with what they set. -/
  Setting : Type
  set : Setting → σ → σ
  update : Setting → Others → Others

namespace Wrapper

variable {σ : Type} {wrapper : Wrapper σ}

/-- What becomes of an object and of its other values by setters, with looks in between. -/
inductive Course (wrapper : Wrapper σ) (start : σ) (others : wrapper.Others) :
    σ → wrapper.Others → Prop where
  | start : Course wrapper start others start others
  | set {object : σ} {values : wrapper.Others} (setting : wrapper.Setting)
      (before : Course wrapper start others object values) :
      Course wrapper start others (wrapper.set setting object) (wrapper.update setting values)
  | look {object later : σ} {values : wrapper.Others}
      (before : Course wrapper start others object values)
      (look : wrapper.format.Look object later) : Course wrapper start others later values

/-- A whole object, be it decodable or not, is read as the payload out of the shortest encoding of a
wrapper and written back as it was; and after any course of settings the wrapper is written with the
values that were set and the same payload, and is read back so.  Only a body beyond the limit is
refused. -/
def Relays (wrapper : Wrapper σ) : Prop :=
  ∀ others payload, LengthTag.IsEnvelope payload →
    let bytes := Write.blob (wrapper.body others payload)
    ((wrapper.body others payload).length ≤ defaultPayloadLimit →
      ∃ object, wrapper.format.deserialize bytes = .ok object ∧
        wrapper.Holds object others payload ∧ (wrapper.format.serialize object).1 = bytes ∧
        ∀ later values, wrapper.Course object others later values →
          let written := (wrapper.format.serialize later).1
          written = Write.blob (wrapper.body values payload) ∧
          ((wrapper.body values payload).length < 2 ^ 62 → LengthTag.IsEnvelope written) ∧
          ((wrapper.body values payload).length ≤ defaultPayloadLimit →
            ∃ back, wrapper.format.deserialize written = .ok back ∧
              wrapper.Holds back values payload)) ∧
    ((wrapper.body others payload).length < 2 ^ 62 →
      defaultPayloadLimit < (wrapper.body others payload).length →
      wrapper.format.deserialize bytes =
        .error (.payloadTooLarge (wrapper.body others payload).length defaultPayloadLimit))

/-! ## What makes a wrapper relay -/

/-- The laws of a wrapper: `make` gives an object with given values and payload, and holding them is
having the same contents. -/
structure Lawful (wrapper : Wrapper σ) (view : View σ) (make : wrapper.Others → Bytes → σ) :
    Prop where
  format : wrapper.format.Lawful view
  confined : wrapper.format.Confined
  opens : wrapper.format.OpensSpan
  valid_make : ∀ others payload, LengthTag.IsEnvelope payload → view.Valid (make others payload)
  bytes_make : ∀ others payload, view.bytes (make others payload) = wrapper.body others payload
  holds_iff : ∀ object others payload, wrapper.Holds object others payload ↔
    view.contents object = view.contents (make others payload)
  sound_set : ∀ setting object, view.Sound object → view.Sound (wrapper.set setting object)
  holds_set : ∀ setting object others payload, wrapper.Holds object others payload →
    wrapper.Holds (wrapper.set setting object) (wrapper.update setting others) payload

section Lawful

variable {view : View σ} {make : wrapper.Others → Bytes → σ} {others : wrapper.Others}
  {payload : Bytes} {object : σ}

theorem Lawful.bytes_of_holds (lawful : wrapper.Lawful view make)
    (whole : LengthTag.IsEnvelope payload) (valid : view.Valid object)
    (holds : wrapper.Holds object others payload) :
    view.bytes object = wrapper.body others payload := by
  rw [← lawful.bytes_make]
  exact lawful.format.determined _ _ (lawful.valid_make others payload whole) valid
    ((lawful.holds_iff _ _ _).mp holds)

theorem Lawful.serialize_of_holds (lawful : wrapper.Lawful view make)
    (whole : LengthTag.IsEnvelope payload) (sound : view.Sound object)
    (holds : wrapper.Holds object others payload) :
    (wrapper.format.serialize object).1 = Write.blob (wrapper.body others payload) := by
  rw [← lawful.bytes_of_holds whole sound.valid holds]
  exact lawful.format.faithful.serialize_eq sound

/-- The shortest encoding is read into an object that remembers nothing wrong. -/
theorem Lawful.deserialize_blob (lawful : wrapper.Lawful view make)
    (whole : LengthTag.IsEnvelope payload)
    (within : (wrapper.body others payload).length ≤ defaultPayloadLimit) :
    ∃ object, wrapper.format.deserialize (Write.blob (wrapper.body others payload)) = .ok object ∧
      view.Sound object ∧ wrapper.Holds object others payload := by
  have valid := lawful.valid_make others payload whole
  have measured := lawful.format.measured
  rw [← lawful.bytes_make] at within
  obtain ⟨object, accepted, contents⟩ := ObjectFormat.deserializeWithin_of_recovers
    (lawful.format.readable defaultPayloadLimit _ valid within (Nat.le_refl _))
  have accepted : wrapper.format.deserialize _ = .ok object := accepted
  obtain ⟨weighed, _⟩ := measured.declared_of_deserialize lawful.confined accepted
  have bytes := lawful.format.determined _ _ valid weighed.valid contents
  rw [← bytes] at accepted
  rw [← lawful.bytes_make, ← bytes]
  exact ⟨object, accepted, measured.sound_of_deserialize_blob lawful.confined accepted,
    (lawful.holds_iff _ _ _).mpr contents⟩

theorem Lawful.holds_of_course (lawful : wrapper.Lawful view make) (sound : view.Sound object)
    (holds : wrapper.Holds object others payload) {later : σ} {values : wrapper.Others}
    (course : wrapper.Course object others later values) :
    view.Sound later ∧ wrapper.Holds later values payload := by
  induction course with
  | start => exact ⟨sound, holds⟩
  | set setting _ ih => exact ⟨lawful.sound_set _ _ ih.1, lawful.holds_set _ _ _ _ ih.2⟩
  | look _ look ih =>
    have alike := lawful.format.faithful.alike_of_look ih.1.valid look
    refine ⟨alike.sound ih.1, (lawful.holds_iff _ _ _).mpr ?_⟩
    exact alike.contents.trans ((lawful.holds_iff _ _ _).mp ih.2)

theorem Lawful.relays (lawful : wrapper.Lawful view make) : wrapper.Relays := by
  intro others payload whole bytes
  refine ⟨fun within => ?_, fun small large => ?_⟩
  · obtain ⟨object, accepted, sound, holds⟩ := lawful.deserialize_blob whole within
    refine ⟨object, accepted, holds, lawful.serialize_of_holds whole sound holds, ?_⟩
    intro later values course written
    obtain ⟨laterSound, laterHolds⟩ := lawful.holds_of_course sound holds course
    have same : written = _ := lawful.serialize_of_holds whole laterSound laterHolds
    refine ⟨same, fun small => same ▸ Deferred.isEnvelope_blob small, fun fits => ?_⟩
    obtain ⟨back, again, _, backHolds⟩ := lawful.deserialize_blob whole fits
    exact ⟨back, same ▸ again, backHolds⟩
  · exact lawful.opens.deserializeWithin_of_large (LengthTag.beginsSpan_blob small) large

end Lawful

/-! ## Optional payloads -/

/-- Optional payloads have no other values. -/
def optional {σ : Type} (item : ObjectFormat σ) : Wrapper (Optional σ) where
  format := Optional.format item
  Others := Unit
  body _ payload := 0x08 :: payload
  Holds object _ payload :=
    object.presence = [⟨.list, 0, 0x08⟩] ∧ object.fields.item = some (.raw payload)
  Setting := Empty
  set := nofun
  update := nofun

theorem optional_lawful {σ : Type} (item : ObjectFormat σ) :
    (optional item).Lawful (Structured.view (Optional.segments item).layout
      (Optional.payloadView Deferred.receivedView))
      fun _ payload => ⟨[⟨.list, 0, 0x08⟩], none, ⟨some (.raw payload)⟩⟩ where
  format := Optional.received_lawful item
  confined := Structured.confined (Optional.segments_confined item)
  opens := Structured.opensSpan
  valid_make _ payload whole := by
    refine ⟨.cons ⟨rfl, rfl, rfl, rfl, rfl⟩ .nil, ?_⟩
    intro set _ _
    exact ⟨_, rfl, payload, rfl, whole⟩
  bytes_make _ payload := by
    exact List.append_nil _
  holds_iff := by
    rintro ⟨presence, memo, ⟨held⟩⟩ _ payload
    constructor
    · rintro ⟨rfl, rfl⟩
      rfl
    · intro same
      obtain ⟨rfl, values⟩ := SegmentView.contentsOf_inj same
      have item : held.map Deferred.unread? = some (some payload) :=
        values 0 _ rfl Optional.itemField (by decide)
      obtain ⟨deferred, rfl, unread⟩ := Option.map_eq_some_iff.mp item
      exact ⟨rfl, congrArg some (Deferred.eq_raw_of_unread? unread)⟩
  sound_set := nofun
  holds_set := nofun

/-! ## Error envelopes -/

/-- Beside the encoded error stands the name of its type. -/
def errorEnvelope : Wrapper ErrorEnvelope where
  format := ErrorEnvelope.format
  Others := Bytes
  body name payload := 0x18 :: (Write.blob name ++ payload)
  Holds envelope name payload :=
    envelope.presence = [⟨.list, 0, 0x18⟩] ∧ envelope.fields.errorType.bytes = name ∧
      envelope.serializedError = payload
  Setting := Text
  set errorType envelope := ErrorEnvelope.setErrorType envelope errorType
  update errorType _ := errorType.bytes

theorem errorEnvelope_lawful :
    errorEnvelope.Lawful (Structured.view ErrorEnvelope.segments.layout ErrorEnvelope.fieldView)
      fun name payload => ⟨[⟨.list, 0, 0x18⟩], none, ⟨Text.ofWire name, payload⟩⟩ where
  format := ErrorEnvelope.lawful
  confined := Structured.confined ErrorEnvelope.segments_confined
  opens := Structured.opensSpan
  valid_make _ payload whole :=
    ⟨.cons ⟨rfl, rfl, rfl, rfl, rfl⟩ .nil, fun _ _ => whole⟩
  bytes_make name payload := List.append_nil _
  holds_iff := by
    rintro ⟨presence, memo, ⟨errorType, serializedError⟩⟩ name payload
    constructor
    · rintro ⟨rfl, rfl, rfl⟩
      rfl
    · intro same
      obtain ⟨rfl, values⟩ := SegmentView.contentsOf_inj same
      exact ⟨rfl, values 0 _ rfl ErrorEnvelope.typeField (by decide),
        values 0 _ rfl ErrorEnvelope.errorField (by decide)⟩
  sound_set errorType _ sound := ErrorEnvelope.sound_of_step (.setErrorType errorType) sound
  holds_set _ _ _ _ holds := ⟨holds.1, rfl, holds.2.2⟩

/-! ## Signed chunks -/

/-- A setter of a value beside the chunk. -/
inductive ChunkSetting where
  | dateMillis (millis : Binary64)
  | signature (bytes : Bytes)

/-- Beside the chunk stand a date and a signature. -/
def signedChunk : Wrapper SignedChunk where
  format := SignedChunk.format
  Others := Binary64 × Bytes
  body others payload :=
    0x0b :: (others.1.encode ++ 0x18 :: (Write.blob others.2 ++ payload))
  Holds chunk others payload :=
    chunk.presence = [⟨.eightByte, 0, 0x08⟩, ⟨.list, 0, 0x18⟩] ∧
      SignedChunk.dateMillis chunk = others.1 ∧ SignedChunk.signature chunk = others.2 ∧
      chunk.fields.chunk = some payload
  Setting := ChunkSetting
  set
    | .dateMillis millis, chunk => SignedChunk.setDateMillis chunk millis
    | .signature bytes, chunk => SignedChunk.setSignature chunk bytes
  update
    | .dateMillis millis, others => (millis, others.2)
    | .signature bytes, others => (others.1, bytes)

theorem signedChunk_lawful :
    signedChunk.Lawful (Structured.view SignedChunk.segments.layout SignedChunk.fieldView)
      fun others payload => ⟨[⟨.eightByte, 0, 0x08⟩, ⟨.list, 0, 0x18⟩], none,
        ⟨others.1, others.2, some payload⟩⟩ where
  format := SignedChunk.lawful
  confined := Structured.confined SignedChunk.segments_confined
  opens := Structured.opensSpan
  valid_make _ payload whole :=
    ⟨.cons ⟨rfl, rfl, rfl, rfl, rfl⟩ (.cons ⟨rfl, rfl, rfl, rfl, rfl⟩ .nil),
      fun _ _ _ _ => ⟨payload, rfl, whole⟩⟩
  bytes_make others payload := by
    change 0x0b :: others.1.encode ++ (0x18 :: (Write.blob others.2 ++ payload) ++ []) = _
    rw [List.append_nil]
    rfl
  holds_iff := by
    rintro ⟨presence, memo, ⟨date, signature, chunk⟩⟩ others payload
    constructor
    · rintro ⟨rfl, rfl, rfl, rfl⟩
      rfl
    · intro same
      obtain ⟨rfl, values⟩ := SegmentView.contentsOf_inj same
      have sameDate : Sum.inl date = Sum.inl others.1 :=
        values 0 _ rfl SignedChunk.dateField (by decide)
      have sameSignature : Sum.inr (some signature) = Sum.inr (some others.2) :=
        values 1 _ rfl SignedChunk.signatureField (by decide)
      have sameChunk : Sum.inr chunk = Sum.inr (some payload) :=
        values 1 _ rfl SignedChunk.chunkField (by decide)
      exact ⟨rfl, Sum.inl.inj sameDate, Option.some.inj (Sum.inr.inj sameSignature),
        Sum.inr.inj sameChunk⟩
  sound_set setting _ sound := by
    cases setting with
    | dateMillis millis => exact SignedChunk.sound_of_step (.setDateMillis millis) sound
    | signature bytes => exact SignedChunk.sound_of_step (.setSignature bytes) sound
  holds_set setting _ _ _ holds := by
    obtain ⟨presence, date, signature, chunk⟩ := holds
    cases setting with
    | dateMillis millis => exact ⟨presence, rfl, signature, chunk⟩
    | signature bytes => exact ⟨presence, date, rfl, chunk⟩

/-! ## All of them -/

/-- Optional payloads of any type, error envelopes and signed chunks forward what they carry. -/
theorem relays_payload :
    (∀ {σ : Type} (item : ObjectFormat σ), (optional item).Relays) ∧ errorEnvelope.Relays ∧
      signedChunk.Relays :=
  ⟨fun item => (optional_lawful item).relays, errorEnvelope_lawful.relays, signedChunk_lawful.relays⟩

/-- A payload with an overlong length and a byte that is no list, in a chunk that is read, given
another signature, looked at, and given another date. -/
theorem relays_payload_example :
    let payload : Bytes := [0x84, 0x00, 0xff]
    let date := Binary64.ofWire [1, 2, 3, 4, 5, 6, 7, 8]
    let bytes := Write.blob (signedChunk.body (Binary64.zero, [0xaa]) payload)
    LengthTag.IsEnvelope payload ∧
    (∃ wrapper, (Optional.format (Sequence.format ElementFormat.bool)).deserialize
        [0x10, 0x08, 0x84, 0x00, 0xff] = .ok wrapper ∧
      ((Optional.format (Sequence.format ElementFormat.bool)).serialize wrapper).1 =
        [0x10, 0x08, 0x84, 0x00, 0xff]) ∧
    ∃ chunk, SignedChunk.format.deserialize bytes = .ok chunk ∧
      ∃ back, SignedChunk.format.deserialize (SignedChunk.format.serialize
          (SignedChunk.setDateMillis
            (SignedChunk.format.size (SignedChunk.setSignature chunk [0xbb, 0xcc])).2 date)).1 =
              .ok back ∧
        SignedChunk.signature back = [0xbb, 0xcc] ∧ SignedChunk.dateMillis back = date ∧
        back.fields.chunk = some payload := by
  intro payload date bytes
  have whole : LengthTag.IsEnvelope payload := ⟨4, 2, rfl, rfl, rfl⟩
  obtain ⟨wrappers, _, chunks⟩ := relays_payload
  obtain ⟨relays, _⟩ := wrappers (Sequence.format ElementFormat.bool) () payload whole
  obtain ⟨wrapper, accepted, _, again, _⟩ := relays (by decide)
  obtain ⟨relaysChunk, _⟩ := chunks (Binary64.zero, [0xaa]) payload whole
  obtain ⟨chunk, chunkAccepted, _, _, after⟩ := relaysChunk (by decide)
  have course : signedChunk.Course chunk (Binary64.zero, [0xaa]) _ _ :=
    ((Course.start.set (ChunkSetting.signature [0xbb, 0xcc])).look .size).set
      (ChunkSetting.dateMillis date)
  obtain ⟨_, _, reads⟩ := after _ _ course
  obtain ⟨back, readBack, _, sameDate, sameSignature, sameChunk⟩ := reads (by decide)
  exact ⟨whole, ⟨wrapper, accepted, again⟩, chunk, chunkAccepted, back, readBack, sameSignature,
    sameDate, sameChunk⟩

end Wrapper

end FieldWire
