import FieldWire.Proofs.Confined.Structured
import FieldWire.Proofs.Schema

/-!
# Encodings delimit themselves

An encoding says where it ends.  Cut short it is refused for want of bytes, since either the length in
front is incomplete or the body is shorter than that length; with bytes behind it, exactly these are
left over; and it is read as the same object wherever it stands.  So encodings that follow each other
are read one by one, whatever their types.
-/

set_option autoImplicit false

namespace FieldWire

/-- A varint that is cut short could still become one. -/
theorem Varint.decode_of_cut {front tail : Bytes} {word : UInt64} {length : Nat}
    (decoded : decode (front ++ tail) = .ok (some (word, length))) (cut : front.length < length) :
    decode front = .ok none := by
  cases early : decode front with
  | error error =>
    rw [decode_append_error tail early] at decoded
    cases decoded
  | ok found =>
    cases found with
    | none => rfl
    | some result =>
      rw [decode_append tail early] at decoded
      cases decoded
      exact absurd (length_le_of_decode early) (Nat.not_le_of_lt cut)

namespace Reader

theorem word_of_none {cursor : Cursor} (decoded : Varint.decode cursor.rest = .ok none) :
    word cursor =
      .error (.bufferUnderrun (cursor.rest.length + 1) cursor.rest.length) cursor := by
  rw [word_apply, decoded]
  rfl

/-- A span that was opened cannot be opened if not all of it is there. -/
theorem openSpan_of_cut {front tail : Bytes} {pos limit tagSize declared : Nat}
    (opened : openSpan ⟨front ++ tail, pos, limit⟩ =
      .ok declared ((Cursor.mk (front ++ tail) pos limit).advance tagSize))
    (cut : front.length < tagSize + declared) :
    ∃ needed left after, left < needed ∧
      openSpan ⟨front, pos, limit⟩ = .error (.bufferUnderrun needed left) after := by
  obtain ⟨tag, length, decoded, listed, rfl, within, _, same⟩ := openSpan_eq_ok opened
  obtain rfl := Cursor.advance_injective same
  by_cases inTag : front.length < tagSize
  · have missing : word ⟨front, pos, limit⟩ = _ := word_of_none (Varint.decode_of_cut decoded inTag)
    have noTag : lengthTag .list ⟨front, pos, limit⟩ = _ := bind_of_error missing
    have noLength : spanLength ⟨front, pos, limit⟩ = _ := bind_of_error noTag
    exact ⟨front.length + 1, front.length, _, Nat.lt_succ_self _, bind_of_error noLength⟩
  · have tagThere : tagSize ≤ front.length := Nat.le_of_not_lt inTag
    have again : Varint.decode (Cursor.mk front pos limit).rest = .ok (some (tag, tagSize)) := by
      have whole := Varint.decode_append (front.drop tagSize) (Varint.decode_take decoded)
      rwa [List.take_append_of_le_length tagThere, List.take_append_drop] at whole
    have spanned : spanLength ⟨front, pos, limit⟩ =
        .ok (LengthTag.count tag) ((Cursor.mk front pos limit).advance tagSize) := by
      rw [spanLength, bind_of_ok (lengthTag_of_decode again listed)]
      exact bind_of_ok (withinLimit_of_le within)
    have short : ((Cursor.mk front pos limit).advance tagSize).rest.length < LengthTag.count tag := by
      rw [Cursor.rest_advance, List.length_drop]
      change front.length - tagSize < LengthTag.count tag
      omega
    have missing : openSpan ⟨front, pos, limit⟩ = _ :=
      (bind_of_ok spanned).trans (bind_of_error (ensure_of_lt short))
    exact ⟨_, _, _, short, missing⟩

theorem finish_of_cons {cursor : Cursor} (left : cursor.rest ≠ []) :
    finish cursor = .error (.trailingBytes cursor.rest.length) cursor := by
  obtain ⟨rest, pos, limit⟩ := cursor
  cases rest with
  | nil => exact absurd rfl left
  | cons byte bytes => rfl

end Reader

/-! ## Objects -/

namespace ObjectFormat

variable {σ : Type} {format : ObjectFormat σ} {bytes : Bytes} {object : σ}

/-- What was accepted is one span, and is read as the same object wherever it stands. -/
theorem Confined.span_of_deserializeWithin (confined : format.Confined) {limit : Nat}
    (accepted : format.deserializeWithin limit bytes = .ok object) :
    ∃ tagSize declared,
      Reader.openSpan (Cursor.ofBytes bytes limit) =
        .ok declared ((Cursor.ofBytes bytes limit).advance tagSize) ∧
      bytes.length = tagSize + declared ∧
      ∀ other, declared ≤ other → Reader.Takes format.read other bytes object := by
  obtain ⟨after, ran, atEnd⟩ := read_of_deserializeWithin accepted
  obtain ⟨tagSize, declared, opened, rfl, fills⟩ := confined _ _ _ _ (load_of_read ran)
  have inside : tagSize + declared ≤ bytes.length := (Reader.openSpan_bounds opened).2.1
  have whole : bytes.length ≤ tagSize + declared := List.drop_eq_nil_iff.mp atEnd
  refine ⟨tagSize, declared, opened, Nat.le_antisymm whole inside, ?_⟩
  intro other fits
  have taken := fills other fits
  rw [show (Cursor.ofBytes bytes limit).rest = bytes from rfl,
    List.take_of_length_le whole] at taken
  exact fun tail pos => Loader.toReader_of_ok (taken tail pos)

theorem Confined.span_of_deserialize (confined : format.Confined)
    (accepted : format.deserialize bytes = .ok object) :
    ∃ tagSize declared,
      Reader.openSpan (Cursor.ofBytes bytes defaultPayloadLimit) =
        .ok declared ((Cursor.ofBytes bytes defaultPayloadLimit).advance tagSize) ∧
      bytes.length = tagSize + declared ∧
      ∀ limit, declared ≤ limit → Reader.Takes format.read limit bytes object :=
  confined.span_of_deserializeWithin accepted

/-- Cut short, an encoding is refused for want of bytes. -/
theorem Confined.deserialize_of_cut (confined : format.Confined) (opens : format.OpensSpan)
    (accepted : format.deserialize bytes = .ok object) {front : Bytes} (cut : front <+: bytes)
    (proper : front.length < bytes.length) :
    ∃ needed left, left < needed ∧
      format.deserialize front = .error (.bufferUnderrun needed left) := by
  obtain ⟨tagSize, declared, opened, whole, _⟩ := confined.span_of_deserialize accepted
  obtain ⟨tail, rfl⟩ := cut
  rw [whole] at proper
  obtain ⟨needed, left, after, less, failed⟩ := Reader.openSpan_of_cut opened proper
  exact ⟨needed, left, less,
    deserializeWithin_of_error (Loader.toReader_of_error (opens _ _ _ _ failed))⟩

/-- With bytes behind it, an encoding is refused for exactly these. -/
theorem Confined.deserialize_append (confined : format.Confined)
    (accepted : format.deserialize bytes = .ok object) {tail : Bytes} (more : tail ≠ []) :
    format.deserialize (bytes ++ tail) = .error (.trailingBytes tail.length) := by
  obtain ⟨tagSize, declared, opened, _, takes⟩ := confined.span_of_deserialize accepted
  have within : declared ≤ defaultPayloadLimit := (Reader.openSpan_bounds opened).2.2.2
  have read : format.read (Cursor.ofBytes (bytes ++ tail) defaultPayloadLimit) =
      .ok object ⟨tail, 0 + bytes.length, defaultPayloadLimit⟩ := takes _ within tail 0
  have left : Reader.finish ⟨tail, 0 + bytes.length, defaultPayloadLimit⟩ = _ :=
    Reader.finish_of_cons more
  have whole : (do
      let object ← format.read
      Reader.finish
      return object : Reader σ) (Cursor.ofBytes (bytes ++ tail) defaultPayloadLimit) =
        .error (.trailingBytes tail.length) _ := (bind_of_ok read).trans (bind_of_error left)
  simp only [deserialize, deserializeWithin, whole]

end ObjectFormat

namespace Schema

/-- Bytes together with the object that they are said to encode. -/
structure Encoding where
  schema : Schema
  bytes : Bytes
  object : schema.Carrier

/-- Reads objects of the given schemas, one after the other. -/
def readEach : List Schema → Reader (List (Σ schema : Schema, schema.Carrier))
  | [] => return []
  | schema :: schemas => do
    let object ← schema.format.read
    let objects ← readEach schemas
    return ⟨schema, object⟩ :: objects

theorem readEach_takes {encodings : List Encoding} {limit : Nat}
    (each : ∀ encoding ∈ encodings,
      Reader.Takes encoding.schema.format.read limit encoding.bytes encoding.object) :
    Reader.Takes (readEach (encodings.map Encoding.schema)) limit
      (encodings.flatMap Encoding.bytes)
      (encodings.map fun encoding => ⟨encoding.schema, encoding.object⟩) := by
  induction encodings with
  | nil => exact Reader.Takes.nothing limit []
  | cons encoding encodings ih =>
    have first := each encoding List.mem_cons_self
    have rest := ih fun other member => each other (List.mem_cons_of_mem _ member)
    exact first.bind (rest.bindPure rfl)

/-- Of encodings that are accepted, every proper front is refused because bytes are missing, and any
continuation because of the bytes that it adds.  In the midst of other bytes, and with any limit that
admits it, each is read as the same object up to its end; and so are all of them, one after the
other. -/
theorem delimits_of_deserialize {encodings : List Encoding}
    (accepted : ∀ encoding ∈ encodings,
      encoding.schema.format.deserialize encoding.bytes = .ok encoding.object) :
    (∀ encoding ∈ encodings,
      (∀ front, front <+: encoding.bytes → front ≠ encoding.bytes →
        ∃ needed left, left < needed ∧
          encoding.schema.format.deserialize front = .error (.bufferUnderrun needed left)) ∧
      (∀ tail, tail ≠ [] →
        encoding.schema.format.deserialize (encoding.bytes ++ tail) =
          .error (.trailingBytes tail.length)) ∧
      ∀ limit, min defaultPayloadLimit encoding.bytes.length ≤ limit →
        Reader.Takes encoding.schema.format.read limit encoding.bytes encoding.object) ∧
    ∀ limit, (∀ encoding ∈ encodings, min defaultPayloadLimit encoding.bytes.length ≤ limit) →
      Reader.Takes (readEach (encodings.map Encoding.schema)) limit
        (encodings.flatMap Encoding.bytes)
        (encodings.map fun encoding => ⟨encoding.schema, encoding.object⟩) := by
  have anywhere : ∀ encoding ∈ encodings, ∀ limit,
      min defaultPayloadLimit encoding.bytes.length ≤ limit →
        Reader.Takes encoding.schema.format.read limit encoding.bytes encoding.object := by
    intro encoding member limit fits
    obtain ⟨tagSize, declared, opened, whole, takes⟩ :=
      encoding.schema.confined.span_of_deserialize (accepted encoding member)
    have within : declared ≤ defaultPayloadLimit := (Reader.openSpan_bounds opened).2.2.2
    exact takes limit (by omega)
  refine ⟨?_, fun limit fits => readEach_takes fun encoding member =>
    anywhere encoding member limit (fits encoding member)⟩
  intro encoding member
  have confined := encoding.schema.confined
  refine ⟨?_, ?_, anywhere encoding member⟩
  · intro front cut proper
    have shorter : front.length < encoding.bytes.length :=
      Nat.lt_of_le_of_ne cut.length_le fun same => proper (cut.eq_of_length same)
    exact confined.deserialize_of_cut encoding.schema.opensSpan (accepted encoding member) cut shorter
  · intro tail more
    exact confined.deserialize_append (accepted encoding member) more

/-- A list of one truth value, whose varint is overlong, and a framework error with an unknown field
behind its message: the first cut in its length, the second with a byte behind it, and both in one
buffer. -/
theorem delimits_of_deserialize_example :
    let flags : Encoding := ⟨.sequence .bool, [0x0c, 0x05, 0x82, 0x00], ⟨[true], some 3⟩⟩
    let error : Encoding := ⟨.frameworkError, [0x14, 0x18, 0x04, 0x61, 0x04, 0x62],
      ⟨[⟨.list, 0, 8⟩], none, ⟨some (Text.ofWire [0x61])⟩⟩⟩
    (∀ encoding ∈ [flags, error],
      encoding.schema.format.deserialize encoding.bytes = .ok encoding.object) ∧
    (∃ needed left, left < needed ∧
      flags.schema.format.deserialize [] = .error (.bufferUnderrun needed left)) ∧
    error.schema.format.deserialize (error.bytes ++ [0xff]) = .error (.trailingBytes 1) ∧
    readEach [.sequence .bool, .frameworkError]
        ⟨[0x0c, 0x05, 0x82, 0x00, 0x14, 0x18, 0x04, 0x61, 0x04, 0x62, 0xff], 7, 6⟩ =
      .ok [⟨flags.schema, flags.object⟩, ⟨error.schema, error.object⟩] ⟨[0xff], 17, 6⟩ := by
  intro flags error
  have accepted : ∀ encoding ∈ [flags, error],
      encoding.schema.format.deserialize encoding.bytes = .ok encoding.object := by
    intro encoding member
    rcases List.mem_pair.mp member with rfl | rfl <;> rfl
  obtain ⟨each, together⟩ := delimits_of_deserialize accepted
  obtain ⟨cut, _, _⟩ := each flags (by simp)
  obtain ⟨_, continued, _⟩ := each error (by simp)
  have fits : ∀ encoding ∈ [flags, error],
      min defaultPayloadLimit encoding.bytes.length ≤ 6 := by
    intro encoding member
    rcases List.mem_pair.mp member with rfl | rfl <;> decide
  exact ⟨accepted, cut [] List.nil_prefix (by decide), continued [0xff] (by decide),
    together 6 fits [0xff] 7⟩

end Schema

end FieldWire
