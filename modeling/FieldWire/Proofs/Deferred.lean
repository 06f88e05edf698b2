import FieldWire.Proofs.Confined.Structured

/-!
# Decoding later is decoding now

A deferred object is taken from a buffer as the bytes of its envelope and decoded by itself later on,
with the limit that holds by default.  Decoding it in place looks at the whole buffer and has the
limit of the buffer.  Both accept the same objects and stop at the same place, since no object is
read with a look ahead.
-/

set_option autoImplicit false

namespace FieldWire

/-- The bytes that are taken for an object are those of the span that it opens. -/
theorem Reader.object_eq_ok_iff {cursor after : Cursor} {bytes : Bytes} :
    object cursor = .ok bytes after ↔ ∃ tagSize declared,
      openSpan cursor = .ok declared (cursor.advance tagSize) ∧
        bytes = cursor.rest.take (tagSize + declared) ∧
        after = cursor.advance (tagSize + declared) := by
  have taken : ∀ tagSize declared, openSpan cursor = .ok declared (cursor.advance tagSize) →
      object cursor = .ok (cursor.rest.take (tagSize + declared))
        (cursor.advance (tagSize + declared)) := by
    intro tagSize declared opened
    obtain ⟨tag, length, decoded, listed, rfl, within, inside, same⟩ := openSpan_eq_ok opened
    obtain rfl := Cursor.advance_injective same
    exact object_of_decode decoded listed within inside
  constructor
  · intro ran
    have opening : (openSpan >>= fun length => do
        advance length
        let stop ← position
        return cursor.rest.take (stop - cursor.pos) : Reader Bytes) cursor = .ok bytes after := ran
    obtain ⟨declared, middle, opened, _⟩ := (bind_eq_ok_iff _ _ _ _ _).mp opening
    obtain ⟨tagSize, _, _, _, _, rfl⟩ := openSpan_costs opened
    rw [taken tagSize declared opened] at ran
    cases ran
    exact ⟨tagSize, declared, opened, rfl, rfl⟩
  · rintro ⟨tagSize, declared, opened, rfl, rfl⟩
    exact taken tagSize declared opened

namespace ObjectFormat

variable {σ : Type} {format : ObjectFormat σ}

/-- What is read in place is what its own bytes decode to. -/
theorem Confined.deserialize_of_read (confined : format.Confined) {cursor after : Cursor}
    {object : σ} (default : cursor.limit ≤ defaultPayloadLimit)
    (ran : format.read cursor = .ok object after) :
    ∃ bytes, Reader.object cursor = .ok bytes after ∧ format.deserialize bytes = .ok object := by
  obtain ⟨tagSize, declared, opened, rfl, fills⟩ := confined _ _ _ _ (load_of_read ran)
  have within := (Reader.openSpan_bounds opened).2.2.2
  have alone : Reader.Takes format.read defaultPayloadLimit
      (cursor.rest.take (tagSize + declared)) object :=
    fun tail pos => Loader.toReader_of_ok (fills _ (Nat.le_trans within default) tail pos)
  have recovers : Reader.Recovers format.read defaultPayloadLimit
      (cursor.rest.take (tagSize + declared)) id object :=
    fun tail pos => ⟨object, alone tail pos, rfl⟩
  obtain ⟨found, decoded, same⟩ := deserializeWithin_of_recovers recovers
  obtain rfl : found = object := same
  exact ⟨_, Reader.object_eq_ok_iff.mpr ⟨tagSize, declared, opened, rfl, rfl⟩, decoded⟩

/-- What the bytes of an object decode to is read in place as well. -/
theorem Confined.read_of_deserialize (confined : format.Confined) {cursor after : Cursor}
    {bytes : Bytes} {object : σ} (default : cursor.limit ≤ defaultPayloadLimit)
    (taken : Reader.object cursor = .ok bytes after)
    (decoded : format.deserialize bytes = .ok object) : format.read cursor = .ok object after := by
  obtain ⟨tagSize, declared, opened, rfl, rfl⟩ := Reader.object_eq_ok_iff.mp taken
  obtain ⟨_, inside, _, within⟩ := Reader.openSpan_bounds opened
  obtain ⟨last, ran, atEnd⟩ := ObjectFormat.read_of_deserialize decoded
  obtain ⟨tagSizeAlone, declaredAlone, openedAlone, rfl, fills⟩ :=
    confined _ _ _ _ (load_of_read ran)
  -- The envelope that is decoded by itself declares what it declared in place.
  have again : Reader.openSpan ⟨cursor.rest.take (tagSize + declared) ++ [], 0, _⟩ = _ :=
    Reader.openSpan_take opened (Nat.le_trans within default)
  rw [List.append_nil, ← Cursor.ofBytes] at again
  rw [openedAlone] at again
  injection again with sameDeclared
  obtain rfl : declared = declaredAlone := sameDeclared.symm
  have insideAlone := (Reader.openSpan_bounds openedAlone).2.1
  have whole : (cursor.rest.take (tagSize + declared)).length ≤ tagSizeAlone + declared := by
    rw [Cursor.rest_advance] at atEnd
    exact List.drop_eq_nil_iff.mp atEnd
  have sameLength : tagSizeAlone + declared = (cursor.rest.take (tagSize + declared)).length :=
    Nat.le_antisymm insideAlone whole
  have inPlace := fills cursor.limit within (cursor.rest.drop (tagSize + declared)) cursor.pos
  rw [sameLength] at inPlace
  simp only [Cursor.ofBytes, List.take_length, List.take_append_drop] at inPlace
  rw [List.length_take_of_le inside] at inPlace
  exact Loader.toReader_of_ok inPlace

end ObjectFormat

namespace Deferred

variable {σ : Type}

theorem object_of_read {cursor after : Cursor} {deferred : Deferred σ}
    (ran : Deferred.read cursor = .ok deferred after) :
    ∃ bytes, deferred = .raw bytes ∧ Reader.object cursor = .ok bytes after := by
  obtain ⟨bytes, middle, taken, returned⟩ := (bind_eq_ok_iff _ _ _ _ _).mp ran
  obtain ⟨rfl, rfl⟩ := (pure_eq_ok_iff _ _ _ _).mp returned
  exact ⟨bytes, rfl, taken⟩

theorem get_raw (format : ObjectFormat σ) (bytes : Bytes) :
    ((raw bytes).get format).1 = format.deserialize bytes := by
  rw [get]
  split
  · rename_i object decoded
    exact decoded.symm
  · rename_i error failed
    exact failed.symm

/-- Asking again gives the same, also if the bytes did not decode. -/
theorem get_get (format : ObjectFormat σ) (deferred : Deferred σ) :
    ((deferred.get format).2.get format).1 = (deferred.get format).1 := by
  cases deferred with
  | raw bytes =>
    cases decoded : format.deserialize bytes with
    | ok object => simp only [get, decoded]
    | error error => simp only [get, decoded]
  | decoded bytes object => rfl
  | owned object => rfl

end Deferred

/-- An object is decoded in place exactly if it is taken as a deferred one, up to the same place, and
decodes to the same when it is asked for.  It does so whenever it is asked for, and when it is taken
out. -/
theorem Schema.read_iff_deferred (schema : Schema) {cursor : Cursor}
    (default : cursor.limit ≤ defaultPayloadLimit) :
    (∀ object after, schema.format.read cursor = .ok object after ↔
      ∃ deferred, Deferred.read cursor = .ok deferred after ∧
        (deferred.get schema.format).1 = .ok object) ∧
    ∀ deferred after object, Deferred.read cursor = .ok deferred after →
      (deferred.get schema.format).1 = .ok object →
        schema.format.read cursor = .ok object after ∧
        deferred.intoInner schema.format = .ok object ∧
        ((deferred.get schema.format).2.get schema.format).1 = .ok object ∧
        (deferred.get schema.format).2.intoInner schema.format = .ok object := by
  have eager : ∀ deferred after object, Deferred.read cursor = .ok deferred after →
      (deferred.get schema.format).1 = .ok object →
        schema.format.read cursor = .ok object after := by
    intro deferred after object read got
    obtain ⟨bytes, rfl, taken⟩ := Deferred.object_of_read read
    rw [Deferred.get_raw] at got
    exact schema.confined.read_of_deserialize default taken got
  constructor
  · intro object after
    constructor
    · intro ran
      obtain ⟨bytes, taken, decoded⟩ := schema.confined.deserialize_of_read default ran
      refine ⟨.raw bytes, ?_, (Deferred.get_raw _ _).trans decoded⟩
      rw [Deferred.read, bind_of_ok taken]
      rfl
    · rintro ⟨deferred, read, got⟩
      exact eager deferred after object read got
  · intro deferred after object read got
    have again := (Deferred.get_get schema.format deferred).trans got
    exact ⟨eager deferred after object read got, got, again, again⟩

/-- A list of one truth value in the middle of a buffer, with a limit that just admits its body. -/
theorem Schema.read_iff_deferred_example :
    let schema : Schema := .sequence .bool
    let cursor : Cursor := ⟨[0x08, 0x05, 0x02, 0xff], 3, 2⟩
    let object : schema.Carrier := (⟨[true], some 2⟩ : Sequence Bool)
    cursor.limit ≤ defaultPayloadLimit ∧
      schema.format.read cursor = .ok object ⟨[0xff], 6, 2⟩ ∧
      ∃ deferred, Deferred.read cursor = .ok deferred ⟨[0xff], 6, 2⟩ ∧
        (deferred.get schema.format).1 = .ok object ∧
        deferred.intoInner schema.format = .ok object := by
  intro schema cursor object
  have default : cursor.limit ≤ defaultPayloadLimit := by decide
  obtain ⟨iff, later⟩ := Schema.read_iff_deferred schema default
  have read : schema.format.read cursor = .ok object ⟨[0xff], 6, 2⟩ := rfl
  obtain ⟨deferred, taken, got⟩ := (iff object _).mp read
  exact ⟨default, read, deferred, taken, got, (later deferred _ object taken got).2.1⟩

end FieldWire
