import FieldWire.Proofs.Schema

/-!
# Writing again what was read

What was read remembers the length that was declared on the wire, and that length is written in
front of it again.  The wire may use more bytes than are written: overlong varints, truth values
other than zero and one, empty or repeated field sets, at any depth.  Then the length in front is
too large, and what is written ends before it.  It is right exactly if it is the size that is worked
out anew.
-/

set_option autoImplicit false

namespace FieldWire.Schema

/-- Whether what is written for an object is one envelope, and is read back as the same. -/
def Reencodes (schema : Schema) (standard : schema.isStandard = true) (object : schema.Carrier) :
    Prop :=
  LengthTag.IsEnvelope (schema.format.serialize object).1 ∧
    ∃ back, schema.format.deserialize (schema.format.serialize object).1 = .ok back ∧
      (schema.view standard).contents back = (schema.view standard).contents object

theorem reencodes_of_exact {schema : Schema} {standard : schema.isStandard = true}
    {object : schema.Carrier} (sound : (schema.view standard).Valid object)
    (exact : (schema.view standard).Exact object)
    (within : (schema.format.size object).1 ≤ defaultPayloadLimit) :
    schema.Reencodes standard object := by
  have size := (schema.faithful standard).size_eq object sound exact
  have written : (schema.format.serialize object).1 =
      Write.blob ((schema.view standard).bytes object) :=
    (schema.faithful standard).encode_eq object sound exact
  rw [size] at within
  rw [Reencodes, written]
  exact ⟨Deferred.isEnvelope_blob (lt_of_le_default within (Nat.le_refl _)),
    ObjectFormat.deserializeWithin_of_recovers
    (schema.readable standard defaultPayloadLimit object sound within (Nat.le_refl _))⟩

section Weighed

variable {schema : Schema} {standard : schema.isStandard = true} {object : schema.Carrier}

theorem size_forget (weighed : schema.format.Weighed (schema.view standard) object) :
    (schema.format.size ((schema.view standard).forget object)).1 =
      ((schema.view standard).bytes object).length :=
  (schema.faithful standard).size_forget weighed.valid

/-- A body that is as long as declared was read without a byte too many, at any depth. -/
theorem size_of_isEnvelope (weighed : schema.format.Weighed (schema.view standard) object)
    (envelope : LengthTag.IsEnvelope (schema.format.serialize object).1) :
    (schema.format.size object).1 =
      (schema.format.size ((schema.view standard).forget object)).1 := by
  obtain ⟨written, encoded, bounds⟩ := weighed.bounds
  have serialized : (schema.format.serialize object).1 = _ := encoded
  rw [serialized, Write.word, LengthTag.isEnvelope_span _ _ weighed.small] at envelope
  have exact := bounds.exact_of_written (Nat.le_of_eq envelope.symm)
  rw [size_forget weighed]
  exact (schema.faithful standard).size_eq object weighed.valid exact

theorem deserialize_of_not_isEnvelope
    (weighed : schema.format.Weighed (schema.view standard) object)
    (within : (schema.format.size object).1 ≤ defaultPayloadLimit)
    (broken : ¬LengthTag.IsEnvelope (schema.format.serialize object).1) :
    ∃ left, left < (schema.format.size object).1 ∧
      schema.format.deserialize (schema.format.serialize object).1 =
        .error (.bufferUnderrun (schema.format.size object).1 left) := by
  obtain ⟨written, encoded, bounds⟩ := weighed.bounds
  have serialized : (schema.format.serialize object).1 = _ := encoded
  rw [serialized, Write.word, LengthTag.isEnvelope_span _ _ weighed.small] at broken
  have short : written.length < (schema.format.size object).1 :=
    Nat.lt_of_le_of_ne bounds.written_le broken
  rw [serialized]
  exact ⟨written.length, short, schema.opensSpan.deserialize_of_lt within short⟩

/-- An object whose size bounds what is written for it is written well exactly if that size is
right. -/
theorem reencodes_iff_of_weighed (weighed : schema.format.Weighed (schema.view standard) object)
    (within : (schema.format.size object).1 ≤ defaultPayloadLimit) :
    let fresh := (schema.view standard).forget object
    (schema.format.size fresh).1 ≤ (schema.format.size object).1 ∧
      (schema.Reencodes standard object ↔
        (schema.format.size object).1 = (schema.format.size fresh).1) ∧
      ((schema.format.size fresh).1 < (schema.format.size object).1 →
        ∃ left, left < (schema.format.size object).1 ∧
          schema.format.deserialize (schema.format.serialize object).1 =
            .error (.bufferUnderrun (schema.format.size object).1 left)) := by
  intro fresh
  have freshSize : (schema.format.size fresh).1 = _ := size_forget weighed
  obtain ⟨written, encoded, bounds⟩ := weighed.bounds
  refine ⟨?_, ⟨?_, ?_⟩, ?_⟩
  · rw [freshSize]
    exact weighed.body_le
  · intro reencodes
    exact size_of_isEnvelope weighed reencodes.1
  · intro same
    rw [freshSize] at same
    exact reencodes_of_exact weighed.valid (bounds.exact_of_least (Nat.le_of_eq same)) within
  · intro less
    apply deserialize_of_not_isEnvelope weighed within
    intro envelope
    exact absurd (size_of_isEnvelope weighed envelope) (Nat.ne_of_gt less)

end Weighed

/-- What was read remembers at least the size that is worked out anew, and it is written as one
envelope and read back as the same exactly if it remembers that size.  Otherwise what is written
cannot be read at all: the envelope declares more than follows.  An input that was no longer than it
has to be is always written well. -/
theorem reencodes_iff_of_deserialize {schema : Schema} (standard : schema.isStandard = true)
    {bytes : Bytes} {object : schema.Carrier}
    (accepted : schema.format.deserialize bytes = .ok object) :
    let fresh := (schema.view standard).forget object
    (schema.format.size fresh).1 ≤ (schema.format.size object).1 ∧
      (schema.Reencodes standard object ↔
        (schema.format.size object).1 = (schema.format.size fresh).1) ∧
      ((schema.format.size fresh).1 < (schema.format.size object).1 →
        ∃ left, left < (schema.format.size object).1 ∧
          schema.format.deserialize (schema.format.serialize object).1 =
            .error (.bufferUnderrun (schema.format.size object).1 left)) ∧
      (bytes.length ≤ (schema.format.encodedSize fresh).1 → schema.Reencodes standard object) := by
  intro fresh
  obtain ⟨after, read, atEnd⟩ := ObjectFormat.read_of_deserialize accepted
  obtain ⟨weighed, within, length, inside, rfl, fits⟩ :=
    schema.measured standard _ object after read
  obtain ⟨least, exactly, underrun⟩ := reencodes_iff_of_weighed weighed within
  refine ⟨least, exactly, underrun, ?_⟩
  intro short
  have spans : LengthTag.spanSize (schema.format.size object).1 ≤
      LengthTag.spanSize (schema.format.size fresh).1 :=
    Nat.le_trans fits (Nat.le_trans inside short)
  exact exactly.mpr (Nat.le_antisymm (LengthTag.le_of_spanSize_le spans weighed.small) least)

/-- A list of one truth value, written in the shortest way and with an overlong varint.  In the
second case the length in front stays three, and two bytes follow it. -/
theorem reencodes_iff_of_deserialize_examples :
    let schema : Schema := .sequence .bool
    (schema.format.deserialize [0x08, 0x05, 0x02] = .ok (⟨[true], some 2⟩ : Sequence Bool) ∧
      schema.Reencodes rfl (⟨[true], some 2⟩ : Sequence Bool)) ∧
    (schema.format.deserialize [0x0c, 0x05, 0x82, 0x00] = .ok (⟨[true], some 3⟩ : Sequence Bool) ∧
      (schema.format.serialize (⟨[true], some 3⟩ : Sequence Bool)).1 = [0x0c, 0x05, 0x02] ∧
      ¬schema.Reencodes rfl (⟨[true], some 3⟩ : Sequence Bool) ∧
      ∃ left, left < 3 ∧
        schema.format.deserialize [0x0c, 0x05, 0x02] = .error (.bufferUnderrun 3 left)) := by
  intro schema
  have short : schema.format.deserialize [0x08, 0x05, 0x02] =
      .ok (⟨[true], some 2⟩ : Sequence Bool) := rfl
  have long : schema.format.deserialize [0x0c, 0x05, 0x82, 0x00] =
      .ok (⟨[true], some 3⟩ : Sequence Bool) := rfl
  obtain ⟨_, _, _, shortest⟩ := reencodes_iff_of_deserialize rfl short
  obtain ⟨_, exactly, underrun, _⟩ := reencodes_iff_of_deserialize rfl long
  refine ⟨⟨short, shortest (by decide)⟩, long, by decide, ?_, underrun (by decide)⟩
  intro reencodes
  have same := exactly.mp reencodes
  revert same
  decide

end FieldWire.Schema
