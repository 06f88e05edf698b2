import FieldWire.Proofs.Limit
import FieldWire.Proofs.Received

/-!
# Normal forms

What is written for an object that was read, once the sizes it remembers are forgotten, is the normal
form of its input.  Each part takes at most the bytes that were spent on it, and a shorter body has no
longer tag in front, so that nothing grows at any depth.  Since the contents determine what is
written, the normal form is a shortest one among all inputs with these contents.
-/

set_option autoImplicit false

namespace FieldWire

namespace ObjectFormat

variable {σ : Type} {format : ObjectFormat σ} {view : View σ} {bytes : Bytes} {object : σ}

/-- The length that is declared in front bounds the size of what was read.  To see this the input is
read once more with just that length as the limit. -/
theorem Measured.declared_of_deserialize (measured : format.Measured view)
    (confined : format.Confined) (accepted : format.deserialize bytes = .ok object) :
    format.Weighed view object ∧ ∃ declared, LengthTag.BeginsSpan bytes declared ∧
      (format.size object).1 ≤ declared ∧ declared ≤ defaultPayloadLimit ∧
      LengthTag.spanSize declared ≤ bytes.length := by
  obtain ⟨tagSize, declared, opened, whole, takes⟩ := confined.span_of_deserialize accepted
  obtain ⟨tagged, _, _, default⟩ := Reader.openSpan_bounds opened
  obtain ⟨begins, _⟩ := Reader.beginsSpan_of_openSpan opened
  obtain ⟨weighed, within, _⟩ := measured _ _ _ (takes declared (Nat.le_refl _) [] 0)
  refine ⟨weighed, declared, begins, within, default, ?_⟩
  rw [LengthTag.spanSize]
  omega

/-- The bytes of the view are no longer than those that were read. -/
theorem Measured.length_le_of_deserialize (measured : format.Measured view)
    (confined : format.Confined) (accepted : format.deserialize bytes = .ok object) :
    (Write.blob (view.bytes object)).length ≤ bytes.length := by
  obtain ⟨weighed, declared, _, sized, default, spans⟩ :=
    measured.declared_of_deserialize confined accepted
  have body := Nat.le_trans weighed.body_le sized
  have small : declared < 2 ^ 62 := lt_of_le_default default (Nat.le_refl _)
  rw [Write.length_blob]
  exact Nat.le_trans (LengthTag.spanSize_mono body small) spans

/-- What was read from the bytes of its own view remembers nothing wrong. -/
theorem Measured.sound_of_deserialize_blob (measured : format.Measured view)
    (confined : format.Confined)
    (accepted : format.deserialize (Write.blob (view.bytes object)) = .ok object) :
    view.Sound object := by
  obtain ⟨weighed, declared, begins, sized, _⟩ := measured.declared_of_deserialize confined accepted
  have small := Nat.lt_of_le_of_lt weighed.body_le weighed.small
  obtain rfl := begins.unique (LengthTag.beginsSpan_blob small)
  obtain ⟨written, _, bounds⟩ := weighed.bounds
  exact ⟨weighed.valid, bounds.exact_of_least sized⟩

end ObjectFormat

namespace Schema

/-- With everything forgotten that it remembers, and its payloads left as bytes, what was read is no
larger than its envelope declared.  What is written for it then is one envelope, no longer than the
input, and is read back as the same; and no input that is read as the same is any shorter. -/
theorem serialize_forget_of_deserialize {schema : Schema} (standard : schema.isStandard = true)
    {bytes : Bytes} {object : schema.Carrier}
    (accepted : schema.format.deserialize bytes = .ok object) :
    let view := schema.receivedView standard
    let fresh := view.forget object
    let normal := (schema.format.serialize fresh).1
    (∃ declared, LengthTag.BeginsSpan bytes declared ∧ (schema.format.size fresh).1 ≤ declared) ∧
      LengthTag.IsEnvelope normal ∧ normal.length ≤ bytes.length ∧
      (∃ back, schema.format.deserialize normal = .ok back ∧
        view.contents back = view.contents object) ∧
      ∀ other found, schema.format.deserialize other = .ok found →
        view.contents found = view.contents object → normal.length ≤ other.length := by
  intro view fresh normal
  obtain ⟨faithful, readable, measured, determined⟩ := schema.received_lawful standard
  obtain ⟨weighed, declared, begins, sized, default, _⟩ :=
    measured.declared_of_deserialize schema.confined accepted
  have body : (view.bytes object).length ≤ declared := Nat.le_trans weighed.body_le sized
  have within := Nat.le_trans body default
  have freshSize : (schema.format.size fresh).1 = (view.bytes object).length :=
    faithful.size_forget weighed.valid
  have written : normal = Write.blob (view.bytes object) := faithful.encode_forget weighed.valid
  rw [written]
  refine ⟨⟨declared, begins, freshSize ▸ body⟩, ?_, ?_, ?_, ?_⟩
  · exact Deferred.isEnvelope_blob (lt_of_le_default within (Nat.le_refl _))
  · exact measured.length_le_of_deserialize schema.confined accepted
  · exact ObjectFormat.deserializeWithin_of_recovers
      (readable defaultPayloadLimit object weighed.valid within (Nat.le_refl _))
  · intro other found otherAccepted same
    obtain ⟨otherWeighed, _⟩ := measured.declared_of_deserialize schema.confined otherAccepted
    have bodies := determined object found weighed.valid otherWeighed.valid same
    rw [← bodies]
    exact measured.length_le_of_deserialize schema.confined otherAccepted

/-- A list of one list of one truth value with an overlong varint, and an optional payload that does
not decode, behind an overlong header and with an overlong length of its own.  The normal form of the
second keeps the payload as it is. -/
theorem serialize_forget_of_deserialize_examples :
    let flags : Schema := .sequence (.object (.sequence .bool))
    let nested : flags.Carrier := (⟨[⟨[true], some 3⟩], some 5⟩ : Sequence (Sequence Bool))
    let maybe : Schema := .optional (.sequence .bool)
    let wrapper : maybe.Carrier :=
      (⟨[⟨.list, 0, 8⟩], some 5, ⟨some (.raw [0x84, 0x00, 0xff])⟩⟩ : Optional (Sequence Bool))
    let normal := (flags.format.serialize ((flags.receivedView rfl).forget nested)).1
    let kept := (maybe.format.serialize ((maybe.receivedView rfl).forget wrapper)).1
    (flags.format.deserialize [0x14, 0x04, 0x0c, 0x05, 0x82, 0x00] = .ok nested ∧
      normal = [0x10, 0x04, 0x08, 0x05, 0x02] ∧ LengthTag.IsEnvelope normal ∧
      ∃ back, flags.format.deserialize normal = .ok back ∧
        (flags.receivedView rfl).contents back = (flags.receivedView rfl).contents nested) ∧
    maybe.format.deserialize [0x14, 0x88, 0x00, 0x84, 0x00, 0xff] = .ok wrapper ∧
      kept = [0x10, 0x08, 0x84, 0x00, 0xff] ∧ LengthTag.IsEnvelope kept := by
  intro flags nested maybe wrapper normal kept
  have readNested : flags.format.deserialize [0x14, 0x04, 0x0c, 0x05, 0x82, 0x00] = .ok nested := rfl
  have readWrapper : maybe.format.deserialize [0x14, 0x88, 0x00, 0x84, 0x00, 0xff] = .ok wrapper :=
    rfl
  obtain ⟨_, whole, _, back, _⟩ := serialize_forget_of_deserialize rfl readNested
  obtain ⟨_, keptWhole, _⟩ := serialize_forget_of_deserialize rfl readWrapper
  exact ⟨⟨readNested, by decide, whole, back⟩, readWrapper, rfl, keptWhole⟩

end Schema

end FieldWire
