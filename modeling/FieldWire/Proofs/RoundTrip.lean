import FieldWire.Proofs.Built.Schema

/-!
# Round trips

What is written for a built object of a standard schema is read back from the front of any buffer,
into an object with the same contents and up to the end of the envelope.
-/

set_option autoImplicit false

namespace FieldWire.Schema

/-- The limit only has to admit the body of the object itself: nothing inside of it is longer. -/
theorem loadFrom_encode_of_built {schema : Schema} (standard : schema.isStandard = true)
    {object : schema.Carrier} (built : schema.Built standard object) (tail : Bytes) {limit : Nat}
    (within : (schema.format.size object).1 ≤ limit) (default : limit ≤ defaultPayloadLimit) :
    ∃ loaded,
      schema.format.loadFrom limit ((schema.format.encode object).1 ++ tail) schema.format.empty =
        (.ok (), loaded, (schema.format.encodedSize object).1) ∧
      (schema.view standard).contents loaded = (schema.view standard).contents object := by
  obtain ⟨valid, exact⟩ := schema.sound_of_built standard object built
  have size := (schema.faithful standard).size_eq object valid exact
  have written := (schema.faithful standard).encode_eq object valid exact
  have consumed : (schema.format.encodedSize object).1 =
      (Write.blob ((schema.view standard).bytes object)).length := by
    rw [Write.length_blob, ← size]
    rfl
  rw [size] at within
  rw [written, consumed]
  exact ObjectFormat.loadFrom_of_recovers
    (schema.readable standard limit object valid within default) tail

/-- An optional list of one text, read with a limit of just the size of its body and with two bytes
behind it. -/
theorem loadFrom_encode_of_built_example :
    let schema : Schema := .optional (.sequence .text)
    let object : schema.Carrier := Optional.ofItem (Sequence.format ElementFormat.text)
      (Sequence.ofList [Text.ofWire [0x61]])
    (schema.Built rfl object ∧ (schema.format.size object).1 ≤ 5 ∧ 5 ≤ defaultPayloadLimit) ∧
      ∃ loaded,
        schema.format.loadFrom 5 ((schema.format.encode object).1 ++ [1, 2]) schema.format.empty =
          (.ok (), loaded, 6) ∧
        (schema.view rfl).contents loaded = (schema.view rfl).contents object := by
  intro schema object
  have payload : (Schema.sequence .text).Built rfl (Sequence.ofList [Text.ofWire [0x61]]) :=
    .step .empty (.ofList fun _ _ => trivial)
  have built : schema.Built rfl object := .step .empty (.setItem payload)
  have within : (schema.format.size object).1 ≤ 5 := by decide
  have default : 5 ≤ defaultPayloadLimit := by decide
  exact ⟨⟨built, within, default⟩, loadFrom_encode_of_built rfl built [1, 2] within default⟩

end FieldWire.Schema
