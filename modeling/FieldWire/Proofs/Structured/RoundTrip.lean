import FieldWire.Proofs.Messages

/-!
# The round trip of structures

A structure whose segments can be written and read again can be written and read again, for any
layout without two segments of one name.  The size that it remembers afterwards is the one that is
worked out anew, both for what was written and, if sizes depend on values only, for what was read.
-/

set_option autoImplicit false

namespace FieldWire

namespace SegmentFormat

variable {φ ν : Type}

/-- Sizes depend on the values of the present fields only, and working out a size keeps every
value. -/
structure Determined (format : SegmentFormat φ) (value : Nat → UInt64 → φ → ν) : Prop where
  kept : ∀ slot field set fields, value slot field (format.size set fields).2 = value slot field fields
  size_eq : ∀ (slot : Nat) (segment : Segment) set fields other,
    format.layout[slot]? = some segment → segment.Admits set →
    (∀ field ∈ set.presentFields, value slot field other = value slot field fields) →
      (format.size set other).1 = (format.size set fields).1

theorem Determined.blocksSize_eq {format : SegmentFormat φ} {value : Nat → UInt64 → φ → ν}
    (determined : format.Determined value) {presence : Presence} (fits : presence.Fits format.layout)
    {sets : List FieldSet} (among : sets ⊆ presence) {fields other : φ}
    (agree : ∀ slot set, presence[slot]? = some set → ∀ field ∈ set.presentFields,
      value slot field other = value slot field fields) :
    (format.blocksSize sets other).1 = (format.blocksSize sets fields).1 := by
  induction sets generalizing fields other with
  | nil => rfl
  | cons set sets ih =>
    obtain ⟨slot, segment, there, found, admits⟩ := fits.exists_slot (among List.mem_cons_self)
    have here := determined.size_eq slot segment set fields other found admits (agree slot set there)
    have still : ∀ place later, presence[place]? = some later → ∀ field ∈ later.presentFields,
        value place field (format.size set other).2 = value place field (format.size set fields).2 := by
      intro place later present field member
      rw [determined.kept, determined.kept]
      exact agree place later present field member
    have rest := ih (fun later member => among (List.mem_cons_of_mem _ member)) still
    change set.encodedSize + (format.size set other).1 + _ =
      set.encodedSize + (format.size set fields).1 + _
    rw [here]
    exact congrArg (_ + ·) rest

end SegmentFormat

namespace Structured

variable {φ ν : Type} {format : SegmentFormat φ} {value : Nat → UInt64 → φ → ν} {limit : Nat}
  {Source : FieldSet → φ → Prop} {Target : φ → Prop}

/-- For every layout and every assignment of presence and values that the layout allows. -/
theorem loadFrom_encode_of_reversible (reversible : format.Reversible value limit Source Target)
    (distinct : format.layout.Distinct) {object : Structured φ}
    (fits : object.presence.Fits format.layout)
    (sources : ∀ set ∈ object.presence, set.bits ≠ 0 → Source set object.fields)
    (remembered : ∀ size, object.memo = some size → size = (object.forget.size format).1)
    (within : (object.size format).1 ≤ limit) (small : (object.size format).1 < 2 ^ 62)
    (tail : Bytes) :
    ∃ loaded,
      (Structured.format format).loadFrom limit ((object.encode format).1 ++ tail) (empty format) =
        (.ok (), loaded, ((Structured.format format).encodedSize object).1) ∧
      loaded.presence = object.presence ∧
      (∀ slot set, object.presence[slot]? = some set → ∀ field ∈ set.presentFields,
        value slot field loaded.fields = value slot field object.fields) ∧
      loaded.memo = some (object.forget.size format).1 ∧
      (format.Determined value → loaded.memo = some (loaded.forget.size format).1) := by
  have steady := reversible.toSteady
  have forgetFits : object.forget.presence.Fits format.layout := fits
  have fresh := (encode_of_steady steady forgetFits sources (fun size found => by cases found)).1
  obtain ⟨sized, written⟩ := encode_of_steady steady fits sources
    (fun size found => (remembered size found).trans fresh)
  rw [sized] at within small
  obtain ⟨filled, ran, restored⟩ :=
    load_of_reversible reversible distinct fits sources within small tail 0
  let body := bodyOf format object.presence object.fields
  have consumed : ((Structured.format format).encodedSize object).1 = (Write.blob body).length := by
    rw [Write.length_blob, ← sized]
    rfl
  refine ⟨⟨object.presence, some body.length, filled⟩, ?_, rfl, restored, ?_, ?_⟩
  · have loaded : (Structured.format format).load (empty format,
        Cursor.ofBytes (Write.blob body ++ tail) limit) =
          .ok () (⟨object.presence, some body.length, filled⟩,
            ⟨tail, 0 + (Write.blob body).length, limit⟩) := ran
    rw [written, consumed, ObjectFormat.loadFrom, loaded, Nat.zero_add]
  · rw [fresh]
    rfl
  · intro determined
    have among : object.presence.written ⊆ object.presence := List.filter_sublist.subset
    have same : (format.blocksSize object.presence.written filled).1 =
        (format.blocksSize object.presence.written object.fields).1 :=
      determined.blocksSize_eq fits among restored
    change some body.length = some (format.blocksSize object.presence.written filled).1
    rw [same]
    exact congrArg some fresh.symm

end Structured

namespace SignedChunk

theorem determined : segments.Determined fieldValue where
  kept _ _ _ _ := rfl
  size_eq place segment set fields other found admits agree := by
    change fieldsSize set other = fieldsSize set fields
    rcases segment_of_getElem? found with ⟨rfl, eight⟩ | ⟨rfl, list⟩
    · rw [fieldsSize, fieldsSize, admits.wireType, eight]
    · cases found
      have hasSignature : set.has signatureField = true := admits.has_required (by decide)
      have signature : some other.signature = some fields.signature :=
        Sum.inr.inj (agree signatureField (FieldSet.mem_presentFields (by decide) hasSignature))
      have shown : other.shown set = fields.shown set := by
        rw [Fields.shown, Fields.shown]
        split
        · rename_i hasChunk
          exact Sum.inr.inj (agree chunkField (FieldSet.mem_presentFields (by decide) hasChunk))
        · rfl
      rw [fieldsSize, fieldsSize, admits.wireType, list, Option.some.inj signature, shown]

end SignedChunk

namespace Structured

/-- A signed chunk with a signature of one byte and an empty object, read with a limit of just its
body and with a byte behind it. -/
theorem loadFrom_encode_of_reversible_example :
    let object : SignedChunk :=
      SignedChunk.setChunk (SignedChunk.setSignature SignedChunk.format.empty [0xaa]) [0]
    ∃ loaded,
      SignedChunk.format.loadFrom 13 ((object.encode SignedChunk.segments).1 ++ [1])
          SignedChunk.format.empty = (.ok (), loaded, 14) ∧
        loaded.presence = object.presence ∧
        SignedChunk.fieldValue SignedChunk.slot SignedChunk.chunkField loaded.fields =
          .inr (some [0]) ∧
        loaded.memo = some 13 ∧ loaded.memo = some (loaded.forget.size SignedChunk.segments).1 := by
  intro object
  have default : 13 ≤ defaultPayloadLimit := by decide
  have reversible := SegmentFormat.reversible_of_laws SignedChunk.segments_faithful
    SignedChunk.segments_readable default
  have fresh : SignedChunk.segments.layout.fresh.Fits SignedChunk.segments.layout :=
    Presence.Fits.fresh SignedChunk.segments_measured.wellFormed
  have fits : object.presence.Fits SignedChunk.segments.layout :=
    fresh.set true rfl (by decide) (by decide)
  have sources : ∀ set ∈ object.presence, set.bits ≠ 0 →
      (SignedChunk.fieldView.Valid set object.fields ∧
        SignedChunk.fieldView.Exact set object.fields) ∧
          (SignedChunk.fieldView.bytes set object.fields).length ≤ 13 := by
    intro set member _
    rcases List.mem_pair.mp member with rfl | rfl
    · exact ⟨⟨(fun list => by cases list), trivial⟩, by decide⟩
    · exact ⟨⟨fun _ _ => ⟨[0], rfl, 0, 1, rfl, rfl, rfl⟩, trivial⟩, by decide⟩
  have size : (object.size SignedChunk.segments).1 = 13 := by decide
  have consumed : ((Structured.format SignedChunk.segments).encodedSize object).1 = 14 := by decide
  obtain ⟨loaded, ran, presence, values, memo, fixed⟩ :=
    loadFrom_encode_of_reversible reversible SignedChunk.distinct fits sources
      (fun size found => by cases found) (Nat.le_of_eq size) (by rw [size]; decide) [1]
  rw [consumed] at ran
  have chunk := values 1 _ rfl SignedChunk.chunkField (by decide)
  exact ⟨loaded, ran, presence, chunk, memo.trans (congrArg some size), fixed SignedChunk.determined⟩

end Structured

end FieldWire
