import FieldWire.Message.ErrorEnvelope
import FieldWire.Message.FrameworkError
import FieldWire.Message.SignedChunk
import FieldWire.Proofs.Structured.Measured

/-!
# Messages

Framework errors, error envelopes and signed chunks remember nothing in their fields.  What is left
to show of each is that reading a field set gives back what was written for it, and that a chunk or
an encoded error that was read is the envelope of an object.
-/

set_option autoImplicit false

namespace FieldWire

/-! ## Fields without memory -/

/-- Fields that remember nothing. -/
def SegmentView.plain {φ ν : Type} (value : Nat → UInt64 → φ → ν) (bytes : FieldSet → φ → Bytes)
    (Valid : FieldSet → φ → Prop) : SegmentView φ where
  Value := ν
  value := value
  bytes := bytes
  forget fields := fields
  Exact _ _ := True
  Valid := Valid

namespace SegmentFormat

variable {φ ν : Type} {layout : Layout} {empty : φ} {size : FieldSet → φ → Nat}
  {encode : FieldSet → φ → Bytes} {load : FieldSet → Loader φ Unit} {same : φ → φ → Bool}
  {value : Nat → UInt64 → φ → ν} {Valid : FieldSet → φ → Prop}

theorem ofPlain_faithful (sized : ∀ set fields, size set fields = (encode set fields).length) :
    (ofPlain layout empty size encode load same).Faithful
      (SegmentView.plain value encode Valid) where
  afterSize _ _ _ _ _ := SegmentView.Alike.refl _ _ _
  afterEncode _ _ _ _ _ := SegmentView.Alike.refl _ _ _
  size_eq set fields _ _ := sized set fields
  encode_eq _ _ _ _ := rfl
  forgotten _ _ _ := ⟨SegmentView.Alike.refl _ _ _, trivial⟩

theorem ofPlain_settled (sized : ∀ set fields, size set fields = (encode set fields).length)
    (fields : φ) :
    (ofPlain layout empty size encode load same).Settled (SegmentView.plain value encode Valid)
      fields where
  size set := congrArg (·, fields) (sized set fields)
  encode _ := rfl
  exact _ := trivial

end SegmentFormat

namespace FieldSet

theorem has_of_mem_presentFields {set : FieldSet} {field : UInt64}
    (member : field ∈ set.presentFields) : set.has field = true :=
  (List.mem_filter.mp member).2

theorem mem_presentFields {set : FieldSet} {position : Nat} (inside : position < fieldsPerSegment)
    (has : set.has (fieldBit position) = true) : fieldBit position ∈ set.presentFields :=
  List.mem_filter.mpr ⟨List.mem_map.mpr ⟨position, List.mem_range.mpr inside, rfl⟩, has⟩

end FieldSet

/-- The only field of a segment is present in a field set that is not empty. -/
theorem Segment.Admits.has_known {segment : Segment} {set : FieldSet} (admits : segment.Admits set)
    (nonempty : set.bits ≠ 0) : set.has segment.known = true := by
  rw [FieldSet.has, and_eq_self_of_and_not admits.known]
  exact bne_iff_ne.mpr nonempty

theorem FieldSet.has_of_missing_eq_zero {set : FieldSet} {required field : UInt64}
    (complete : set.missing required = 0) (needed : required &&& field ≠ 0) :
    set.has field = true := by
  have kept : required &&& set.bits = required := and_eq_self_of_and_not complete
  refine bne_iff_ne.mpr fun none => needed ?_
  rw [← kept, UInt64.and_assoc, none, UInt64.and_zero]

/-- A required field is present in every field set that a segment allows. -/
theorem Segment.Admits.has_required {segment : Segment} {set : FieldSet}
    (admits : segment.Admits set) {field : UInt64} (required : segment.required &&& field ≠ 0) :
    set.has field = true :=
  FieldSet.has_of_missing_eq_zero admits.complete required

namespace Loader

variable {σ α : Type}

theorem store_eq_ok {reader : Reader α} {change : α → σ → σ} {object final : σ}
    {cursor after : Cursor} {value : Unit}
    (ran : (do
      let found ← Loader.read reader
      Loader.update (change found) : Loader σ Unit) (object, cursor) = .ok value (final, after)) :
    ∃ found, reader cursor = .ok found after ∧ final = change found object := by
  obtain ⟨found, ⟨object, middle⟩, read, updated⟩ := (bind_eq_ok_iff _ _ _ _ _).mp ran
  obtain ⟨rfl, readerRan⟩ := read_eq_ok read
  cases updated
  exact ⟨found, readerRan, rfl⟩

end Loader

theorem singleton_getElem? {α : Type} {value found : α} {index : Nat}
    (there : [value][index]? = some found) : index = 0 ∧ found = value := by
  cases index with
  | zero =>
    cases there
    exact ⟨rfl, rfl⟩
  | succ index => cases there

theorem slot_eq_of_single {only segment otherSegment : Segment} {slot other : Nat}
    (found : [only][slot]? = some segment) (otherFound : [only][other]? = some otherSegment) :
    other = slot := by
  rw [(singleton_getElem? found).1, (singleton_getElem? otherFound).1]

/-! ## Framework errors -/

namespace FrameworkError

def fieldView : SegmentView Fields :=
  SegmentView.plain
    (fun place _ fields => if place = slot then fields.message.map Text.bytes else none)
    (fun set fields => (segments.encode set fields).1)
    (fun set fields => set.has messageField → fields.message.isSome)

theorem fieldsSize_eq (set : FieldSet) (fields : Fields) :
    ((fields.shown set).map Text.encodedSize).getD 0 =
      (((fields.shown set).map Write.text).getD []).length := by
  cases fields.shown set with
  | none => rfl
  | some message => exact ElementFormat.size_text message

theorem segments_faithful : segments.Faithful fieldView :=
  SegmentFormat.ofPlain_faithful fieldsSize_eq

theorem bytes_of_has {set : FieldSet} {message : Text} (has : set.has messageField = true) :
    fieldView.bytes set ⟨some message⟩ = Write.text message := by
  change (((if set.has messageField then some message else none).map Write.text).getD []) = _
  rw [if_pos has]
  rfl

theorem fills_message {set : FieldSet} {limit : Nat} {message : Text} (target : Fields)
    (has : set.has messageField = true) (within : (Write.text message).length ≤ limit)
    (default : limit ≤ defaultPayloadLimit) :
    Loader.Fills (segments.load set) limit (Write.text message) target ()
      ⟨some (Text.ofWire message.bytes)⟩ := by
  have filled : segments.load set = (do
      let message ← Loader.read Reader.text
      Loader.update fun _ => ⟨some message⟩) := if_pos has
  rw [filled]
  exact Loader.Fills.store (Reader.text_takes_of_le within default) target

theorem segments_readable : segments.Readable fieldView := by
  intro limit place segment set fields target found admits nonempty valid within default
  obtain ⟨rfl, rfl⟩ := singleton_getElem? found
  have has : set.has messageField = true := admits.has_known nonempty
  obtain ⟨message, there⟩ := Option.isSome_iff_exists.mp (valid has)
  obtain rfl : fields = ⟨some message⟩ := congrArg Fields.mk there
  rw [bytes_of_has has] at within ⊢
  refine ⟨⟨some (Text.ofWire message.bytes)⟩, fills_message target has within default, ?_, ?_⟩
  · intro field _
    rfl
  · intro other field different
    exact (if_neg different).trans (if_neg different).symm

theorem segments_measured : segments.Measured fieldView where
  wellFormed segment member := by
    obtain rfl := List.mem_singleton.mp member
    exact Segment.wellFormed_make _ _ _ _
  empty := SegmentFormat.ofPlain_settled fieldsSize_eq _
  load place segment set target cursor filled after found admits settled ran := by
    refine ⟨SegmentFormat.ofPlain_settled fieldsSize_eq _, ?_⟩
    have ran : loadFields set (target, cursor) = .ok () (filled, after) := ran
    refine and_assoc.mp ⟨?_, fun _ _ _ different otherFound _ =>
      absurd (slot_eq_of_single found otherFound) different⟩
    rw [loadFields] at ran
    split at ran
    · rename_i has
      obtain ⟨message, read, rfl⟩ := Loader.store_eq_ok ran
      obtain ⟨length, fits, inside, moved⟩ := Reader.text_costs read
      refine ⟨fun _ _ => rfl, length, inside, moved, fun _ => ?_⟩
      rw [bytes_of_has has, ← ElementFormat.size_text]
      exact fits
    · rename_i missing
      cases ran
      refine ⟨fun _ has => absurd has missing, 0, Nat.zero_le _, rfl, fun _ => ?_⟩
      change (((if set.has messageField then _ else none).map Write.text).getD []).length ≤ 0
      rw [if_neg missing]
      exact Nat.le_refl 0

end FrameworkError

/-! ## Error envelopes -/

namespace ErrorEnvelope

def fieldView : SegmentView Fields :=
  SegmentView.plain
    (fun place field fields => if place = 0 then
      if field = typeField then fields.errorType.bytes else fields.serializedError else [])
    (fun set fields => (segments.encode set fields).1)
    (fun _ fields => LengthTag.IsEnvelope fields.serializedError)

theorem fieldsSize_eq (_ : FieldSet) (fields : Fields) :
    fields.errorType.encodedSize + fields.serializedError.length =
      (Write.text fields.errorType ++ fields.serializedError).length := by
  rw [List.length_append, ElementFormat.size_text]

theorem segments_faithful : segments.Faithful fieldView :=
  SegmentFormat.ofPlain_faithful fieldsSize_eq

theorem segments_readable : segments.Readable fieldView := by
  intro limit place segment set fields target found admits nonempty valid within default
  obtain ⟨rfl, rfl⟩ := singleton_getElem? found
  have within : (Write.text fields.errorType ++ fields.serializedError).length ≤ limit := within
  rw [List.length_append] at within
  have text : Reader.Takes Reader.text limit (Write.text fields.errorType) _ :=
    Reader.text_takes_of_le (by omega) default
  have object := Reader.object_takes valid (by omega : fields.serializedError.length ≤ limit)
  refine ⟨⟨Text.ofWire fields.errorType.bytes, fields.serializedError⟩, ?_, ?_, ?_⟩
  · apply Loader.Fills.bind (Loader.Fills.read text target)
    apply Loader.Fills.bind (Loader.Fills.update limit _ target)
    exact Loader.Fills.store object _
  · intro field _
    rfl
  · intro other field different
    exact (if_neg different).trans (if_neg different).symm

theorem segments_measured : segments.Measured fieldView where
  wellFormed segment member := by
    obtain rfl := List.mem_singleton.mp member
    exact Segment.wellFormed_make _ _ _ _
  empty := SegmentFormat.ofPlain_settled fieldsSize_eq _
  load place segment set target cursor filled after found admits settled ran := by
    refine ⟨SegmentFormat.ofPlain_settled fieldsSize_eq _, ?_⟩
    refine and_assoc.mp ⟨?_, fun _ _ _ different otherFound _ =>
      absurd (slot_eq_of_single found otherFound) different⟩
    have ran : loadFields set (target, cursor) = .ok () (filled, after) := ran
    obtain ⟨errorType, ⟨object, middle⟩, first, rest⟩ := (bind_eq_ok_iff _ _ _ _ _).mp ran
    obtain ⟨rfl, textRead⟩ := Loader.read_eq_ok first
    rw [bind_of_ok (Loader.update_apply _ _ _)] at rest
    obtain ⟨serializedError, objectRead, rfl⟩ := Loader.store_eq_ok rest
    obtain ⟨length, fits, inside, rfl⟩ := Reader.text_costs textRead
    obtain ⟨envelope, insideObject, _, rfl⟩ := Reader.object_eq_ok objectRead
    rw [Cursor.rest_advance, List.length_drop] at insideObject
    refine ⟨fun _ => envelope, length + serializedError.length, by omega,
      Cursor.advance_advance _ _ _, fun _ => ?_⟩
    change (Write.text errorType ++ serializedError).length ≤ _
    rw [List.length_append, ← ElementFormat.size_text]
    omega

end ErrorEnvelope

/-! ## Signed chunks -/

namespace SignedChunk

/-- The value of a field, as the bits of the date or as bytes that may be missing. -/
def fieldValue (place : Nat) (field : UInt64) (fields : Fields) : Binary64 ⊕ Option Bytes :=
  if place = 0 then .inl fields.date
  else if place = slot then
    .inr (if field = chunkField then fields.chunk else some fields.signature)
  else .inr none

def fieldView : SegmentView Fields :=
  SegmentView.plain fieldValue (fun set fields => (segments.encode set fields).1)
    (fun set fields => set.wireType = .list → set.has chunkField →
      ∃ chunk, fields.chunk = some chunk ∧ LengthTag.IsEnvelope chunk)

theorem fieldsSize_eq (set : FieldSet) (fields : Fields) :
    fieldsSize set fields = (encodeFields set fields).length := by
  rw [fieldsSize, encodeFields]
  cases set.wireType with
  | varint => rfl
  | fourByte => rfl
  | eightByte => exact ElementFormat.size_fixed .binary64 fields.date
  | list =>
    simp only [List.length_append, Write.length_blob]
    cases fields.shown set <;> rfl

theorem segments_faithful : segments.Faithful fieldView :=
  SegmentFormat.ofPlain_faithful fieldsSize_eq

/-- A slot of the layout is that of the date or that of signature and chunk. -/
theorem segment_of_getElem? {place : Nat} {segment : Segment}
    (found : segments.layout[place]? = some segment) :
    (place = 0 ∧ segment.wireType = .eightByte) ∨ (place = slot ∧ segment.wireType = .list) := by
  match place, found with
  | 0, found =>
    cases found
    exact .inl ⟨rfl, rfl⟩
  | 1, found =>
    cases found
    exact .inr ⟨rfl, rfl⟩

theorem bytes_of_eightByte {set : FieldSet} (fields : Fields) (eight : set.wireType = .eightByte) :
    fieldView.bytes set fields = fields.date.encode := by
  change encodeFields set fields = _
  rw [encodeFields, eight]

theorem bytes_of_list {set : FieldSet} (fields : Fields) (list : set.wireType = .list) :
    fieldView.bytes set fields =
      Write.blob fields.signature ++ ((fields.shown set).getD []) := by
  change encodeFields set fields = _
  rw [encodeFields, list]

theorem loadFields_of_eightByte {set : FieldSet} (eight : set.wireType = .eightByte) :
    loadFields set = (do
      let date ← Loader.read Reader.binary64
      Loader.update fun fields => { fields with date := date }) := by
  rw [loadFields, eight]

theorem loadFields_of_list {set : FieldSet} (list : set.wireType = .list) :
    loadFields set = (do
      let signature ← Loader.read Reader.blob
      Loader.update fun fields => { fields with signature := signature }
      if set.has chunkField then
        let chunk ← Loader.read Reader.object
        Loader.update fun fields => { fields with chunk := some chunk }
      else Loader.update fun fields => { fields with chunk := none }) := by
  rw [loadFields, list]

theorem fills_date {set : FieldSet} {limit : Nat} {fields target : Fields}
    (eight : set.wireType = .eightByte) :
    Loader.Fills (loadFields set) limit (fieldView.bytes set fields) target ()
      { target with date := fields.date } := by
  rw [loadFields_of_eightByte eight, bytes_of_eightByte fields eight]
  exact Loader.Fills.store (Reader.fixed_takes .binary64 limit fields.date) target

theorem fills_chunk {set : FieldSet} {limit : Nat} {fields target : Fields}
    (list : set.wireType = .list) (valid : fieldView.Valid set fields)
    (within : (fieldView.bytes set fields).length ≤ limit) (default : limit ≤ defaultPayloadLimit) :
    Loader.Fills (loadFields set) limit (fieldView.bytes set fields) target ()
      { target with signature := fields.signature, chunk := fields.shown set } := by
  rw [bytes_of_list fields list, List.length_append] at within
  rw [loadFields_of_list list, bytes_of_list fields list]
  have signature : Reader.Takes Reader.blob limit (Write.blob fields.signature) _ :=
    Reader.blob_takes_of_le (by omega) default
  apply Loader.Fills.bind (Loader.Fills.read signature target)
  apply Loader.Fills.bind (Loader.Fills.update limit _ target)
  by_cases has : set.has chunkField
  · obtain ⟨chunk, there, envelope⟩ := valid list has
    have shown : fields.shown set = some chunk := by
      rw [Fields.shown, if_pos has, there]
    rw [shown] at within ⊢
    rw [if_pos has]
    have small : chunk.length ≤ limit := Nat.le_trans (Nat.le_add_left _ _) within
    exact Loader.Fills.store (Reader.object_takes envelope small) _
  · have shown : fields.shown set = none := by
      rw [Fields.shown, if_neg has]
    rw [shown, if_neg has]
    exact Loader.Fills.update limit _ _

theorem segments_readable : segments.Readable fieldView := by
  intro limit place segment set fields target found admits nonempty valid within default
  rcases segment_of_getElem? found with ⟨rfl, eight⟩ | ⟨rfl, list⟩
  · refine ⟨_, fills_date (admits.wireType.trans eight), fun _ _ => rfl, ?_⟩
    intro other field different
    change fieldValue other field _ = fieldValue other field _
    rw [fieldValue, if_neg different, fieldValue, if_neg different]
  · refine ⟨_, fills_chunk (admits.wireType.trans list) valid within default, ?_, ?_⟩
    · intro field member
      change Sum.inr (if field = chunkField then fields.shown set else some fields.signature) =
        Sum.inr (if field = chunkField then fields.chunk else some fields.signature)
      by_cases chunk : field = chunkField
      · have has : set.has chunkField := chunk ▸ FieldSet.has_of_mem_presentFields member
        rw [if_pos chunk, if_pos chunk, Fields.shown, if_pos has]
      · rw [if_neg chunk, if_neg chunk]
    · intro other field different
      change fieldValue other field _ = fieldValue other field _
      simp only [fieldValue, if_neg different]

theorem loadDate_eq_ok {set : FieldSet} {target filled : Fields} {cursor after : Cursor}
    (eight : set.wireType = .eightByte)
    (ran : loadFields set (target, cursor) = .ok () (filled, after)) :
    (∃ date, filled = { target with date := date }) ∧
      8 ≤ cursor.rest.length ∧ after = cursor.advance 8 := by
  rw [loadFields_of_eightByte eight] at ran
  obtain ⟨date, read, rfl⟩ := Loader.store_eq_ok ran
  obtain ⟨enough, moved⟩ := Reader.fixed_costs .binary64 read
  exact ⟨⟨date, rfl⟩, enough, moved⟩

theorem loadChunk_eq_ok {set : FieldSet} {target filled : Fields} {cursor after : Cursor}
    (list : set.wireType = .list)
    (ran : loadFields set (target, cursor) = .ok () (filled, after)) :
    filled.date = target.date ∧ fieldView.Valid set filled ∧
      ∃ length, length ≤ cursor.rest.length ∧ after = cursor.advance length ∧
        (fieldView.bytes set filled).length ≤ length := by
  rw [loadFields_of_list list] at ran
  obtain ⟨signature, ⟨object, middle⟩, first, rest⟩ := (bind_eq_ok_iff _ _ _ _ _).mp ran
  obtain ⟨rfl, blobRead⟩ := Loader.read_eq_ok first
  obtain ⟨length, fits, inside, rfl⟩ := Reader.blob_costs blobRead
  rw [bind_of_ok (Loader.update_apply _ _ _)] at rest
  rw [bytes_of_list filled list, List.length_append, Write.length_blob]
  split at rest
  · rename_i has
    obtain ⟨chunk, objectRead, rfl⟩ := Loader.store_eq_ok rest
    obtain ⟨envelope, insideObject, _, rfl⟩ := Reader.object_eq_ok objectRead
    rw [Cursor.rest_advance, List.length_drop] at insideObject
    refine ⟨rfl, fun _ _ => ⟨chunk, rfl, envelope⟩, length + chunk.length, by omega,
      Cursor.advance_advance _ _ _, ?_⟩
    rw [Fields.shown, if_pos has]
    exact Nat.add_le_add_right fits _
  · rename_i missing
    cases rest
    refine ⟨rfl, fun _ has => absurd has missing, length, inside, rfl, ?_⟩
    rw [Fields.shown, if_neg missing]
    exact fits

theorem segments_measured : segments.Measured fieldView where
  wellFormed segment member := by
    rcases List.mem_pair.mp member with rfl | rfl <;> exact Segment.wellFormed_make _ _ _ _
  empty := SegmentFormat.ofPlain_settled fieldsSize_eq _
  load place segment set target cursor filled after found admits settled ran := by
    refine ⟨SegmentFormat.ofPlain_settled fieldsSize_eq _, ?_⟩
    rcases segment_of_getElem? found with ⟨rfl, eight⟩ | ⟨rfl, list⟩
    · have eight := admits.wireType.trans eight
      obtain ⟨⟨date, rfl⟩, enough, moved⟩ := loadDate_eq_ok eight ran
      refine ⟨fun _ list => ?_, ⟨8, enough, moved, fun _ => ?_⟩, ?_⟩
      · rw [eight] at list
        cases list
      · rw [bytes_of_eightByte _ eight]
        exact Nat.le_of_eq (FixedWidth.binary64.length_encode date)
      · intro other otherSegment otherSet different otherFound otherAdmits
        rcases segment_of_getElem? otherFound with ⟨rfl, _⟩ | ⟨rfl, list⟩
        · exact absurd rfl different
        · have list := otherAdmits.wireType.trans list
          rw [bytes_of_list _ list, bytes_of_list _ list]
          exact ⟨rfl, id⟩
    · have list := admits.wireType.trans list
      obtain ⟨sameDate, valid, taken, inside, moved, fits⟩ := loadChunk_eq_ok list ran
      refine ⟨fun _ => valid, ⟨taken, inside, moved, fun _ => fits⟩, ?_⟩
      intro other otherSegment otherSet different otherFound otherAdmits
      rcases segment_of_getElem? otherFound with ⟨rfl, eight⟩ | ⟨rfl, _⟩
      · have eight := otherAdmits.wireType.trans eight
        rw [bytes_of_eightByte _ eight, bytes_of_eightByte _ eight, sameDate]
        refine ⟨rfl, fun _ list => ?_⟩
        rw [eight] at list
        cases list
      · exact absurd rfl different

theorem distinct : segments.layout.Distinct := by decide

end SignedChunk

end FieldWire
