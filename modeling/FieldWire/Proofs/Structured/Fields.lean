import FieldWire.Proofs.Optional

/-!
# Structures that are read field by field

A structure reads the values of a segment one after the other, in ascending order of their fields, and
stores each of them.  What such a structure holds afterwards can be said field by field, for any
layout.  All messages are of this form.
-/

set_option autoImplicit false

namespace FieldWire

/-- Reading the values of a segment is reading each present field that is known, in ascending order,
and storing it.  The fields of other segments stay.  `State` is what holds of the fields of an object,
before and after. -/
def SegmentFormat.ReadsFields {φ ν : Type} (format : SegmentFormat φ) (State : φ → Prop)
    (value : Nat → UInt64 → φ → ν) (field : Nat → UInt64 → Reader ν) : Prop :=
  ∀ (slot : Nat) (segment : Segment) (header : FieldSet) (fields filled : φ) (cursor after : Cursor),
    State fields → format.layout[slot]? = some segment → header.missing segment.required = 0 →
    format.load (segment.restrict header) (fields, cursor) = .ok () (filled, after) →
      State filled ∧
      (segment.restrict header).presentFields.mapM (field slot) cursor =
        .ok ((segment.restrict header).presentFields.map fun key => value slot key filled) after ∧
      ∀ other key, other ≠ slot → value other key filled = value other key fields

/-- The fields of a segment that a complete header names. -/
theorem Segment.WellFormed.presentFields_restrict {segment : Segment} {header : FieldSet}
    (wellFormed : segment.WellFormed) (complete : header.missing segment.required = 0) :
    (segment.restrict header).presentFields =
      (fieldsOf segment.known).filter (segment.restrict header).has := by
  have admits := wellFormed.admits complete
  rw [← FieldSet.fieldsOf_bits_and]
  exact congrArg fieldsOf (and_eq_self_of_and_not admits.known).symm

theorem Reader.mapM_cons_of_ok {κ ν : Type} {reader : κ → Reader ν} {key : κ} {keys : List κ}
    {value : ν} {values : List ν} {cursor middle after : Cursor}
    (first : reader key cursor = .ok value middle) (rest : keys.mapM reader middle = .ok values after) :
    (key :: keys).mapM reader cursor = .ok (value :: values) after := by
  rw [List.mapM_cons, bind_of_ok first, bind_of_ok rest]
  rfl

/-! ## A single field -/

/-- A structure with one field, which may be absent. -/
theorem SegmentFormat.readsFields_of_single {φ ν α : Type} {format : SegmentFormat φ}
    {only : Segment} {key : UInt64} {reader : Reader α} {store : α → φ}
    {value : Nat → UInt64 → φ → ν} {seen : α → ν} (layout : format.layout = [only])
    (wellFormed : only.WellFormed) (single : fieldsOf only.known = [key])
    (load : ∀ set, format.load set = if set.has key then (do
      let found ← Loader.read reader
      Loader.update fun _ => store found) else pure ())
    (stored : ∀ found, value 0 key (store found) = seen found)
    (elsewhere : ∀ other field fields later, other ≠ 0 →
      value other field later = value other field fields) :
    format.ReadsFields (fun _ => True) value fun _ _ => do return seen (← reader) := by
  intro slot segment header fields filled cursor after _ found complete ran
  rw [layout] at found
  obtain ⟨rfl, rfl⟩ := singleton_getElem? found
  refine ⟨trivial, ?_, fun other field => elsewhere other field fields filled⟩
  rw [wellFormed.presentFields_restrict complete, single]
  rw [load] at ran
  split at ran
  · rename_i has
    obtain ⟨content, read, rfl⟩ := Loader.store_eq_ok ran
    rw [List.filter_cons_of_pos has, List.filter_nil, List.map_singleton, stored]
    exact Reader.mapM_cons_of_ok (bind_of_ok read) rfl
  · rename_i missing
    cases ran
    rw [List.filter_cons_of_neg missing]
    rfl

namespace FrameworkError

theorem segments_readsFields : segments.ReadsFields (fun _ => True) fieldView.value fun _ _ => do
    return some (← Reader.text).bytes :=
  SegmentFormat.readsFields_of_single rfl (Segment.wellFormed_make _ _ _ _) rfl (fun _ => rfl)
    (fun _ => rfl) fun _ _ _ _ different => (if_neg different).trans (if_neg different).symm

end FrameworkError

namespace Optional

variable {σ : Type}

/-- However the payload is seen. -/
theorem segments_readsFields (inner : ObjectFormat σ) (payload : View (Deferred σ)) :
    (segments inner).ReadsFields (fun _ => True) (payloadView payload).value fun _ _ => do
      return some (payload.contents (← Deferred.read)) :=
  SegmentFormat.readsFields_of_single rfl (Segment.wellFormed_make _ _ _ _) rfl (fun _ => rfl)
    (fun _ => rfl) fun _ _ _ _ different =>
      (if_neg fun here => different here.1).trans (if_neg fun here => different here.1).symm

end Optional

/-! ## Error envelopes -/

namespace ErrorEnvelope

/-- Reads the value of a field: the name of the type, or the encoded error. -/
def readField (_ : Nat) (field : UInt64) : Reader Bytes :=
  if field = typeField then do return (← Reader.text).bytes else Reader.object

theorem segments_readsFields : segments.ReadsFields (fun _ => True) fieldView.value readField := by
  intro slot segment header fields filled cursor after _ found complete loaded
  obtain ⟨rfl, rfl⟩ := singleton_getElem? found
  refine ⟨trivial, ?_, fun other field different =>
    (if_neg different).trans (if_neg different).symm⟩
  have wellFormed := Segment.wellFormed_make .list 0 (typeField ||| errorField)
    (typeField ||| errorField)
  have admits := wellFormed.admits complete
  have ran : loadFields header (fields, cursor) = .ok () (filled, after) := loaded
  obtain ⟨errorType, ⟨object, middle⟩, first, rest⟩ := (bind_eq_ok_iff _ _ _ _ _).mp ran
  obtain ⟨rfl, textRead⟩ := Loader.read_eq_ok first
  rw [bind_of_ok (Loader.update_apply _ _ _)] at rest
  obtain ⟨serializedError, objectRead, rfl⟩ := Loader.store_eq_ok rest
  have named : readField 0 typeField cursor = .ok errorType.bytes middle := bind_of_ok textRead
  have nested : readField 0 errorField middle = .ok serializedError after := objectRead
  rw [wellFormed.presentFields_restrict complete,
    show fieldsOf _ = [typeField, errorField] by decide,
    List.filter_cons_of_pos (admits.has_required (by decide)),
    List.filter_cons_of_pos (admits.has_required (by decide)), List.filter_nil]
  exact Reader.mapM_cons_of_ok named (Reader.mapM_cons_of_ok nested rfl)

end ErrorEnvelope

/-! ## Signed chunks -/

namespace SignedChunk

/-- Reads the value of a field: a date, or a signature or chunk with its length. -/
def readField (place : Nat) (field : UInt64) : Reader (Binary64 ⊕ Option Bytes) :=
  if place = slot then
    if field = chunkField then do return .inr (some (← Reader.object))
    else do return .inr (some (← Reader.blob))
  else do return .inl (← Reader.binary64)

variable {set : FieldSet} {fields filled : Fields} {cursor after : Cursor}

theorem mapM_readField_date (eight : set.wireType = .eightByte)
    (ran : loadFields set (fields, cursor) = .ok () (filled, after)) :
    [dateField].mapM (readField 0) cursor =
      .ok ([dateField].map fun key => fieldValue 0 key filled) after ∧
      ∀ other key, other ≠ 0 → fieldValue other key filled = fieldValue other key fields := by
  rw [loadFields_of_eightByte eight] at ran
  obtain ⟨date, read, rfl⟩ := Loader.store_eq_ok ran
  refine ⟨Reader.mapM_cons_of_ok (bind_of_ok read) rfl, fun other key different => ?_⟩
  simp [fieldValue, different]

theorem mapM_readField_chunk (list : set.wireType = .list)
    (ran : loadFields set (fields, cursor) = .ok () (filled, after)) :
    (signatureField :: [chunkField].filter set.has).mapM (readField slot) cursor =
      .ok ((signatureField :: [chunkField].filter set.has).map fun key =>
        fieldValue slot key filled) after ∧
      ∀ other key, other ≠ slot → fieldValue other key filled = fieldValue other key fields := by
  rw [loadFields_of_list list] at ran
  obtain ⟨signature, ⟨object, middle⟩, first, rest⟩ := (bind_eq_ok_iff _ _ _ _ _).mp ran
  obtain ⟨rfl, signed⟩ := Loader.read_eq_ok first
  have signed : readField slot signatureField cursor = .ok (.inr (some signature)) middle :=
    bind_of_ok signed
  rw [bind_of_ok (Loader.update_apply _ _ _)] at rest
  split at rest
  · rename_i has
    obtain ⟨chunk, read, rfl⟩ := Loader.store_eq_ok rest
    rw [List.filter_cons_of_pos has, List.filter_nil]
    refine ⟨Reader.mapM_cons_of_ok signed (Reader.mapM_cons_of_ok (bind_of_ok read) rfl), ?_⟩
    intro other key different
    simp [fieldValue, different]
  · rename_i missing
    cases rest
    rw [List.filter_cons_of_neg missing, List.filter_nil]
    refine ⟨Reader.mapM_cons_of_ok signed rfl, fun other key different => ?_⟩
    simp [fieldValue, different]

theorem segments_readsFields :
    segments.ReadsFields (fun _ => True) fieldValue readField := by
  intro place segment header fields filled cursor after _ found complete loaded
  have ran : loadFields (segment.restrict header) (fields, cursor) = .ok () (filled, after) := loaded
  have wellFormed := segments_measured.wellFormed segment (List.mem_of_getElem? found)
  have admits := wellFormed.admits complete
  refine ⟨trivial, ?_⟩
  match place, found with
  | 0, found =>
    cases found
    rw [wellFormed.presentFields_restrict complete, show fieldsOf _ = [dateField] by decide,
      List.filter_cons_of_pos (admits.has_required (by decide)), List.filter_nil]
    exact mapM_readField_date rfl ran
  | 1, found =>
    cases found
    rw [wellFormed.presentFields_restrict complete,
      show fieldsOf _ = [signatureField, chunkField] by decide,
      List.filter_cons_of_pos (admits.has_required (by decide))]
    exact mapM_readField_chunk rfl ran

end SignedChunk

end FieldWire
