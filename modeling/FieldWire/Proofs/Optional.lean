import FieldWire.Message.Optional
import FieldWire.Proofs.Messages

/-!
# Optional payloads

A deferred object is an element like any other.  What is seen of it is the answer to asking for the
object, and so bytes that have not been decoded are the same as the object they decode to.  An
optional payload is a field set of one such element.
-/

set_option autoImplicit false

namespace FieldWire

namespace Deferred

variable {σ : Type} {format : ObjectFormat σ} {inner : View σ}

/-- Deferred objects as elements. -/
def element (format : ObjectFormat σ) : ElementFormat (Deferred σ) where
  scheme := .list
  size := encodedSize format
  write := encode format
  read := read
  same := same format

/-- What is seen of a deferred object: the object that one gets, or why one does not get it. -/
def view (format : ObjectFormat σ) (inner : View σ) : View (Deferred σ) where
  Contents := Except CodecError inner.Contents
  contents deferred := (deferred.get format).1.map inner.contents
  bytes
    | .raw bytes => bytes
    | .decoded _ object => Write.blob (inner.bytes object)
    | .owned object => Write.blob (inner.bytes object)
  forget
    | .raw bytes => .raw bytes
    | .decoded bytes object => .decoded bytes (inner.forget object)
    | .owned object => .owned (inner.forget object)
  Exact
    | .raw _ => True
    | .decoded _ object => inner.Exact object
    | .owned object => inner.Exact object
  Valid
    | .raw bytes => LengthTag.IsEnvelope bytes
    | .decoded _ object => inner.Valid object
    | .owned object => inner.Valid object

theorem alike_decoded {object later : σ} (bytes : Bytes) (alike : inner.Alike object later) :
    (view format inner).Alike (.decoded bytes object) (.decoded bytes later) where
  contents := congrArg Except.ok alike.contents
  bytes := congrArg Write.blob alike.bytes
  exact := alike.exact
  valid := alike.valid

theorem alike_owned {object later : σ} (alike : inner.Alike object later) :
    (view format inner).Alike (.owned object) (.owned later) where
  contents := congrArg Except.ok alike.contents
  bytes := congrArg Write.blob alike.bytes
  exact := alike.exact
  valid := alike.valid

theorem element_faithful (objects : format.Faithful inner) :
    (element format).Faithful (view format inner) where
  afterSize deferred valid := by
    cases deferred with
    | raw bytes => exact View.Alike.refl _ _
    | decoded bytes object => exact alike_decoded bytes (objects.afterSize object valid)
    | owned object => exact alike_owned (objects.afterSize object valid)
  afterWrite deferred valid := by
    cases deferred with
    | raw bytes => exact View.Alike.refl _ _
    | decoded bytes object => exact alike_decoded bytes (objects.afterEncode object valid)
    | owned object => exact alike_owned (objects.afterEncode object valid)
  size_eq deferred valid exact := by
    have elements := (ElementFormat.object_faithful objects).size_eq
    cases deferred with
    | raw bytes => rfl
    | decoded bytes object => exact elements object valid exact
    | owned object => exact elements object valid exact
  write_eq deferred valid exact := by
    cases deferred with
    | raw bytes => rfl
    | decoded bytes object => exact objects.encode_eq object valid exact
    | owned object => exact objects.encode_eq object valid exact
  forgotten deferred valid := by
    cases deferred with
    | raw bytes => exact ⟨View.Alike.refl _ _, trivial⟩
    | decoded bytes object =>
      obtain ⟨alike, exact⟩ := objects.forgotten object valid
      exact ⟨alike_decoded bytes alike, exact⟩
    | owned object =>
      obtain ⟨alike, exact⟩ := objects.forgotten object valid
      exact ⟨alike_owned alike, exact⟩
  fixed _ _ found := by cases found

theorem isEnvelope_blob {bytes : Bytes} (small : bytes.length < 2 ^ 62) :
    LengthTag.IsEnvelope (Write.blob bytes) :=
  (LengthTag.isEnvelope_span bytes.length bytes small).mpr rfl

/-- Decoding what is written for an object gives the object. -/
theorem contents_blob (readable : format.Readable inner) {object : σ} (valid : inner.Valid object)
    (within : (Write.blob (inner.bytes object)).length ≤ defaultPayloadLimit) :
    (view format inner).contents (.raw (Write.blob (inner.bytes object))) =
      .ok (inner.contents object) := by
  have shorter : (inner.bytes object).length ≤ defaultPayloadLimit :=
    Nat.le_trans (Write.length_le_blob _) within
  obtain ⟨back, decoded, same⟩ := ObjectFormat.deserializeWithin_of_recovers
    (readable defaultPayloadLimit object valid shorter (Nat.le_refl _))
  change ((get format (.raw (Write.blob (inner.bytes object)))).1).map inner.contents = _
  have decoded : format.deserialize (Write.blob (inner.bytes object)) = .ok back := decoded
  rw [get, decoded]
  exact congrArg Except.ok same

/-- The bytes of a deferred object are an envelope, and in its place they are seen as the same. -/
theorem alike_raw (readable : format.Readable inner) {deferred : Deferred σ}
    (valid : (view format inner).Valid deferred)
    (within : ((view format inner).bytes deferred).length ≤ defaultPayloadLimit) :
    LengthTag.IsEnvelope ((view format inner).bytes deferred) ∧
      (view format inner).contents (.raw ((view format inner).bytes deferred)) =
        (view format inner).contents deferred := by
  have small : ∀ object, (Write.blob (inner.bytes object)).length ≤ defaultPayloadLimit →
      (inner.bytes object).length < 2 ^ 62 := by
    intro object fits
    exact lt_of_le_default (Nat.le_trans (Write.length_le_blob _) fits) (Nat.le_refl _)
  cases deferred with
  | raw bytes => exact ⟨valid, rfl⟩
  | decoded bytes object =>
    exact ⟨isEnvelope_blob (small object within), contents_blob readable valid within⟩
  | owned object =>
    exact ⟨isEnvelope_blob (small object within), contents_blob readable valid within⟩

theorem read_takes {limit : Nat} {bytes : Bytes} (envelope : LengthTag.IsEnvelope bytes)
    (within : bytes.length ≤ limit) :
    Reader.Takes (read : Reader (Deferred σ)) limit bytes (.raw bytes) :=
  Reader.Takes.bindPure (Reader.object_takes envelope within) rfl

theorem read_eq_ok {cursor after : Cursor} {deferred : Deferred σ}
    (ran : read cursor = .ok deferred after) :
    ∃ bytes, deferred = .raw bytes ∧ LengthTag.IsEnvelope bytes ∧
      bytes.length ≤ cursor.rest.length ∧ after = cursor.advance bytes.length := by
  obtain ⟨bytes, middle, taken, returned⟩ := (bind_eq_ok_iff _ _ _ _ _).mp ran
  obtain ⟨rfl, rfl⟩ := (pure_eq_ok_iff _ _ _ _).mp returned
  obtain ⟨envelope, inside, _, moved⟩ := Reader.object_eq_ok taken
  exact ⟨bytes, rfl, envelope, inside, moved⟩

end Deferred

namespace Optional

variable {σ : Type} {format : ObjectFormat σ} {inner : View σ}

/-- The bytes of the payload, if a field set says that it is present. -/
def bytesOf (format : ObjectFormat σ) (inner : View σ) (set : FieldSet) (fields : Fields σ) :
    Bytes :=
  if set.has itemField then (fields.item.map (Deferred.view format inner).bytes).getD [] else []

def fieldView (format : ObjectFormat σ) (inner : View σ) : SegmentView (Fields σ) where
  Value := Option (Except CodecError inner.Contents)
  value place field fields := if place = slot ∧ field = itemField then
    fields.item.map (Deferred.view format inner).contents else none
  bytes := bytesOf format inner
  forget fields := ⟨fields.item.map (Deferred.view format inner).forget⟩
  Exact set fields := set.has itemField →
    ∀ item, fields.item = some item → (Deferred.view format inner).Exact item
  Valid set fields := set.has itemField →
    ∃ item, fields.item = some item ∧ (Deferred.view format inner).Valid item

theorem fieldsSize_of_has {set : FieldSet} {item : Deferred σ} (has : set.has itemField) :
    fieldsSize format set ⟨some item⟩ =
      ((item.encodedSize format).1, ⟨some (item.encodedSize format).2⟩) :=
  if_pos has

theorem encodeFields_of_has {set : FieldSet} {item : Deferred σ} (has : set.has itemField) :
    encodeFields format set ⟨some item⟩ =
      ((item.encode format).1, ⟨some (item.encode format).2⟩) :=
  if_pos has

theorem fieldsSize_of_missing {set : FieldSet} (fields : Fields σ)
    (missing : ¬set.has itemField) : fieldsSize format set fields = (0, fields) := by
  obtain ⟨item⟩ := fields
  cases item with
  | none => rfl
  | some item => exact if_neg missing

theorem encodeFields_of_missing {set : FieldSet} (fields : Fields σ)
    (missing : ¬set.has itemField) : encodeFields format set fields = ([], fields) := by
  obtain ⟨item⟩ := fields
  cases item with
  | none => rfl
  | some item => exact if_neg missing

/-! ## Payloads, however they are seen -/

section Payload

variable {payload : View (Deferred σ)}

/-- What is seen of a payload, if a field set says that it is present. -/
def payloadView (payload : View (Deferred σ)) : SegmentView (Fields σ) where
  Value := Option payload.Contents
  value place field fields :=
    if place = slot ∧ field = itemField then fields.item.map payload.contents else none
  bytes set fields := if set.has itemField then (fields.item.map payload.bytes).getD [] else []
  forget fields := ⟨fields.item.map payload.forget⟩
  Exact set fields := set.has itemField → ∀ item, fields.item = some item → payload.Exact item
  Valid set fields := set.has itemField → ∃ item, fields.item = some item ∧ payload.Valid item

theorem payloadBytes_of_has {set : FieldSet} {item : Deferred σ} (has : set.has itemField) :
    (payloadView payload).bytes set ⟨some item⟩ = payload.bytes item :=
  if_pos has

theorem payloadBytes_of_missing {set : FieldSet} (fields : Fields σ)
    (missing : ¬set.has itemField) : (payloadView payload).bytes set fields = [] :=
  if_neg missing

theorem payloadValue_of_missing {set : FieldSet} (missing : ¬set.has itemField) (place : Nat)
    {field : UInt64} (member : field ∈ set.presentFields) (fields : Fields σ) :
    (payloadView payload).value place field fields = none := by
  refine if_neg ?_
  rintro ⟨_, rfl⟩
  exact missing (FieldSet.has_of_mem_presentFields member)

/-- Nothing is seen of a payload that is not present. -/
theorem payload_alike_of_missing {set : FieldSet} (fields later : Fields σ)
    (missing : ¬set.has itemField) : (payloadView payload).Alike set fields later where
  value place field member := by
    rw [payloadValue_of_missing missing place member, payloadValue_of_missing missing place member]
  bytes := (payloadBytes_of_missing _ missing).trans (payloadBytes_of_missing _ missing).symm
  exact _ has := absurd has missing
  valid _ has := absurd has missing

theorem payload_alike {item later : Deferred σ} (set : FieldSet)
    (alike : payload.Alike item later) :
    (payloadView payload).Alike set ⟨some item⟩ ⟨some later⟩ where
  value place field _ := by
    change (if place = slot ∧ field = itemField then some (payload.contents later) else none) =
      if place = slot ∧ field = itemField then some (payload.contents item) else none
    rw [alike.contents]
  bytes := by
    by_cases has : set.has itemField
    · rw [payloadBytes_of_has has, payloadBytes_of_has has, alike.bytes]
    · rw [payloadBytes_of_missing _ has, payloadBytes_of_missing _ has]
  exact exact has other found := by
    cases found
    exact alike.exact (exact has item rfl)
  valid valid has := by
    obtain ⟨same, found, itemValid⟩ := valid has
    cases found
    exact ⟨later, rfl, alike.valid itemValid⟩

theorem payload_faithful (items : (Deferred.element format).Faithful payload) :
    (segments format).Faithful (payloadView payload) where
  afterSize set other fields _ otherValid := by
    change (payloadView payload).Alike set fields (fieldsSize format other fields).2
    by_cases has : other.has itemField
    · obtain ⟨item, there, valid⟩ := otherValid has
      obtain rfl : fields = ⟨some item⟩ := congrArg Fields.mk there
      rw [fieldsSize_of_has has]
      exact payload_alike set (items.afterSize item valid)
    · rw [fieldsSize_of_missing fields has]
      exact SegmentView.Alike.refl _ _ _
  afterEncode set other fields _ otherValid := by
    change (payloadView payload).Alike set fields (encodeFields format other fields).2
    by_cases has : other.has itemField
    · obtain ⟨item, there, valid⟩ := otherValid has
      obtain rfl : fields = ⟨some item⟩ := congrArg Fields.mk there
      rw [encodeFields_of_has has]
      exact payload_alike set (items.afterWrite item valid)
    · rw [encodeFields_of_missing fields has]
      exact SegmentView.Alike.refl _ _ _
  size_eq set fields valid exact := by
    change (fieldsSize format set fields).1 = ((payloadView payload).bytes set fields).length
    by_cases has : set.has itemField
    · obtain ⟨item, there, itemValid⟩ := valid has
      obtain rfl : fields = ⟨some item⟩ := congrArg Fields.mk there
      rw [fieldsSize_of_has has, payloadBytes_of_has has]
      exact items.size_eq item itemValid (exact has item rfl)
    · rw [fieldsSize_of_missing fields has, payloadBytes_of_missing fields has]
      rfl
  encode_eq set fields valid exact := by
    change (encodeFields format set fields).1 = (payloadView payload).bytes set fields
    by_cases has : set.has itemField
    · obtain ⟨item, there, itemValid⟩ := valid has
      obtain rfl : fields = ⟨some item⟩ := congrArg Fields.mk there
      rw [encodeFields_of_has has, payloadBytes_of_has has]
      exact items.write_eq item itemValid (exact has item rfl)
    · rw [encodeFields_of_missing fields has, payloadBytes_of_missing fields has]
  forgotten set fields valid := by
    by_cases has : set.has itemField
    · obtain ⟨item, there, itemValid⟩ := valid has
      obtain rfl : fields = ⟨some item⟩ := congrArg Fields.mk there
      obtain ⟨alike, exact⟩ := items.forgotten item itemValid
      refine ⟨payload_alike set alike, ?_⟩
      intro _ other found
      cases found
      exact exact
    · exact ⟨payload_alike_of_missing _ _ has, fun now => absurd now has⟩

/-- The bytes of every payload can stand for it. -/
def Recoverable (payload : View (Deferred σ)) : Prop :=
  ∀ item, payload.Valid item → (payload.bytes item).length ≤ defaultPayloadLimit →
    LengthTag.IsEnvelope (payload.bytes item) ∧
      payload.contents (.raw (payload.bytes item)) = payload.contents item

theorem payload_readable (recoverable : Recoverable payload) :
    (segments format).Readable (payloadView payload) := by
  intro limit place segment set fields target found admits nonempty valid within default
  obtain ⟨rfl, rfl⟩ := singleton_getElem? found
  have has : set.has itemField = true := admits.has_known nonempty
  obtain ⟨item, there, itemValid⟩ := valid has
  obtain rfl : fields = ⟨some item⟩ := congrArg Fields.mk there
  rw [payloadBytes_of_has has] at within ⊢
  obtain ⟨envelope, contents⟩ := recoverable item itemValid (Nat.le_trans within default)
  have filled : (segments format).load set = (do
      let item ← Loader.read Deferred.read
      Loader.update fun _ => ⟨some item⟩) := if_pos has
  refine ⟨⟨some (.raw (payload.bytes item))⟩, ?_, ?_, ?_⟩
  · rw [filled]
    exact Loader.Fills.store (Deferred.read_takes envelope within) target
  · intro field _
    change (if 0 = slot ∧ field = itemField then some _ else none) =
      if 0 = slot ∧ field = itemField then some _ else none
    rw [contents]
  · intro other field different
    have elsewhere : ¬(other = slot ∧ field = itemField) := fun both => different both.1
    exact (if_neg elsewhere).trans (if_neg elsewhere).symm

theorem payload_settled_none (payload : View (Deferred σ)) :
    (segments format).Settled (payloadView payload) ⟨none⟩ where
  size set := by
    change (0, _) = ((if set.has itemField then [] else [] : Bytes).length, _)
    split <;> rfl
  encode set := by
    change ([], _) = (if set.has itemField then [] else [], _)
    split <;> rfl
  exact _ _ _ found := by cases found

/-- Bytes from the wire are written as they are, remember nothing, and count as a payload if they are
a whole object. -/
structure Carries (payload : View (Deferred σ)) : Prop where
  bytes : ∀ bytes, payload.bytes (.raw bytes) = bytes
  exact : ∀ bytes, payload.Exact (.raw bytes)
  valid : ∀ bytes, LengthTag.IsEnvelope bytes → payload.Valid (.raw bytes)

theorem payload_settled_raw (carries : Carries payload) (bytes : Bytes) :
    (segments format).Settled (payloadView payload) ⟨some (.raw bytes)⟩ where
  size set := by
    change fieldsSize format set ⟨some (.raw bytes)⟩ = _
    by_cases has : set.has itemField
    · rw [fieldsSize_of_has has, payloadBytes_of_has has, carries.bytes]
      rfl
    · rw [fieldsSize_of_missing _ has, payloadBytes_of_missing _ has]
      rfl
  encode set := by
    change encodeFields format set ⟨some (.raw bytes)⟩ = _
    by_cases has : set.has itemField
    · rw [encodeFields_of_has has, payloadBytes_of_has has, carries.bytes]
      rfl
    · rw [encodeFields_of_missing _ has, payloadBytes_of_missing _ has]
  exact _ _ _ found := by
    cases found
    exact carries.exact bytes

theorem payload_measured (carries : Carries payload) :
    (segments format).Measured (payloadView payload) where
  wellFormed segment member := by
    obtain rfl := List.mem_singleton.mp member
    exact Segment.wellFormed_make _ _ _ _
  empty := payload_settled_none payload
  load place segment set target cursor filled after found admits settled ran := by
    have ran : loadFields set (target, cursor) = .ok () (filled, after) := ran
    rw [loadFields] at ran
    split at ran
    · rename_i has
      obtain ⟨item, read, rfl⟩ := Loader.store_eq_ok ran
      obtain ⟨bytes, rfl, envelope, inside, moved⟩ := Deferred.read_eq_ok read
      refine ⟨payload_settled_raw carries bytes, fun _ _ => ⟨_, rfl, carries.valid bytes envelope⟩,
        ⟨bytes.length, inside, moved, fun _ => ?_⟩, fun _ _ _ different otherFound _ =>
          absurd (slot_eq_of_single found otherFound) different⟩
      rw [payloadBytes_of_has has, carries.bytes]
    · rename_i missing
      cases ran
      refine ⟨settled, fun _ has => absurd has missing,
        ⟨0, Nat.zero_le _, rfl, fun _ => ?_⟩, fun _ _ _ different otherFound _ =>
          absurd (slot_eq_of_single found otherFound) different⟩
      exact Nat.le_of_eq (congrArg List.length (payloadBytes_of_missing _ missing))

end Payload

/-! ## Payloads that may still be bytes -/

theorem bytesOf_of_has {set : FieldSet} {item : Deferred σ} (has : set.has itemField) :
    bytesOf format inner set ⟨some item⟩ = (Deferred.view format inner).bytes item :=
  payloadBytes_of_has has

theorem alike_item {item later : Deferred σ} (set : FieldSet)
    (alike : (Deferred.view format inner).Alike item later) :
    (fieldView format inner).Alike set ⟨some item⟩ ⟨some later⟩ :=
  payload_alike set alike

theorem segments_faithful (objects : format.Faithful inner) :
    (segments format).Faithful (fieldView format inner) :=
  payload_faithful (Deferred.element_faithful objects)

theorem segments_readable (objects : format.Readable inner) :
    (segments format).Readable (fieldView format inner) :=
  payload_readable fun _ valid within => Deferred.alike_raw objects valid within

theorem view_carries : Carries (Deferred.view format inner) where
  bytes _ := rfl
  exact _ := trivial
  valid _ envelope := envelope

theorem settled_none : (segments format).Settled (fieldView format inner) ⟨none⟩ :=
  payload_settled_none (Deferred.view format inner)

theorem settled_raw (bytes : Bytes) :
    (segments format).Settled (fieldView format inner) ⟨some (.raw bytes)⟩ :=
  payload_settled_raw view_carries bytes

theorem segments_measured : (segments format).Measured (fieldView format inner) :=
  payload_measured view_carries

end Optional

end FieldWire
