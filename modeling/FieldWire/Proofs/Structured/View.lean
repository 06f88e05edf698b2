import FieldWire.Proofs.Sequence
import FieldWire.Proofs.Structured

/-!
# Structured objects are faithful and readable

The view of a structure is made from a view of its fields, one field set at a time.  A structure
inherits its laws from those of its segments; that it can be read back is the round trip of
structures, for values that carry what their field sets announce.
-/

set_option autoImplicit false

namespace FieldWire

/-- What is seen of the fields of a structure. -/
structure SegmentView (φ : Type) where
  /-- What is compared. -/
  Value : Type
  /-- The value of the field with a given mask in a given slot. -/
  value : Nat → UInt64 → φ → Value
  /-- The bytes of the values of a field set, worked out anew. -/
  bytes : FieldSet → φ → Bytes
  /-- The fields with nothing remembered. -/
  forget : φ → φ
  /-- Whether every size remembered in the values of a field set is right. -/
  Exact : FieldSet → φ → Prop
  /-- What holds of the values of a field set that were set or read. -/
  Valid : FieldSet → φ → Prop

namespace SegmentView

variable {φ : Type}

/-- Later fields in which the same is seen of one field set. -/
structure Alike (view : SegmentView φ) (set : FieldSet) (fields later : φ) : Prop where
  value : ∀ slot, ∀ field ∈ set.presentFields, view.value slot field later = view.value slot field fields
  bytes : view.bytes set later = view.bytes set fields
  exact : view.Exact set fields → view.Exact set later
  valid : view.Valid set fields → view.Valid set later

theorem Alike.refl (view : SegmentView φ) (set : FieldSet) (fields : φ) :
    view.Alike set fields fields :=
  ⟨fun _ _ _ => rfl, rfl, id, id⟩

theorem Alike.trans {view : SegmentView φ} {set : FieldSet} {first second third : φ}
    (before : view.Alike set first second) (after : view.Alike set second third) :
    view.Alike set first third where
  value slot field member := (after.value slot field member).trans (before.value slot field member)
  bytes := after.bytes.trans before.bytes
  exact exact := after.exact (before.exact exact)
  valid valid := after.valid (before.valid valid)

/-- The bytes of the field sets that are written. -/
def bodyOf (view : SegmentView φ) (presence : Presence) (fields : φ) : Bytes :=
  presence.written.flatMap fun set => set.encode ++ view.bytes set fields

/-- The field sets, each with the values of its present fields. -/
def contentsOf (view : SegmentView φ) (presence : Presence) (fields : φ) :
    List (FieldSet × List view.Value) :=
  presence.zipIdx.map fun entry =>
    (entry.1, entry.1.presentFields.map fun field => view.value entry.2 field fields)

theorem bodyOf_congr {view : SegmentView φ} {presence : Presence} {fields later : φ}
    (same : ∀ set ∈ presence.written, view.bytes set later = view.bytes set fields) :
    view.bodyOf presence later = view.bodyOf presence fields := by
  apply List.flatMap_congr
  intro set member
  rw [same set member]

theorem contentsOf_congr {view : SegmentView φ} {presence : Presence} {fields later : φ}
    (same : ∀ slot set, presence[slot]? = some set → ∀ field ∈ set.presentFields,
      view.value slot field later = view.value slot field fields) :
    view.contentsOf presence later = view.contentsOf presence fields := by
  apply List.map_congr_left
  intro entry member
  have there := List.mem_zipIdx_iff_getElem?.mp member
  congr 1
  apply List.map_congr_left
  intro field inside
  exact same entry.2 entry.1 there field inside

/-- Equal contents are equal field sets with equal values of their present fields. -/
theorem contentsOf_inj {view : SegmentView φ} {presence other : Presence} {fields later : φ}
    (same : view.contentsOf other later = view.contentsOf presence fields) :
    other = presence ∧ ∀ slot set, presence[slot]? = some set → ∀ field ∈ set.presentFields,
      view.value slot field later = view.value slot field fields := by
  have sets : ∀ (presence : Presence) (fields : φ),
      (view.contentsOf presence fields).map Prod.fst = presence := by
    intro presence fields
    rw [contentsOf, List.map_map]
    exact List.zipIdx_map_fst 0 presence
  obtain rfl : other = presence := by
    rw [← sets other later, same, sets]
  refine ⟨rfl, fun slot set there field member => ?_⟩
  have inside : (set, slot) ∈ other.zipIdx := List.mem_zipIdx_iff_getElem?.mpr there
  have entry := List.map_inj_left.mp same (set, slot) inside
  exact List.map_inj_left.mp (congrArg Prod.snd entry) field member

end SegmentView

namespace Presence

theorem mem_written_iff (presence : Presence) (set : FieldSet) :
    set ∈ presence.written ↔ set ∈ presence ∧ set.bits ≠ 0 := by
  rw [written, List.mem_filter]
  simp [FieldSet.isEmpty]

end Presence

namespace SegmentFormat

variable {φ : Type}

/-- Sizes and bytes are those of the view, and looking at a field set changes nothing that is seen. -/
structure Faithful (format : SegmentFormat φ) (view : SegmentView φ) : Prop where
  afterSize : ∀ set other fields, view.Valid set fields → view.Valid other fields →
    view.Alike set fields (format.size other fields).2
  afterEncode : ∀ set other fields, view.Valid set fields → view.Valid other fields →
    view.Alike set fields (format.encode other fields).2
  size_eq : ∀ set fields, view.Valid set fields → view.Exact set fields →
    (format.size set fields).1 = (view.bytes set fields).length
  encode_eq : ∀ set fields, view.Valid set fields → view.Exact set fields →
    (format.encode set fields).1 = view.bytes set fields
  forgotten : ∀ set fields, view.Valid set fields →
    view.Alike set fields (view.forget fields) ∧ view.Exact set (view.forget fields)

/-- Reading the bytes of a field set gives the values of its present fields back and leaves the
fields of the other slots alone. -/
def Readable (format : SegmentFormat φ) (view : SegmentView φ) : Prop :=
  ∀ limit (slot : Nat) (segment : Segment) set fields target,
    format.layout[slot]? = some segment → segment.Admits set → set.bits ≠ 0 →
    view.Valid set fields → (view.bytes set fields).length ≤ limit → limit ≤ defaultPayloadLimit →
      ∃ filled, Loader.Fills (format.load set) limit (view.bytes set fields) target () filled ∧
        (∀ field ∈ set.presentFields,
          view.value slot field filled = view.value slot field fields) ∧
        ∀ other field, other ≠ slot → view.value other field filled = view.value other field target

variable {format : SegmentFormat φ} {view : SegmentView φ}

/-- The values that the view knows are steady, as long as nothing wrong is remembered. -/
theorem steady_of_faithful (faithful : format.Faithful view) :
    format.Steady fun set fields => view.Valid set fields ∧ view.Exact set fields where
  afterSize set other fields source otherSource := by
    obtain ⟨valid, exact⟩ := source
    have alike := faithful.afterSize set other fields valid otherSource.1
    refine ⟨⟨alike.valid valid, alike.exact exact⟩, ?_⟩
    rw [faithful.encode_eq _ _ (alike.valid valid) (alike.exact exact), alike.bytes,
      faithful.encode_eq _ _ valid exact]
  afterEncode set other fields source otherSource := by
    obtain ⟨valid, exact⟩ := source
    have alike := faithful.afterEncode set other fields valid otherSource.1
    refine ⟨⟨alike.valid valid, alike.exact exact⟩, ?_⟩
    rw [faithful.encode_eq _ _ (alike.valid valid) (alike.exact exact), alike.bytes,
      faithful.encode_eq _ _ valid exact]
  size_eq slot segment set fields _ _ _ source := by
    rw [faithful.size_eq _ _ source.1 source.2, faithful.encode_eq _ _ source.1 source.2]

/-- If they are short enough to be read, they are reversible. -/
theorem reversible_of_laws (faithful : format.Faithful view) (readable : format.Readable view)
    {limit : Nat} (default : limit ≤ defaultPayloadLimit) :
    format.Reversible view.value limit
      (fun set fields => (view.Valid set fields ∧ view.Exact set fields) ∧
        (view.bytes set fields).length ≤ limit)
      (fun _ => True) where
  afterSize set other fields source otherSource := by
    have alike := faithful.afterSize set other fields source.1.1 otherSource.1.1
    have steady := (steady_of_faithful faithful).afterSize set other fields source.1 otherSource.1
    refine ⟨⟨steady.1, ?_⟩, steady.2⟩
    rw [alike.bytes]
    exact source.2
  afterEncode set other fields source otherSource := by
    have alike := faithful.afterEncode set other fields source.1.1 otherSource.1.1
    have steady := (steady_of_faithful faithful).afterEncode set other fields source.1 otherSource.1
    refine ⟨⟨steady.1, ?_⟩, steady.2⟩
    rw [alike.bytes]
    exact source.2
  size_eq slot segment set fields found admits nonempty source :=
    (steady_of_faithful faithful).size_eq slot segment set fields found admits nonempty source.1
  load slot segment set fields target found admits nonempty source _ tail pos := by
    obtain ⟨⟨valid, exact⟩, short⟩ := source
    obtain ⟨filled, fills, restored, framed⟩ :=
      readable limit slot segment set fields target found admits nonempty valid short default
    rw [faithful.encode_eq _ _ valid exact]
    exact ⟨filled, fills tail pos, trivial, restored, framed⟩
  target_empty := trivial

end SegmentFormat

namespace Structured

variable {φ : Type} {format : SegmentFormat φ} {fieldView : SegmentView φ}

/-- What is seen of a structure: which fields are present, and their values. -/
def view (layout : Layout) (fieldView : SegmentView φ) : View (Structured φ) where
  Contents := List (FieldSet × List fieldView.Value)
  contents object := fieldView.contentsOf object.presence object.fields
  bytes object := fieldView.bodyOf object.presence object.fields
  forget object := ⟨object.presence, none, fieldView.forget object.fields⟩
  Exact object := Remembers object.memo (fieldView.bodyOf object.presence object.fields) ∧
    ∀ set ∈ object.presence.written, fieldView.Exact set object.fields
  Valid object := object.presence.Fits layout ∧
    ∀ set ∈ object.presence.written, fieldView.Valid set object.fields

/-- Later fields of a structure in which the same is seen of every field set that is written. -/
theorem alike_fields {layout : Layout} {presence : Presence} {fields later : φ} (memo : Option Nat)
    (alike : ∀ set ∈ presence.written, fieldView.Alike set fields later) :
    (Structured.view layout fieldView).Alike ⟨presence, memo, fields⟩ ⟨presence, memo, later⟩ := by
  have bytes : fieldView.bodyOf presence later = fieldView.bodyOf presence fields :=
    SegmentView.bodyOf_congr fun set member => (alike set member).bytes
  have contents : fieldView.contentsOf presence later = fieldView.contentsOf presence fields := by
    apply SegmentView.contentsOf_congr
    intro slot set there field member
    have nonempty : set.bits ≠ 0 := by
      intro none
      rw [FieldSet.presentFields, none] at member
      cases member
    have written := (Presence.mem_written_iff _ _).mpr ⟨List.mem_of_getElem? there, nonempty⟩
    exact (alike set written).value slot field member
  refine ⟨contents, bytes, ?_, ?_⟩
  · rintro ⟨remembers, exact⟩
    have later : Remembers memo (fieldView.bodyOf presence later) := by
      rw [bytes]
      exact remembers
    exact ⟨later, fun set member => (alike set member).exact (exact set member)⟩
  · rintro ⟨fits, valid⟩
    exact ⟨fits, fun set member => (alike set member).valid (valid set member)⟩

/-! ## Faithful -/

theorem blocksSize_alike (faithful : format.Faithful fieldView) {sets : List FieldSet} {fields : φ}
    (valid : ∀ set ∈ sets, fieldView.Valid set fields) :
    ∀ set ∈ sets, fieldView.Alike set fields (format.blocksSize sets fields).2 := by
  apply SegmentFormat.blocksSize_preserves
    (P := fun later => ∀ set ∈ sets, fieldView.Alike set fields later)
  · intro set member later alike other otherMember
    have still := fun other member => (alike other member).valid (valid other member)
    exact (alike other otherMember).trans (faithful.afterSize other set later
      (still other otherMember) (still set member))
  · intro set _
    exact SegmentView.Alike.refl _ _ _

theorem blocks_alike (faithful : format.Faithful fieldView) {sets : List FieldSet} {fields : φ}
    (valid : ∀ set ∈ sets, fieldView.Valid set fields) :
    ∀ set ∈ sets, fieldView.Alike set fields (format.blocks sets fields).2 := by
  apply SegmentFormat.blocks_preserves
    (P := fun later => ∀ set ∈ sets, fieldView.Alike set fields later)
  · intro set member later alike other otherMember
    have still := fun other member => (alike other member).valid (valid other member)
    exact (alike other otherMember).trans (faithful.afterEncode other set later
      (still other otherMember) (still set member))
  · intro set _
    exact SegmentView.Alike.refl _ _ _

/-- When nothing wrong is remembered, the bytes that are written are those of the view. -/
theorem bodyOf_eq (faithful : format.Faithful fieldView) {presence : Presence} {fields : φ}
    (valid : ∀ set ∈ presence.written, fieldView.Valid set fields)
    (exact : ∀ set ∈ presence.written, fieldView.Exact set fields) :
    Structured.bodyOf format presence fields = fieldView.bodyOf presence fields := by
  apply List.flatMap_congr
  intro set member
  rw [faithful.encode_eq set fields (valid set member) (exact set member)]

theorem encode_of_exact (faithful : format.Faithful fieldView) {object : Structured φ}
    (valid : (Structured.view format.layout fieldView).Valid object)
    (exact : (Structured.view format.layout fieldView).Exact object) :
    (object.size format).1 = (fieldView.bodyOf object.presence object.fields).length ∧
      (object.encode format).1 = Write.blob (fieldView.bodyOf object.presence object.fields) := by
  have body := bodyOf_eq faithful valid.2 exact.2
  have sources : ∀ set ∈ object.presence, set.bits ≠ 0 →
      fieldView.Valid set object.fields ∧ fieldView.Exact set object.fields := by
    intro set member nonempty
    have written := (Presence.mem_written_iff _ _).mpr ⟨member, nonempty⟩
    exact ⟨valid.2 set written, exact.2 set written⟩
  rw [← body]
  apply encode_of_steady (SegmentFormat.steady_of_faithful faithful) valid.1 sources
  rw [body]
  exact exact.1

theorem size_alike (faithful : format.Faithful fieldView) {object : Structured φ}
    (valid : (Structured.view format.layout fieldView).Valid object) :
    (Structured.view format.layout fieldView).Alike object (object.size format).2 := by
  obtain ⟨presence, memo, fields⟩ := object
  cases memo with
  | some size => exact View.Alike.refl _ _
  | none =>
    have kept : (Structured.view format.layout fieldView).Alike ⟨presence, none, fields⟩
        ⟨presence, none, (format.blocksSize presence.written fields).2⟩ :=
      alike_fields none (blocksSize_alike faithful valid.2)
    refine ⟨kept.contents, kept.bytes, ?_, kept.valid⟩
    intro exact
    have sized : (format.blocksSize presence.written fields).1 =
        (fieldView.bodyOf presence fields).length := (encode_of_exact faithful valid exact).1
    have bytes : fieldView.bodyOf presence (format.blocksSize presence.written fields).2 =
        fieldView.bodyOf presence fields := kept.bytes
    have remembers : Remembers (some (format.blocksSize presence.written fields).1)
        (fieldView.bodyOf presence (format.blocksSize presence.written fields).2) := by
      rw [remembers_some_iff, bytes]
      exact sized
    exact ⟨remembers, (kept.exact exact).2⟩

theorem encode_alike (faithful : format.Faithful fieldView) {object : Structured φ}
    (valid : (Structured.view format.layout fieldView).Valid object) :
    (Structured.view format.layout fieldView).Alike object (object.encode format).2 := by
  have sized := size_alike faithful valid
  exact sized.trans (alike_fields (object.size format).2.memo
    (blocks_alike faithful (sized.valid valid).2))

theorem faithful (segments : format.Faithful fieldView) :
    (Structured.format format).Faithful (Structured.view format.layout fieldView) where
  afterSize object valid := size_alike segments valid
  afterEncode object valid := encode_alike segments valid
  size_eq object valid exact := (encode_of_exact segments valid exact).1
  encode_eq object valid exact := (encode_of_exact segments valid exact).2
  forgotten object valid := by
    have forgotten := fun set member => segments.forgotten set object.fields (valid.2 set member)
    have kept : (Structured.view format.layout fieldView).Alike
        ⟨object.presence, none, object.fields⟩
        ⟨object.presence, none, fieldView.forget object.fields⟩ :=
      alike_fields none fun set member => (forgotten set member).1
    have exact : (Structured.view format.layout fieldView).Exact
        ⟨object.presence, none, fieldView.forget object.fields⟩ :=
      ⟨remembers_none _, fun set member => (forgotten set member).2⟩
    exact ⟨⟨kept.contents, kept.bytes, fun _ => exact, kept.valid⟩, exact⟩

/-! ## Readable -/

theorem length_bytes_le (view : SegmentView φ) {presence : Presence} {fields : φ} {set : FieldSet}
    (member : set ∈ presence.written) :
    (view.bytes set fields).length ≤ (view.bodyOf presence fields).length := by
  have inside : set.encode ++ view.bytes set fields ∈
      presence.written.map fun set => set.encode ++ view.bytes set fields :=
    List.mem_map.mpr ⟨set, member, rfl⟩
  have block : (set.encode ++ view.bytes set fields).length ≤
      (view.bodyOf presence fields).length := (List.sublist_flatten_of_mem inside).length_le
  rw [List.length_append] at block
  omega

theorem readable (segments : format.Faithful fieldView) (loads : format.Readable fieldView)
    (distinct : format.layout.Distinct) :
    (Structured.format format).Readable (Structured.view format.layout fieldView) := by
  intro limit object valid within default tail pos
  -- The bytes are those of the object with nothing remembered, which is reversible.
  obtain ⟨alike, exact⟩ := (faithful segments).forgotten object valid
  have still := alike.valid valid
  let fields := fieldView.forget object.fields
  have written : bodyOf format object.presence fields = fieldView.bodyOf object.presence fields :=
    bodyOf_eq segments still.2 exact.2
  have body : bodyOf format object.presence fields = fieldView.bodyOf object.presence object.fields :=
    written.trans alike.bytes
  have short : (bodyOf format object.presence fields).length ≤ limit := by
    rw [body]
    exact within
  have small := lt_of_le_default short default
  have sources : ∀ set ∈ object.presence, set.bits ≠ 0 →
      (fieldView.Valid set fields ∧ fieldView.Exact set fields) ∧
        (fieldView.bytes set fields).length ≤ limit := by
    intro set member nonempty
    have inside := (Presence.mem_written_iff _ _).mpr ⟨member, nonempty⟩
    have fits : (fieldView.bytes set fields).length ≤
        (fieldView.bodyOf object.presence fields).length := length_bytes_le fieldView inside
    rw [← written] at fits
    exact ⟨⟨still.2 set inside, exact.2 set inside⟩, Nat.le_trans fits short⟩
  obtain ⟨filled, ran, restored⟩ :=
    load_of_reversible (SegmentFormat.reversible_of_laws segments loads default) distinct valid.1
      sources short small tail pos
  rw [body] at ran
  refine ⟨_, Loader.toReader_of_ok ran, ?_⟩
  exact (SegmentView.contentsOf_congr restored).trans alike.contents

end Structured

end FieldWire
