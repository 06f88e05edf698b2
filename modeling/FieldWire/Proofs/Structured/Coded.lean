import FieldWire.Proofs.Messages

/-!
# Structures that are written value by value

The bytes of a field set are those of the values of its fields, one after the other, if every value
has a code of its own.  Then the body of a structure is determined by its presence and its values,
and so is the number of bytes of each block.
-/

set_option autoImplicit false

namespace FieldWire

variable {φ ν : Type}

/-- The values of some fields of a slot, one after the other. -/
def fieldCodes (code : Nat → UInt64 → ν → Bytes) (given : Nat → UInt64 → ν) (slot : Nat)
    (fields : List UInt64) : Bytes :=
  fields.flatMap fun field => code slot field (given slot field)

/-- The body of a structure with the given values. -/
def codedBody (code : Nat → UInt64 → ν → Bytes) (given : Nat → UInt64 → ν) (presence : Presence) :
    Bytes :=
  presence.entries.flatMap fun entry =>
    entry.1.encode ++ fieldCodes code given entry.2 entry.1.presentFields

theorem fieldCodes_append (code : Nat → UInt64 → ν → Bytes) (given : Nat → UInt64 → ν) (slot : Nat)
    (first second : List UInt64) :
    fieldCodes code given slot (first ++ second) =
      fieldCodes code given slot first ++ fieldCodes code given slot second :=
  List.flatMap_append

theorem codedBody_congr {code : Nat → UInt64 → ν → Bytes} {given other : Nat → UInt64 → ν}
    {presence : Presence}
    (same : ∀ slot set, presence[slot]? = some set → ∀ field ∈ set.presentFields,
      given slot field = other slot field) :
    codedBody code given presence = codedBody code other presence := by
  apply List.flatMap_congr
  rintro ⟨set, slot⟩ member
  obtain ⟨there, _⟩ := (Presence.mem_entries_iff _ _ _).mp member
  refine congrArg (set.encode ++ ·) (List.flatMap_congr fun field present => ?_)
  exact congrArg (code slot field) (same slot set there field present)

/-! ## Sizes -/

/-- The number of bytes of the block of a field set. -/
def slotSize (code : Nat → UInt64 → ν → Bytes) (given : Nat → UInt64 → ν) (slot : Nat)
    (set : FieldSet) : Nat :=
  if set.bits = 0 then 0
  else set.encodedSize + (fieldCodes code given slot set.presentFields).length

theorem length_codedBody (code : Nat → UInt64 → ν → Bytes) (given : Nat → UInt64 → ν)
    (presence : Presence) :
    (codedBody code given presence).length =
      (presence.zipIdx.map fun entry => slotSize code given entry.2 entry.1).sum := by
  rw [codedBody, Presence.entries]
  induction presence.zipIdx with
  | nil => rfl
  | cons entry rest ih =>
    rw [List.map_cons, List.sum_cons, ← ih, slotSize]
    by_cases empty : entry.1.bits = 0
    · rw [List.filter_cons_of_neg (by simp [FieldSet.isEmpty, empty]), if_pos empty, Nat.zero_add]
    · rw [List.filter_cons_of_pos (by simp [FieldSet.isEmpty, empty]), if_neg empty,
        List.flatMap_cons, List.length_append, List.length_append, FieldSet.length_encode]

/-! ## Formats -/

namespace SegmentFormat

/-- Every field set is written value by value.  `State` is what holds of the fields of an object,
and looking at them keeps it and every value. -/
structure Writes (format : SegmentFormat φ) (value : Nat → UInt64 → φ → ν)
    (code : Nat → UInt64 → ν → Bytes) (State : φ → Prop) : Prop where
  afterSize : ∀ set fields, State fields → State (format.size set fields).2 ∧
    ∀ slot field, value slot field (format.size set fields).2 = value slot field fields
  afterEncode : ∀ set fields, State fields → State (format.encode set fields).2 ∧
    ∀ slot field, value slot field (format.encode set fields).2 = value slot field fields
  encode_eq : ∀ (slot : Nat) (segment : Segment) set fields, format.layout[slot]? = some segment →
    segment.Admits set → set.bits ≠ 0 → State fields → (format.encode set fields).1 =
      fieldCodes code (fun slot field => value slot field fields) slot set.presentFields
  size_eq : ∀ (slot : Nat) (segment : Segment) set fields, format.layout[slot]? = some segment →
    segment.Admits set → set.bits ≠ 0 → State fields →
      (format.size set fields).1 = (format.encode set fields).1.length

variable {format : SegmentFormat φ} {value : Nat → UInt64 → φ → ν}
  {code : Nat → UInt64 → ν → Bytes} {State : φ → Prop}

/-- What is seen of fields that are written value by value. -/
def writtenView (format : SegmentFormat φ) (value : Nat → UInt64 → φ → ν) (State : φ → Prop) :
    SegmentView φ :=
  SegmentView.plain value (fun set fields => (format.encode set fields).1) fun set fields =>
    State fields ∧ ∃ (slot : Nat) (segment : Segment),
      format.layout[slot]? = some segment ∧ segment.Admits set ∧ set.bits ≠ 0

theorem Writes.alike (writes : format.Writes value code State) {set : FieldSet} {fields later : φ}
    (valid : (format.writtenView value State).Valid set fields)
    (same : State later ∧ ∀ slot field, value slot field later = value slot field fields) :
    (format.writtenView value State).Alike set fields later := by
  obtain ⟨state, slot, segment, found, admits, nonempty⟩ := valid
  refine ⟨fun slot field _ => same.2 slot field, ?_, id,
    fun _ => ⟨same.1, slot, segment, found, admits, nonempty⟩⟩
  change (format.encode set later).1 = (format.encode set fields).1
  rw [writes.encode_eq slot segment set later found admits nonempty same.1,
    writes.encode_eq slot segment set fields found admits nonempty state]
  simp only [same.2]

theorem Writes.faithful (writes : format.Writes value code State) :
    format.Faithful (format.writtenView value State) where
  afterSize _ other fields valid _ := writes.alike valid (writes.afterSize other fields valid.1)
  afterEncode _ other fields valid _ := writes.alike valid (writes.afterEncode other fields valid.1)
  size_eq set fields valid _ := by
    obtain ⟨state, slot, segment, found, admits, nonempty⟩ := valid
    exact writes.size_eq slot segment set fields found admits nonempty state
  encode_eq _ _ _ _ := rfl
  forgotten _ _ _ := ⟨SegmentView.Alike.refl _ _ _, trivial⟩

theorem Writes.bodyOf_eq (writes : format.Writes value code State) {presence : Presence} {fields : φ}
    (fits : presence.Fits format.layout) (state : State fields) :
    Structured.bodyOf format presence fields =
      codedBody code (fun slot field => value slot field fields) presence := by
  rw [Structured.bodyOf, blocksOf, ← Presence.map_entries, List.flatMap_map]
  apply List.flatMap_congr
  rintro ⟨set, slot⟩ member
  obtain ⟨there, nonempty⟩ := (Presence.mem_entries_iff _ _ _).mp member
  obtain ⟨segment, found, admits⟩ := Presence.forall₂_getElem? fits there
  exact congrArg (set.encode ++ ·)
    (writes.encode_eq slot segment set fields found admits nonempty state)

end SegmentFormat

namespace Structured

/-- What is seen of structures that are written value by value. -/
def writtenView (format : SegmentFormat φ) (value : Nat → UInt64 → φ → ν) (State : φ → Prop) :
    View (Structured φ) :=
  Structured.view format.layout (format.writtenView value State)

variable {format : SegmentFormat φ} {value : Nat → UInt64 → φ → ν}
  {code : Nat → UInt64 → ν → Bytes} {State : φ → Prop} {object : Structured φ}

theorem writtenView_valid (fits : object.presence.Fits format.layout) (state : State object.fields) :
    (writtenView format value State).Valid object := by
  refine ⟨fits, fun set member => ?_⟩
  obtain ⟨inside, nonempty⟩ := (Presence.mem_written_iff _ _).mp member
  obtain ⟨slot, segment, _, found, admits⟩ := fits.exists_slot inside
  exact ⟨state, slot, segment, found, admits, nonempty⟩

theorem writtenView_bytes (writes : format.Writes value code State)
    (fits : object.presence.Fits format.layout) (state : State object.fields) :
    (writtenView format value State).bytes object =
      codedBody code (fun slot field => value slot field object.fields) object.presence :=
  writes.bodyOf_eq fits state

theorem writtenView_exact_iff : (writtenView format value State).Exact object ↔
    Remembers object.memo ((writtenView format value State).bytes object) :=
  and_iff_left fun _ _ => trivial

theorem writtenView_exact_of_forget (writes : format.Writes value code State)
    (fits : object.presence.Fits format.layout) (state : State object.fields)
    (remembered : ∀ size, object.memo = some size → size = (object.forget.size format).1) :
    (writtenView format value State).Exact object := by
  have forgotten : object.forget.presence.Fits format.layout := fits
  have exact : (writtenView format value State).Exact object.forget :=
    writtenView_exact_iff.mpr (remembers_none _)
  have fresh := (Structured.faithful writes.faithful).size_eq object.forget
    (writtenView_valid forgotten state) exact
  exact writtenView_exact_iff.mpr fun size found => (remembered size found).trans fresh

end Structured

/-! ## Blobs -/

/-- The content of a field, if it is there, as a blob. -/
def blobCode (_ : Nat) (_ : UInt64) (content : Option Bytes) : Bytes :=
  (content.map Write.blob).getD []

/-- The content is there, and its blob keeps to a limit. -/
def IsContent (limit : Nat) (_ : Nat) (_ : UInt64) (content : Option Bytes) : Prop :=
  ∃ bytes, content = some bytes ∧ (Write.blob bytes).length ≤ limit

namespace SegmentFormat

/-- One segment of blobs without required fields. -/
def ofBlobs (known : UInt64) : SegmentFormat (UInt64 → Bytes) :=
  SegmentFormat.ofPlain
    [Segment.make .list 0 0 known]
    (fun _ => [])
    (fun set fields => (set.presentFields.flatMap fun field => Write.blob (fields field)).length)
    (fun set fields => set.presentFields.flatMap fun field => Write.blob (fields field))
    (fun set => set.presentFields.forM fun field => do
      let bytes ← Loader.read Reader.blob
      Loader.update fun fields other => if other = field then bytes else fields other)
    (fun left right => (fieldsOf known).all fun field => left field == right field)

theorem ofBlobs_writes (known : UInt64) :
    (ofBlobs known).Writes (fun _ field fields => some (fields field)) blobCode fun _ => True where
  afterSize _ _ _ := ⟨trivial, fun _ _ => rfl⟩
  afterEncode _ _ _ := ⟨trivial, fun _ _ => rfl⟩
  encode_eq _ _ _ _ _ _ _ _ := rfl
  size_eq _ _ _ _ _ _ _ _ := rfl

end SegmentFormat

namespace FrameworkError

/-- The message as the content of its field. -/
def content (place : Nat) (_ : UInt64) (fields : Fields) : Option Bytes :=
  if place = slot then fields.message.map Text.bytes else none

theorem presentFields_of_admits {segment : Segment} {set : FieldSet} {place : Nat}
    (found : segments.layout[place]? = some segment) (admits : segment.Admits set) :
    set.presentFields = [messageField].filter set.has := by
  obtain ⟨rfl, rfl⟩ := singleton_getElem? found
  rw [FieldSet.presentFields, ← and_eq_self_of_and_not admits.known, FieldSet.fieldsOf_bits_and]
  rfl

theorem segments_writes : segments.Writes content blobCode fun _ => True where
  afterSize _ _ _ := ⟨trivial, fun _ _ => rfl⟩
  afterEncode _ _ _ := ⟨trivial, fun _ _ => rfl⟩
  encode_eq place segment set fields found admits nonempty _ := by
    obtain ⟨rfl, rfl⟩ := singleton_getElem? found
    have has : set.has messageField = true := admits.has_known nonempty
    rw [presentFields_of_admits found admits, List.filter_cons_of_pos has]
    change ((fields.shown set).map Write.text).getD [] = _
    rw [Fields.shown, if_pos has]
    obtain ⟨message⟩ := fields
    cases message <;> simp [fieldCodes, blobCode, content, slot, Write.text]
  size_eq _ _ set fields _ _ _ _ := fieldsSize_eq set fields

end FrameworkError

end FieldWire
