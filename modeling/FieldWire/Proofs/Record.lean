import FieldWire.Record
import FieldWire.Proofs.Structured.Fields
import Mathlib.Data.List.Sort

/-!
# Records

A record has the fields of its table, each with a value of its kind.  If the table lists the fields of
every segment in ascending order, a block is read field by field into the places that the table gives
them.
-/

set_option autoImplicit false

namespace FieldWire

namespace Record

/-! ## Tables -/

/-- The fields of each segment are in ascending order, at positions that a segment has. -/
structure Table.Ordered (table : Table) : Prop where
  ascending : ∀ spec ∈ table, (spec.fields.map FieldSpec.position).Pairwise (· < ·)
  inside : ∀ spec ∈ table, ∀ field ∈ spec.fields, field.position < fieldsPerSegment

/-- The kind of the field with a mask, if the slot has one. -/
def Table.kindAt? (table : Table) (slot : Nat) (mask : UInt64) : Option FieldKind :=
  table[slot]?.bind fun spec =>
    (spec.fields.find? fun field => fieldBit field.position == mask).map FieldSpec.kind

theorem testBit_maskOf {fields : List FieldSpec}
    (inside : ∀ field ∈ fields, field.position < fieldsPerSegment) (position : Nat) :
    (maskOf fields).toNat.testBit (firstFieldBit + position) =
      fields.any fun field => field.position == position := by
  have all : ∀ mask : UInt64,
      (fields.foldl (fun mask field => mask ||| fieldBit field.position) mask).toNat.testBit
        (firstFieldBit + position) =
      (mask.toNat.testBit (firstFieldBit + position) ||
        fields.any fun field => field.position == position) := by
    induction fields with
    | nil => exact fun mask => (Bool.or_false _).symm
    | cons field rest ih =>
      intro mask
      have bit : (fieldBit field.position).toNat.testBit (firstFieldBit + position) =
          (field.position == position) := by
        rw [toNat_fieldBit (inside field List.mem_cons_self), Nat.testBit_two_pow]
        simp [Bool.beq_eq_decide_eq]
      rw [List.foldl_cons, ih fun other member => inside other (List.mem_cons_of_mem _ member),
        UInt64.toNat_or, Nat.testBit_or, bit, List.any_cons, Bool.or_assoc]
  exact (all 0).trans (by simp)

variable {table : Table} {slot : Nat} {spec : SegmentSpec}

/-- The known fields of a segment are those of the table. -/
theorem Table.Ordered.fieldsOf_known (ordered : table.Ordered) (member : spec ∈ table) :
    fieldsOf spec.segment.known = (spec.fields.map FieldSpec.position).map fieldBit := by
  have inside := ordered.inside spec member
  have required : ∀ field ∈ spec.fields.filter (·.required), field.position < fieldsPerSegment :=
    fun field member => inside field (List.mem_filter.mp member).1
  rw [fieldsOf_eq_map]
  refine congrArg (List.map fieldBit) ?_
  refine (List.pairwise_lt_range.filter _).eq_of_mem_iff (ordered.ascending spec member) ?_
  intro position
  have known : spec.segment.known.toNat.testBit (firstFieldBit + position) =
      spec.fields.any fun field => field.position == position := by
    change (_ &&& presenceMask).toNat.testBit _ = _
    rw [testBit_and_presenceMask, UInt64.toNat_or, Nat.testBit_or, testBit_maskOf inside,
      testBit_maskOf required]
    rw [Bool.eq_iff_iff, Bool.or_eq_true, List.any_eq_true, List.any_eq_true]
    refine or_iff_left_iff_imp.mpr ?_
    rintro ⟨field, member, here⟩
    exact ⟨field, (List.mem_filter.mp member).1, here⟩
  simp only [List.mem_filter, List.mem_range, known, List.any_eq_true, beq_iff_eq, List.mem_map]
  constructor
  · exact fun both => both.2
  · rintro ⟨field, member, rfl⟩
    exact ⟨inside field member, field, member, rfl⟩

theorem Table.Ordered.kindAt?_of_mem (ordered : table.Ordered) (found : table[slot]? = some spec)
    {field : FieldSpec} (member : field ∈ spec.fields) :
    table.kindAt? slot (fieldBit field.position) = some field.kind := by
  have there := List.mem_of_getElem? found
  have inside := ordered.inside spec there
  have distinct : (spec.fields.map FieldSpec.position).Nodup :=
    (ordered.ascending spec there).imp Nat.ne_of_lt
  rw [Table.kindAt?, found, Option.bind_some]
  cases first : spec.fields.find? fun other => fieldBit other.position == fieldBit field.position with
  | none => exact absurd (beq_self_eq_true _) (List.find?_eq_none.mp first field member)
  | some other =>
    have inFields := List.mem_of_find?_eq_some first
    have masks := List.find?_some first
    rw [beq_iff_eq] at masks
    have positions : other.position = field.position :=
      fieldBit_injective (inside other inFields) (inside field member) masks
    obtain rfl := List.inj_on_of_nodup_map distinct inFields member positions
    rfl

/-! ## Fields -/

/-- The mask of a field. -/
def Field.mask (field : Field) : UInt64 := fieldBit field.position

theorem Field.isIn_some (field : Field) (slot : Nat) (set : FieldSet) :
    field.isIn (some slot) set = (set.has field.mask && field.slot == slot) := by
  rw [isIn, Option.some_beq_some, Bool.and_comm, BEq.comm]
  rfl

/-- The value of the field with a mask, whether present or not. -/
def fieldValue (slot : Nat) (mask : UInt64) (fields : Fields) : Option FieldValue :=
  (fields.find? fun field => field.slot == slot && field.mask == mask).map Field.value

/-- Reads a value for the field with a mask. -/
def readField (table : Table) (slot : Nat) (mask : UInt64) : Reader (Option FieldValue) :=
  match table.kindAt? slot mask with
  | some kind => do return some (← FieldValue.read kind)
  | none => return none

/-- The fields are those of the table, with values of their kinds. -/
structure Fits (table : Table) (fields : Fields) : Prop where
  positions : ∀ (slot : Nat) (spec : SegmentSpec), table[slot]? = some spec →
    (fields.filter fun field => field.slot == slot).map Field.position =
      spec.fields.map FieldSpec.position
  kinds : ∀ field ∈ fields, table.kindAt? field.slot field.mask = some field.value.kind

theorem FieldValue.kind_initial (kind : FieldKind) : (initial kind).kind = kind := by
  cases kind <;> rfl

theorem FieldValue.kind_of_read {kind : FieldKind} {cursor after : Cursor} {value : FieldValue}
    (ran : read kind cursor = .ok value after) : value.kind = kind := by
  cases kind <;>
    (obtain ⟨_, _, _, returned⟩ := (bind_eq_ok_iff _ _ _ _ _).mp ran
     obtain ⟨rfl, _⟩ := (pure_eq_ok_iff _ _ _ _).mp returned
     rfl)

/-- Of the entries of a list, only the one at an index counts. -/
theorem flatMap_zipIdx_at {α β : Type} (part : α → List β) {entries : List α} {index : Nat}
    {entry : α} (found : entries[index]? = some entry) (start : Nat) :
    ((entries.zipIdx start).flatMap fun pair =>
      if pair.2 = start + index then part pair.1 else []) = part entry := by
  induction entries generalizing index start with
  | nil => cases found
  | cons first rest ih =>
    rw [List.zipIdx_cons, List.flatMap_cons]
    cases index with
    | zero =>
      cases found
      have others : ((rest.zipIdx (start + 1)).flatMap fun pair =>
          if pair.2 = start + 0 then part pair.1 else []) = [] := by
        refine List.flatMap_eq_nil_iff.mpr fun pair member => if_neg ?_
        have behind := List.le_snd_of_mem_zipIdx member
        omega
      rw [others, List.append_nil]
      exact if_pos rfl
    | succ index =>
      rw [List.getElem?_cons_succ] at found
      have later := ih found (start + 1)
      rw [Nat.add_right_comm] at later
      rw [if_neg (by omega)]
      exact later

theorem positions_initial (found : table[slot]? = some spec) :
    ((Fields.initial table).filter fun field => field.slot == slot).map Field.position =
      spec.fields.map FieldSpec.position := by
  rw [← flatMap_zipIdx_at (fun spec : SegmentSpec => spec.fields.map FieldSpec.position) found 0,
    Fields.initial, List.filter_flatMap, List.map_flatMap]
  refine List.flatMap_congr fun entry _ => ?_
  rw [Nat.zero_add, List.filter_map, List.map_map]
  split
  · rename_i here
    simp [Function.comp_def, here]
  · rename_i elsewhere
    simp [Function.comp_def, elsewhere]

theorem fits_initial (ordered : table.Ordered) : Fits table (Fields.initial table) where
  positions _ _ found := positions_initial found
  kinds := by
    intro field member
    obtain ⟨⟨spec, slot⟩, entry, inside⟩ := List.mem_flatMap.mp member
    obtain ⟨listed, among, rfl⟩ := List.mem_map.mp inside
    rw [FieldValue.kind_initial]
    exact ordered.kindAt?_of_mem (List.mem_zipIdx_iff_getElem?.mp entry) among

/-- What putting a value does to each field. -/
def Field.overwrite (slot position : Nat) (value : FieldValue) (field : Field) : Field :=
  if field.slot = slot ∧ field.position = position then { field with value := value } else field

theorem put_eq_map (slot position : Nat) (value : FieldValue) (fields : Fields) :
    put slot position value fields = fields.map (Field.overwrite slot position value) := rfl

@[simp]
theorem Field.slot_overwrite (slot position : Nat) (value : FieldValue) (field : Field) :
    (field.overwrite slot position value).slot = field.slot := by
  rw [overwrite]
  split <;> rfl

@[simp]
theorem Field.position_overwrite (slot position : Nat) (value : FieldValue) (field : Field) :
    (field.overwrite slot position value).position = field.position := by
  rw [overwrite]
  split <;> rfl

@[simp]
theorem Field.mask_overwrite (slot position : Nat) (value : FieldValue) (field : Field) :
    (field.overwrite slot position value).mask = field.mask :=
  congrArg fieldBit (field.position_overwrite slot position value)

variable {position : Nat} {value : FieldValue} {fields : Fields}

theorem fieldValue_put (other : Nat) (mask : UInt64) :
    fieldValue other mask (put slot position value fields) =
      (fields.find? fun field => field.slot == other && field.mask == mask).map fun field =>
        (field.overwrite slot position value).value := by
  rw [fieldValue, put_eq_map, List.find?_map, Option.map_map]
  simp [Function.comp_def]

theorem fieldValue_put_of_ne {other : Nat} {mask : UInt64}
    (different : other ≠ slot ∨ mask ≠ fieldBit position) :
    fieldValue other mask (put slot position value fields) = fieldValue other mask fields := by
  rw [fieldValue_put, fieldValue]
  cases found : fields.find? fun field => field.slot == other && field.mask == mask with
  | none => rfl
  | some field =>
    have here := List.find?_some found
    simp only [Bool.and_eq_true, beq_iff_eq] at here
    obtain ⟨rfl, rfl⟩ := here
    have untouched : ¬(field.slot = slot ∧ field.position = position) := by
      rintro ⟨same, rfl⟩
      rcases different with slots | masks
      · exact slots same
      · exact masks rfl
    simp [Field.overwrite, untouched]

theorem Fits.position_mem (fits : Fits table fields) (found : table[slot]? = some spec) {field : Field}
    (member : field ∈ fields) (here : field.slot = slot) :
    field.position ∈ spec.fields.map FieldSpec.position := by
  rw [← fits.positions slot spec found]
  exact List.mem_map_of_mem (List.mem_filter.mpr ⟨member, beq_iff_eq.mpr here⟩)

theorem Fits.fieldValue_put (fits : Fits table fields) (ordered : table.Ordered)
    (found : table[slot]? = some spec) (member : position ∈ spec.fields.map FieldSpec.position) :
    fieldValue slot (fieldBit position) (put slot position value fields) = some value := by
  have inside : ∀ field ∈ fields, field.slot = slot → field.position < fieldsPerSegment := by
    intro field among here
    obtain ⟨listed, inTable, same⟩ := List.mem_map.mp (fits.position_mem found among here)
    exact same ▸ ordered.inside spec (List.mem_of_getElem? found) listed inTable
  rw [← fits.positions slot spec found] at member
  obtain ⟨field, among, rfl⟩ := List.mem_map.mp member
  obtain ⟨among, here⟩ := List.mem_filter.mp among
  rw [Record.fieldValue_put]
  cases first : fields.find? fun other => other.slot == slot && other.mask == fieldBit field.position with
  | none =>
    refine absurd ?_ (List.find?_eq_none.mp first field among)
    rw [here]
    exact beq_self_eq_true _
  | some other =>
    have matched := List.find?_some first
    simp only [Bool.and_eq_true, beq_iff_eq] at matched here
    have positions : other.position = field.position :=
      fieldBit_injective (inside other (List.mem_of_find?_eq_some first) matched.1)
        (inside field among here) matched.2
    simp [Field.overwrite, matched.1, positions]

theorem Fits.put (fits : Fits table fields)
    (kind : table.kindAt? slot (fieldBit position) = some value.kind) :
    Fits table (Record.put slot position value fields) where
  positions other spec found := by
    rw [← fits.positions other spec found, put_eq_map, List.filter_map, List.map_map]
    simp [Function.comp_def]
  kinds := by
    intro field member
    rw [put_eq_map] at member
    obtain ⟨old, among, rfl⟩ := List.mem_map.mp member
    rw [Field.slot_overwrite, Field.mask_overwrite, Field.overwrite]
    split
    · rename_i here
      rw [here.1, Field.mask, here.2]
      exact kind
    · exact fits.kinds old among

/-! ## Reading -/

theorem loadValues_eq_ok (ordered : table.Ordered) (found : table[slot]? = some spec)
    {todo : List Field} (placed : ∀ field ∈ todo, field.slot = slot ∧
      field.position ∈ spec.fields.map FieldSpec.position ∧
      table.kindAt? slot field.mask = some field.value.kind)
    (distinct : (todo.map Field.mask).Nodup) {filled : Fields} {cursor after : Cursor}
    (fits : Fits table fields)
    (ran : loadValues todo (fields, cursor) = .ok () (filled, after)) :
    Fits table filled ∧
      (todo.map Field.mask).mapM (readField table slot) cursor =
        .ok ((todo.map Field.mask).map fun mask => fieldValue slot mask filled) after ∧
      ∀ other mask, other ≠ slot ∨ mask ∉ todo.map Field.mask →
        fieldValue other mask filled = fieldValue other mask fields := by
  induction todo generalizing fields cursor with
  | nil =>
    cases ran
    exact ⟨fits, rfl, fun _ _ _ => rfl⟩
  | cons field rest ih =>
    obtain ⟨rfl, listed, kind⟩ := placed field List.mem_cons_self
    obtain ⟨fresh, later⟩ := List.nodup_cons.mp distinct
    obtain ⟨value, ⟨same, middle⟩, first, others⟩ := (bind_eq_ok_iff _ _ _ _ _).mp ran
    obtain ⟨rfl, read⟩ := Loader.read_eq_ok first
    rw [bind_of_ok (Loader.update_apply _ _ _)] at others
    have stored : table.kindAt? field.slot (fieldBit field.position) = some value.kind := by
      rw [FieldValue.kind_of_read read]
      exact kind
    obtain ⟨fitsAfter, values, kept⟩ := ih
      (fun other member => placed other (List.mem_cons_of_mem _ member)) later
      (fits.put stored) others
    refine ⟨fitsAfter, ?_, fun other mask outside => ?_⟩
    · have here : readField table field.slot field.mask cursor = .ok (some value) middle := by
        rw [readField, kind]
        exact bind_of_ok read
      have final : fieldValue field.slot field.mask filled = some value := by
        rw [kept _ _ (.inr fresh)]
        exact fits.fieldValue_put ordered found listed
      rw [List.map_cons, List.map_cons, final]
      exact Reader.mapM_cons_of_ok here values
    · rw [List.map_cons, List.mem_cons, not_or] at outside
      rw [kept other mask (outside.imp_right And.right), fieldValue_put_of_ne (outside.imp_right And.left)]

/-- A block of a record is read field by field. -/
theorem segments_readsFields (ordered : table.Ordered) (distinct : (layoutOf table).Distinct) :
    (segments table).ReadsFields (Fits table) fieldValue (readField table) := by
  intro slot segment header fields filled cursor after fits found complete loaded
  have located := Layout.locate?_of_getElem? distinct found
  obtain ⟨spec, there, rfl⟩ : ∃ spec, table[slot]? = some spec ∧ spec.segment = segment := by
    simpa [segments, layoutOf] using found
  let set := spec.segment.restrict header
  let todo := fields.filter fun field => field.isIn (some slot) set
  have ran : loadValues todo (fields, cursor) = .ok () (filled, after) := by
    have slots : (layoutOf table).slotOf? set.wireType set.index = some slot :=
      congrArg (Option.map Prod.snd) located
    have whole : loadFields _ set (fields, cursor) = _ := loaded
    rw [slots] at whole
    exact whole
  have present : set.presentFields = todo.map Field.mask := by
    have wellFormed : spec.segment.WellFormed := Segment.wellFormed_make _ _ _ _
    rw [wellFormed.presentFields_restrict complete,
      ordered.fieldsOf_known (List.mem_of_getElem? there), ← fits.positions slot spec there,
      List.map_map, List.filter_map, List.filter_filter]
    refine congrArg (List.map Field.mask) (List.filter_congr fun field _ => ?_)
    exact (field.isIn_some slot set).symm
  have masks : (todo.map Field.mask).Nodup := present ▸ nodup_fieldsOf _
  have placed : ∀ field ∈ todo, field.slot = slot ∧
      field.position ∈ spec.fields.map FieldSpec.position ∧
      table.kindAt? slot field.mask = some field.value.kind := by
    intro field member
    obtain ⟨among, isIn⟩ := List.mem_filter.mp member
    rw [Field.isIn_some, Bool.and_eq_true, beq_iff_eq] at isIn
    obtain rfl := isIn.2
    exact ⟨rfl, fits.position_mem there among rfl, fits.kinds field among⟩
  obtain ⟨fitsAfter, values, kept⟩ := loadValues_eq_ok ordered there placed masks fits ran
  rw [present]
  exact ⟨fitsAfter, values, fun other mask different => kept other mask (.inl different)⟩

end Record

end FieldWire
