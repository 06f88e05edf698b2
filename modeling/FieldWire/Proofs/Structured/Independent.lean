import FieldWire.Proofs.Confined.Structured
import FieldWire.Proofs.Record
import FieldWire.Proofs.Reuse

/-!
# Segments that are read independently of each other

The values of a structure fall into parts, one for each slot.  If reading the values of a segment
looks only at its own part, changes no other, and takes no notice of the place where the values
stand, then two blocks for different segments can be read in either order: each takes the same bytes
and says the same, and the structure is the same afterwards.

That the parts together are all there is has to be said as well.  Without it two orders would lead to
structures that agree slot by slot and are still different.
-/

set_option autoImplicit false

namespace FieldWire

/-! ## Loaders that work on one part -/

namespace Loader

variable {σ π ι α β : Type} {part : ι → σ → π} {place : ι}

/-- What the loader does depends on one part of the object alone, and the other parts stay. -/
structure WorksOn (loader : Loader σ α) (part : ι → σ → π) (place : ι) : Prop where
  relates : loader.Relates (fun left right => part place left = part place right)
    fun _ left right => part place left = part place right
  keeps : ∀ object cursor value final after,
    loader (object, cursor) = .ok value (final, after) →
      ∀ other, other ≠ place → part other final = part other object

theorem worksOn_read (reader : Reader α) : (read reader : Loader σ α).WorksOn part place where
  relates := relates_read reader
  keeps object cursor value final after ran other _ := by
    rw [(read_eq_ok ran).1]

theorem worksOn_update {change : σ → σ}
    (changed : ∀ left right, part place left = part place right →
      part place (change left) = part place (change right))
    (kept : ∀ object other, other ≠ place → part other (change object) = part other object) :
    (update change).WorksOn part place where
  relates := relates_update changed
  keeps object cursor value final after ran other different := by
    cases ran
    exact kept object other different

theorem worksOn_pure (value : α) : (pure value : Loader σ α).WorksOn part place where
  relates := relates_pure fun _ _ same => same
  keeps object cursor result final after ran other _ := by
    cases ran
    rfl

theorem WorksOn.bind {first : Loader σ α} {next : α → Loader σ β}
    (works : first.WorksOn part place) (more : ∀ value, (next value).WorksOn part place) :
    (first >>= next).WorksOn part place where
  relates := works.relates.bind fun value => (more value).relates
  keeps object cursor result final after ran other different := by
    obtain ⟨value, ⟨middle, here⟩, firstRan, nextRan⟩ := (bind_eq_ok_iff _ _ _ _ _).mp ran
    rw [(more value).keeps _ _ _ _ _ nextRan other different,
      works.keeps _ _ _ _ _ firstRan other different]

/-- Two loaders that work on different parts, each at its own place in its own buffer, can be run in
either order, if the parts are all there is. -/
theorem WorksOn.commute {first : Loader σ α} {second : Loader σ β} {other : ι}
    (works : first.WorksOn part place) (otherWorks : second.WorksOn part other)
    (different : place ≠ other)
    (ext : ∀ left right, (∀ slot, part slot left = part slot right) → left = right)
    {object middle final : σ} {here hereAfter there thereAfter : Cursor} {value : α} {result : β}
    (firstRan : first (object, here) = .ok value (middle, hereAfter))
    (secondRan : second (middle, there) = .ok result (final, thereAfter)) :
    ∃ between, second (object, there) = .ok result (between, thereAfter) ∧
      first (between, here) = .ok value (final, hereAfter) := by
  -- the second loader finds its own part as the first one did, and the other way round
  have untouched : part other object = part other middle :=
    (works.keeps _ _ _ _ _ firstRan _ different.symm).symm
  obtain ⟨between, secondNow, sameOther⟩ := otherWorks.relates _ _ _ _ _ _ untouched secondRan
  have stillUntouched : part place between = part place object :=
    otherWorks.keeps _ _ _ _ _ secondNow _ different
  obtain ⟨again, firstNow, same⟩ := works.relates _ _ _ _ _ _ stillUntouched firstRan
  have agree : again = final := by
    refine ext _ _ fun slot => ?_
    by_cases isFirst : slot = place
    · subst isFirst
      exact same.trans (otherWorks.keeps _ _ _ _ _ secondRan _ different).symm
    · rw [works.keeps _ _ _ _ _ firstNow slot isFirst]
      by_cases isSecond : slot = other
      · subst isSecond
        exact sameOther
      · rw [otherWorks.keeps _ _ _ _ _ secondNow slot isSecond,
          otherWorks.keeps _ _ _ _ _ secondRan slot isSecond,
          works.keeps _ _ _ _ _ firstRan slot isFirst]
  subst agree
  exact ⟨between, secondNow, firstNow⟩

/-- A loader that is confined takes the same bytes wherever they stand. -/
theorem Confined.fills {loader : Loader σ α} (confined : Confined loader) {limit pos : Nat}
    {bytes tail : Bytes} {object final : σ} {value : α} (within : bytes.length ≤ limit)
    (ran : loader (object, ⟨bytes ++ tail, pos, limit⟩) =
      .ok value (final, ⟨tail, pos + bytes.length, limit⟩)) :
    Fills loader limit bytes object value final := by
  obtain ⟨length, _, moved, fills⟩ := confined _ _ _ _ _ ran
  have taken : length = bytes.length :=
    (Nat.add_left_cancel (congrArg Cursor.pos moved)).symm
  subst taken
  have filled := fills limit within
  rwa [List.take_left] at filled

end Loader

/-! ## Structures -/

/-- Each segment is read on its own part of the fields, and the parts make up the fields. -/
structure SegmentFormat.Independent {φ π : Type} (format : SegmentFormat φ) (part : Nat → φ → π) :
    Prop where
  confined : format.Confined
  ext : ∀ fields other, (∀ slot, part slot fields = part slot other) → fields = other
  load : ∀ (slot : Nat) (segment : Segment) (header : FieldSet),
    format.layout[slot]? = some segment →
      (format.load (segment.restrict header)).WorksOn part slot

namespace Structured

variable {φ π : Type} {format : SegmentFormat φ} {part : Nat → φ → π}

/-- A block leaves the parts of the other slots alone. -/
theorem part_of_loadBlock (independent : format.Independent part) {object final : Structured φ}
    {cursor after : Cursor} {answer : Nat × Bool}
    (ran : loadBlock format (object, cursor) = .ok answer (final, after)) {slot : Nat}
    (different : slot ≠ answer.1) : part slot final.fields = part slot object.fields := by
  obtain ⟨header, segment, _, _, _, _, located, _, loaded, _, _, rfl⟩ := loadBlock_eq_ok_iff.mp ran
  obtain ⟨found, _, _⟩ := Layout.locate?_eq_some located
  exact (independent.load answer.1 segment header found).keeps _ _ _ _ _ loaded slot different

/-- Two blocks in different slots, each at its own place in its own buffer, in either order. -/
theorem loadBlock_commute (independent : format.Independent part)
    {object middle final : Structured φ} {here hereAfter there thereAfter : Cursor}
    {answer other : Nat × Bool}
    (first : loadBlock format (object, here) = .ok answer (middle, hereAfter))
    (second : loadBlock format (middle, there) = .ok other (final, thereAfter))
    (different : answer.1 ≠ other.1) :
    ∃ between, loadBlock format (object, there) = .ok other (between, thereAfter) ∧
      loadBlock format (between, here) = .ok answer (final, hereAfter) := by
  obtain ⟨header, segment, headerPlace, filled, valuesPlace, headerRead, located, complete, loaded,
    skipped, passed, rfl⟩ := loadBlock_eq_ok_iff.mp first
  obtain ⟨otherHeader, otherSegment, otherHeaderPlace, last, otherValuesPlace, otherHeaderRead,
    otherLocated, otherComplete, otherLoaded, otherSkipped, otherPassed, rfl⟩ :=
      loadBlock_eq_ok_iff.mp second
  have works := independent.load _ segment header (Layout.locate?_eq_some located).1
  have otherWorks := independent.load _ otherSegment otherHeader
    (Layout.locate?_eq_some otherLocated).1
  obtain ⟨between, otherLoadedNow, loadedNow⟩ :=
    works.commute otherWorks different independent.ext loaded otherLoaded
  refine ⟨_, loadBlock_eq_ok_iff.mpr ⟨otherHeader, otherSegment, otherHeaderPlace, between,
    otherValuesPlace, otherHeaderRead, otherLocated, otherComplete, otherLoadedNow, otherSkipped,
    otherPassed, rfl⟩, loadBlock_eq_ok_iff.mpr ⟨header, segment, headerPlace, last, valuesPlace,
    headerRead, located, complete, loadedNow, skipped, passed, ?_⟩⟩
  exact congrArg (Structured.mk · _ _) (List.set_comm _ _ different)

end Structured

/-! ## Messages -/

/-- The only segment of a structure has everything. -/
def SegmentFormat.wholeAt {φ : Type} (slot : Nat) (fields : φ) : Option φ :=
  if slot = 0 then some fields else none

theorem SegmentFormat.independent_of_single {φ : Type} {format : SegmentFormat φ} {only : Segment}
    (layout : format.layout = [only]) (confined : format.Confined) :
    format.Independent wholeAt where
  confined := confined
  ext fields other same := Option.some.inj (same 0)
  load slot segment header found := by
    rw [layout] at found
    obtain ⟨rfl, rfl⟩ := singleton_getElem? found
    constructor
    · intro left right cursor value final after same ran
      obtain rfl := Option.some.inj same
      exact ⟨final, ran, rfl⟩
    · intro object cursor value final after _ other different
      exact (if_neg different).trans (if_neg different).symm

theorem FrameworkError.segments_independent : FrameworkError.segments.Independent SegmentFormat.wholeAt :=
  SegmentFormat.independent_of_single rfl FrameworkError.segments_confined

theorem ErrorEnvelope.segments_independent : ErrorEnvelope.segments.Independent SegmentFormat.wholeAt :=
  SegmentFormat.independent_of_single rfl ErrorEnvelope.segments_confined

theorem Optional.segments_independent {σ : Type} (inner : ObjectFormat σ) :
    (Optional.segments inner).Independent SegmentFormat.wholeAt :=
  SegmentFormat.independent_of_single rfl (Optional.segments_confined inner)

namespace SignedChunk

/-- The date, and the signature with the chunk. -/
def partOf (place : Nat) (fields : Fields) : Option (Binary64 ⊕ Bytes × Option Bytes) :=
  match place with
  | 0 => some (.inl fields.date)
  | 1 => some (.inr (fields.signature, fields.chunk))
  | _ + 2 => none

theorem partOf_date {date : Binary64} {fields : Fields} {place : Nat} (different : place ≠ 0) :
    partOf place { fields with date := date } = partOf place fields := by
  match place, different with
  | 1, _ => rfl
  | _ + 2, _ => rfl

theorem partOf_signature {signature : Bytes} {fields : Fields} {place : Nat}
    (different : place ≠ slot) :
    partOf place { fields with signature := signature } = partOf place fields := by
  match place, different with
  | 0, _ => rfl
  | _ + 2, _ => rfl

theorem partOf_chunk {chunk : Option Bytes} {fields : Fields} {place : Nat}
    (different : place ≠ slot) :
    partOf place { fields with chunk := chunk } = partOf place fields := by
  match place, different with
  | 0, _ => rfl
  | _ + 2, _ => rfl

theorem partOf_slot_eq_iff {left right : Fields} :
    partOf slot left = partOf slot right ↔
      left.signature = right.signature ∧ left.chunk = right.chunk := by
  simp [partOf, slot]

theorem worksOn_date {set : FieldSet} (eight : set.wireType = .eightByte) :
    (loadFields set).WorksOn partOf 0 := by
  rw [loadFields_of_eightByte eight]
  exact (Loader.worksOn_read _).bind fun date =>
    Loader.worksOn_update (fun _ _ _ => rfl) fun _ _ => partOf_date

theorem worksOn_chunk {set : FieldSet} (list : set.wireType = .list) :
    (loadFields set).WorksOn partOf slot := by
  have signed : ∀ signature, (Loader.update fun fields : Fields =>
      { fields with signature := signature }).WorksOn partOf slot := fun signature =>
    Loader.worksOn_update (fun left right same => partOf_slot_eq_iff.mpr
      ⟨rfl, (partOf_slot_eq_iff.mp same).2⟩) fun _ _ => partOf_signature
  have stored : ∀ chunk, (Loader.update fun fields : Fields =>
      { fields with chunk := chunk }).WorksOn partOf slot := fun chunk =>
    Loader.worksOn_update (fun left right same => partOf_slot_eq_iff.mpr
      ⟨(partOf_slot_eq_iff.mp same).1, rfl⟩) fun _ _ => partOf_chunk
  rw [loadFields_of_list list]
  refine (Loader.worksOn_read _).bind fun signature => (signed signature).bind fun _ => ?_
  split
  · exact (Loader.worksOn_read _).bind fun chunk => stored (some chunk)
  · exact stored none

theorem segments_independent : segments.Independent partOf where
  confined := segments_confined
  ext fields other same := by
    obtain ⟨signatures, chunks⟩ := partOf_slot_eq_iff.mp (same slot)
    obtain ⟨date, signature, chunk⟩ := fields
    obtain rfl : date = other.date := by simpa [partOf] using same 0
    obtain rfl : signature = other.signature := signatures
    obtain rfl : chunk = other.chunk := chunks
    rfl
  load place segment header found := by
    rcases segment_of_getElem? found with ⟨rfl, eight⟩ | ⟨rfl, list⟩
    · exact worksOn_date eight
    · exact worksOn_chunk list

end SignedChunk

/-! ## Records -/

namespace Record

/-- The fields of a slot, each at its place among all fields. -/
def partOf (slot : Nat) (fields : Fields) : List (Option Field) :=
  fields.map fun field => if field.slot = slot then some field else none

theorem eq_of_partOf {fields other : Fields} (same : ∀ slot, partOf slot fields = partOf slot other) :
    fields = other := by
  have lengths : fields.length = other.length := by
    simpa [partOf] using congrArg List.length (same 0)
  apply List.ext_getElem lengths
  intro index inside insideOther
  have entry := congrArg (·[index]?) (same fields[index].slot)
  simp only [partOf, List.getElem?_map, List.getElem?_eq_getElem inside,
    List.getElem?_eq_getElem insideOther, Option.map_some, if_true, Option.some.injEq] at entry
  split at entry
  · exact Option.some.inj entry
  · cases entry

/-- The present fields of a slot can be told from its part. -/
theorem filter_isIn_eq (slot : Nat) (set : FieldSet) (fields : Fields) :
    (fields.filter fun field => field.isIn (some slot) set) =
      ((partOf slot fields).filterMap id).filter fun field => set.has field.mask := by
  have inPart : (partOf slot fields).filterMap id = fields.filter (·.slot == slot) := by
    rw [partOf, List.filterMap_map, ← List.filterMap_eq_filter]
    refine List.filterMap_congr fun field _ => ?_
    by_cases here : field.slot = slot <;> simp [here, Option.guard]
  rw [inPart, List.filter_filter]
  exact List.filter_congr fun field _ => field.isIn_some slot set

theorem partOf_put (slot position : Nat) (value : FieldValue) (fields : Fields) :
    partOf slot (put slot position value fields) =
      (partOf slot fields).map (Option.map (Field.overwrite slot position value)) := by
  rw [put_eq_map, partOf, partOf, List.map_map, List.map_map]
  refine List.map_congr_left fun field _ => ?_
  by_cases here : field.slot = slot <;> simp [here]

theorem partOf_put_of_ne {slot other : Nat} (different : other ≠ slot) (position : Nat)
    (value : FieldValue) (fields : Fields) :
    partOf other (put slot position value fields) = partOf other fields := by
  rw [put_eq_map, partOf, partOf, List.map_map]
  refine List.map_congr_left fun field _ => ?_
  rw [Function.comp_apply, Field.slot_overwrite]
  split
  · rename_i here
    rw [Field.overwrite, if_neg fun both => different (here.symm.trans both.1)]
  · rfl

theorem worksOn_loadValues {slot : Nat} {todo : List Field} (placed : ∀ field ∈ todo, field.slot = slot) :
    (loadValues todo).WorksOn partOf slot := by
  induction todo with
  | nil => exact Loader.worksOn_pure ()
  | cons field rest ih =>
    obtain rfl := placed field List.mem_cons_self
    refine (Loader.worksOn_read _).bind fun value => ?_
    refine (Loader.worksOn_update ?_ ?_).bind fun _ =>
      ih fun other member => placed other (List.mem_cons_of_mem _ member)
    · intro left right same
      rw [partOf_put, partOf_put, same]
    · intro fields other different
      exact partOf_put_of_ne different _ _ _

/-- Which fields are read depends on the part of the slot, and all of them belong to it. -/
theorem worksOn_loadFields (slot : Nat) (set : FieldSet) :
    (loadFields (some slot) set).WorksOn partOf slot := by
  have placed : ∀ (fields : Fields), ∀ field ∈ fields.filter fun field => field.isIn (some slot) set,
      field.slot = slot := by
    intro fields field member
    have isIn := (List.mem_filter.mp member).2
    rw [Field.isIn_some, Bool.and_eq_true, beq_iff_eq] at isIn
    exact isIn.2
  constructor
  · intro left right cursor value final after same ran
    have sameFields := filter_isIn_eq slot set left
    rw [same, ← filter_isIn_eq] at sameFields
    change ∃ result, loadValues _ (left, cursor) = _ ∧ _
    rw [sameFields]
    exact (worksOn_loadValues (placed right)).relates _ _ _ _ _ _ same ran
  · intro fields cursor value final after ran
    exact (worksOn_loadValues (placed fields)).keeps _ _ _ _ _ ran

theorem segments_independent {table : Table} (distinct : (layoutOf table).Distinct) :
    (segments table).Independent partOf where
  confined := segments_confined table
  ext _ _ := eq_of_partOf
  load slot segment header found := by
    have located := Layout.locate?_of_getElem? distinct found
    have slots : (layoutOf table).slotOf? segment.wireType segment.index = some slot :=
      congrArg (Option.map Prod.snd) located
    change (loadFields ((layoutOf table).slotOf? segment.wireType segment.index) _).WorksOn partOf slot
    rw [slots]
    exact worksOn_loadFields slot _

end Record

end FieldWire
