import FieldWire.Proofs.Layout
import FieldWire.Proofs.Loader
import FieldWire.Structured

/-!
# Structured objects come back

If the values of one segment can be written and read again, so can a whole structure.  Writing walks
the layout and leaves empty field sets out; reading finds the slot of each block it meets.  The loop
is followed block by block: every slot whose block is not still to come holds what the reading side
knows of it.
-/

set_option autoImplicit false

namespace FieldWire

namespace SegmentFormat

variable {φ ν : Type}

/-- Looking at the values that field sets carry changes nothing that is written, and sizes are
numbers of bytes.  `Source` says which values a field set can carry. -/
structure Steady (format : SegmentFormat φ) (Source : FieldSet → φ → Prop) : Prop where
  afterSize : ∀ set other fields, Source set fields → Source other fields →
    Source set (format.size other fields).2 ∧
      (format.encode set (format.size other fields).2).1 = (format.encode set fields).1
  afterEncode : ∀ set other fields, Source set fields → Source other fields →
    Source set (format.encode other fields).2 ∧
      (format.encode set (format.encode other fields).2).1 = (format.encode set fields).1
  size_eq : ∀ (slot : Nat) (segment : Segment) set fields, format.layout[slot]? = some segment →
    segment.Admits set → set.bits ≠ 0 → Source set fields →
      (format.size set fields).1 = (format.encode set fields).1.length

/-- The values of each segment can be written and read again: reading gives the values of the
present fields back, stops right after them and leaves the fields of the other slots alone.
`Target` says what holds of the fields of an object that is being read. -/
structure Reversible (format : SegmentFormat φ) (value : Nat → UInt64 → φ → ν) (limit : Nat)
    (Source : FieldSet → φ → Prop) (Target : φ → Prop) : Prop extends Steady format Source where
  load : ∀ (slot : Nat) (segment : Segment) set fields target,
    format.layout[slot]? = some segment → segment.Admits set → set.bits ≠ 0 →
    Source set fields → Target target →
      ∀ tail pos, ∃ filled,
        format.load set (target, ⟨(format.encode set fields).1 ++ tail, pos, limit⟩) =
          .ok () (filled, ⟨tail, pos + (format.encode set fields).1.length, limit⟩) ∧
        Target filled ∧
        (∀ field ∈ set.presentFields, value slot field filled = value slot field fields) ∧
        ∀ other field, other ≠ slot → value other field filled = value other field target
  target_empty : Target format.empty

/-! ## Writing -/

/-- The blocks of some field sets, all taken from the same values. -/
def blocksOf (format : SegmentFormat φ) (sets : List FieldSet) (fields : φ) : Bytes :=
  sets.flatMap fun set => set.encode ++ (format.encode set fields).1

/-- The values that some field sets carry are written as before. -/
def Keeps (format : SegmentFormat φ) (Source : FieldSet → φ → Prop) (sets : List FieldSet)
    (fields later : φ) : Prop :=
  ∀ set ∈ sets, Source set later ∧ (format.encode set later).1 = (format.encode set fields).1

theorem blocksOf_of_keeps {format : SegmentFormat φ} {Source : FieldSet → φ → Prop}
    {all sets : List FieldSet} {fields later : φ} (kept : format.Keeps Source all fields later)
    (among : sets ⊆ all) : format.blocksOf sets later = format.blocksOf sets fields := by
  induction sets with
  | nil => rfl
  | cons set sets ih =>
    have head := (kept set (among List.mem_cons_self)).2
    have tail := ih fun other member => among (List.mem_cons_of_mem _ member)
    rw [blocksOf, List.flatMap_cons, head, ← blocksOf, tail]
    rfl

variable {format : SegmentFormat φ} {Source : FieldSet → φ → Prop}

/-- What survives the size of each of some field sets survives that of their blocks. -/
theorem blocksSize_preserves {P : φ → Prop} {sets : List FieldSet} {fields : φ}
    (step : ∀ set ∈ sets, ∀ fields, P fields → P (format.size set fields).2) (start : P fields) :
    P (format.blocksSize sets fields).2 := by
  induction sets generalizing fields with
  | nil => exact start
  | cons set sets ih =>
    have first := step set List.mem_cons_self fields start
    exact ih (fun other member => step other (List.mem_cons_of_mem _ member)) first

/-- What survives the bytes of each of some field sets survives their blocks. -/
theorem blocks_preserves {P : φ → Prop} {sets : List FieldSet} {fields : φ}
    (step : ∀ set ∈ sets, ∀ fields, P fields → P (format.encode set fields).2) (start : P fields) :
    P (format.blocks sets fields).2 := by
  induction sets generalizing fields with
  | nil => exact start
  | cons set sets ih =>
    have first := step set List.mem_cons_self fields start
    exact ih (fun other member => step other (List.mem_cons_of_mem _ member)) first

/-- Field sets that are written: each stands in a slot that allows it and carries its values. -/
def Carried (format : SegmentFormat φ) (Source : FieldSet → φ → Prop) (sets : List FieldSet)
    (fields : φ) : Prop :=
  ∀ set ∈ sets, set.bits ≠ 0 ∧ Source set fields ∧
    ∃ (slot : Nat) (segment : Segment),
      format.layout[slot]? = some segment ∧ segment.Admits set

theorem Carried.of_keeps {sets : List FieldSet} {fields later : φ}
    (carried : format.Carried Source sets fields) (kept : format.Keeps Source sets fields later) :
    format.Carried Source sets later := by
  intro set member
  obtain ⟨nonempty, _, allowed⟩ := carried set member
  exact ⟨nonempty, (kept set member).1, allowed⟩

theorem Carried.keeps {sets : List FieldSet} {fields : φ}
    (carried : format.Carried Source sets fields) : format.Keeps Source sets fields fields := by
  intro set member
  exact ⟨(carried set member).2.1, rfl⟩

theorem Steady.keeps_size (steady : format.Steady Source) {sets : List FieldSet} {set : FieldSet}
    {fields later : φ} (member : set ∈ sets) (kept : format.Keeps Source sets fields later) :
    format.Keeps Source sets fields (format.size set later).2 := by
  intro other otherMember
  have after := steady.afterSize other set later (kept other otherMember).1 (kept set member).1
  exact ⟨after.1, after.2.trans (kept other otherMember).2⟩

theorem Steady.keeps_encode (steady : format.Steady Source) {sets : List FieldSet}
    {set : FieldSet} {fields later : φ} (member : set ∈ sets)
    (kept : format.Keeps Source sets fields later) :
    format.Keeps Source sets fields (format.encode set later).2 := by
  intro other otherMember
  have after := steady.afterEncode other set later (kept other otherMember).1 (kept set member).1
  exact ⟨after.1, after.2.trans (kept other otherMember).2⟩

theorem Steady.keeps_blocksSize (steady : format.Steady Source) {sets : List FieldSet} {fields : φ}
    (carried : format.Carried Source sets fields) :
    format.Keeps Source sets fields (format.blocksSize sets fields).2 :=
  blocksSize_preserves (fun _ member _ kept => steady.keeps_size member kept) carried.keeps

/-- The size of some blocks is the number of their bytes. -/
theorem Steady.blocksSize_eq (steady : format.Steady Source) {sets : List FieldSet} {fields : φ}
    (carried : format.Carried Source sets fields) :
    (format.blocksSize sets fields).1 = (format.blocksOf sets fields).length := by
  induction sets generalizing fields with
  | nil => rfl
  | cons set sets ih =>
    obtain ⟨nonempty, source, slot, segment, found, admits⟩ := carried set List.mem_cons_self
    have size := steady.size_eq slot segment set fields found admits nonempty source
    have kept := steady.keeps_size List.mem_cons_self carried.keeps
    have later := carried.of_keeps kept
    have rest := ih fun other member => later other (List.mem_cons_of_mem _ member)
    change set.encodedSize + (format.size set fields).1 +
      (format.blocksSize sets (format.size set fields).2).1 = _
    rw [rest, blocksOf_of_keeps kept (List.subset_cons_self set sets), size,
      ← FieldSet.length_encode, ← List.length_append, ← List.length_append]
    rfl

theorem Steady.blocks_eq (steady : format.Steady Source) {sets : List FieldSet} {fields : φ}
    (carried : format.Carried Source sets fields) :
    (format.blocks sets fields).1 = format.blocksOf sets fields := by
  induction sets generalizing fields with
  | nil => rfl
  | cons set sets ih =>
    have kept := steady.keeps_encode List.mem_cons_self carried.keeps
    have later := carried.of_keeps kept
    have rest := ih fun other member => later other (List.mem_cons_of_mem _ member)
    change set.encode ++ (format.encode set fields).1 ++
      (format.blocks sets (format.encode set fields).2).1 = _
    rw [rest, blocksOf_of_keeps kept (List.subset_cons_self set sets)]
    rfl

end SegmentFormat

namespace Structured

variable {φ ν : Type} {format : SegmentFormat φ} {value : Nat → UInt64 → φ → ν} {limit : Nat}
  {Source : FieldSet → φ → Prop} {Target : φ → Prop}

/-- A block is a header that names a segment and all its required fields, the values of the fields
that are known, and values that are passed over. -/
theorem loadBlock_eq_ok_iff {object final : Structured φ} {cursor after : Cursor}
    {answer : Nat × Bool} :
    loadBlock format (object, cursor) = .ok answer (final, after) ↔
      ∃ header segment middle filled place, FieldSet.read cursor = .ok header middle ∧
        format.layout.locate? header.wireType header.index = some (segment, answer.1) ∧
        header.missing segment.required = 0 ∧
        format.load (FieldSet.ofBits segment.wireType segment.index (header.bits &&& segment.known))
          (object.fields, middle) = .ok () (filled, place) ∧
        ((fieldsOf (header.bits &&& ~~~segment.known)).forM fun _ => Reader.skip segment.wireType)
          place = .ok () after ∧
        answer.2 = !(fieldsOf (header.bits &&& ~~~segment.known)).isEmpty ∧
        final = ⟨object.presence.replace answer.1
          (FieldSet.ofBits segment.wireType segment.index (header.bits &&& segment.known)),
          object.memo, filled⟩ := by
  constructor
  · intro ran
    obtain ⟨header, ⟨object, middle⟩, first, rest⟩ := (bind_eq_ok_iff _ _ _ _ _).mp ran
    obtain ⟨rfl, headerRead⟩ := Loader.read_eq_ok first
    cases located : format.layout.locate? header.wireType header.index with
    | none =>
      simp only [located] at rest
      split at rest
      · exact absurd rest (throw_ne_ok _ _ _ _)
      · exact absurd rest (throw_ne_ok _ _ _ _)
    | some entry =>
      obtain ⟨segment, slot⟩ := entry
      simp only [located] at rest
      split at rest
      · obtain ⟨_, _, thrown, _⟩ := (bind_eq_ok_iff _ _ _ _ _).mp rest
        exact absurd thrown (throw_ne_ok _ _ _ _)
      · rename_i complete
        rw [bind_of_ok (Loader.update_apply _ _ _)] at rest
        obtain ⟨_, ⟨object, place⟩, loaded, skipped⟩ := (bind_eq_ok_iff _ _ _ _ _).mp rest
        obtain ⟨filled, rfl, loadRan⟩ := Loader.part_eq_ok loaded
        obtain ⟨_, ⟨object, last⟩, passed, returned⟩ := (bind_eq_ok_iff _ _ _ _ _).mp skipped
        obtain ⟨rfl, skipRan⟩ := Loader.read_eq_ok passed
        cases returned
        exact ⟨header, segment, middle, filled, place, headerRead, located, by simpa using complete,
          loadRan, skipRan, rfl, rfl⟩
  · rintro ⟨header, segment, middle, filled, place, headerRead, located, complete, loadRan, skipRan,
      passed, rfl⟩
    obtain ⟨slot, skipped⟩ := answer
    obtain rfl : skipped = _ := passed
    let known := FieldSet.ofBits segment.wireType segment.index (header.bits &&& segment.known)
    have stored : onFields (format.load known)
        (⟨object.presence.replace slot known, object.memo, object.fields⟩, middle) =
          .ok () (⟨object.presence.replace slot known, object.memo, filled⟩, place) :=
      Loader.part_of_ok loadRan
    rw [loadBlock, bind_of_ok (Loader.read_of_ok headerRead object)]
    simp only [located, complete]
    rw [if_neg (by decide), bind_of_ok (Loader.update_apply _ _ _), bind_of_ok stored,
      bind_of_ok (Loader.read_of_ok skipRan _)]
    rfl

/-- A block that holds the values of its known fields and then values that can be passed over. -/
theorem loadBlock_of_parts {format : SegmentFormat φ} {limit slot : Nat} {segment : Segment}
    {set : FieldSet} {object : Structured φ} {filled : φ} {known unknown tail : Bytes} {pos : Nat}
    (distinct : format.layout.Distinct) (found : format.layout[slot]? = some segment)
    (named : segment.NamedBy set)
    (loaded : format.load (segment.restrict set)
        (object.fields, ⟨known ++ (unknown ++ tail), pos + set.encode.length, limit⟩) =
      .ok () (filled, ⟨unknown ++ tail, pos + set.encode.length + known.length, limit⟩))
    (passed : Reader.Takes ((fieldsOf (set.bits &&& ~~~segment.known)).forM fun _ =>
      Reader.skip segment.wireType) limit unknown ()) :
    loadBlock format (object, ⟨set.encode ++ (known ++ unknown) ++ tail, pos, limit⟩) =
      .ok (slot, !(fieldsOf (set.bits &&& ~~~segment.known)).isEmpty)
        (⟨object.presence.replace slot (segment.restrict set), object.memo, filled⟩,
          ⟨tail, pos + (set.encode ++ (known ++ unknown)).length, limit⟩) := by
  have located : format.layout.locate? set.wireType set.index = some (segment, slot) := by
    rw [named.wireType, named.index]
    exact Layout.locate?_of_getElem? distinct found
  have header := FieldSet.read_takes named.proper limit (known ++ (unknown ++ tail)) pos
  have skipped := passed tail (pos + set.encode.length + known.length)
  rw [List.append_assoc, List.append_assoc, List.length_append, List.length_append, ← Nat.add_assoc,
    ← Nat.add_assoc]
  exact loadBlock_eq_ok_iff.mpr ⟨set, segment, _, filled, _, header, located, named.complete, loaded,
    skipped, rfl, rfl⟩

/-- At the declared end and behind it the loop takes nothing. -/
theorem loadBlocks_of_outside {format : SegmentFormat φ} {start declared fuel : Nat}
    {object : Structured φ} {cursor : Cursor} (outside : ¬cursor.pos - start < declared) :
    loadBlocks format start declared fuel (object, cursor) = .ok ([], false) (object, cursor) := by
  cases fuel with
  | zero => rfl
  | succ fuel =>
    rw [loadBlocks, bind_of_ok (Loader.read_of_ok (Reader.position_apply _) object),
      if_neg outside]
    rfl

theorem loadBlocks_of_end {format : SegmentFormat φ} {start declared fuel : Nat}
    {object : Structured φ} {rest : Bytes} {pos limit : Nat} (reached : pos = start + declared) :
    loadBlocks format start declared fuel (object, ⟨rest, pos, limit⟩) =
      .ok ([], false) (object, ⟨rest, pos, limit⟩) := by
  have outside : ¬pos - start < declared := by omega
  exact loadBlocks_of_outside outside

/-- One more round of the loop. -/
theorem loadBlocks_of_block {format : SegmentFormat φ} {start declared fuel slot : Nat}
    {slots : List Nat} {object middle final : Structured φ} {cursor here after : Cursor}
    {passed more : Bool} (inside : cursor.pos - start < declared)
    (block : loadBlock format (object, cursor) = .ok (slot, passed) (middle, here))
    (looped : loadBlocks format start declared fuel (middle, here) =
      .ok (slots, more) (final, after)) :
    loadBlocks format start declared (fuel + 1) (object, cursor) =
      .ok (slot :: slots, passed || more) (final, after) := by
  rw [loadBlocks, bind_of_ok (Loader.read_of_ok (Reader.position_apply _) object), if_pos inside,
    bind_of_ok block]
  exact bind_of_ok looped

/-- In front of the declared end the loop takes a block. -/
theorem loadBlocks_succ_eq_ok {format : SegmentFormat φ} {start declared fuel : Nat}
    {object final : Structured φ} {cursor after : Cursor} {slots : List Nat} {passed : Bool}
    (inside : cursor.pos - start < declared)
    (ran : loadBlocks format start declared (fuel + 1) (object, cursor) =
      .ok (slots, passed) (final, after)) :
    ∃ slot skipped others more middle here,
      loadBlock format (object, cursor) = .ok (slot, skipped) (middle, here) ∧
        loadBlocks format start declared fuel (middle, here) = .ok (others, more) (final, after) ∧
        slots = slot :: others ∧ passed = (skipped || more) := by
  rw [loadBlocks, bind_of_ok (Loader.read_of_ok (Reader.position_apply _) _), if_pos inside] at ran
  obtain ⟨⟨slot, skipped⟩, ⟨middle, here⟩, block, rest⟩ := (bind_eq_ok_iff _ _ _ _ _).mp ran
  obtain ⟨⟨others, more⟩, ⟨last, there⟩, looped, returned⟩ := (bind_eq_ok_iff _ _ _ _ _).mp rest
  cases returned
  exact ⟨slot, skipped, others, more, middle, here, block, looped, rfl, rfl⟩

/-- What holds of a loop that takes nothing, and of one more block in front whenever it holds of the
rest, holds of every loop that ends.  A block begins in front of the declared end. -/
theorem loadBlocks_induction {format : SegmentFormat φ} {start declared fuel : Nat}
    {motive : Structured φ → Cursor → List Nat → Bool → Structured φ → Cursor → Prop}
    (stop : ∀ object cursor, motive object cursor [] false object cursor)
    (step : ∀ object cursor slot passed middle here slots more final after,
      cursor.pos - start < declared → loadBlock format (object, cursor) = .ok (slot, passed) (middle, here) →
      motive middle here slots more final after →
        motive object cursor (slot :: slots) (passed || more) final after)
    {object final : Structured φ} {cursor after : Cursor} {slots : List Nat} {passed : Bool}
    (ran : loadBlocks format start declared fuel (object, cursor) =
      .ok (slots, passed) (final, after)) : motive object cursor slots passed final after := by
  induction fuel generalizing object cursor slots passed with
  | zero =>
    cases ran
    exact stop _ _
  | succ fuel ih =>
    by_cases inside : cursor.pos - start < declared
    · obtain ⟨slot, skipped, others, more, middle, here, block, looped, rfl, rfl⟩ :=
        loadBlocks_succ_eq_ok inside ran
      exact step _ _ _ _ _ _ _ _ _ _ inside block (ih looped)
    · cases (loadBlocks_of_outside inside).symm.trans ran
      exact stop _ _

/-- The bytes of the field sets that are written. -/
def bodyOf (format : SegmentFormat φ) (presence : Presence) (fields : φ) : Bytes :=
  format.blocksOf presence.written fields

/-- The loop over blocks that are known in advance.  `Inv todo object` is what holds while the
blocks of `todo` are still to come. -/
theorem loadBlocks_of_steps {ι : Type} {format : SegmentFormat φ} {limit : Nat} {slot : ι → Nat}
    {bytes : ι → Bytes} {passes : ι → Bool} {Inv : List ι → Structured φ → Prop}
    (positive : ∀ item, 0 < (bytes item).length)
    (step : ∀ item todo object tail pos, Inv (item :: todo) object →
      ∃ middle, loadBlock format (object, ⟨bytes item ++ tail, pos, limit⟩) =
          .ok (slot item, passes item) (middle, ⟨tail, pos + (bytes item).length, limit⟩) ∧
        Inv todo middle)
    {todo : List ι} {object : Structured φ} (holds : Inv todo object) (tail : Bytes)
    {start declared fuel pos : Nat} (begun : start ≤ pos)
    (ends : pos + (todo.flatMap bytes).length = start + declared)
    (fueled : (todo.flatMap bytes).length ≤ fuel) :
    ∃ final,
      loadBlocks format start declared fuel (object, ⟨todo.flatMap bytes ++ tail, pos, limit⟩) =
        .ok (todo.map slot, todo.any passes)
          (final, ⟨tail, pos + (todo.flatMap bytes).length, limit⟩) ∧ Inv [] final := by
  induction todo generalizing object fuel pos with
  | nil => exact ⟨object, loadBlocks_of_end ends, holds⟩
  | cons item todo ih =>
    have progress := positive item
    rw [List.flatMap_cons, List.length_append] at ends fueled
    cases fuel with
    | zero => omega
    | succ fuel =>
      have inside : pos - start < declared := by omega
      have laterBegun : start ≤ pos + (bytes item).length := by omega
      have laterEnds : pos + (bytes item).length + (todo.flatMap bytes).length =
          start + declared := by omega
      have laterFueled : (todo.flatMap bytes).length ≤ fuel := by omega
      obtain ⟨middle, block, still⟩ :=
        step item todo object (todo.flatMap bytes ++ tail) pos holds
      obtain ⟨final, looped, finished⟩ := ih still laterBegun laterEnds laterFueled
      refine ⟨final, ?_, finished⟩
      rw [List.flatMap_cons, List.append_assoc, List.length_append, ← Nat.add_assoc]
      exact loadBlocks_of_block inside block looped

/-! ## Whole structures -/

/-- The field sets of a presence that are not empty carry their values. -/
theorem carried_of_fits {presence : Presence} {fields : φ} (fits : presence.Fits format.layout)
    (sources : ∀ set ∈ presence, set.bits ≠ 0 → Source set fields) :
    format.Carried Source presence.written fields := by
  intro set member
  obtain ⟨inside, nonempty⟩ := List.mem_filter.mp member
  have present : set.bits ≠ 0 := by simpa [FieldSet.isEmpty] using nonempty
  obtain ⟨slot, segment, _, found, admits⟩ := fits.exists_slot inside
  exact ⟨present, sources set inside present, slot, segment, found, admits⟩

/-- A structure whose remembered size is right is written as one span. -/
theorem encode_of_steady (steady : format.Steady Source) {object : Structured φ}
    (fits : object.presence.Fits format.layout)
    (sources : ∀ set ∈ object.presence, set.bits ≠ 0 → Source set object.fields)
    (remembered : ∀ size, object.memo = some size →
      size = (bodyOf format object.presence object.fields).length) :
    (object.size format).1 = (bodyOf format object.presence object.fields).length ∧
      (object.encode format).1 = Write.blob (bodyOf format object.presence object.fields) := by
  have carried := carried_of_fits fits sources
  have sized := steady.blocksSize_eq carried
  have kept := steady.keeps_blocksSize carried
  have written := steady.blocks_eq carried
  obtain ⟨presence, memo, fields⟩ := object
  cases memo with
  | some size =>
    have right : size = (bodyOf format presence fields).length := remembered size rfl
    refine ⟨right, ?_⟩
    change Write.word (LengthTag.span size) ++ (format.blocks presence.written fields).1 = _
    rw [written, right]
    rfl
  | none =>
    refine ⟨sized, ?_⟩
    change Write.word (LengthTag.span (format.blocksSize presence.written fields).1) ++
      (format.blocks presence.written (format.blocksSize presence.written fields).2).1 = _
    rw [sized, steady.blocks_eq (carried.of_keeps kept),
      SegmentFormat.blocksOf_of_keeps kept (List.Subset.refl _)]
    rfl

/-- A span of as many bytes as the blocks in it take becomes what the blocks make of the object. -/
theorem load_of_span {format : SegmentFormat φ} {start object : Structured φ}
    {cursor middle after : Cursor} {declared : Nat} {seen : List Nat} {skipped : Bool}
    (opened : Reader.openSpan cursor = .ok declared middle)
    (looped : loadBlocks format middle.pos declared declared
      ({ start with presence := start.presence.clear }, middle) =
        .ok (seen, skipped) (object, after))
    (consumed : after.pos - middle.pos = declared)
    (allSeen : format.layout.firstUnseen? seen = none) :
    load format (start, cursor) =
      .ok () ({ object with memo := if skipped then none else some declared }, after) := by
  have same : ¬(after.pos - middle.pos != declared) = true := by simp [consumed]
  rw [load, bind_of_ok (Loader.read_of_ok opened start),
    bind_of_ok (Loader.read_of_ok (Reader.position_apply _) _),
    bind_of_ok (Loader.update_apply _ _ _)]
  refine (bind_of_ok looped).trans ?_
  refine (bind_of_ok (Loader.read_of_ok (Reader.position_apply _) _)).trans ?_
  rw [if_neg same, allSeen]
  rfl

/-- What has been read of the field sets of a writer while the blocks of `todo` are still to come:
the known fields of all the others, with their values. -/
structure Received (layout : Layout) (presence : Presence) (value : Nat → UInt64 → φ → ν)
    (given : Nat → UInt64 → ν) (Target : φ → Prop) (todo : List (FieldSet × Nat))
    (object : Structured φ) : Prop where
  among : todo ⊆ presence.entries
  target : Target object.fields
  length : object.presence.length = layout.length
  slots : ∀ (slot : Nat) (segment : Segment) set, layout[slot]? = some segment →
    presence[slot]? = some set → (set, slot) ∉ todo →
      object.presence[slot]? = some (segment.restrict set) ∧
        ∀ field ∈ (segment.restrict set).presentFields,
          value slot field object.fields = given slot field

variable {presence : Presence} {given : Nat → UInt64 → ν} {todo : List (FieldSet × Nat)}

theorem Received.start (target : Target format.empty) :
    Received format.layout presence value given Target presence.entries
      { empty format with presence := (empty format).presence.clear } where
  among := List.Subset.refl _
  target := target
  length := by
    change (format.layout.fresh.clear).length = _
    rw [Presence.clear, List.length_map, Layout.fresh, List.length_map]
  slots slot segment set found there absent := by
    have empty : set.bits = 0 := by
      by_contra nonempty
      exact absent ((Presence.mem_entries_iff _ _ _).mpr ⟨there, nonempty⟩)
    have cleared : segment.restrict set = FieldSet.empty segment.wireType segment.index := by
      rw [Segment.restrict, empty, UInt64.zero_and]
      rfl
    refine ⟨?_, fun field member => ?_⟩
    · change format.layout.fresh.clear[slot]? = _
      rw [Presence.clear, Layout.fresh, List.getElem?_map, List.getElem?_map, found, cleared]
      rfl
    · rw [cleared, FieldSet.presentFields, FieldSet.empty, fieldsOf_zero] at member
      cases member

theorem Received.step {layout : Layout} {object : Structured φ} {slot : Nat} {segment : Segment}
    {set : FieldSet} {filled : φ}
    (received : Received layout presence value given Target ((set, slot) :: todo) object)
    (found : layout[slot]? = some segment) (target : Target filled)
    (restored : ∀ field ∈ (segment.restrict set).presentFields,
      value slot field filled = given slot field)
    (framed : ∀ other field, other ≠ slot →
      value other field filled = value other field object.fields) :
    Received layout presence value given Target todo
      ⟨object.presence.replace slot (segment.restrict set), object.memo, filled⟩ where
  among _ member := received.among (List.mem_cons_of_mem _ member)
  target := target
  length := by
    change (List.set object.presence slot _).length = _
    rw [List.length_set, received.length]
  slots other otherSegment otherSet otherFound otherThere absent := by
    by_cases same : other = slot
    · subst same
      obtain ⟨there, _⟩ := (Presence.mem_entries_iff _ _ _).mp (received.among List.mem_cons_self)
      rw [found] at otherFound
      rw [there] at otherThere
      cases otherFound
      cases otherThere
      have inside : other < object.presence.length := by
        rw [received.length]
        exact (List.getElem?_eq_some_iff.mp found).1
      exact ⟨List.getElem?_set_self inside, restored⟩
    · have before : (otherSet, other) ∉ (set, slot) :: todo := by
        rintro (_ | ⟨_, member⟩)
        · exact same rfl
        · exact absent member
      obtain ⟨present, values⟩ := received.slots other otherSegment otherSet otherFound otherThere before
      refine ⟨(List.getElem?_set_ne (Ne.symm same)).trans present, fun field member => ?_⟩
      exact (framed other field same).trans (values field member)

theorem Received.presence_eq {layout : Layout} {object : Structured φ}
    (received : Received layout presence value given Target [] object)
    (lengths : layout.length = presence.length) :
    object.presence = presence.restrict layout := by
  apply List.ext_getElem
  · rw [Presence.restrict, List.length_zipWith, received.length, lengths, Nat.min_self]
  · intro slot inside insideRestricted
    have inLayout : slot < layout.length := received.length ▸ inside
    have inPresence : slot < presence.length := lengths ▸ inLayout
    have present := (received.slots slot _ _ (List.getElem?_eq_getElem inLayout)
      (List.getElem?_eq_getElem inPresence) List.not_mem_nil).1
    rw [List.getElem?_eq_getElem inside] at present
    rw [Option.some.inj present]
    exact (List.getElem_zipWith).symm

/-- What a writer puts into its blocks is something that the format can read: the values of the
known fields of each block, and behind them values that can be passed over. -/
structure Readable (format : SegmentFormat φ) (value : Nat → UInt64 → φ → ν)
    (given : Nat → UInt64 → ν) (limit : Nat) (Target : φ → Prop) (presence : Presence)
    (known unknown : Nat → FieldSet → Bytes) : Prop where
  named : List.Forall₂ Segment.NamedBy format.layout presence
  empty : Target format.empty
  load : ∀ (slot : Nat) (segment : Segment) set target, format.layout[slot]? = some segment →
    presence[slot]? = some set → set.bits ≠ 0 → Target target →
      ∀ tail pos, ∃ filled,
        format.load (segment.restrict set) (target, ⟨known slot set ++ tail, pos, limit⟩) =
          .ok () (filled, ⟨tail, pos + (known slot set).length, limit⟩) ∧
        Target filled ∧
        (∀ field ∈ (segment.restrict set).presentFields,
          value slot field filled = given slot field) ∧
        ∀ other field, other ≠ slot → value other field filled = value other field target
  pass : ∀ (slot : Nat) (segment : Segment) set, format.layout[slot]? = some segment →
    presence[slot]? = some set → set.bits ≠ 0 →
      Reader.Takes ((fieldsOf (set.bits &&& ~~~segment.known)).forM fun _ =>
        Reader.skip segment.wireType) limit (unknown slot set) ()

variable {known unknown : Nat → FieldSet → Bytes}

/-- The block of a field set, as its writer puts it. -/
def blockOf (known unknown : Nat → FieldSet → Bytes) (entry : FieldSet × Nat) : Bytes :=
  entry.1.encode ++ (known entry.2 entry.1 ++ unknown entry.2 entry.1)

theorem length_blockOf_pos (entry : FieldSet × Nat) : 0 < (blockOf known unknown entry).length := by
  have header := FieldSet.encodedSize_pos entry.1
  rw [blockOf, List.length_append, FieldSet.length_encode]
  omega

theorem Received.block
    (readable : Readable format value given limit Target presence known unknown)
    (distinct : format.layout.Distinct) (entry : FieldSet × Nat) (todo : List (FieldSet × Nat))
    (object : Structured φ) (tail : Bytes) (pos : Nat)
    (received : Received format.layout presence value given Target (entry :: todo) object) :
    ∃ middle,
      loadBlock format (object, ⟨blockOf known unknown entry ++ tail, pos, limit⟩) =
        .ok (entry.2, format.layout.passes entry)
          (middle, ⟨tail, pos + (blockOf known unknown entry).length, limit⟩) ∧
      Received format.layout presence value given Target todo middle := by
  obtain ⟨set, slot⟩ := entry
  obtain ⟨there, nonempty⟩ := (Presence.mem_entries_iff _ _ _).mp (received.among List.mem_cons_self)
  obtain ⟨segment, found, named⟩ := Presence.forall₂_getElem? readable.named there
  obtain ⟨filled, loaded, target, restored, framed⟩ := readable.load slot segment set object.fields
    found there nonempty received.target (unknown slot set ++ tail) (pos + set.encode.length)
  have passed := readable.pass slot segment set found there nonempty
  rw [Layout.passes_of_getElem? found]
  exact ⟨_, loadBlock_of_parts distinct found named loaded passed,
    received.step found target restored framed⟩

/-- A new object reads what it knows of the blocks of a writer, and remembers their size if that is
all of them. -/
theorem load_of_readable
    (readable : Readable format value given limit Target presence known unknown)
    (distinct : format.layout.Distinct) {body : Bytes}
    (written : presence.entries.flatMap (blockOf known unknown) = body)
    (within : body.length ≤ limit) (small : body.length < 2 ^ 62) (tail : Bytes) (pos : Nat) :
    ∃ filled,
      load format (empty format, ⟨Write.blob body ++ tail, pos, limit⟩) =
        .ok () (⟨presence.restrict format.layout,
          if presence.entries.any format.layout.passes then none else some body.length, filled⟩,
          ⟨tail, pos + (Write.blob body).length, limit⟩) ∧
      Target filled ∧
      ∀ (slot : Nat) (segment : Segment) set, format.layout[slot]? = some segment →
        presence[slot]? = some set → ∀ field ∈ (segment.restrict set).presentFields,
          value slot field filled = given slot field := by
  subst written
  let body := presence.entries.flatMap (blockOf known unknown)
  let start := pos + (Write.word (LengthTag.span body.length)).length
  have there : body.length ≤ (body ++ tail).length := by simp
  have opened : Reader.openSpan ⟨Write.blob body ++ tail, pos, limit⟩ =
      .ok body.length ⟨body ++ tail, start, limit⟩ := by
    rw [Write.blob, List.append_assoc]
    exact Reader.openSpan_of_le within small there
  have allSeen : format.layout.firstUnseen? (presence.entries.map (·.2)) = none := by
    rw [Layout.firstUnseen?_eq_none_iff]
    intro slot segment found required
    obtain ⟨set, present, named⟩ := Presence.forall₂_getElem? readable.named.flip found
    have nonempty : set.bits ≠ 0 := by
      intro none
      have missing := named.complete
      rw [FieldSet.missing, none] at missing
      exact required (by simpa using missing)
    exact List.mem_map.mpr ⟨(set, slot), (Presence.mem_entries_iff _ _ _).mpr ⟨present, nonempty⟩, rfl⟩
  obtain ⟨final, looped, received⟩ := loadBlocks_of_steps length_blockOf_pos
    (Received.block readable distinct) (Received.start readable.empty) tail (Nat.le_refl start) rfl
    (Nat.le_refl body.length)
  have stop : start + body.length = pos + (Write.blob body).length := by
    rw [Write.blob, List.length_append, ← Nat.add_assoc]
    rfl
  refine ⟨final.fields, ?_, received.target, ?_⟩
  · rw [← stop, ← received.presence_eq readable.named.length_eq]
    exact load_of_span opened looped (Nat.add_sub_cancel_left _ _) allSeen
  · intro slot segment set found there
    exact (received.slots slot segment set found there List.not_mem_nil).2

/-- A new object reads a structure back from its span. -/
theorem load_of_reversible (reversible : format.Reversible value limit Source Target)
    (distinct : format.layout.Distinct) {presence : Presence} {fields : φ}
    (fits : presence.Fits format.layout)
    (sources : ∀ set ∈ presence, set.bits ≠ 0 → Source set fields)
    (within : (bodyOf format presence fields).length ≤ limit)
    (small : (bodyOf format presence fields).length < 2 ^ 62) (tail : Bytes) (pos : Nat) :
    ∃ filled,
      load format (empty format,
          ⟨Write.blob (bodyOf format presence fields) ++ tail, pos, limit⟩) =
        .ok () (⟨presence, some (bodyOf format presence fields).length, filled⟩,
          ⟨tail, pos + (Write.blob (bodyOf format presence fields)).length, limit⟩) ∧
      ∀ slot set, presence[slot]? = some set → ∀ field ∈ set.presentFields,
        value slot field filled = value slot field fields := by
  have nothingLeft : ∀ (slot : Nat) (segment : Segment) set, format.layout[slot]? = some segment →
      presence[slot]? = some set → fieldsOf (set.bits &&& ~~~segment.known) = [] := by
    intro slot segment set found there
    rw [(fits.admits found there).known]
    rfl
  have readable : Readable format value (fun slot field => value slot field fields) limit Target
      presence (fun _ set => (format.encode set fields).1) (fun _ _ => []) := by
    refine ⟨fits.imp fun _ _ admits => admits.namedBy, reversible.target_empty, ?_, ?_⟩
    · intro slot segment set target found there nonempty holds tail pos
      have admits := fits.admits found there
      rw [admits.restrict_eq]
      exact reversible.load slot segment set fields target found admits nonempty
        (sources set (List.mem_of_getElem? there) nonempty) holds tail pos
    · intro slot segment set found there _
      rw [nothingLeft slot segment set found there]
      exact Reader.Takes.nothing limit ()
  have body : presence.entries.flatMap (blockOf (fun _ set => (format.encode set fields).1)
      fun _ _ => []) = bodyOf format presence fields := by
    rw [bodyOf, SegmentFormat.blocksOf, ← Presence.map_entries, List.flatMap_map]
    apply List.flatMap_congr
    intro entry _
    rw [blockOf, List.append_nil]
  have whole : presence.entries.any format.layout.passes = false := by
    rw [List.any_eq_false]
    rintro ⟨set, slot⟩ member
    obtain ⟨there, _⟩ := (Presence.mem_entries_iff _ _ _).mp member
    obtain ⟨segment, found, _⟩ := Presence.forall₂_getElem? fits there
    rw [Layout.passes_of_getElem? found, nothingLeft slot segment set found there]
    decide
  obtain ⟨filled, loaded, _, restored⟩ :=
    load_of_readable readable distinct body within small tail pos
  rw [whole, fits.restrict_eq] at loaded
  refine ⟨filled, loaded, fun slot set there field member => ?_⟩
  obtain ⟨segment, found, admits⟩ := Presence.forall₂_getElem? fits there
  rw [← admits.restrict_eq] at member
  exact restored slot segment set found there field member

end Structured

end FieldWire
