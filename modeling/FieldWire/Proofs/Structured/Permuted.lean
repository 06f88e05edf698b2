import FieldWire.Proofs.Accepts
import FieldWire.Proofs.Structured.Independent
import FieldWire.Record.Catalog

/-!
# The order of blocks

Blocks for different segments can stand in any order.  A block takes the same bytes and says the same
wherever it stands and whatever follows it, and two blocks that are next to each other can be
exchanged; with that every order leads to the same structure.  Writing goes by the layout, so the
order in which the blocks came is gone.
-/

set_option autoImplicit false

namespace FieldWire

namespace Reader

variable {α : Type} {limit : Nat}

/-- Where the reader succeeds on the bytes, it stops right behind them. -/
def StopsAfter (reader : Reader α) (limit : Nat) (bytes : Bytes) : Prop :=
  ∀ tail pos value after, reader ⟨bytes ++ tail, pos, limit⟩ = .ok value after →
    after = ⟨tail, pos + bytes.length, limit⟩

theorem Takes.stopsAfter {reader : Reader α} {bytes : Bytes} {value : α}
    (taken : Takes reader limit bytes value) : StopsAfter reader limit bytes := by
  intro tail pos result after ran
  rw [taken tail pos] at ran
  cases ran
  rfl

/-- A span behind a length tag whose word is known. -/
theorem openSpan_iff_of_spells {tag rest : Bytes} {word : UInt64} {pos number : Nat}
    {after : Cursor} (spelled : Varint.Spells tag word) :
    openSpan ⟨tag ++ rest, pos, limit⟩ = .ok number after ↔
      LengthTag.scheme word = .list ∧ LengthTag.count word = number ∧ number ≤ limit ∧
        number ≤ rest.length ∧ after = ⟨rest, pos + tag.length, limit⟩ := by
  constructor
  · intro ran
    obtain ⟨found, length, decoded, listed, counted, within, inside, rfl⟩ := openSpan_eq_ok ran
    rw [Varint.decode_append rest spelled] at decoded
    cases decoded
    simp only [List.length_append] at inside
    exact ⟨listed, counted, within, by omega, Cursor.advance_append _ _ _ _⟩
  · rintro ⟨listed, counted, within, there, rfl⟩
    exact openSpan_eq_ok_iff.mpr
      ⟨tag, rest, rfl, ⟨word, spelled, listed, counted, within⟩, there, rfl⟩

end Reader

/-! ## Segments by name -/

/-- The wire type and the index of a segment. -/
def Segment.label (segment : Segment) : WireType × UInt32 := (segment.wireType, segment.index)

/-- The wire type and the index that a header gives. -/
def FieldSet.label (set : FieldSet) : WireType × UInt32 := (set.wireType, set.index)

theorem Layout.slot_ne_of_label_ne {layout : Layout} {set other : FieldSet} {slot place : Nat}
    (different : set.label ≠ other.label)
    (named : layout.slotOf? set.wireType set.index = some slot)
    (otherNamed : layout.slotOf? other.wireType other.index = some place) : slot ≠ place := by
  rintro rfl
  obtain ⟨⟨segment, _⟩, located, rfl⟩ := Option.map_eq_some_iff.mp named
  obtain ⟨⟨otherSegment, _⟩, otherLocated, rfl⟩ := Option.map_eq_some_iff.mp otherNamed
  obtain ⟨found, sameType, sameIndex⟩ := locate?_eq_some located
  obtain ⟨otherFound, otherType, otherIndex⟩ := locate?_eq_some otherLocated
  rw [found, Option.some_inj] at otherFound
  subst otherFound
  refine different (Prod.ext ?_ ?_)
  · exact sameType.symm.trans otherType
  · exact sameIndex.symm.trans otherIndex

theorem Layout.firstUnseen?_perm {seen others : List Nat} (layout : Layout)
    (perm : seen.Perm others) : layout.firstUnseen? seen = layout.firstUnseen? others := by
  simp only [firstUnseen?, perm.contains_eq]

/-! ## Blocks on the wire -/

/-- A block as it stands on the wire. -/
structure WireBlock where
  /-- The field set that the header says. -/
  header : FieldSet
  /-- The bytes of the header. -/
  front : Bytes
  /-- The values of the fields that are known. -/
  known : Bytes
  /-- The values of the fields behind them. -/
  unknown : Bytes

namespace WireBlock

variable {φ π : Type} {format : SegmentFormat φ} {part : Nat → φ → π} {limit : Nat}
  {block : WireBlock}

/-- The bytes of a block. -/
def bytes (block : WireBlock) : Bytes := block.front ++ (block.known ++ block.unknown)

/-- The name of the segment. -/
def label (block : WireBlock) : WireType × UInt32 := block.header.label

/-- The bytes of some blocks. -/
def body (blocks : List WireBlock) : Bytes := blocks.flatMap bytes

theorem length_bytes_le_body {blocks : List WireBlock} (member : block ∈ blocks) :
    block.bytes.length ≤ (body blocks).length :=
  (List.sublist_flatten_of_mem (List.mem_map_of_mem member)).length_le

theorem length_body_perm {blocks permuted : List WireBlock} (perm : blocks.Perm permuted) :
    (body blocks).length = (body permuted).length :=
  (perm.flatMap_right bytes).length_eq

theorem body_cons (block : WireBlock) (blocks : List WireBlock) :
    body (block :: blocks) = block.bytes ++ body blocks := List.flatMap_cons

/-- The block is a header and then values, as the fields at hand would read them.  They need not be
readable, but what is read of them ends where they end.  Nothing is asked of the values if no segment
has this name, or if required fields are missing. -/
structure Valid (format : SegmentFormat φ) (limit : Nat) (fields : φ) (block : WireBlock) : Prop where
  header : Reader.Takes FieldSet.read limit block.front block.header
  known : ∀ segment slot,
    format.layout.locate? block.header.wireType block.header.index = some (segment, slot) →
      block.header.missing segment.required = 0 →
        Reader.StopsAfter (Loader.toReader fields (format.load (segment.restrict block.header)))
          limit block.known
  unknown : ∀ segment slot,
    format.layout.locate? block.header.wireType block.header.index = some (segment, slot) →
      Reader.StopsAfter ((fieldsOf (block.header.bits &&& ~~~segment.known)).forM fun _ =>
        Reader.skip segment.wireType) limit block.unknown

/-- The block of a segment whose values can be read, and behind them values that can be passed
over. -/
theorem valid_of_takes {fields : φ} (filled : φ) {segment : Segment} {slot : Nat}
    (named : format.layout.locate? block.header.wireType block.header.index = some (segment, slot))
    (header : Reader.Takes FieldSet.read limit block.front block.header)
    (known : Reader.Takes (Loader.toReader fields (format.load (segment.restrict block.header)))
      limit block.known filled)
    (unknown : Reader.Takes ((fieldsOf (block.header.bits &&& ~~~segment.known)).forM fun _ =>
      Reader.skip segment.wireType) limit block.unknown ()) : block.Valid format limit fields where
  header := header
  known other place located _ := by
    cases named.symm.trans located
    exact known.stopsAfter
  unknown other place located := by
    cases named.symm.trans located
    exact unknown.stopsAfter

theorem Valid.length_pos {fields : φ} (valid : block.Valid format limit fields) :
    0 < block.bytes.length := by
  obtain ⟨_, length, positive, inside, _⟩ := FieldSet.read_costs (valid.header [] 0)
  simp only [List.append_nil] at inside
  rw [bytes, List.length_append]
  omega

/-- Only the part of its own segment counts. -/
theorem Valid.of_part_eq (independent : format.Independent part) {fields other : φ}
    (valid : block.Valid format limit fields)
    (same : ∀ slot, format.layout.slotOf? block.header.wireType block.header.index = some slot →
      part slot fields = part slot other) : block.Valid format limit other where
  header := valid.header
  known segment slot located complete := by
    intro tail pos final after ran
    have works := independent.load slot segment block.header (Layout.locate?_eq_some located).1
    have own := same slot (congrArg (Option.map Prod.snd) located)
    obtain ⟨again, loaded, _⟩ := works.relates _ _ _ _ _ _ own (Loader.toReader_eq_ok ran)
    exact valid.known segment slot located complete _ _ _ _ (Loader.toReader_of_ok loaded)
  unknown := valid.unknown

/-- A block that is read names the slot that is filled, and ends where it ends. -/
theorem Valid.loadBlock_eq_ok {object final : Structured φ} {tail : Bytes} {pos : Nat}
    {after : Cursor} {answer : Nat × Bool} (valid : block.Valid format limit object.fields)
    (ran : Structured.loadBlock format (object, ⟨block.bytes ++ tail, pos, limit⟩) =
      .ok answer (final, after)) :
    format.layout.slotOf? block.header.wireType block.header.index = some answer.1 ∧
      after = ⟨tail, pos + block.bytes.length, limit⟩ := by
  obtain ⟨header, segment, middle, filled, place, headerRead, located, complete, loaded, skipped,
    _, _⟩ := Structured.loadBlock_eq_ok_iff.mp ran
  rw [bytes, List.append_assoc, valid.header] at headerRead
  cases headerRead
  rw [List.append_assoc] at loaded
  have ended := valid.known segment answer.1 located complete _ _ _ _ (Loader.toReader_of_ok loaded)
  subst ended
  have last := valid.unknown segment answer.1 located _ _ _ _ skipped
  refine ⟨congrArg (Option.map Prod.snd) located, ?_⟩
  rw [last, bytes, List.length_append, List.length_append, Nat.add_assoc, Nat.add_assoc]

/-- A block stays what it is when the block of another segment has been read. -/
theorem Valid.of_loadBlock (independent : format.Independent part) {other : WireBlock}
    (different : block.label ≠ other.label) {object middle : Structured φ} {cursor after : Cursor}
    {answer : Nat × Bool} (valid : block.Valid format limit object.fields)
    (named : format.layout.slotOf? other.header.wireType other.header.index = some answer.1)
    (ran : Structured.loadBlock format (object, cursor) = .ok answer (middle, after)) :
    block.Valid format limit middle.fields := by
  refine valid.of_part_eq independent fun slot own => ?_
  have slots := Layout.slot_ne_of_label_ne different own named
  exact (Structured.part_of_loadBlock independent ran slots).symm

end WireBlock

namespace Structured

variable {φ π : Type} {format : SegmentFormat φ} {part : Nat → φ → π} {limit : Nat}

/-- The blocks are read one after the other, wherever they stand and whatever follows them.  Each
gives its slot and whether fields were passed over. -/
inductive Reads (format : SegmentFormat φ) (limit : Nat) :
    List WireBlock → List (Nat × Bool) → Structured φ → Structured φ → Prop where
  | nil {object : Structured φ} : Reads format limit [] [] object object
  | cons {block : WireBlock} {blocks : List WireBlock} {answer : Nat × Bool}
      {answers : List (Nat × Bool)} {object middle final : Structured φ}
      (named : format.layout.slotOf? block.header.wireType block.header.index = some answer.1)
      (fills : Loader.Fills (loadBlock format) limit block.bytes object answer middle)
      (rest : Reads format limit blocks answers middle final) :
      Reads format limit (block :: blocks) (answer :: answers) object final

/-! ## Exchanging blocks -/

/-- Two blocks for different segments that are next to each other. -/
theorem Reads.swap (independent : format.Independent part) {first second : WireBlock}
    {blocks : List WireBlock} (different : first.label ≠ second.label)
    (within : first.bytes.length ≤ limit) (otherWithin : second.bytes.length ≤ limit)
    {answers : List (Nat × Bool)} {object final : Structured φ}
    (reads : Reads format limit (first :: second :: blocks) answers object final) :
    ∃ others, Reads format limit (second :: first :: blocks) others object final ∧
      answers.Perm others := by
  cases reads with
  | cons named fills reads =>
    cases reads with
    | cons otherNamed otherFills rest =>
      have confined := loadBlock_confined independent.confined
      have slots := Layout.slot_ne_of_label_ne different named otherNamed
      obtain ⟨between, secondNow, firstNow⟩ :=
        loadBlock_commute independent (fills [] 0) (otherFills [] 0) slots
      exact ⟨_, .cons otherNamed (confined.fills otherWithin secondNow)
        (.cons named (confined.fills within firstNow) rest), .swap _ _ _⟩

/-- The order of blocks for different segments does not matter. -/
theorem Reads.perm (independent : format.Independent part) {blocks permuted : List WireBlock}
    (perm : blocks.Perm permuted) (apart : (blocks.map WireBlock.label).Nodup)
    (within : ∀ block ∈ blocks, block.bytes.length ≤ limit) {answers : List (Nat × Bool)}
    {object final : Structured φ} (reads : Reads format limit blocks answers object final) :
    ∃ others, Reads format limit permuted others object final ∧ answers.Perm others := by
  induction perm generalizing object answers with
  | nil => exact ⟨answers, reads, .refl _⟩
  | cons block _ ih =>
    cases reads with
    | cons named fills rest =>
      obtain ⟨others, readsRest, same⟩ := ih (List.nodup_cons.mp apart).2
        (fun other member => within other (List.mem_cons_of_mem _ member)) rest
      exact ⟨_, .cons named fills readsRest, same.cons _⟩
  | swap first second blocks =>
    have different : second.label ≠ first.label := by
      intro same
      exact (List.nodup_cons.mp apart).1 (same ▸ List.mem_cons_self)
    exact reads.swap independent different (within second List.mem_cons_self)
      (within first (List.mem_cons_of_mem _ List.mem_cons_self))
  | trans firstPerm _ ih ihThen =>
    obtain ⟨between, readsBetween, same⟩ := ih apart within reads
    obtain ⟨others, readsOthers, sameThen⟩ := ihThen ((firstPerm.map _).nodup_iff.mp apart)
      (fun block member => within block (firstPerm.mem_iff.mpr member)) readsBetween
    exact ⟨others, readsOthers, same.trans sameThen⟩

/-! ## The loop -/

/-- The loop reads the blocks one after the other and ends behind the last one. -/
theorem reads_of_loadBlocks (independent : format.Independent part) {blocks : List WireBlock}
    {object final : Structured φ} (valid : ∀ block ∈ blocks, block.Valid format limit object.fields)
    (apart : (blocks.map WireBlock.label).Nodup)
    (within : ∀ block ∈ blocks, block.bytes.length ≤ limit) {tail : Bytes}
    {start declared fuel pos : Nat} (begun : start ≤ pos)
    (ends : pos + (WireBlock.body blocks).length = start + declared)
    (fueled : (WireBlock.body blocks).length ≤ fuel) {slots : List Nat} {passed : Bool}
    {after : Cursor}
    (ran : loadBlocks format start declared fuel
        (object, ⟨WireBlock.body blocks ++ tail, pos, limit⟩) =
      .ok (slots, passed) (final, after)) :
    ∃ answers, Reads format limit blocks answers object final ∧ slots = answers.map (·.1) ∧
      passed = answers.any (·.2) ∧
      after = ⟨tail, pos + (WireBlock.body blocks).length, limit⟩ := by
  induction blocks generalizing object fuel pos slots passed with
  | nil =>
    cases (loadBlocks_of_end ends).symm.trans ran
    exact ⟨[], .nil, rfl, rfl, rfl⟩
  | cons block blocks ih =>
    have here := valid block List.mem_cons_self
    have positive := here.length_pos
    rw [WireBlock.body_cons, List.length_append] at ends fueled
    cases fuel with
    | zero => omega
    | succ fuel =>
      have inside : pos - start < declared := by omega
      obtain ⟨slot, skipped, slots, more, middle, place, first, looped, rfl, rfl⟩ :=
        loadBlocks_succ_eq_ok inside ran
      rw [WireBlock.body_cons, List.append_assoc] at first
      obtain ⟨named, rfl⟩ := here.loadBlock_eq_ok first
      have fills := (loadBlock_confined independent.confined).fills
        (within block List.mem_cons_self) first
      obtain ⟨fresh, apartRest⟩ := List.nodup_cons.mp apart
      have validRest : ∀ other ∈ blocks, other.Valid format limit middle.fields := by
        intro other member
        have different : other.label ≠ block.label := fun same =>
          fresh (same ▸ List.mem_map_of_mem member)
        exact (valid other (List.mem_cons_of_mem _ member)).of_loadBlock independent different
          named first
      obtain ⟨answers, reads, rfl, rfl, rfl⟩ := ih validRest apartRest
        (fun other member => within other (List.mem_cons_of_mem _ member))
        (Nat.le_add_right_of_le begun) (by omega) (by omega) looped
      refine ⟨(slot, skipped) :: answers, .cons named fills reads, rfl, rfl, ?_⟩
      rw [WireBlock.body_cons, List.length_append, Nat.add_assoc]

theorem Reads.loadBlocks_eq {blocks : List WireBlock} {answers : List (Nat × Bool)}
    {object final : Structured φ} (reads : Reads format limit blocks answers object final)
    (positive : ∀ block ∈ blocks, 0 < block.bytes.length) (tail : Bytes)
    {start declared fuel pos : Nat} (begun : start ≤ pos)
    (ends : pos + (WireBlock.body blocks).length = start + declared)
    (fueled : (WireBlock.body blocks).length ≤ fuel) :
    loadBlocks format start declared fuel
        (object, ⟨WireBlock.body blocks ++ tail, pos, limit⟩) =
      .ok (answers.map (·.1), answers.any (·.2))
        (final, ⟨tail, pos + (WireBlock.body blocks).length, limit⟩) := by
  induction reads generalizing fuel pos with
  | nil => exact loadBlocks_of_end ends
  | @cons block blocks answer answers object middle final named fills rest ih =>
    have progress := positive block List.mem_cons_self
    rw [WireBlock.body_cons, List.length_append] at ends fueled ⊢
    cases fuel with
    | zero => omega
    | succ fuel =>
      have inside : pos - start < declared := by omega
      have laterBegun : start ≤ pos + block.bytes.length := by omega
      have laterEnds : pos + block.bytes.length + (WireBlock.body blocks).length =
          start + declared := by omega
      have laterFueled : (WireBlock.body blocks).length ≤ fuel := by omega
      have looped := ih (fun other member => positive other (List.mem_cons_of_mem _ member))
        laterBegun laterEnds laterFueled
      rw [List.append_assoc, ← Nat.add_assoc]
      exact loadBlocks_of_block inside (fills _ _) looped

/-! ## Envelopes -/

/-- An envelope is read if and only if its length tag is in order and its blocks are read one after
the other, every segment with required fields among them. -/
theorem load_eq_ok_iff_reads (independent : format.Independent part) {blocks : List WireBlock}
    {start final : Structured φ} (valid : ∀ block ∈ blocks, block.Valid format limit start.fields)
    (apart : (blocks.map WireBlock.label).Nodup) {tag : Bytes} {word : UInt64}
    (spelled : Varint.Spells tag word)
    (counted : LengthTag.count word = (WireBlock.body blocks).length) {tail : Bytes} {pos : Nat}
    {after : Cursor} :
    load format (start, ⟨tag ++ (WireBlock.body blocks ++ tail), pos, limit⟩) =
        .ok () (final, after) ↔
      LengthTag.scheme word = .list ∧ (WireBlock.body blocks).length ≤ limit ∧
        after = ⟨tail, pos + tag.length + (WireBlock.body blocks).length, limit⟩ ∧
        ∃ answers object,
          Reads format limit blocks answers
            { start with presence := start.presence.clear } object ∧
          format.layout.firstUnseen? (answers.map (·.1)) = none ∧
          final = { object with
            memo := if answers.any (·.2) then none else some (WireBlock.body blocks).length } := by
  constructor
  · intro ran
    obtain ⟨tagSize, declared, slots, passed, object, opened, looped, _, allSeen, rfl⟩ :=
      load_eq_ok ran
    obtain ⟨listed, declares, within, _, moved⟩ :=
      (Reader.openSpan_iff_of_spells spelled).mp opened
    obtain rfl : (WireBlock.body blocks).length = declared := counted.symm.trans declares
    rw [moved] at looped
    have withinEach : ∀ block ∈ blocks, block.bytes.length ≤ limit := fun block member =>
      Nat.le_trans (WireBlock.length_bytes_le_body member) within
    let cleared : Structured φ := { start with presence := start.presence.clear }
    have validNow : ∀ block ∈ blocks, block.Valid format limit cleared.fields := valid
    obtain ⟨answers, reads, rfl, rfl, rfl⟩ := reads_of_loadBlocks independent validNow apart
      withinEach (Nat.le_refl _) rfl (Nat.le_refl _) looped
    exact ⟨listed, within, rfl, answers, object, reads, allSeen, rfl⟩
  · rintro ⟨listed, within, rfl, answers, object, reads, allSeen, rfl⟩
    have there : (WireBlock.body blocks).length ≤ (WireBlock.body blocks ++ tail).length := by simp
    have opened : Reader.openSpan ⟨tag ++ (WireBlock.body blocks ++ tail), pos, limit⟩ =
        .ok (WireBlock.body blocks).length _ :=
      (Reader.openSpan_iff_of_spells spelled).mpr ⟨listed, counted, within, there, rfl⟩
    have looped := reads.loadBlocks_eq (fun block member => (valid block member).length_pos) tail
      (Nat.le_refl (pos + tag.length)) rfl (Nat.le_refl _)
    exact load_of_span opened looped (Nat.add_sub_cancel_left _ _) allSeen

/-- Blocks that are read in one order are read in every other, with the same result. -/
theorem load_of_perm (independent : format.Independent part) {blocks permuted : List WireBlock}
    (perm : blocks.Perm permuted) {start final : Structured φ}
    (valid : ∀ block ∈ blocks, block.Valid format limit start.fields)
    (apart : (blocks.map WireBlock.label).Nodup) {tag : Bytes} {word : UInt64}
    (spelled : Varint.Spells tag word)
    (counted : LengthTag.count word = (WireBlock.body blocks).length) {tail : Bytes} {pos : Nat}
    {after : Cursor}
    (ran : load format (start, ⟨tag ++ (WireBlock.body blocks ++ tail), pos, limit⟩) =
      .ok () (final, after)) :
    load format (start, ⟨tag ++ (WireBlock.body permuted ++ tail), pos, limit⟩) =
      .ok () (final, after) := by
  have lengths := WireBlock.length_body_perm perm
  have validPermuted : ∀ block ∈ permuted, block.Valid format limit start.fields :=
    fun block member => valid block (perm.mem_iff.mpr member)
  have apartPermuted := (perm.map WireBlock.label).nodup_iff.mp apart
  obtain ⟨listed, within, rfl, answers, object, reads, allSeen, rfl⟩ :=
    (load_eq_ok_iff_reads independent valid apart spelled counted).mp ran
  obtain ⟨others, readsPermuted, same⟩ := reads.perm independent perm apart fun block member =>
    Nat.le_trans (WireBlock.length_bytes_le_body member) within
  rw [Layout.firstUnseen?_perm _ (same.map _)] at allSeen
  rw [lengths] at within counted
  refine (load_eq_ok_iff_reads independent validPermuted apartPermuted spelled counted).mpr
    ⟨listed, within, ?_, others, object, readsPermuted, allSeen, ?_⟩
  · rw [lengths]
  · rw [same.any_eq, lengths]

end Structured

/-! ## Writing again -/

/-- The values of some field sets, each as they are when its turn comes. -/
def SegmentFormat.valuesOf {φ : Type} (format : SegmentFormat φ) : List FieldSet → φ → List Bytes
  | [], _ => []
  | set :: sets, fields =>
    (format.encode set fields).1 :: format.valuesOf sets (format.encode set fields).2

theorem SegmentFormat.blocks_eq_zipWith {φ : Type} (format : SegmentFormat φ) (sets : List FieldSet)
    (fields : φ) : (format.blocks sets fields).1 =
      (List.zipWith (fun set values => set.encode ++ values) sets
        (format.valuesOf sets fields)).flatten := by
  induction sets generalizing fields with
  | nil => rfl
  | cons set sets ih =>
    rw [valuesOf, List.zipWith_cons_cons, List.flatten_cons, ← ih]
    rfl

namespace Structured

variable {φ π : Type} {format : SegmentFormat φ} {part : Nat → φ → π} {limit : Nat}

/-- A structure writes a block for each field set that is not empty, in the order of its presence. -/
theorem encode_eq_zipWith (object : Structured φ) :
    (encode format object).1 = Write.word (LengthTag.span (size format object).1) ++
      (List.zipWith (fun set values => set.encode ++ values) object.presence.written
        (format.valuesOf object.presence.written (size format object).2.fields)).flatten := by
  have same : (size format object).2.presence = object.presence := presence_size object
  rw [← SegmentFormat.blocks_eq_zipWith, ← same]
  rfl

theorem Slotted.labels_eq {layout : Layout} {object : Structured φ}
    (slotted : object.Slotted layout) :
    object.presence.map FieldSet.label = layout.map Segment.label := by
  have labels := congrArg (List.map FieldSet.label) slotted
  rw [Presence.clear, Presence.clear, Layout.fresh, List.map_map, List.map_map, List.map_map]
    at labels
  exact labels

/-- What is written stands in the order of the layout. -/
theorem Slotted.written_sublist {layout : Layout} {object : Structured φ}
    (slotted : object.Slotted layout) :
    (object.presence.written.map FieldSet.label).Sublist (layout.map Segment.label) := by
  rw [← slotted.labels_eq]
  exact List.filter_sublist.map _

/-- Blocks for different segments can be put in any order: the envelope is then read if and only if
it was read before, up to the same place, and the structure is the same, with the same presence, the
same fields and the same remembered size.  Written again, its blocks stand in the order of the
layout. -/
theorem load_permuted (independent : format.Independent part) {blocks permuted : List WireBlock}
    (perm : blocks.Perm permuted) {start : Structured φ} (slotted : start.Slotted format.layout)
    (valid : ∀ block ∈ blocks, block.Valid format limit start.fields)
    (apart : (blocks.map WireBlock.label).Nodup) {tag : Bytes} {word : UInt64}
    (spelled : Varint.Spells tag word)
    (counted : LengthTag.count word = (WireBlock.body blocks).length) (tail : Bytes) (pos : Nat) :
    (∀ final after,
      load format (start, ⟨tag ++ (WireBlock.body blocks ++ tail), pos, limit⟩) =
          .ok () (final, after) ↔
        load format (start, ⟨tag ++ (WireBlock.body permuted ++ tail), pos, limit⟩) =
          .ok () (final, after)) ∧
    ∀ final after,
      load format (start, ⟨tag ++ (WireBlock.body blocks ++ tail), pos, limit⟩) =
          .ok () (final, after) →
        after = ⟨tail, pos + tag.length + (WireBlock.body blocks).length, limit⟩ ∧
        (final.presence.written.map FieldSet.label).Sublist (format.layout.map Segment.label) ∧
        (encode format final).1 = Write.word (LengthTag.span (size format final).1) ++
          (List.zipWith (fun set values => set.encode ++ values) final.presence.written
            (format.valuesOf final.presence.written (size format final).2.fields)).flatten := by
  have validPermuted : ∀ block ∈ permuted, block.Valid format limit start.fields :=
    fun block member => valid block (perm.mem_iff.mpr member)
  have apartPermuted := (perm.map WireBlock.label).nodup_iff.mp apart
  have countedPermuted := counted.trans (WireBlock.length_body_perm perm)
  constructor
  · intro final after
    constructor
    · exact load_of_perm independent perm valid apart spelled counted
    · exact load_of_perm independent perm.symm validPermuted apartPermuted spelled countedPermuted
  · intro final after ran
    have moved := ((load_eq_ok_iff_reads independent valid apart spelled counted).mp ran).2.2.1
    have slottedAfter : final.Slotted format.layout := keeps_slotted.ok _ _ _ _ _ slotted ran
    exact ⟨moved, slottedAfter.written_sublist, encode_eq_zipWith final⟩

/-- Three blocks for a sample: a counter, a label with an unknown field behind it, and a value. -/
def sampleBlocks : List WireBlock :=
  [⟨⟨.varint, 1, 0x08⟩, [0x0d, 0x00], [0x03], []⟩,
    ⟨⟨.list, 0, 0x18⟩, [0x18], [0x04, 0x61], [0x00]⟩,
    ⟨⟨.eightByte, 0, 0x08⟩, [0x0b], [0, 0, 0, 0, 0, 0, 0, 1], []⟩]

theorem sampleBlocks_valid {block : WireBlock} (member : block ∈ sampleBlocks) :
    block.Valid (Record.segments Record.Catalog.sample) 20
      (Record.Fields.initial Record.Catalog.sample) := by
  let fields := Record.Fields.initial Record.Catalog.sample
  let counted := Record.put 3 0 (.long (ZigZag.toLong 3)) fields
  let labelled := Record.put 1 0 (.text (Text.ofWire [0x61])) fields
  let valued := Record.put 0 0 (.double (Binary64.ofWire [0, 0, 0, 0, 0, 0, 0, 1])) fields
  rcases member with _ | ⟨_, _ | ⟨_, _ | ⟨_, none⟩⟩⟩
  · exact WireBlock.valid_of_takes counted rfl (fun _ _ => rfl) (fun _ _ => rfl) fun _ _ => rfl
  · exact WireBlock.valid_of_takes labelled rfl (fun _ _ => rfl) (fun _ _ => rfl) fun _ _ => rfl
  · exact WireBlock.valid_of_takes valued rfl (fun _ _ => rfl) (fun _ _ => rfl) fun _ _ => rfl
  · cases none

/-- The three blocks from the last segment of the layout to the first, and in the order of the
layout.  One more byte follows. -/
theorem load_permuted_example :
    let format := Record.segments Record.Catalog.sample
    (format.Independent Record.partOf ∧ sampleBlocks.Perm sampleBlocks.reverse ∧
        (empty format).Slotted format.layout ∧
        (∀ block ∈ sampleBlocks, block.Valid format 20 (empty format).fields) ∧
        (sampleBlocks.map WireBlock.label).Nodup ∧ Varint.Spells [0x40] 0x40 ∧
        LengthTag.count 0x40 = (WireBlock.body sampleBlocks).length) ∧
      ∃ final,
        load format (empty format,
            ⟨[0x40] ++ (WireBlock.body sampleBlocks.reverse ++ [0xff]), 7, 20⟩) =
          .ok () (final, ⟨[0xff], 24, 20⟩) ∧
        (final.presence.written.map FieldSet.label).Sublist (format.layout.map Segment.label) := by
  intro format
  have independent : format.Independent Record.partOf :=
    Record.segments_independent (by decide)
  have perm : sampleBlocks.Perm sampleBlocks.reverse := (List.reverse_perm _).symm
  have slotted : (empty format).Slotted format.layout := rfl
  have valid : ∀ block ∈ sampleBlocks, block.Valid format 20 (empty format).fields :=
    fun _ => sampleBlocks_valid
  have apart : (sampleBlocks.map WireBlock.label).Nodup := by decide
  have spelled : Varint.Spells [0x40] 0x40 := rfl
  have counted : LengthTag.count 0x40 = (WireBlock.body sampleBlocks).length := rfl
  have ran : load format (empty format,
      ⟨[0x40] ++ (WireBlock.body sampleBlocks ++ [0xff]), 7, 20⟩) = .ok () (_, _) := rfl
  obtain ⟨same, layoutOrder⟩ :=
    load_permuted independent perm slotted valid apart spelled counted [0xff] 7
  exact ⟨⟨independent, perm, slotted, valid, apart, spelled, counted⟩, _, (same _ _).mp ran,
    (layoutOrder _ _ ran).2.1⟩

end Structured

end FieldWire
