import FieldWire.Proofs.Record
import FieldWire.Record.Catalog

/-!
# What decides a slot

An object that a structure is read into may hold anything before.  Afterwards each slot holds what the
last block for it says, and nothing if there is none: the known part of the header of that block and
the values that follow this header.  Blocks for other slots, earlier blocks for the same one and the
state before leave no trace.
-/

set_option autoImplicit false

namespace FieldWire

/-- A block as it was read: where it belongs, which fields its header names, and the values of those
that are known. -/
structure Block (ν : Type) where
  slot : Nat
  header : FieldSet
  values : List ν

namespace Block

variable {ν : Type}

/-- The last of some blocks that belongs to a slot. -/
def last? (slot : Nat) (blocks : List (Block ν)) : Option (Block ν) :=
  (blocks.filter fun block => block.slot == slot).getLast?

theorem last?_cons_self (block : Block ν) (blocks : List (Block ν)) :
    last? block.slot (block :: blocks) = some ((last? block.slot blocks).getD block) := by
  simp [last?, List.getLast?_cons]

theorem last?_cons_of_ne {slot : Nat} {block : Block ν} (blocks : List (Block ν))
    (different : block.slot ≠ slot) : last? slot (block :: blocks) = last? slot blocks := by
  simp [last?, different]

theorem last?_eq_none_iff {slot : Nat} {blocks : List (Block ν)} :
    last? slot blocks = none ↔ slot ∉ blocks.map Block.slot := by
  simp [last?]

end Block

namespace Structured

variable {φ ν : Type} {format : SegmentFormat φ} {value : Nat → UInt64 → φ → ν}
  {field : Nat → UInt64 → Reader ν} {State : φ → Prop} {layout : Layout} {stop : Nat}

/-- The blocks that follow each other from one cursor to another.  Each begins in front of `stop`;
only the last one may reach beyond it. -/
inductive Blocks (layout : Layout) (field : Nat → UInt64 → Reader ν) (stop : Nat) :
    Cursor → List (Block ν) → Cursor → Prop where
  | nil (cursor : Cursor) : Blocks layout field stop cursor [] cursor
  | cons {slot : Nat} {header : FieldSet} {values : List ν} {blocks : List (Block ν)}
      {segment : Segment} {cursor middle place next after : Cursor} (inside : cursor.pos < stop)
      (announced : FieldSet.read cursor = .ok header middle) (found : layout[slot]? = some segment)
      (wireType : segment.wireType = header.wireType) (index : segment.index = header.index)
      (complete : header.missing segment.required = 0)
      (known : (segment.restrict header).presentFields.mapM (field slot) middle = .ok values place)
      (unknown : ((fieldsOf (header.bits &&& ~~~segment.known)).forM fun _ =>
        Reader.skip segment.wireType) place = .ok () next)
      (rest : Blocks layout field stop next blocks after) :
      Blocks layout field stop cursor (⟨slot, header, values⟩ :: blocks) after

/-- The bytes in front of a place are blocks in one way only. -/
theorem Blocks.unique (distinct : layout.Distinct) {cursor after there : Cursor}
    {blocks others : List (Block ν)} (first : Blocks layout field stop cursor blocks after)
    (second : Blocks layout field stop cursor others there) (reached : stop ≤ after.pos)
    (alsoReached : stop ≤ there.pos) : others = blocks := by
  induction first generalizing others with
  | nil cursor =>
    cases second with
    | nil => rfl
    | cons inside _ _ _ _ _ _ _ _ => omega
  | cons inside announced found wireType index _ known unknown _ ih =>
    cases second with
    | nil => omega
    | cons _ again otherFound otherType otherIndex _ otherKnown otherUnknown otherRest =>
      obtain ⟨rfl, rfl⟩ := EStateM.Result.ok.inj (announced.symm.trans again)
      have located := Layout.locate?_of_getElem? distinct found
      rw [wireType, index, ← otherType, ← otherIndex,
        Layout.locate?_of_getElem? distinct otherFound] at located
      obtain ⟨rfl, rfl⟩ := Prod.mk.inj (Option.some.inj located)
      obtain ⟨rfl, rfl⟩ := EStateM.Result.ok.inj (known.symm.trans otherKnown)
      obtain ⟨_, rfl⟩ := EStateM.Result.ok.inj (unknown.symm.trans otherUnknown)
      rw [ih otherRest reached]

/-- What some blocks make of an object, slot by slot. -/
structure Settles (layout : Layout) (value : Nat → UInt64 → φ → ν) (object : Structured φ)
    (blocks : List (Block ν)) (final : Structured φ) : Prop where
  length : final.presence.length = object.presence.length
  untouched : ∀ slot, Block.last? slot blocks = none →
    final.presence[slot]? = object.presence[slot]? ∧
      ∀ key, value slot key final.fields = value slot key object.fields
  decided : ∀ slot block, Block.last? slot blocks = some block →
    ∃ segment : Segment, layout[slot]? = some segment ∧
      block.header.Proper ∧ block.header.missing segment.required = 0 ∧
      final.presence[slot]? = some (segment.restrict block.header) ∧
      block.values = (segment.restrict block.header).presentFields.map fun key =>
        value slot key final.fields

theorem Settles.nil (object : Structured φ) : Settles layout value object [] object where
  length := rfl
  untouched _ _ := ⟨rfl, fun _ => rfl⟩
  decided _ _ there := by cases there

/-- One more block in front.  It decides its slot only if no later block does. -/
theorem Settles.cons {object final : Structured φ} {segment : Segment} {block : Block ν}
    {blocks : List (Block ν)} {filled : φ} (found : layout[block.slot]? = some segment)
    (slots : object.presence.length = layout.length) (proper : block.header.Proper)
    (complete : block.header.missing segment.required = 0)
    (values : block.values = (segment.restrict block.header).presentFields.map fun key =>
      value block.slot key filled)
    (framed : ∀ other key, other ≠ block.slot → value other key filled = value other key object.fields)
    (rest : Settles layout value ⟨object.presence.replace block.slot (segment.restrict block.header),
      object.memo, filled⟩ blocks final) : Settles layout value object (block :: blocks) final where
  length := rest.length.trans List.length_set
  untouched slot none := by
    have different : block.slot ≠ slot := by
      rintro rfl
      rw [Block.last?_cons_self] at none
      cases none
    rw [Block.last?_cons_of_ne blocks different] at none
    obtain ⟨presence, kept⟩ := rest.untouched slot none
    refine ⟨presence.trans (List.getElem?_set_ne different), fun key => ?_⟩
    exact (kept key).trans (framed slot key different.symm)
  decided slot last there := by
    by_cases same : block.slot = slot
    · subst same
      rw [Block.last?_cons_self] at there
      cases later : Block.last? block.slot blocks with
      | some other =>
        rw [later] at there
        cases there
        exact rest.decided block.slot other later
      | none =>
        rw [later] at there
        obtain rfl : block = last := Option.some.inj there
        obtain ⟨presence, kept⟩ := rest.untouched block.slot later
        have inside : block.slot < object.presence.length := by
          rw [slots]
          exact (List.getElem?_eq_some_iff.mp found).1
        refine ⟨segment, found, proper, complete, presence.trans (List.getElem?_set_self inside), ?_⟩
        rw [values]
        exact List.map_congr_left fun key _ => (kept key).symm
    · rw [Block.last?_cons_of_ne blocks same] at there
      exact rest.decided slot last there

/-- The loop reads blocks, and the object is what they make of it. -/
theorem blocks_of_loadBlocks (reads : format.ReadsFields State value field)
    {start declared fuel : Nat} {object final : Structured φ} {cursor after : Cursor}
    {seen : List Nat} {skipped : Bool}
    (ran : loadBlocks format start declared fuel (object, cursor) = .ok (seen, skipped) (final, after))
    (state : State object.fields) (slots : object.presence.length = format.layout.length) :
    ∃ blocks, Blocks format.layout field (start + declared) cursor blocks after ∧
      seen = blocks.map Block.slot ∧ Settles format.layout value object blocks final := by
  revert state slots
  refine loadBlocks_induction (motive := fun object cursor seen _ final after =>
    State object.fields → object.presence.length = format.layout.length →
      ∃ blocks, Blocks format.layout field (start + declared) cursor blocks after ∧
        seen = blocks.map Block.slot ∧ Settles format.layout value object blocks final) ?_ ?_ ran
  · intro object cursor _ _
    exact ⟨[], .nil cursor, rfl, .nil object⟩
  · intro object cursor slot passed middle here seen more final after inside block looped state slots
    obtain ⟨header, segment, named, filled, place, announced, located, complete, loaded, unknown, _,
      rfl⟩ := loadBlock_eq_ok_iff.mp block
    obtain ⟨found, sameType, sameIndex⟩ := Layout.locate?_eq_some located
    obtain ⟨kept, known, framed⟩ := reads slot segment header _ _ _ _ state found complete loaded
    obtain ⟨blocks, isRun, rfl, settles⟩ := looped kept (List.length_set.trans slots)
    have inFront : cursor.pos < start + declared := by omega
    refine ⟨_ :: blocks, .cons inFront announced found sameType sameIndex complete known unknown isRun,
      rfl, ?_⟩
    exact .cons found slots (FieldSet.read_costs announced).1 complete rfl framed settles

/-- After a structure was read, into whatever object, the declared bytes are blocks in exactly one way,
and each slot is decided by the last block for it: the present fields are those of its header that
are known, none if it has no block, and their values are the ones that were read from that block.
All required fields are there, if they are known, and no unknown one. -/
theorem load_eq_lastBlocks (distinct : format.layout.Distinct)
    (reads : format.ReadsFields State value field) {start final : Structured φ}
    {cursor after : Cursor} (state : State start.fields)
    (slots : start.presence.length = format.layout.length)
    (ran : load format (start, cursor) = .ok () (final, after)) :
    ∃ declared body blocks, Reader.openSpan cursor = .ok declared body ∧
      after.pos = body.pos + declared ∧
      Blocks format.layout field (body.pos + declared) body blocks after ∧
      (∀ others there, Blocks format.layout field (body.pos + declared) body others there →
        body.pos + declared ≤ there.pos → others = blocks) ∧
      final.presence.length = format.layout.length ∧
      ∀ (slot : Nat) (segment : Segment), format.layout[slot]? = some segment →
        ∃ set, final.presence[slot]? = some set ∧
          set.bits = (Block.last? slot blocks).elim 0 (fun block =>
            block.header.bits &&& segment.known) ∧
          (segment.required &&& ~~~segment.known = 0 → set.missing segment.required = 0) ∧
          set.bits &&& ~~~segment.known = 0 ∧
          ∀ block, Block.last? slot blocks = some block →
            block.values = set.presentFields.map fun key => value slot key final.fields := by
  obtain ⟨tagSize, declared, seen, skipped, object, opened, looped, consumed, allSeen, rfl⟩ :=
    load_eq_ok ran
  have cleared : start.presence.clear.length = format.layout.length := (List.length_map _).trans slots
  obtain ⟨blocks, isRun, rfl, settles⟩ := blocks_of_loadBlocks reads looped state cleared
  have ended : after.pos = (cursor.advance tagSize).pos + declared := by
    cases isRun with
    | nil => omega
    | cons inside _ _ _ _ _ _ _ _ => omega
  refine ⟨declared, _, blocks, opened, ended, isRun, ?_, settles.length.trans cleared, ?_⟩
  · intro others there again reached
    exact isRun.unique distinct again (Nat.le_of_eq ended.symm) reached
  intro slot segment found
  cases last : Block.last? slot blocks with
  | none =>
    obtain ⟨presence, _⟩ := settles.untouched slot last
    have inside : slot < start.presence.length := by
      rw [slots]
      exact (List.getElem?_eq_some_iff.mp found).1
    have unneeded : segment.required = 0 := by
      by_contra required
      exact Block.last?_eq_none_iff.mp last
        ((Layout.firstUnseen?_eq_none_iff _ _).mp allSeen slot segment found required)
    refine ⟨{ start.presence[slot] with bits := 0 }, ?_, rfl, fun _ => ?_, UInt64.zero_and, ?_⟩
    · refine presence.trans ?_
      simp [Presence.clear, inside]
    · rw [FieldSet.missing, unneeded, UInt64.zero_and]
    · intro block there
      cases there
  | some block =>
    obtain ⟨own, ownFound, proper, complete, presence, values⟩ := settles.decided slot block last
    obtain rfl : own = segment := Option.some.inj (ownFound.symm.trans found)
    refine ⟨own.restrict block.header, presence, Segment.bits_restrict proper, fun inKnown => ?_,
      own.known_restrict _, ?_⟩
    · exact ((Segment.wellFormed_of_complete proper complete inKnown).admits complete).complete
    · rintro _ ⟨⟩
      exact values

/-- Two blocks for each segment, the third with an unknown field behind the date, read into a chunk
that held another signature and an object: the last block for the signature has no object.  And two
blocks for a number and a flag, the last one with the flag alone, read into a record with a label:
neither the label nor the number of the first block is present. -/
theorem load_eq_lastBlocks_examples :
    let chunks := SignedChunk.segments
    let chunk : SignedChunk :=
      ⟨[⟨.eightByte, 0, 0⟩, ⟨.list, 0, 0x18⟩], some 7, ⟨Binary64.zero, [0xff], some [0x04, 0x02]⟩⟩
    let cursor := Cursor.ofBytes [0x84, 0x01, 0x0b, 1, 1, 1, 1, 1, 1, 1, 1, 0x18, 0x04, 0xaa, 0x00,
      0x1b, 2, 2, 2, 2, 2, 2, 2, 2, 3, 3, 3, 3, 3, 3, 3, 3, 0x08, 0x04, 0xbb] 33
    let table := Record.Catalog.sample
    let records := Record.segments table
    let record : Record := (Record.format table).empty.mark 1 (fieldBit 0) true
    let body := Cursor.ofBytes [0x38, 0x19, 0x02, 0x01, 0x0b, 1, 1, 1, 1, 1, 1, 1, 1, 0x11, 0x01] 14
    ∃ chunkAfter recordAfter,
      ((chunks.layout.Distinct ∧
        chunks.ReadsFields (fun _ => True) SignedChunk.fieldValue SignedChunk.readField ∧
        chunk.presence.length = chunks.layout.length ∧
        load chunks (chunk, cursor) = .ok () (chunkAfter, cursor.advance 35)) ∧
      ∃ blocks signed, Blocks chunks.layout SignedChunk.readField 35 (cursor.advance 2) blocks
          (cursor.advance 35) ∧
        Block.last? 1 blocks = some signed ∧ signed.values = [.inr (some [0xbb])]) ∧
      (records.layout.Distinct ∧
        records.ReadsFields (Record.Fits table) Record.fieldValue (Record.readField table) ∧
        Record.Fits table record.fields ∧ record.presence.length = records.layout.length ∧
        load records (record, body) = .ok () (recordAfter, body.advance 15)) ∧
      recordAfter.presence.map FieldSet.bits = [0x08, 0, 0x10, 0] ∧
      ∃ blocks flagged, Blocks records.layout (Record.readField table) 15 (body.advance 1) blocks
          (body.advance 15) ∧
        Block.last? 2 blocks = some flagged ∧ flagged.values = [some (.bool true)] := by
  intro chunks chunk cursor table records record body
  have ordered : Record.Table.Ordered table := ⟨by decide, by decide⟩
  have distinct : records.layout.Distinct := by decide
  have chunkReads := SignedChunk.segments_readsFields
  have recordReads := Record.segments_readsFields ordered distinct
  have recordFits : Record.Fits table record.fields := Record.fits_initial ordered
  have chunkRan : load chunks (chunk, cursor) = .ok () (_, cursor.advance 35) := rfl
  obtain ⟨recordAfter, recordRan, presence, flag⟩ : ∃ after,
      load records (record, body) = .ok () (after, body.advance 15) ∧
      after.presence = [⟨.eightByte, 0, 0x08⟩, ⟨.list, 0, 0⟩, ⟨.varint, 0, 0x10⟩, ⟨.varint, 1, 0⟩] ∧
      Record.fieldValue 2 (fieldBit 1) after.fields = some (.bool true) := by
    dsimp only [records, record, body, table]
    exact ⟨_, rfl, rfl, rfl⟩
  refine ⟨_, recordAfter, ⟨⟨SignedChunk.distinct, chunkReads, rfl, chunkRan⟩, ?_⟩,
    ⟨distinct, recordReads, recordFits, rfl, recordRan⟩, congrArg (List.map FieldSet.bits) presence, ?_⟩
  · obtain ⟨declared, start, blocks, opened, _, isRun, _, _, slots⟩ :=
      load_eq_lastBlocks SignedChunk.distinct chunkReads trivial rfl chunkRan
    have spanned : Reader.openSpan cursor = .ok 33 (cursor.advance 2) := rfl
    obtain ⟨rfl, rfl⟩ := EStateM.Result.ok.inj (spanned.symm.trans opened)
    obtain ⟨set, there, bits, _, _, values⟩ := slots 1 _ rfl
    obtain rfl : ⟨.list, 0, 0x08⟩ = set := Option.some.inj there
    cases last : Block.last? 1 blocks with
    | none =>
      rw [last] at bits
      exact absurd bits (by decide)
    | some signed => exact ⟨blocks, signed, isRun, last, values signed last⟩
  · obtain ⟨declared, start, blocks, opened, _, isRun, _, _, slots⟩ :=
      load_eq_lastBlocks distinct recordReads recordFits rfl recordRan
    have spanned : Reader.openSpan body = .ok 14 (body.advance 1) := rfl
    obtain ⟨rfl, rfl⟩ := EStateM.Result.ok.inj (spanned.symm.trans opened)
    obtain ⟨set, there, bits, _, _, values⟩ := slots 2 _ rfl
    rw [presence] at there
    obtain rfl : ⟨.varint, 0, 0x10⟩ = set := Option.some.inj there
    cases last : Block.last? 2 blocks with
    | none =>
      rw [last] at bits
      exact absurd bits (by decide)
    | some flagged =>
      refine ⟨blocks, flagged, isRun, last, (values flagged last).trans ?_⟩
      exact congrArg (fun value => [value]) flag

end Structured

end FieldWire
