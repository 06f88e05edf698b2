import FieldWire.Proofs.Accepts
import FieldWire.Proofs.Messages

/-!
# The grammar of structures

A structure is read from exactly the byte strings that are a length tag and a tiling of the declared
bytes by blocks.  The loop does not know where the body ends while it is inside a block; what makes
the two meet is that it stops at the first block that starts at or behind the end, and that the place
where it stopped is compared with the declared one.
-/

set_option autoImplicit false

namespace FieldWire

namespace FieldSet

/-- The bytes are a header and, if its flag is set, a continuation that fits 32 bits and names the
index that follows it. -/
inductive Announces : FieldSet → Bytes → Prop where
  | first {header : UInt64} {bytes : Bytes} (spelled : Varint.Spells bytes header)
      (unflagged : header &&& continuationFlag = 0) :
      Announces (ofBits (WireType.ofTag header.toNat) 0 header) bytes
  | later {header continuation : UInt64} {index : UInt32} {front back : Bytes}
      (spelled : Varint.Spells front header) (flagged : header &&& continuationFlag ≠ 0)
      (continued : Varint.Spells back continuation)
      (named : index.toNat = continuation.toNat + 1) :
      Announces (ofBits (WireType.ofTag header.toNat) index header) (front ++ back)

theorem Announces.length_pos {set : FieldSet} {bytes : Bytes} (announced : set.Announces bytes) :
    0 < bytes.length := by
  cases announced with
  | first spelled _ => exact spelled.length_pos
  | later spelled _ _ _ =>
    rw [List.length_append]
    exact Nat.lt_of_lt_of_le spelled.length_pos (Nat.le_add_right _ _)

/-- Below the largest index, the index that a continuation names is its successor. -/
theorem indexAfter_eq_iff {index continuation : UInt32} (below : index.toNat < 2 ^ 32 - 1) :
    indexAfter continuation = index ↔ index.toNat = continuation.toNat + 1 := by
  have last : (0xffffffff : UInt32).toNat = 4294967295 := rfl
  have one : (1 : UInt32).toNat = 1 := rfl
  have bound := continuation.toNat_lt
  rw [indexAfter]
  split
  · rename_i largest
    rw [largest, last]
    constructor
    · rintro rfl
      rw [last] at below
      omega
    · omega
  · rename_i notLast
    have small : continuation.toNat ≠ 4294967295 := fun same =>
      notLast (UInt32.toNat_inj.mp (same.trans last.symm))
    rw [← UInt32.toNat_inj, UInt32.toNat_add, one]
    omega

theorem read_eq_ok_iff {limit pos : Nat} {rest : Bytes} {set : FieldSet} {after : Cursor}
    (below : set.index.toNat < 2 ^ 32 - 1) :
    read ⟨rest, pos, limit⟩ = .ok set after ↔
      ∃ bytes tail, rest = bytes ++ tail ∧ set.Announces bytes ∧
        after = ⟨tail, pos + bytes.length, limit⟩ := by
  constructor
  · intro ran
    obtain ⟨header, middle, readHeader, ran⟩ := (bind_eq_ok_iff _ _ _ _ _).mp ran
    obtain ⟨front, tail, rfl, spelled, rfl⟩ := Reader.word_eq_ok_iff.mp readHeader
    by_cases unflagged : header &&& continuationFlag = 0
    · rw [if_pos unflagged] at ran
      obtain ⟨rfl, rfl⟩ := (pure_eq_ok_iff _ _ _ _).mp ran
      exact ⟨front, tail, rfl, .first spelled unflagged, rfl⟩
    · rw [if_neg unflagged] at ran
      obtain ⟨number, last, readNumber, ran⟩ := (bind_eq_ok_iff _ _ _ _ _).mp ran
      obtain ⟨rfl, rfl⟩ := (pure_eq_ok_iff _ _ _ _).mp ran
      obtain ⟨continuation, back, tail, rfl, continued, same, rfl⟩ :=
        Reader.word32_eq_ok_iff.mp readNumber
      have named := (indexAfter_eq_iff below).mp rfl
      rw [← same] at named
      refine ⟨front ++ back, tail, (List.append_assoc _ _ _).symm,
        .later spelled unflagged continued named, ?_⟩
      rw [List.length_append, Nat.add_assoc]
  · rintro ⟨bytes, tail, rfl, announced, rfl⟩
    cases announced with
    | first spelled unflagged =>
      rw [read, bind_of_ok (Reader.word_eq_ok_iff.mpr ⟨_, tail, rfl, spelled, rfl⟩),
        if_pos unflagged]
      rfl
    | @later header continuation index front back spelled flagged continued named =>
      have small : index.toNat < 2 ^ 32 - 1 := below
      let number := UInt32.ofNat continuation.toNat
      have value : number.toNat = continuation.toNat := by
        rw [UInt32.toNat_ofNat_of_lt']
        change continuation.toNat < 4294967296
        omega
      have after : indexAfter number = index :=
        (indexAfter_eq_iff small).mpr (value ▸ named)
      rw [read, List.append_assoc,
        bind_of_ok (Reader.word_eq_ok_iff.mpr ⟨front, back ++ tail, rfl, spelled, rfl⟩),
        if_neg flagged,
        bind_of_ok (Reader.word32_eq_ok_iff.mpr ⟨_, back, tail, rfl, continued, value.symm, rfl⟩),
        after, List.length_append, ← Nat.add_assoc]
      rfl

end FieldSet

/-! ## Blocks -/

/-- The known fields that a complete header names are read one after the other in ascending order,
whatever was read before. -/
def SegmentFormat.Accepts {φ : Type} (format : SegmentFormat φ) (limit : Nat)
    (Value : Nat → UInt64 → Bytes → Prop) : Prop :=
  ∀ (slot : Nat) (segment : Segment) (header : FieldSet) (fields : φ),
    format.layout[slot]? = some segment → header.missing segment.required = 0 →
      (Loader.toReader fields (format.load
        (FieldSet.ofBits segment.wireType segment.index (header.bits &&& segment.known)))).Accepts
          limit (Language.Run (Value slot) (fieldsOf (header.bits &&& segment.known)))

namespace Structured

/-- The bytes are a block for a slot: a header that names the segment and all its required fields,
a value for each known field, and a value of the wire type for each unknown one. -/
inductive IsBlock (layout : Layout) (limit : Nat) (Value : Nat → UInt64 → Bytes → Prop)
    (slot : Nat) : Bytes → Prop where
  | mk {segment : Segment} {header : FieldSet} {front known unknown : Bytes}
      (announced : header.Announces front) (found : layout[slot]? = some segment)
      (wireType : header.wireType = segment.wireType) (index : header.index = segment.index)
      (complete : header.missing segment.required = 0)
      (values : Language.Run (Value slot) (fieldsOf (header.bits &&& segment.known)) known)
      (others : Language.Run (fun _ => segment.wireType.IsValue limit)
        (fieldsOf (header.bits &&& ~~~segment.known)) unknown) :
      IsBlock layout limit Value slot (front ++ known ++ unknown)

/-- The bytes are blocks, one after the other, for some slots. -/
inductive IsBody (layout : Layout) (limit : Nat) (Value : Nat → UInt64 → Bytes → Prop) :
    List Nat → Bytes → Prop where
  | nil : IsBody layout limit Value [] []
  | cons {slot : Nat} {slots : List Nat} {front back : Bytes}
      (block : IsBlock layout limit Value slot front)
      (rest : IsBody layout limit Value slots back) :
      IsBody layout limit Value (slot :: slots) (front ++ back)

variable {φ : Type} {format : SegmentFormat φ} {limit : Nat} {Value : Nat → UInt64 → Bytes → Prop}

theorem IsBlock.length_pos {layout : Layout} {slot : Nat} {bytes : Bytes}
    (block : IsBlock layout limit Value slot bytes) : 0 < bytes.length := by
  cases block with
  | mk announced _ _ _ _ _ _ =>
    have header := announced.length_pos
    simp only [List.length_append]
    omega

theorem loadBlock_accepts (accepts : format.Accepts limit Value) (distinct : format.layout.Distinct)
    (below : ∀ segment ∈ format.layout, segment.index.toNat < 2 ^ 32 - 1) {object : Structured φ}
    {rest : Bytes} {pos : Nat} {slot : Nat} {after : Cursor} :
    (∃ passed final,
      loadBlock format (object, ⟨rest, pos, limit⟩) = .ok (slot, passed) (final, after)) ↔
      ∃ bytes tail, rest = bytes ++ tail ∧ IsBlock format.layout limit Value slot bytes ∧
        after = ⟨tail, pos + bytes.length, limit⟩ := by
  constructor
  · rintro ⟨passed, final, ran⟩
    obtain ⟨header, segment, middle, filled, place, headerRead, located, complete, loadRan, skipRan,
      _, _⟩ := loadBlock_eq_ok_iff.mp ran
    obtain ⟨found, sameType, sameIndex⟩ := Layout.locate?_eq_some located
    have headerBelow : header.index.toNat < 2 ^ 32 - 1 := by
      rw [← sameIndex]
      exact below segment (List.mem_of_getElem? found)
    obtain ⟨front, tail, rfl, announced, rfl⟩ :=
      (FieldSet.read_eq_ok_iff headerBelow).mp headerRead
    obtain ⟨known, tail, rfl, values, rfl⟩ :=
      (accepts slot segment header object.fields found complete _ _ _).mp
        ⟨filled, Loader.toReader_of_ok loadRan⟩
    obtain ⟨unknown, tail, rfl, others, rfl⟩ :=
      (Reader.forM_accepts (fun _ => Reader.skip_accepts segment.wireType) _ _ _ _).mp ⟨(), skipRan⟩
    refine ⟨front ++ known ++ unknown, tail, by simp only [List.append_assoc],
      .mk announced found sameType.symm sameIndex.symm complete values others, ?_⟩
    simp only [List.length_append, Nat.add_assoc]
  · rintro ⟨_, tail, rfl, block, rfl⟩
    cases block with
    | @mk segment header front known unknown announced found wireType index complete values others =>
      have located : format.layout.locate? header.wireType header.index = some (segment, slot) := by
        rw [wireType, index]
        exact Layout.locate?_of_getElem? distinct found
      have headerBelow : header.index.toNat < 2 ^ 32 - 1 := by
        rw [index]
        exact below segment (List.mem_of_getElem? found)
      have headerRead : FieldSet.read ⟨front ++ (known ++ (unknown ++ tail)), pos, limit⟩ =
          .ok header ⟨known ++ (unknown ++ tail), pos + front.length, limit⟩ :=
        (FieldSet.read_eq_ok_iff headerBelow).mpr ⟨front, _, rfl, announced, rfl⟩
      obtain ⟨filled, loadRan⟩ := (accepts slot segment header object.fields found complete
        (known ++ (unknown ++ tail)) (pos + front.length) _).mpr ⟨known, _, rfl, values, rfl⟩
      obtain ⟨_, skipRan⟩ := (Reader.forM_accepts (fun _ => Reader.skip_accepts segment.wireType) _
        (unknown ++ tail) (pos + front.length + known.length) _).mpr ⟨unknown, _, rfl, others, rfl⟩
      refine ⟨_, _, loadBlock_eq_ok_iff.mpr ⟨header, segment, _, filled, _, ?_, located, complete,
        Loader.toReader_eq_ok loadRan, ?_, rfl, rfl⟩⟩
      · rw [List.append_assoc, List.append_assoc]
        exact headerRead
      · rw [skipRan]
        simp only [List.length_append, Nat.add_assoc]

/-! ## The loop -/

/-- What the loop takes is a body, whether or not it stops where it should. -/
theorem isBody_of_loadBlocks (accepts : format.Accepts limit Value)
    (distinct : format.layout.Distinct)
    (below : ∀ segment ∈ format.layout, segment.index.toNat < 2 ^ 32 - 1)
    {start declared fuel : Nat} {object final : Structured φ} {cursor after : Cursor}
    {slots : List Nat} {passed : Bool} (limited : cursor.limit = limit)
    (ran : loadBlocks format start declared fuel (object, cursor) =
      .ok (slots, passed) (final, after)) :
    ∃ body tail, cursor.rest = body ++ tail ∧ IsBody format.layout limit Value slots body ∧
      after = ⟨tail, cursor.pos + body.length, limit⟩ := by
  revert limited
  refine loadBlocks_induction (motive := fun _ cursor slots _ _ after => cursor.limit = limit →
    ∃ body tail, cursor.rest = body ++ tail ∧ IsBody format.layout limit Value slots body ∧
      after = ⟨tail, cursor.pos + body.length, limit⟩) ?_ ?_ ran
  · rintro object ⟨rest, pos, _⟩ rfl
    exact ⟨[], rest, rfl, .nil, rfl⟩
  · rintro object ⟨rest, pos, _⟩ slot skipped middle here slots more final after _ block looped rfl
    obtain ⟨front, tail, rfl, isBlock, rfl⟩ :=
      (loadBlock_accepts accepts distinct below).mp ⟨skipped, middle, block⟩
    obtain ⟨back, tail, rfl, isBody, rfl⟩ := looped rfl
    refine ⟨front ++ back, tail, (List.append_assoc _ _ _).symm, .cons isBlock isBody, ?_⟩
    rw [List.length_append, Nat.add_assoc]

/-- The loop takes every body that ends at the declared place. -/
theorem loadBlocks_of_isBody (accepts : format.Accepts limit Value)
    (distinct : format.layout.Distinct)
    (below : ∀ segment ∈ format.layout, segment.index.toNat < 2 ^ 32 - 1) {slots : List Nat}
    {body : Bytes} (isBody : IsBody format.layout limit Value slots body) (tail : Bytes)
    {start declared fuel pos : Nat} {object : Structured φ} (begun : start ≤ pos)
    (ends : pos + body.length = start + declared) (fueled : body.length ≤ fuel) :
    ∃ passed final,
      loadBlocks format start declared fuel (object, ⟨body ++ tail, pos, limit⟩) =
        .ok (slots, passed) (final, ⟨tail, pos + body.length, limit⟩) := by
  induction isBody generalizing fuel pos object with
  | nil => exact ⟨false, object, loadBlocks_of_end ends⟩
  | @cons slot slots front back block rest ih =>
    have positive := block.length_pos
    rw [List.length_append] at ends fueled
    cases fuel with
    | zero => omega
    | succ fuel =>
      have inside : pos - start < declared := by omega
      have laterBegun : start ≤ pos + front.length := by omega
      have laterEnds : pos + front.length + back.length = start + declared := by omega
      have laterFueled : back.length ≤ fuel := by omega
      obtain ⟨passed, middle, first⟩ := (loadBlock_accepts accepts distinct below).mpr
        ⟨front, back ++ tail, rfl, block, rfl⟩
      obtain ⟨more, final, looped⟩ := ih laterBegun laterEnds laterFueled
      refine ⟨passed || more, final, ?_⟩
      rw [List.append_assoc, List.length_append, ← Nat.add_assoc]
      exact loadBlocks_of_block inside first looped

/-! ## Whole structures -/

/-- A structure is accepted if and only if what it begins with is an envelope of blocks in which
every segment with required fields occurs, and then the envelope is all that is taken. -/
theorem load_eq_ok_iff_envelope (accepts : format.Accepts limit Value)
    (distinct : format.layout.Distinct)
    (below : ∀ segment ∈ format.layout, segment.index.toNat < 2 ^ 32 - 1) (start : Structured φ)
    (rest : Bytes) (pos : Nat) (after : Cursor) :
    (∃ final, load format (start, ⟨rest, pos, limit⟩) = .ok () (final, after)) ↔
      ∃ tag body tail slots, rest = tag ++ body ++ tail ∧
        LengthTag.Declares limit tag body.length ∧
        IsBody format.layout limit Value slots body ∧
        (∀ (slot : Nat) (segment : Segment), format.layout[slot]? = some segment →
          segment.required ≠ 0 → slot ∈ slots) ∧
        after = ⟨tail, pos + tag.length + body.length, limit⟩ := by
  constructor
  · rintro ⟨final, ran⟩
    obtain ⟨tagSize, declared, slots, passed, loaded, opened, looped, consumed, allSeen, _⟩ :=
      load_eq_ok ran
    obtain ⟨tag, tail, rfl, declares, there, moved⟩ := Reader.openSpan_eq_ok_iff.mp opened
    rw [moved] at looped consumed
    obtain ⟨body, tail, rfl, isBody, rfl⟩ := isBody_of_loadBlocks accepts distinct below rfl looped
    obtain rfl : body.length = declared := by
      rw [← consumed]
      exact (Nat.add_sub_cancel_left _ _).symm
    exact ⟨tag, body, tail, slots, (List.append_assoc _ _ _).symm, declares, isBody,
      (Layout.firstUnseen?_eq_none_iff _ _).mp allSeen, rfl⟩
  · rintro ⟨tag, body, tail, slots, rfl, declares, isBody, allSeen, rfl⟩
    have there : body.length ≤ (body ++ tail).length := by simp
    have opened : Reader.openSpan ⟨tag ++ (body ++ tail), pos, limit⟩ =
        .ok body.length ⟨body ++ tail, pos + tag.length, limit⟩ :=
      Reader.openSpan_eq_ok_iff.mpr ⟨tag, _, rfl, declares, there, rfl⟩
    obtain ⟨passed, final, looped⟩ := loadBlocks_of_isBody accepts distinct below isBody tail
      (Nat.le_refl (pos + tag.length)) rfl (Nat.le_refl body.length)
    have loaded : load format (start, ⟨tag ++ (body ++ tail), pos, limit⟩) = .ok () (_, _) :=
      load_of_span opened looped (Nat.add_sub_cancel_left _ _)
        ((Layout.firstUnseen?_eq_none_iff _ _).mpr allSeen)
    rw [List.append_assoc]
    exact ⟨_, loaded⟩

end Structured

/-! ## Signed chunks -/

namespace SignedChunk

/-- A date is eight bytes; a signature and a chunk are spans with their lengths. -/
def IsFieldValue (limit place : Nat) (_field : UInt64) : Bytes → Prop :=
  if place = slot then WireType.list.IsValue limit else WireType.eightByte.IsValue limit

theorem date_accepts {set : FieldSet} (eight : set.wireType = .eightByte) (limit : Nat)
    (fields : Fields) :
    (Loader.toReader fields (loadFields set)).Accepts limit
      (Language.Run (IsFieldValue limit 0) [dateField]) := by
  rw [loadFields_of_eightByte eight, Loader.toReader_read_bind, Language.run_singleton]
  exact (Reader.fixed_accepts .binary64).bindPure fun date => ⟨_, rfl⟩

theorem chunk_accepts {set : FieldSet} (list : set.wireType = .list) (limit : Nat)
    (fields : Fields) :
    (Loader.toReader fields (loadFields set)).Accepts limit
      (Language.Run (IsFieldValue limit slot) (signatureField :: [chunkField].filter set.has)) := by
  rw [loadFields_of_list list, Loader.toReader_read_bind, Language.run_cons]
  refine Reader.blob_accepts.bind fun signature => ?_
  rw [Loader.toReader_update_bind]
  by_cases chunk : set.has chunkField = true
  · rw [if_pos chunk, Loader.toReader_read_bind, List.filter_cons_of_pos chunk, List.filter_nil,
      Language.run_singleton]
    exact Reader.object_accepts.bindPure fun chunk => ⟨_, rfl⟩
  · rw [if_neg chunk, List.filter_cons_of_neg chunk, List.filter_nil, Language.run_nil]
    exact Reader.Accepts.nothing limit _

theorem segments_accepts (limit : Nat) : segments.Accepts limit (IsFieldValue limit) := by
  intro place segment header fields found complete
  match place, found with
  | 0, found =>
    cases found
    let known := (Segment.make .eightByte 0 dateField dateField).known
    let set := FieldSet.ofBits .eightByte 0 (header.bits &&& known)
    have date : header.has dateField = true := FieldSet.has_of_missing_eq_zero complete (by decide)
    have named : fieldsOf (header.bits &&& known) = [dateField] := by
      rw [FieldSet.fieldsOf_bits_and, show fieldsOf known = [dateField] by decide,
        List.filter_cons_of_pos date, List.filter_nil]
    have eight : set.wireType = .eightByte := rfl
    rw [named]
    exact date_accepts eight limit fields
  | 1, found =>
    cases found
    let known := (Segment.make .list 0 signatureField (signatureField ||| chunkField)).known
    let set := FieldSet.ofBits .list 0 (header.bits &&& known)
    have signature : header.has signatureField = true :=
      FieldSet.has_of_missing_eq_zero complete (by decide)
    have kept : set.has chunkField = header.has chunkField := by
      change (header.bits &&& known &&& presenceMask &&& chunkField != 0) = _
      rw [UInt64.and_assoc, UInt64.and_assoc,
        show known &&& (presenceMask &&& chunkField) = chunkField by decide, FieldSet.has]
    have named : fieldsOf (header.bits &&& known) = signatureField :: [chunkField].filter set.has := by
      rw [FieldSet.fieldsOf_bits_and, show fieldsOf known = [signatureField, chunkField] by decide,
        List.filter_cons_of_pos signature, List.filter_singleton, List.filter_singleton, kept]
    have list : set.wireType = .list := rfl
    rw [named]
    exact chunk_accepts list limit fields

end SignedChunk

/-- A signature with an unknown field behind it, and then a date: the segments in the wrong order,
with a length tag that is longer than it has to be and a byte behind the body. -/
theorem Structured.load_eq_ok_iff_envelope_example :
    let segments := SignedChunk.segments
    (segments.Accepts 13 (SignedChunk.IsFieldValue 13) ∧ segments.layout.Distinct ∧
      ∀ segment ∈ segments.layout, segment.index.toNat < 2 ^ 32 - 1) ∧
      ∃ final, Structured.load segments (Structured.empty segments,
          ⟨[0xb4, 0x00, 0x28, 0x04, 0xaa, 0x00, 0x0b, 0, 0, 0, 0, 0, 0, 0, 1, 0xff], 7, 13⟩) =
        .ok () (final, ⟨[0xff], 22, 13⟩) := by
  intro segments
  have accepts := SignedChunk.segments_accepts 13
  have below : ∀ segment ∈ segments.layout, segment.index.toNat < 2 ^ 32 - 1 := by
    intro segment member
    rcases List.mem_pair.mp member with rfl | rfl <;> decide
  have signed : Structured.IsBlock segments.layout 13 (SignedChunk.IsFieldValue 13) 1
      ([0x28] ++ [0x04, 0xaa] ++ [0x00]) := by
    have known : fieldsOf (0x28 &&& 0x18) = [SignedChunk.signatureField] := by decide
    have unknown : fieldsOf (0x28 &&& ~~~0x18) = [fieldBit 2] := by decide
    refine .mk (@FieldSet.Announces.first 0x28 [0x28] rfl rfl) rfl rfl rfl rfl ?_ ?_
    · refine known ▸ (Language.run_singleton _ _).symm ▸ ?_
      exact ⟨[0x04], [0xaa], rfl, 4, rfl, rfl, rfl, by decide⟩
    · refine unknown ▸ (Language.run_singleton _ _).symm ▸ ?_
      exact ⟨[0x00], [], rfl, 0, rfl, rfl, rfl, by decide⟩
  have dated : Structured.IsBlock segments.layout 13 (SignedChunk.IsFieldValue 13) 0
      ([0x0b] ++ [0, 0, 0, 0, 0, 0, 0, 1] ++ []) := by
    have known : fieldsOf (0x08 &&& 0x08) = [SignedChunk.dateField] := by decide
    have unknown : fieldsOf (0x08 &&& ~~~0x08) = [] := by decide
    refine .mk (@FieldSet.Announces.first 0x0b [0x0b] rfl rfl) rfl rfl rfl rfl ?_ ?_
    · refine known ▸ (Language.run_singleton _ _).symm ▸ ?_
      exact rfl
    · refine unknown ▸ (Language.run_nil _).symm ▸ ?_
      exact rfl
  have declares : LengthTag.Declares 13 [0xb4, 0x00] 13 := ⟨0x34, rfl, rfl, rfl, by decide⟩
  have isBody := Structured.IsBody.cons signed (.cons dated .nil)
  refine ⟨⟨accepts, SignedChunk.distinct, below⟩, ?_⟩
  refine (Structured.load_eq_ok_iff_envelope accepts SignedChunk.distinct below _ _ 7 _).mpr
    ⟨[0xb4, 0x00], [0x28, 0x04, 0xaa, 0x00, 0x0b, 0, 0, 0, 0, 0, 0, 0, 1], [0xff], [1, 0], rfl,
      declares, isBody, ?_, rfl⟩
  intro place segment found _
  rcases SignedChunk.segment_of_getElem? found with ⟨rfl, _⟩ | ⟨rfl, _⟩ <;> decide

end FieldWire
