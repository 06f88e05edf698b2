import FieldWire.Proofs.Accepts
import FieldWire.Proofs.Confined.Structured
import FieldWire.Record.Catalog

/-!
# Continuations and segments

A continuation names the segment that follows it, with one exception: the largest continuation of
32 bits is followed by no index, and names the last segment, which its predecessor names already.
Those two are read as the same, and all others are told apart.  `indexNamed` is the index of a
continuation of any size, and a layout without a segment of that index refuses the block wherever it
stands.
-/

set_option autoImplicit false

namespace FieldWire

namespace FieldSet

/-- The bytes are a header and, if its flag is set, a continuation of any size. -/
inductive Words : UInt64 → Option UInt64 → Bytes → Prop where
  | alone {header : UInt64} {bytes : Bytes} (spelled : Varint.Spells bytes header)
      (unflagged : header &&& continuationFlag = 0) : Words header none bytes
  | continued {header number : UInt64} {front back : Bytes} (spelled : Varint.Spells front header)
      (flagged : header &&& continuationFlag ≠ 0) (followed : Varint.Spells back number) :
      Words header (some number) (front ++ back)

/-- The index that a continuation names.  Beyond 32 bits no segment has it. -/
def indexNamed (number : UInt64) : Nat :=
  if number = 0xffffffff then number.toNat else number.toNat + 1

/-- The continuations that name the last segment. -/
def merged : List (Option UInt64) := [some 0xfffffffe, some 0xffffffff]

/-- The index of a field set, if its continuation fits 32 bits. -/
def indexOf? : Option UInt64 → Option UInt32
  | none => some 0
  | some number => if number.toNat < UInt32.size then some (indexAfter number.toUInt32) else none

/-- A field set was read from a header and, if its flag is set, a continuation. -/
structure ReadAs (cursor after : Cursor) (set : FieldSet) (header : UInt64)
    (continuation : Option UInt64) : Prop where
  ran : read cursor = .ok set after
  words : ∃ bytes, cursor.rest = bytes ++ after.rest ∧ Words header continuation bytes

variable {header otherHeader : UInt64} {continuation otherContinuation : Option UInt64}
  {number : UInt64} {index otherIndex : UInt32} {bytes : Bytes}

/-! ## Indices -/

theorem toNat_indexAfter (small : number.toNat < UInt32.size) :
    (indexAfter number.toUInt32).toNat = indexNamed number := by
  rw [indexNamed]
  split
  · rename_i last
    rw [last]
    rfl
  · rename_i notLast
    rw [← UInt64.toNat_inj] at notLast
    have value : number.toUInt32.toNat = number.toNat := by
      rw [UInt64.toNat_toUInt32]
      exact Nat.mod_eq_of_lt small
    have below : (0xffffffff : UInt64).toNat = 2 ^ 32 - 1 := rfl
    have different : number.toUInt32 ≠ 0xffffffff := by
      rw [ne_eq, ← UInt32.toNat_inj, value]
      exact notLast
    have one : (1 : UInt32).toNat = 1 := rfl
    rw [UInt32.size] at small
    rw [indexAfter, if_neg different, UInt32.toNat_add, value, one]
    omega

theorem indexOf?_eq_some_iff :
    indexOf? (some number) = some index ↔ index.toNat = indexNamed number := by
  rw [indexOf?]
  split
  · rename_i small
    rw [Option.some_inj, ← UInt32.toNat_inj, toNat_indexAfter small]
    exact eq_comm
  · rename_i large
    have notLast : number ≠ 0xffffffff := by
      rintro rfl
      exact large (by decide)
    have bound := index.toNat_lt
    rw [UInt32.size] at large
    rw [indexNamed, if_neg notLast]
    simp only [reduceCtorEq, false_iff]
    omega

theorem index_ne_zero (named : indexOf? (some number) = some index) : index ≠ 0 := by
  rw [indexOf?] at named
  split at named
  · cases named
    exact indexAfter_ne_zero _
  · cases named

theorem eq_or_merged_of_indexNamed {other : UInt64}
    (same : indexNamed number = indexNamed other) :
    number = other ∨ some number ∈ merged ∧ some other ∈ merged := by
  have value : (0xffffffff : UInt64).toNat = (0xfffffffe : UInt64).toNat + 1 := rfl
  rw [indexNamed, indexNamed] at same
  split at same
  · rename_i last
    split at same
    · rename_i alsoLast
      exact .inl (last.trans alsoLast.symm)
    · have before : other = 0xfffffffe := by
        rw [last] at same
        rw [← UInt64.toNat_inj]
        omega
      rw [last, before]
      exact .inr (by decide)
  · split at same
    · rename_i last
      have before : number = 0xfffffffe := by
        rw [last] at same
        rw [← UInt64.toNat_inj]
        omega
      rw [last, before]
      exact .inr (by decide)
    · exact .inl (UInt64.toNat_inj.mp (Nat.succ.inj same))

theorem indexOf?_of_merged (last : continuation ∈ merged) :
    indexOf? continuation = some 0xffffffff := by
  rcases List.mem_pair.mp last with rfl | rfl <;> rfl

/-- Two continuations name the same segment only if they are the same or name the last one. -/
theorem indexOf?_eq_iff (named : indexOf? continuation = some index)
    (alsoNamed : indexOf? otherContinuation = some otherIndex) :
    index = otherIndex ↔ continuation = otherContinuation ∨
      continuation ∈ merged ∧ otherContinuation ∈ merged := by
  constructor
  · rintro rfl
    cases continuation with
    | none =>
      cases otherContinuation with
      | none => exact .inl rfl
      | some other =>
        cases named
        exact absurd rfl (index_ne_zero alsoNamed)
    | some number =>
      cases otherContinuation with
      | none =>
        cases alsoNamed
        exact absurd rfl (index_ne_zero named)
      | some other =>
        have first := indexOf?_eq_some_iff.mp named
        have second := indexOf?_eq_some_iff.mp alsoNamed
        rcases eq_or_merged_of_indexNamed (first.symm.trans second) with rfl | both
        · exact .inl rfl
        · exact .inr both
  · rintro (rfl | ⟨first, second⟩)
    · exact Option.some.inj (named.symm.trans alsoNamed)
    · rw [indexOf?_of_merged first] at named
      rw [indexOf?_of_merged second] at alsoNamed
      exact Option.some.inj (named.symm.trans alsoNamed)

/-! ## Reading -/

theorem Words.index_eq_zero_iff (words : Words header continuation bytes)
    (named : indexOf? continuation = some index) :
    index = 0 ↔ header &&& continuationFlag = 0 := by
  cases words with
  | alone _ unflagged =>
    cases named
    exact iff_of_true rfl unflagged
  | continued _ flagged _ => exact iff_of_false (index_ne_zero named) flagged

/-- The header of what was read is the header that was read. -/
theorem Words.header_eq (words : Words header continuation bytes)
    (named : indexOf? continuation = some index) :
    (ofBits (WireType.ofTag header.toNat) index header).header = header := by
  have sameFlag : flag index = header &&& continuationFlag := by
    rw [flag]
    split
    · rename_i first
      exact ((words.index_eq_zero_iff named).mp first).symm
    · rename_i later
      exact ((and_continuationFlag header).resolve_left
        (mt (words.index_eq_zero_iff named).mpr later)).symm
  have all : presenceMask ||| continuationFlag ||| typeMask = -1 := by decide
  rw [FieldSet.header, ← flag]
  simp only [ofBits]
  rw [ofNat_tag_ofTag, sameFlag, ← and_or_distrib, ← and_or_distrib, all, UInt64.and_neg_one]

/-- What reading gives is settled by the two words. -/
theorem read_of_words (words : Words header continuation bytes) (tail : Bytes) (pos limit : Nat) :
    read ⟨bytes ++ tail, pos, limit⟩ =
      match indexOf? continuation with
      | some index => .ok (ofBits (WireType.ofTag header.toNat) index header)
          ⟨tail, pos + bytes.length, limit⟩
      | none => .error (.malformedVarint Varint.maxLength) ⟨tail, pos + bytes.length, limit⟩ := by
  cases words with
  | alone spelled unflagged =>
    rw [read, bind_of_ok (Reader.word_eq_ok_iff.mpr ⟨_, tail, rfl, spelled, rfl⟩),
      if_pos unflagged]
    rfl
  | @continued number front back spelled flagged followed =>
    have second : Reader.word ⟨back ++ tail, pos + front.length, limit⟩ =
        .ok number ⟨tail, pos + front.length + back.length, limit⟩ :=
      Reader.word_eq_ok_iff.mpr ⟨back, tail, rfl, followed, rfl⟩
    rw [read, List.append_assoc,
      bind_of_ok (Reader.word_eq_ok_iff.mpr ⟨front, back ++ tail, rfl, spelled, rfl⟩),
      if_neg flagged, List.length_append, ← Nat.add_assoc, indexOf?]
    by_cases small : number.toNat < UInt32.size
    · have narrowed : Reader.word32 ⟨back ++ tail, pos + front.length, limit⟩ =
          .ok number.toUInt32 ⟨tail, pos + front.length + back.length, limit⟩ := by
        rw [Reader.word32, bind_of_ok second, if_pos small]
        rfl
      rw [if_pos small, bind_of_ok narrowed]
      rfl
    · have refused : Reader.word32 ⟨back ++ tail, pos + front.length, limit⟩ =
          .error (.malformedVarint Varint.maxLength)
            ⟨tail, pos + front.length + back.length, limit⟩ := by
        rw [Reader.word32, bind_of_ok second, if_neg small]
        rfl
      rw [if_neg small, bind_of_error refused]

theorem readAs_of_read {cursor after : Cursor} {set : FieldSet}
    (ran : read cursor = .ok set after) :
    ∃ header continuation, ReadAs cursor after set header continuation := by
  have whole := ran
  obtain ⟨rest, pos, limit⟩ := cursor
  obtain ⟨header, middle, readHeader, ran⟩ := (bind_eq_ok_iff _ _ _ _ _).mp ran
  obtain ⟨front, tail, rfl, spelled, rfl⟩ := Reader.word_eq_ok_iff.mp readHeader
  by_cases unflagged : header &&& continuationFlag = 0
  · rw [if_pos unflagged] at ran
    obtain ⟨rfl, rfl⟩ := (pure_eq_ok_iff _ _ _ _).mp ran
    exact ⟨header, none, whole, front, rfl, .alone spelled unflagged⟩
  · rw [if_neg unflagged] at ran
    obtain ⟨narrow, last, readNumber, ran⟩ := (bind_eq_ok_iff _ _ _ _ _).mp ran
    obtain ⟨rfl, rfl⟩ := (pure_eq_ok_iff _ _ _ _).mp ran
    obtain ⟨number, back, tail, rfl, followed, _, rfl⟩ := Reader.word32_eq_ok_iff.mp readNumber
    exact ⟨header, some number, whole, front ++ back, (List.append_assoc _ _ _).symm,
      .continued spelled unflagged followed⟩

theorem ReadAs.eq_ofBits {cursor after : Cursor} {set : FieldSet}
    (readAs : ReadAs cursor after set header continuation) :
    ∃ bytes index, Words header continuation bytes ∧ indexOf? continuation = some index ∧
      set = ofBits (WireType.ofTag header.toNat) index header := by
  obtain ⟨rest, pos, limit⟩ := cursor
  obtain ⟨ran, bytes, split, words⟩ := readAs
  obtain rfl : rest = bytes ++ after.rest := split
  rw [read_of_words words] at ran
  cases named : indexOf? continuation with
  | none =>
    rw [named] at ran
    cases ran
  | some index =>
    rw [named] at ran
    obtain ⟨same, _⟩ := EStateM.Result.ok.inj ran
    exact ⟨bytes, index, words, rfl, same.symm⟩

/-- The index is zero without a continuation, and otherwise the one that the continuation names. -/
theorem ReadAs.index_eq {cursor after : Cursor} {set : FieldSet}
    (readAs : ReadAs cursor after set header continuation) :
    (set.index = 0 ↔ header &&& continuationFlag = 0) ∧
      ∀ number ∈ continuation, set.index.toNat = indexNamed number := by
  obtain ⟨bytes, index, words, named, rfl⟩ := readAs.eq_ofBits
  refine ⟨words.index_eq_zero_iff named, ?_⟩
  rintro number rfl
  exact indexOf?_eq_some_iff.mp named

/-- Two field sets that were read are the same only if they were read from the same words, or from
the same header and the two continuations of the last segment. -/
theorem ReadAs.eq_iff {cursor after otherCursor otherAfter : Cursor} {set otherSet : FieldSet}
    (readAs : ReadAs cursor after set header continuation)
    (otherReadAs : ReadAs otherCursor otherAfter otherSet otherHeader otherContinuation) :
    set = otherSet ↔ header = otherHeader ∧ (continuation = otherContinuation ∨
      continuation ∈ merged ∧ otherContinuation ∈ merged) := by
  obtain ⟨bytes, index, words, named, rfl⟩ := readAs.eq_ofBits
  obtain ⟨otherBytes, otherIndex, otherWords, otherNamed, rfl⟩ := otherReadAs.eq_ofBits
  rw [← indexOf?_eq_iff named otherNamed]
  constructor
  · intro same
    have headers := congrArg FieldSet.header same
    rw [words.header_eq named, otherWords.header_eq otherNamed] at headers
    exact ⟨headers, congrArg FieldSet.index same⟩
  · rintro ⟨rfl, rfl⟩
    rfl

end FieldSet

/-! ## Blocks -/

/-- The layout has no segment of a wire type that a continuation names. -/
def Layout.Lacks (layout : Layout) (wireType : WireType) (number : UInt64) : Prop :=
  ∀ segment ∈ layout, segment.wireType = wireType →
    segment.index.toNat ≠ FieldSet.indexNamed number

instance (layout : Layout) (wireType : WireType) (number : UInt64) :
    Decidable (layout.Lacks wireType number) :=
  inferInstanceAs (Decidable (∀ segment ∈ layout, _))

/-- The error for a block whose continuation names no segment. -/
def Layout.refusal (layout : Layout) (wireType : WireType) (number : UInt64) : CodecError :=
  if number.toNat < UInt32.size then
    if layout.hasWireType wireType then
      .unknownFieldSetIndex wireType (UInt32.ofNat (FieldSet.indexNamed number))
    else .unexpectedFieldSetType wireType.tag
  else .malformedVarint Varint.maxLength

/-- Reading the values of a field set never goes back. -/
def SegmentFormat.Forward {φ : Type} (format : SegmentFormat φ) : Prop :=
  ∀ set fields cursor filled after,
    format.load set (fields, cursor) = .ok () (filled, after) → cursor.pos ≤ after.pos

theorem SegmentFormat.Confined.forward {φ : Type} {format : SegmentFormat φ}
    (confined : format.Confined) : format.Forward := by
  intro set fields cursor filled after ran
  obtain ⟨length, _, rfl, _⟩ := confined set _ _ _ _ _ ran
  exact Nat.le_add_right _ _

namespace Structured

variable {φ : Type} {format : SegmentFormat φ} {header number : UInt64} {bytes : Bytes}

/-- The loop comes from one place to another by taking blocks. -/
inductive Passes (format : SegmentFormat φ) (start declared : Nat) :
    Structured φ × Cursor → Structured φ × Cursor → Prop where
  | refl (place : Structured φ × Cursor) : Passes format start declared place place
  | block {object : Structured φ} {cursor : Cursor} {answer : Nat × Bool}
      {middle place : Structured φ × Cursor} (inside : cursor.pos - start < declared)
      (taken : loadBlock format (object, cursor) = .ok answer middle)
      (rest : Passes format start declared middle place) :
      Passes format start declared (object, cursor) place

/-- Loading comes to a place where it has to take a block. -/
def ComesTo (format : SegmentFormat φ) (start : Structured φ) (cursor : Cursor)
    (object : Structured φ) (here : Cursor) : Prop :=
  ∃ declared opened, Reader.openSpan cursor = .ok declared opened ∧
    Passes format opened.pos declared ({ start with presence := start.presence.clear }, opened)
      (object, here) ∧ here.pos - opened.pos < declared

theorem loadBlock_of_unlocated {set : FieldSet} {cursor middle : Cursor}
    (read : FieldSet.read cursor = .ok set middle)
    (nowhere : format.layout.locate? set.wireType set.index = none) (object : Structured φ) :
    loadBlock format (object, cursor) =
      .error (if format.layout.hasWireType set.wireType then
          .unknownFieldSetIndex set.wireType set.index
        else .unexpectedFieldSetType set.wireType.tag) (object, middle) := by
  rw [loadBlock, bind_of_ok (Loader.read_of_ok read object)]
  simp only [nowhere]
  split <;> rfl

/-- A block that names a segment which the layout does not have. -/
theorem loadBlock_of_lacks (words : FieldSet.Words header (some number) bytes)
    (lacks : format.layout.Lacks (WireType.ofTag header.toNat) number) (object : Structured φ)
    (tail : Bytes) (pos limit : Nat) :
    loadBlock format (object, ⟨bytes ++ tail, pos, limit⟩) =
      .error (format.layout.refusal (WireType.ofTag header.toNat) number)
        (object, ⟨tail, pos + bytes.length, limit⟩) := by
  have read := FieldSet.read_of_words words tail pos limit
  rw [Layout.refusal]
  by_cases small : number.toNat < UInt32.size
  · have named : FieldSet.indexOf? (some number) = some (FieldSet.indexAfter number.toUInt32) := by
      rw [FieldSet.indexOf?, if_pos small]
    have value := FieldSet.indexOf?_eq_some_iff.mp named
    have index : UInt32.ofNat (FieldSet.indexNamed number) =
        FieldSet.indexAfter number.toUInt32 := by
      rw [← value, UInt32.ofNat_toNat]
    have nowhere : format.layout.locate? (WireType.ofTag header.toNat)
        (FieldSet.indexAfter number.toUInt32) = none := by
      refine Layout.locate?_eq_none_iff.mpr fun segment member sameType sameIndex => ?_
      exact lacks segment member sameType (sameIndex ▸ value)
    rw [named] at read
    rw [if_pos small, index]
    exact loadBlock_of_unlocated read nowhere object
  · have unnamed : FieldSet.indexOf? (some number) = none := by
      rw [FieldSet.indexOf?, if_neg small]
    rw [unnamed] at read
    rw [loadBlock, bind_of_error (Loader.read_of_error read object), if_neg small]

/-- The two continuations of the last segment make the same block. -/
theorem loadBlock_of_merged {continuation otherContinuation : Option UInt64} {otherBytes : Bytes}
    (words : FieldSet.Words header continuation bytes)
    (otherWords : FieldSet.Words header otherContinuation otherBytes)
    (last : continuation ∈ FieldSet.merged) (alsoLast : otherContinuation ∈ FieldSet.merged)
    (lengths : bytes.length = otherBytes.length) (object : Structured φ) (tail : Bytes)
    (pos limit : Nat) :
    loadBlock format (object, ⟨bytes ++ tail, pos, limit⟩) =
      loadBlock format (object, ⟨otherBytes ++ tail, pos, limit⟩) := by
  have read := FieldSet.read_of_words words tail pos limit
  have otherRead := FieldSet.read_of_words otherWords tail pos limit
  rw [FieldSet.indexOf?_of_merged last, lengths] at read
  rw [FieldSet.indexOf?_of_merged alsoLast] at otherRead
  rw [loadBlock, bind_of_ok (Loader.read_of_ok read object),
    bind_of_ok (Loader.read_of_ok otherRead object)]

theorem pos_lt_of_loadBlock (forward : format.Forward) {object final : Structured φ}
    {cursor after : Cursor} {answer : Nat × Bool}
    (ran : loadBlock format (object, cursor) = .ok answer (final, after)) :
    cursor.pos < after.pos := by
  obtain ⟨header, segment, headerLength, filled, middle, more, headerRead, _, _, _, _, loadRan, _,
    rfl, _⟩ := loadBlock_parts ran
  have advanced := forward _ _ _ _ _ loadRan
  obtain ⟨_, length, positive, _, moved, _⟩ := FieldSet.read_costs headerRead
  have same := congrArg Cursor.pos moved
  simp only [Cursor.pos_advance] at advanced same ⊢
  omega

/-! ## The loop -/

/-- A loop that ends where it should has taken a block at every place where it came to one. -/
theorem loadBlock_of_passes {start declared fuel : Nat} {place : Structured φ × Cursor}
    {object final : Structured φ} {here after : Cursor} {answer : List Nat × Bool}
    (passes : Passes format start declared place (object, here))
    (inside : here.pos - start < declared)
    (ran : loadBlocks format start declared fuel place = .ok answer (final, after))
    (ended : after.pos - start = declared) :
    ∃ taken middle, loadBlock format (object, here) = .ok taken middle := by
  generalize reached : (object, here) = stop at passes
  induction passes generalizing fuel answer with
  | refl place =>
    subst reached
    cases fuel with
    | zero =>
      -- A loop that stops for want of fuel has not come to the declared end.
      cases ran
      omega
    | succ fuel =>
      obtain ⟨slot, skipped, _, _, middle, next, block, _⟩ := loadBlocks_succ_eq_ok inside ran
      exact ⟨_, _, block⟩
  | @block first cursor _ _ _ before taken rest ih =>
    cases fuel with
    | zero =>
      cases ran
      omega
    | succ fuel =>
      obtain ⟨slot, skipped, _, _, middle, next, block, looped, _⟩ :=
        loadBlocks_succ_eq_ok before ran
      cases taken.symm.trans block
      exact ih looped reached

/-- The error of a block is the error of the loop that came to it. -/
theorem loadBlocks_of_passes_error (forward : format.Forward) {start declared fuel : Nat}
    {place stop failed : Structured φ × Cursor} {error : CodecError}
    (passes : Passes format start declared place stop) (inside : stop.2.pos - start < declared)
    (refused : loadBlock format stop = .error error failed) (begun : start ≤ place.2.pos)
    (fueled : declared ≤ fuel + (place.2.pos - start)) :
    loadBlocks format start declared fuel place = .error error failed := by
  induction passes generalizing fuel with
  | refl place =>
    obtain ⟨object, cursor⟩ := place
    cases fuel with
    | zero =>
      dsimp only at inside fueled
      omega
    | succ fuel =>
      rw [loadBlocks, bind_of_ok (Loader.read_of_ok (Reader.position_apply _) object),
        if_pos inside, bind_of_error refused]
  | @block object cursor answer middle stop before taken rest ih =>
    -- A block takes a byte at least, so that the fuel lasts as long as the body.
    obtain ⟨next, after⟩ := middle
    have progress := pos_lt_of_loadBlock forward taken
    dsimp only at begun fueled ih
    cases fuel with
    | zero => omega
    | succ fuel =>
      have looped : loadBlocks format start declared fuel (next, after) = .error error failed :=
        ih inside refused (by omega) (by omega)
      rw [loadBlocks, bind_of_ok (Loader.read_of_ok (Reader.position_apply _) object),
        if_pos before, bind_of_ok taken]
      exact bind_of_error looped

/-- Loading fails where it comes to a block that is refused. -/
theorem load_of_refused {start object : Structured φ} {cursor here : Cursor}
    {failed : Structured φ × Cursor} {error : CodecError}
    (comes : ComesTo format start cursor object here)
    (refused : loadBlock format (object, here) = .error error failed) :
    ∃ cause place, load format (start, cursor) = .error cause place ∧
      (format.Forward → cause = error) := by
  obtain ⟨declared, opened, spanOpened, passes, inside⟩ := comes
  cases loaded : load format (start, cursor) with
  | error cause place =>
    refine ⟨cause, place, rfl, fun forward => ?_⟩
    have looped := loadBlocks_of_passes_error forward passes inside refused (Nat.le_refl _)
      (Nat.le_add_right declared _)
    rw [load, bind_of_ok (Loader.read_of_ok spanOpened start),
      bind_of_ok (Loader.read_of_ok (Reader.position_apply _) _),
      bind_of_ok (Loader.update_apply _ _ _)] at loaded
    cases (bind_of_error looped).symm.trans loaded
    rfl
  | ok value place =>
    obtain ⟨final, after⟩ := place
    obtain ⟨tagSize, sameDeclared, slots, passed, last, sameOpened, looped, consumed, _⟩ :=
      load_eq_ok loaded
    cases spanOpened.symm.trans sameOpened
    obtain ⟨taken, middle, block⟩ := loadBlock_of_passes passes inside looped consumed
    rw [refused] at block
    cases block

/-- Whatever is read as a field set has index zero without a continuation and otherwise the index
that the continuation names, and different words are read as different field sets, apart from the
two largest continuations.  Loading fails wherever it comes to a block whose continuation names no
segment of the layout, but does not tell blocks with the two largest continuations apart. -/
theorem continuation_names_segment (format : SegmentFormat φ) :
    (∀ cursor after set, FieldSet.read cursor = .ok set after →
      ∃ header continuation, FieldSet.ReadAs cursor after set header continuation) ∧
    (∀ cursor after set header continuation,
      FieldSet.ReadAs cursor after set header continuation →
        (set.index = 0 ↔ header &&& continuationFlag = 0) ∧
          ∀ number ∈ continuation, set.index.toNat = FieldSet.indexNamed number) ∧
    (∀ cursor after set header continuation otherCursor otherAfter otherSet otherHeader
      otherContinuation, FieldSet.ReadAs cursor after set header continuation →
        FieldSet.ReadAs otherCursor otherAfter otherSet otherHeader otherContinuation →
          (set = otherSet ↔ header = otherHeader ∧ (continuation = otherContinuation ∨
            continuation ∈ FieldSet.merged ∧ otherContinuation ∈ FieldSet.merged))) ∧
    (∀ start object cursor header number bytes tail pos limit,
      ComesTo format start cursor object ⟨bytes ++ tail, pos, limit⟩ →
        FieldSet.Words header (some number) bytes →
        format.layout.Lacks (WireType.ofTag header.toNat) number →
          ∃ error place, load format (start, cursor) = .error error place ∧
            (format.Forward →
              error = format.layout.refusal (WireType.ofTag header.toNat) number)) ∧
    ∀ object header continuation otherContinuation bytes otherBytes tail pos limit,
      FieldSet.Words header continuation bytes →
        FieldSet.Words header otherContinuation otherBytes →
        continuation ∈ FieldSet.merged → otherContinuation ∈ FieldSet.merged →
        bytes.length = otherBytes.length →
          loadBlock format (object, ⟨bytes ++ tail, pos, limit⟩) =
            loadBlock format (object, ⟨otherBytes ++ tail, pos, limit⟩) := by
  refine ⟨?found, ?index, ?injective, ?refused, ?merged⟩
  case found =>
    intro cursor after set ran
    exact FieldSet.readAs_of_read ran
  case index =>
    intro cursor after set header continuation readAs
    exact readAs.index_eq
  case injective =>
    intro cursor after set header continuation otherCursor otherAfter otherSet otherHeader
      otherContinuation readAs otherReadAs
    exact readAs.eq_iff otherReadAs
  case refused =>
    intro start object cursor header number bytes tail pos limit comes words lacks
    exact load_of_refused comes (loadBlock_of_lacks words lacks object tail pos limit)
  case merged =>
    intro object header continuation otherContinuation bytes otherBytes tail pos limit words
      otherWords last alsoLast lengths
    exact loadBlock_of_merged words otherWords last alsoLast lengths object tail pos limit

/-- A record with a last segment: its continuation and the largest one are read as the same, so that
the body with the largest is accepted, and the continuation below them names another segment and is
refused. -/
theorem continuation_names_segment_examples :
    let segments := Record.segments Record.Catalog.wide
    let start := Structured.empty segments
    let lastButOne : Bytes := [0x0d, 0xfe, 0xff, 0xff, 0xff, 0x0f]
    let last : Bytes := [0x0d, 0xff, 0xff, 0xff, 0xff, 0x0f]
    let named : FieldSet := ⟨.varint, 0xffffffff, 8⟩
    let below : FieldSet := ⟨.varint, 0xfffffffe, 8⟩
    FieldSet.read ⟨lastButOne, 0, 20⟩ = .ok named ⟨[], 6, 20⟩ ∧
    named.index.toNat = FieldSet.indexNamed 0xfffffffe ∧
    FieldSet.read ⟨last, 0, 20⟩ = .ok named ⟨[], 6, 20⟩ ∧
    named.index.toNat = FieldSet.indexNamed 0xffffffff ∧
    below ≠ named ∧
    loadBlock segments (start, ⟨lastButOne ++ [0x02], 0, 20⟩) =
      loadBlock segments (start, ⟨last ++ [0x02], 0, 20⟩) ∧
    (∃ final, load segments (start, ⟨[0x44, 0x08, 0x04, 0x61, 0x09, 0x00, 0x12, 0, 0, 0, 0] ++
      last ++ [0x02], 0, 20⟩) = .ok () (final, ⟨[], 18, 20⟩)) ∧
    ∃ place, load segments (start, ⟨[0x1c, 0x0d, 0xfd, 0xff, 0xff, 0xff, 0x0f, 0x02], 0, 20⟩) =
      .error (.unknownFieldSetIndex .varint 0xfffffffe) place := by
  have accepted : ∃ final, load (Record.segments Record.Catalog.wide)
      (Structured.empty (Record.segments Record.Catalog.wide), ⟨[0x44, 0x08, 0x04, 0x61, 0x09, 0x00,
        0x12, 0, 0, 0, 0, 0x0d, 0xff, 0xff, 0xff, 0xff, 0x0f, 0x02], 0, 20⟩) =
        .ok () (final, ⟨[], 18, 20⟩) := ⟨_, rfl⟩
  intro segments start lastButOne last named below
  obtain ⟨_, index, injective, refused, merged⟩ := continuation_names_segment segments
  have first : FieldSet.Words 0x0d (some 0xfffffffe) ([0x0d] ++ [0xfe, 0xff, 0xff, 0xff, 0x0f]) :=
    .continued rfl (by decide) rfl
  have second : FieldSet.Words 0x0d (some 0xffffffff) ([0x0d] ++ [0xff, 0xff, 0xff, 0xff, 0x0f]) :=
    .continued rfl (by decide) rfl
  have unknown : FieldSet.Words 0x0d (some 0xfffffffd) ([0x0d] ++ [0xfd, 0xff, 0xff, 0xff, 0x0f]) :=
    .continued rfl (by decide) rfl
  have firstRead : FieldSet.read ⟨lastButOne, 0, 20⟩ = .ok named ⟨[], 6, 20⟩ := rfl
  have secondRead : FieldSet.read ⟨last, 0, 20⟩ = .ok named ⟨[], 6, 20⟩ := rfl
  have belowRead : FieldSet.read ⟨[0x0d, 0xfd, 0xff, 0xff, 0xff, 0x0f], 0, 20⟩ =
      .ok below ⟨[], 6, 20⟩ := rfl
  have firstIndex := (index _ _ _ _ _ ⟨firstRead, _, rfl, first⟩).2 _ rfl
  have secondIndex := (index _ _ _ _ _ ⟨secondRead, _, rfl, second⟩).2 _ rfl
  have different : below ≠ named := fun same => absurd
    ((injective _ _ _ _ _ _ _ _ _ _ ⟨belowRead, _, rfl, unknown⟩ ⟨firstRead, _, rfl, first⟩).mp
      same) (by decide)
  have alike := merged start _ _ _ _ _ [0x02] 0 20 first second (by decide) (by decide) rfl
  have comes : ComesTo segments start
      ⟨[0x1c, 0x0d, 0xfd, 0xff, 0xff, 0xff, 0x0f, 0x02], 0, 20⟩
      { start with presence := start.presence.clear }
      ⟨[0x0d, 0xfd, 0xff, 0xff, 0xff, 0x0f] ++ [0x02], 1, 20⟩ :=
    ⟨7, _, rfl, .refl _, by decide⟩
  obtain ⟨error, place, failed, same⟩ :=
    refused _ _ _ _ _ _ _ _ _ comes unknown (by decide)
  have known : error = .unknownFieldSetIndex .varint 0xfffffffe :=
    same (Record.segments_confined Record.Catalog.wide).forward
  refine ⟨firstRead, firstIndex, secondRead, secondIndex, different, alike, accepted, place, ?_⟩
  rw [failed, known]

end Structured

end FieldWire
