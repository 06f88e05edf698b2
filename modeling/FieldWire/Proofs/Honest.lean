import FieldWire.Deferred
import FieldWire.Proofs.Dictionary
import FieldWire.Proofs.Layout
import FieldWire.Proofs.Script
import FieldWire.Proofs.Tree
import FieldWire.Proofs.Varint.Classification
import FieldWire.Structured

/-!
# Cursors in bounds and errors that tell the truth

A cursor moves by adding to its position, whether so many bytes are left or not.  A reader that took
a slice beyond the end of the buffer would therefore leave the cursor beyond the end, and since
positions only grow, it would stay there.  `Honest` excludes that: wherever a step starts, it goes
onward by some bytes that are there, and this holds of a step that fails as much as of one that
succeeds, so that reading can go on from where an error has left the cursor.

The same predicate says that the error is true of the place where the step stopped.  What an error
reports about the buffer is compared with the bytes that are left there, and what it reports about
required fields with the layout of the objects that were being read.
-/

set_option autoImplicit false

namespace FieldWire

/-! ## Places in a buffer -/

namespace Cursor

variable {buffer : Bytes} {limit : Nat} {cursor first second third : Cursor}

/-- The cursor stands somewhere in the buffer, or right behind it, and keeps to the limit. -/
structure Within (buffer : Bytes) (limit : Nat) (cursor : Cursor) : Prop where
  pos_le : cursor.pos ≤ buffer.length
  rest_eq : cursor.rest = buffer.drop cursor.pos
  limit_eq : cursor.limit = limit

theorem within_ofBytes (buffer : Bytes) (limit : Nat) :
    (ofBytes buffer limit).Within buffer limit :=
  ⟨Nat.zero_le _, rfl, rfl⟩

theorem Within.length_rest (within : cursor.Within buffer limit) :
    cursor.rest.length = buffer.length - cursor.pos := by
  rw [within.rest_eq, List.length_drop]

/-- The second cursor is the first after some bytes that are there. -/
def Onward (first second : Cursor) : Prop :=
  ∃ count ≤ first.rest.length, second = first.advance count

theorem Onward.refl (cursor : Cursor) : cursor.Onward cursor := ⟨0, Nat.zero_le _, rfl⟩

theorem Onward.trans (onward : first.Onward second) (further : second.Onward third) :
    first.Onward third := by
  obtain ⟨front, insideFront, rfl⟩ := onward
  obtain ⟨back, insideBack, rfl⟩ := further
  rw [rest_advance, List.length_drop] at insideBack
  exact ⟨front + back, by omega, advance_advance _ _ _⟩

theorem Onward.pos_le (onward : first.Onward second) : first.pos ≤ second.pos := by
  obtain ⟨count, _, rfl⟩ := onward
  exact Nat.le_add_right _ _

theorem Onward.length_le (onward : first.Onward second) :
    second.rest.length ≤ first.rest.length := by
  obtain ⟨count, _, rfl⟩ := onward
  rw [rest_advance, List.length_drop]
  exact Nat.sub_le _ _

theorem Onward.within (onward : first.Onward second) (within : first.Within buffer limit) :
    second.Within buffer limit := by
  obtain ⟨count, inside, rfl⟩ := onward
  have start := within.pos_le
  rw [within.length_rest] at inside
  refine ⟨?_, ?_, within.limit_eq⟩
  · rw [pos_advance]
    omega
  · rw [rest_advance, within.rest_eq, List.drop_drop, pos_advance]

end Cursor

/-! ## What errors say -/

/-- What an error reports is the case, when it has left the cursor at a place and the objects that
were being read have a layout. -/
def CodecError.Truthful (layout : Layout) (place : Cursor) : CodecError → Prop
  | .malformedVarint limit => limit = Varint.maxLength
  | .bufferUnderrun needed remaining => remaining = place.rest.length ∧ remaining < needed
  | .lengthMismatch declared consumed => declared ≠ consumed
  | .unexpectedFieldSetType tag => ∀ segment ∈ layout, segment.wireType.tag ≠ tag
  | .unknownFieldSetIndex wireType index =>
    (∃ segment ∈ layout, segment.wireType = wireType) ∧
      ∀ segment ∈ layout, segment.wireType = wireType → segment.index ≠ index
  | .requiredFieldMissing wireType index missing =>
    missing ≠ 0 ∧ ∃ segment ∈ layout, segment.wireType = wireType ∧ segment.index = index ∧
      missing &&& segment.required = missing
  | .countSchemeMismatch expected found => expected ≠ found
  | .invalidUtf8 => True
  | .payloadTooLarge size max => max = place.limit ∧ max < size
  | .trailingBytes count => count = place.rest.length ∧ count ≠ 0
  | .varintOutOfRange value target => value < -target.bound ∨ target.bound ≤ value

/-! ## Honest steps -/

variable {ς α β : Type} {place : ς → Cursor} {layout : Layout} {room : Nat}

/-- With fewer than `room` bytes left the step goes onward, and if it fails its error is true of the
place where it stopped.  The cursor that the step moves is found at `place`. -/
structure Honest (place : ς → Cursor) (layout : Layout) (room : Nat)
    (step : EStateM CodecError ς α) : Prop where
  ok : ∀ state value after, (place state).rest.length < room → step state = .ok value after →
    (place state).Onward (place after)
  error : ∀ state error after, (place state).rest.length < room →
    step state = .error error after →
    (place state).Onward (place after) ∧ error.Truthful layout (place after)

namespace Honest

variable {first : EStateM CodecError ς α} {next : α → EStateM CodecError ς β}

theorem nothing (value : α) : Honest place layout room (pure value) where
  ok state result after _ ran := by
    obtain ⟨_, rfl⟩ := (pure_eq_ok_iff _ _ _ _).mp ran
    exact .refl _
  error state error after _ failed := by cases failed

theorem fail {error : CodecError} (truthful : ∀ cursor, error.Truthful layout cursor) :
    Honest place layout room (throw error : EStateM CodecError ς α) where
  ok state value after _ ran := absurd ran (throw_ne_ok _ _ _ _)
  error state reason after _ failed := by
    cases failed
    exact ⟨.refl _, truthful _⟩

/-- A check that fails, in the middle of a step. -/
theorem failBind {error : CodecError} (truthful : ∀ cursor, error.Truthful layout cursor) :
    Honest place layout room (throw error >>= next : EStateM CodecError ς β) :=
  fail truthful

/-- The second step has only the room that the first has left. -/
theorem bindWithin {less : Nat} (honest : Honest place layout room first)
    (leaves : ∀ state value after, (place state).rest.length < room →
      first state = .ok value after → (place after).rest.length < less)
    (more : ∀ value, Honest place layout less (next value)) :
    Honest place layout room (first >>= next) where
  ok state result after small ran := by
    obtain ⟨value, middle, firstRan, nextRan⟩ := (bind_eq_ok_iff _ _ _ _ _).mp ran
    have onward := honest.ok _ _ _ small firstRan
    exact onward.trans ((more value).ok _ _ _ (leaves _ _ _ small firstRan) nextRan)
  error state error after small failed := by
    rcases (bind_eq_error_iff _ _ _ _ _).mp failed with early | ⟨value, middle, ran, late⟩
    · exact honest.error _ _ _ small early
    · have onward := honest.ok _ _ _ small ran
      obtain ⟨further, truthful⟩ := (more value).error _ _ _ (leaves _ _ _ small ran) late
      exact ⟨onward.trans further, truthful⟩

theorem bind (honest : Honest place layout room first)
    (more : ∀ value, Honest place layout room (next value)) :
    Honest place layout room (first >>= next) :=
  honest.bindWithin
    (fun _ _ _ small ran => Nat.lt_of_le_of_lt (honest.ok _ _ _ small ran).length_le small) more

/-- A step that is chosen by the state it starts from. -/
theorem getBind {step : ς → EStateM CodecError ς α}
    (honest : ∀ state, Honest place layout room (step state)) :
    Honest place layout room (get >>= step) where
  ok state := (honest state).ok state
  error state := (honest state).error state

theorem mono {less : Nat} (honest : Honest place layout room first) (within : less ≤ room) :
    Honest place layout less first where
  ok _ _ _ small ran := honest.ok _ _ _ (Nat.lt_of_lt_of_le small within) ran
  error _ _ _ small failed := honest.error _ _ _ (Nat.lt_of_lt_of_le small within) failed

end Honest

/-! ## Readers -/

namespace Reader

/-- A check that leaves the cursor where it is. -/
theorem honest_of_check {check : Reader Unit}
    (settled : ∀ cursor, check cursor = .ok () cursor ∨
      ∃ error, check cursor = .error error cursor ∧ error.Truthful layout cursor) :
    Honest id layout room check where
  ok cursor value after _ ran := by
    rcases settled cursor with passed | ⟨error, failed, _⟩
    · cases passed.symm.trans ran
      exact .refl _
    · cases failed.symm.trans ran
  error cursor error after _ failed := by
    rcases settled cursor with passed | ⟨reason, refused, truthful⟩
    · cases passed.symm.trans failed
    · cases refused.symm.trans failed
      exact ⟨.refl _, truthful⟩

theorem ensure_honest (needed : Nat) : Honest id layout room (ensure needed) := by
  refine honest_of_check fun cursor => ?_
  rcases Nat.lt_or_ge cursor.rest.length needed with short | enough
  · exact .inr ⟨_, ensure_of_lt short, rfl, short⟩
  · exact .inl (ensure_of_le enough)

theorem withinLimit_honest (size : Nat) : Honest id layout room (withinLimit size) := by
  refine honest_of_check fun cursor => ?_
  rcases Nat.lt_or_ge cursor.limit size with large | small
  · exact .inr ⟨_, withinLimit_of_lt large, rfl, large⟩
  · exact .inl (withinLimit_of_le small)

theorem finish_honest : Honest id layout room finish := by
  refine honest_of_check fun cursor => ?_
  obtain ⟨rest, pos, limit⟩ := cursor
  cases rest with
  | nil => exact .inl rfl
  | cons byte bytes => exact .inr ⟨_, rfl, rfl, Nat.succ_ne_zero _⟩

theorem position_honest : Honest id layout room position := .getBind fun _ => .nothing _

/-! ### Words and numbers -/

theorem word_honest : Honest id layout room word where
  ok cursor value after _ ran := by
    obtain ⟨length, decoded, rfl⟩ := word_eq_ok ran
    exact ⟨length, Varint.length_le_of_decode decoded, rfl⟩
  error cursor error after _ failed := by
    rw [word_apply] at failed
    cases decoded : Varint.decode cursor.rest with
    | error reason =>
      rw [decoded] at failed
      cases failed
      obtain ⟨rfl, _⟩ := Varint.decode_eq_error_iff.mp decoded
      exact ⟨.refl _, rfl⟩
    | ok found =>
      rw [decoded] at failed
      cases found with
      | none =>
        cases failed
        exact ⟨.refl _, rfl, Nat.lt_succ_self _⟩
      | some pair => cases failed

theorem word32_honest : Honest id layout room word32 := by
  refine word_honest.bind fun value => ?_
  split
  · exact .nothing _
  · exact .fail fun _ => rfl

theorem long_honest : Honest id layout room long := word_honest.bind fun _ => .nothing _

theorem integer_honest (width : Width) : Honest id layout room (integer width) := by
  refine long_honest.bind fun value => ?_
  split
  · exact .nothing _
  · rename_i outside
    exact .fail fun _ => (Integer.ofInt?_eq_none_iff _ _).mp outside

theorem bool_honest : Honest id layout room bool := long_honest.bind fun _ => .nothing _

theorem lengthTag_honest (expected : WireType) : Honest id layout room (lengthTag expected) := by
  refine word_honest.bind fun tag => ?_
  rw [LengthTag.decode]
  by_cases same : LengthTag.scheme tag = expected
  · rw [if_pos same]
    exact .nothing _
  · rw [if_neg same]
    exact .fail fun _ => Ne.symm same

/-! ### Spans -/

theorem span_honest (length : Nat) : Honest id layout room (span length) where
  ok cursor bytes after _ ran := by
    obtain ⟨inside, _, rfl⟩ := span_eq_ok ran
    exact ⟨length, inside, rfl⟩
  error cursor error after small failed := by
    -- Behind the check nothing fails.
    rcases (bind_eq_error_iff _ _ _ _ _).mp failed with short | ⟨_, _, _, taken⟩
    · exact (ensure_honest length).error _ _ _ small short
    · cases taken

theorem fixed_honest {α : Type} (code : FixedWidth α) : Honest id layout room (fixed code) :=
  (span_honest code.width).bind fun _ => .nothing _

theorem spanLength_honest : Honest id layout room spanLength :=
  (lengthTag_honest _).bind fun _ => (withinLimit_honest _).bind fun _ => .nothing _

theorem count_honest (scheme : WireType) : Honest id layout room (count scheme) :=
  (lengthTag_honest scheme).bind fun _ => (withinLimit_honest _).bind fun _ =>
    (ensure_honest _).bind fun _ => .nothing _

theorem openSpan_honest : Honest id layout room openSpan :=
  spanLength_honest.bind fun _ => (ensure_honest _).bind fun _ => .nothing _

theorem blob_honest : Honest id layout room blob := spanLength_honest.bind fun _ => span_honest _

theorem text_honest : Honest id layout room text := blob_honest.bind fun _ => .nothing _

theorem string_honest : Honest id layout room string := by
  refine text_honest.bind fun text => ?_
  rw [Text.read]
  cases text.string? with
  | none => exact .fail fun _ => trivial
  | some string => exact .nothing _

theorem object_honest : Honest id layout room object where
  ok cursor bytes after _ ran := by
    obtain ⟨_, inside, _, rfl⟩ := object_eq_ok ran
    exact ⟨bytes.length, inside, rfl⟩
  error cursor error after small failed := by
    -- Once the span has been opened nothing fails.
    have failed : (openSpan >>= fun length => do
        advance length
        let stop ← position
        return cursor.rest.take (stop - cursor.pos) : Reader Bytes) cursor =
          .error error after := failed
    rcases (bind_eq_error_iff _ _ _ _ _).mp failed with closed | ⟨_, _, _, taken⟩
    · exact openSpan_honest.error _ _ _ small closed
    · cases taken

theorem skip_honest (wireType : WireType) : Honest id layout room (skip wireType) := by
  rw [skip_eq_raw]
  refine Honest.bind ?_ fun _ => .nothing _
  cases wireType with
  | list => exact blob_honest
  | varint => exact word_honest
  | fourByte => exact fixed_honest .binary32
  | eightByte => exact fixed_honest .binary64

theorem skipAll_honest (wireType : WireType) (fields : List UInt64) :
    Honest id layout room (fields.forM fun _ => skip wireType) := by
  induction fields with
  | nil => exact .nothing _
  | cons field fields ih => exact (skip_honest wireType).bind fun _ => ih

end Reader

theorem FieldSet.read_honest : Honest id layout room FieldSet.read := by
  refine Reader.word_honest.bind fun header => ?_
  change Honest id layout room (if header &&& continuationFlag = 0 then _ else _)
  split
  · exact .nothing _
  · exact Reader.word32_honest.bind fun _ => .nothing _

theorem Deferred.read_honest {σ : Type} : Honest id layout room (Deferred.read (σ := σ)) :=
  Reader.object_honest.bind fun _ => .nothing _

/-! ## Loaders -/

namespace Loader

variable {σ τ : Type}

theorem read_honest {reader : Reader α} (honest : Honest id layout room reader) :
    Honest Prod.snd layout room (read reader : Loader σ α) where
  ok _ _ _ small ran := honest.ok _ _ _ small (read_eq_ok ran).2
  error _ _ _ small failed := honest.error _ _ _ small (read_eq_error failed).2

theorem update_honest (change : σ → σ) : Honest Prod.snd layout room (update change) where
  ok state value after _ ran := by
    cases ran
    exact .refl _
  error state error after _ failed := absurd failed (update_ne_error _ _ _ _)

theorem part_honest {get : σ → τ} {put : σ → τ → σ} {loader : Loader τ α}
    (honest : Honest Prod.snd layout room loader) :
    Honest Prod.snd layout room (part get put loader) where
  ok state value after small ran := by
    obtain ⟨inner, _, innerRan⟩ := part_eq_ok ran
    exact honest.ok (get state.1, state.2) value (inner, after.2) small innerRan
  error state error after small failed := by
    obtain ⟨inner, _, innerFailed⟩ := part_eq_error failed
    exact honest.error (get state.1, state.2) error (inner, after.2) small innerFailed

theorem toReader_honest {start : σ} {loader : Loader σ Unit}
    (honest : Honest Prod.snd layout room loader) :
    Honest id layout room (toReader start loader) where
  ok cursor final after small ran := honest.ok (start, cursor) () (final, after) small
    (toReader_eq_ok ran)
  error cursor error after small failed := by
    obtain ⟨final, loaderFailed⟩ := toReader_eq_error failed
    exact honest.error (start, cursor) error (final, after) small loaderFailed

/-- Reading the span of a body leaves less room than there was. -/
theorem openSpan_bind {next : Nat → Loader σ α}
    (more : ∀ declared, Honest Prod.snd layout room (next declared)) :
    Honest Prod.snd layout (room + 1) (read Reader.openSpan >>= next) := by
  refine (read_honest Reader.openSpan_honest).bindWithin ?_ more
  intro state declared after small opened
  obtain ⟨length, sized, inside, _, _, moved⟩ := Reader.openSpan_costs (read_eq_ok opened).2
  have positive : 1 ≤ length := Nat.le_trans (LengthTag.size_pos declared .list) sized
  rw [moved, Cursor.rest_advance, List.length_drop]
  omega

end Loader

/-! ## Collections -/

namespace ElementFormat

variable {format : ElementFormat α}

theorem readMany_honest (elements : Honest id layout room format.read) (count : Nat) :
    Honest id layout room (format.readMany count) := by
  induction count with
  | zero => exact .nothing _
  | succ count ih => exact elements.bind fun _ => ih.bind fun _ => .nothing _

theorem readValues_honest (elements : Honest id layout room format.read) :
    Honest id layout room format.readValues :=
  (Reader.count_honest _).bind fun count => readMany_honest elements count

end ElementFormat

/-- Elements have one byte less to read from than the sequence that they are in. -/
theorem Sequence.load_honest {format : ElementFormat α}
    (elements : Honest id layout room format.read) :
    Honest Prod.snd layout (room + 1) (Sequence.load format) := by
  refine Loader.openSpan_bind fun declared => ?_
  refine (Loader.read_honest Reader.position_honest).bind fun start => ?_
  refine (Loader.read_honest (ElementFormat.readValues_honest elements)).bind fun items => ?_
  refine (Loader.update_honest _).bind fun _ => ?_
  refine (Loader.read_honest Reader.position_honest).bind fun stop => ?_
  split
  · rename_i wrong
    exact .failBind fun _ => (bne_iff_ne.mp wrong).symm
  · exact Loader.update_honest _

theorem Dictionary.load_honest {format : ElementFormat α}
    (elements : Honest id layout room format.read) :
    Honest Prod.snd layout room (Dictionary.load format) := by
  refine (Loader.read_honest Reader.openSpan_honest).bind fun declared => ?_
  refine (Loader.read_honest Reader.position_honest).bind fun start => ?_
  have texts : Honest id layout room ElementFormat.text.read := Reader.text_honest
  refine (Loader.read_honest (ElementFormat.readValues_honest texts)).bind fun keys => ?_
  refine (Loader.read_honest (ElementFormat.readValues_honest elements)).bind fun values => ?_
  split
  · rename_i unpaired
    exact .failBind fun _ => bne_iff_ne.mp unpaired
  · refine (Loader.read_honest Reader.position_honest).bind fun stop => ?_
    split
    · rename_i wrong
      exact .failBind fun _ => (bne_iff_ne.mp wrong).symm
    · exact Loader.update_honest _

/-! ## Trees -/

namespace Tree

/-- A format of as many levels as there is room for never comes to its last one. -/
theorem formatUpTo_honest (levels : Nat) :
    Honest Prod.snd layout levels (formatUpTo levels).load := by
  induction levels with
  | zero => exact ⟨fun _ _ _ small => absurd small (Nat.not_lt_zero _),
      fun _ _ _ small => absurd small (Nat.not_lt_zero _)⟩
  | succ levels ih =>
    have elements : Honest id layout levels (ElementFormat.object (formatUpTo levels)).read :=
      Loader.toReader_honest ih
    have whole : Honest Prod.snd layout (levels + 1)
        (Loader.part Tree.children (fun _ later => node later)
          (Sequence.load (ElementFormat.object (formatUpTo levels)))) :=
      Loader.part_honest (Sequence.load_honest elements)
    exact whole

theorem load_honest : Honest Prod.snd layout room format.load := by
  have enough (state : Tree × Cursor) :
      Honest Prod.snd layout _ (formatUpTo (state.2.rest.length + 1)).load := formatUpTo_honest _
  exact ⟨fun state value after _ ran => (enough state).ok _ _ _ (Nat.lt_succ_self _) ran,
    fun state error after _ failed => (enough state).error _ _ _ (Nat.lt_succ_self _) failed⟩

end Tree

/-! ## Structures -/

namespace Structured

variable {φ : Type} {format : SegmentFormat φ}

/-- A field set that names no segment of the layout. -/
theorem refused_honest {header : FieldSet} {γ : Type}
    (refused : layout.locate? header.wireType header.index = none) :
    Honest Prod.snd layout room (if layout.hasWireType header.wireType then
        throw (.unknownFieldSetIndex header.wireType header.index)
      else throw (.unexpectedFieldSetType header.wireType.tag) : Loader (Structured φ) γ) := by
  have nowhere := Layout.locate?_eq_none_iff.mp refused
  rw [Layout.hasWireType]
  split
  · rename_i known
    obtain ⟨segment, member, same⟩ := List.any_eq_true.mp known
    exact .fail fun _ => ⟨⟨segment, member, beq_iff_eq.mp same⟩, nowhere⟩
  · rename_i unknown
    refine .fail fun _ segment member same => unknown (List.any_eq_true.mpr ⟨segment, member, ?_⟩)
    rw [beq_iff_eq, ← WireType.ofTag_add_tag segment.wireType 0, same, WireType.ofTag_add_tag]

theorem loadBlock_honest (segments : ∀ set, Honest Prod.snd format.layout room (format.load set)) :
    Honest Prod.snd format.layout room (loadBlock format) := by
  have stored : ∀ (segment : Segment) (slot : Nat) (known : FieldSet) (unknown : List UInt64),
      Honest Prod.snd format.layout room (do
        Loader.update fun object : Structured φ =>
          { object with presence := object.presence.replace slot known }
        onFields (format.load known)
        Loader.read (unknown.forM fun _ => Reader.skip segment.wireType)
        return (slot, !unknown.isEmpty)) := by
    intro segment slot known unknown
    refine (Loader.update_honest _).bind fun _ => ?_
    refine (Loader.part_honest (segments _)).bind fun _ => ?_
    exact (Loader.read_honest (Reader.skipAll_honest _ _)).bind fun _ => .nothing _
  refine (Loader.read_honest FieldSet.read_honest).bind fun header => ?_
  cases located : format.layout.locate? header.wireType header.index with
  | none => exact refused_honest located
  | some entry =>
    obtain ⟨segment, slot⟩ := entry
    have member := List.mem_of_getElem? (Layout.locate?_eq_some located).1
    dsimp only
    split
    · rename_i missing
      exact .failBind fun _ => ⟨bne_iff_ne.mp missing, segment, member, rfl, rfl,
        FieldSet.missing_and _ _⟩
    · exact stored _ _ _ _

theorem loadBlocks_honest (block : Honest Prod.snd format.layout room (loadBlock format))
    (start declared fuel : Nat) :
    Honest Prod.snd format.layout room (loadBlocks format start declared fuel) := by
  induction fuel with
  | zero => exact .nothing _
  | succ fuel ih =>
    refine (Loader.read_honest Reader.position_honest).bind fun here => ?_
    split
    · exact block.bind fun _ => ih.bind fun _ => .nothing _
    · exact .nothing _

theorem load_honest (segments : ∀ set, Honest Prod.snd format.layout room (format.load set)) :
    Honest Prod.snd format.layout room (load format) := by
  refine (Loader.read_honest Reader.openSpan_honest).bind fun declared => ?_
  refine (Loader.read_honest Reader.position_honest).bind fun start => ?_
  refine (Loader.update_honest _).bind fun _ => ?_
  refine (loadBlocks_honest (loadBlock_honest segments) _ _ _).bind fun ⟨seen, skipped⟩ => ?_
  refine (Loader.read_honest Reader.position_honest).bind fun stop => ?_
  dsimp only
  split
  · rename_i wrong
    exact .failBind fun _ => (bne_iff_ne.mp wrong).symm
  · split
    · rename_i segment unseen
      obtain ⟨member, required⟩ := Layout.mem_of_firstUnseen? unseen
      exact .fail fun _ => ⟨required, segment, member, rfl, rfl, UInt64.and_self⟩
    · exact Loader.update_honest _

end Structured

end FieldWire
