import FieldWire.Proofs.Confined
import FieldWire.Proofs.Structured.Measured
import FieldWire.Schema

/-!
# No object is read with a look ahead

The loop over the blocks of a structure stops by its position, not by what is left of the buffer, and
the last block ends where the envelope does.  So if the values of a segment are read without a look
ahead, so is the structure; and with that the objects of every schema are.
-/

set_option autoImplicit false

namespace FieldWire

/-! ## Structures -/

namespace SegmentFormat

/-- The values of field sets are read without a look ahead. -/
def Confined {φ : Type} (format : SegmentFormat φ) : Prop :=
  ∀ set, Loader.Confined (format.load set)

end SegmentFormat

namespace Structured

variable {φ : Type} {format : SegmentFormat φ}

theorem loadBlock_confined (segments : format.Confined) : Loader.Confined (loadBlock format) := by
  have stored : ∀ (segment : Segment) (slot : Nat) (known : FieldSet) (unknown : List UInt64),
      Loader.Confined (do
        Loader.update fun object : Structured φ =>
          { object with presence := object.presence.replace slot known }
        onFields (format.load known)
        Loader.read (unknown.forM fun _ => Reader.skip segment.wireType)
        return (slot, !unknown.isEmpty)) := by
    intro segment slot known unknown
    refine (Loader.Confined.update _).bind fun _ => ?_
    refine (Loader.Confined.part (segments _)).bind fun _ => ?_
    exact (Loader.Confined.read (Reader.skipAll_confined _ _)).bind fun _ => .nothing _
  refine (Loader.Confined.read FieldSet.read_confined).bind fun header => ?_
  cases format.layout.locate? header.wireType header.index with
  | none =>
    dsimp only
    split
    · exact .fail _
    · exact .fail _
  | some entry =>
    obtain ⟨segment, slot⟩ := entry
    dsimp only
    split
    · exact (Loader.Confined.fail _).bind fun _ => stored _ _ _ _
    · exact stored _ _ _ _

/-- The loop depends on how far it has come since the start of the body, but not on where that is. -/
theorem loadBlocks_confined (segments : format.Confined) {start declared fuel come : Nat}
    {object final : Structured φ} {cursor after : Cursor} {answer : List Nat × Bool}
    (here : cursor.pos = start + come)
    (ran : loadBlocks format start declared fuel (object, cursor) = .ok answer (final, after)) :
    ∃ length, length ≤ cursor.rest.length ∧ after = cursor.advance length ∧
      ∀ limit, length ≤ limit → ∀ tail begin,
        loadBlocks format begin declared fuel
            (object, ⟨cursor.rest.take length ++ tail, begin + come, limit⟩) =
          .ok answer (final, ⟨tail, begin + come + length, limit⟩) := by
  induction fuel generalizing object cursor come answer with
  | zero =>
    cases ran
    exact ⟨0, Nat.zero_le _, rfl, fun _ _ _ _ => rfl⟩
  | succ fuel ih =>
    by_cases inside : cursor.pos - start < declared
    · obtain ⟨seen, skipped⟩ := answer
      obtain ⟨slot, passed, slots, more, middle, place, block, looped, rfl, rfl⟩ :=
        loadBlocks_succ_eq_ok inside ran
      obtain ⟨front, insideFront, rfl, fillsBlock⟩ := loadBlock_confined segments _ _ _ _ _ block
      have further : (cursor.advance front).pos = start + (come + front) := by
        rw [Cursor.pos_advance, here, Nat.add_assoc]
      obtain ⟨back, insideBack, rfl, loopAgain⟩ := ih further looped
      rw [Cursor.rest_advance, List.length_drop] at insideBack
      refine ⟨front + back, by omega, Cursor.advance_advance _ _ _, ?_⟩
      intro limit fits tail begin
      have blockAgain := fillsBlock limit (by omega)
        ((cursor.advance front).rest.take back ++ tail) (begin + come)
      have again := loopAgain limit (by omega) tail begin
      rw [Cursor.rest_advance] at blockAgain again
      rw [List.length_take_of_le insideFront, ← List.append_assoc, ← List.take_add,
        Nat.add_assoc begin] at blockAgain
      have insideAgain : begin + come - begin < declared := by omega
      rw [loadBlocks_of_block insideAgain blockAgain again, ← Nat.add_assoc, ← Nat.add_assoc]
    · cases (loadBlocks_of_outside inside).symm.trans ran
      refine ⟨0, Nat.zero_le _, rfl, ?_⟩
      intro limit _ tail begin
      have outside : ¬begin + come - begin < declared := by omega
      exact loadBlocks_of_outside outside

theorem confined (segments : format.Confined) : (Structured.format format).Confined := by
  intro start cursor final after ran
  obtain ⟨tagSize, declared, seen, skipped, object, opened, looped, consumed, allSeen, rfl⟩ :=
    load_eq_ok ran
  obtain ⟨length, inside, rfl, again⟩ := loadBlocks_confined segments (Nat.add_zero _).symm looped
  have reached : length = declared := by
    rw [Cursor.pos_advance, Nat.add_sub_cancel_left] at consumed
    exact consumed
  subst reached
  refine ⟨tagSize, length, opened, Cursor.advance_advance _ _ _, ?_⟩
  intro limit fits tail pos
  rw [List.length_take_of_le (Reader.openSpan_bounds opened).2.1, ← Nat.add_assoc]
  exact load_of_span (Reader.openSpan_take opened fits) (again limit fits tail (pos + tagSize))
    (Nat.add_sub_cancel_left _ _) allSeen

end Structured

/-! ## Messages -/

theorem FrameworkError.segments_confined : FrameworkError.segments.Confined := by
  intro set
  change Loader.Confined (if set.has FrameworkError.messageField then _ else _)
  split
  · exact (Loader.Confined.read Reader.text_confined).bind fun _ => .update _
  · exact .nothing _

theorem ErrorEnvelope.segments_confined : ErrorEnvelope.segments.Confined := by
  intro set
  refine (Loader.Confined.read Reader.text_confined).bind fun _ => ?_
  refine (Loader.Confined.update _).bind fun _ => ?_
  exact (Loader.Confined.read Reader.object_confined).bind fun _ => .update _

theorem SignedChunk.segments_confined : SignedChunk.segments.Confined := by
  intro set
  change Loader.Confined (SignedChunk.loadFields set)
  rw [SignedChunk.loadFields]
  split
  · exact (Loader.Confined.read (Reader.fixed_confined .binary64)).bind fun _ => .update _
  · refine (Loader.Confined.read Reader.blob_confined).bind fun _ => ?_
    refine (Loader.Confined.update _).bind fun _ => ?_
    split
    · exact (Loader.Confined.read Reader.object_confined).bind fun _ => .update _
    · exact .update _
  · exact .nothing _
  · exact .nothing _

theorem Deferred.read_confined {σ : Type} : Reader.Confined (Deferred.read (σ := σ)) :=
  Reader.object_confined.bind fun _ => .nothing _

theorem Optional.segments_confined {σ : Type} (inner : ObjectFormat σ) :
    (Optional.segments inner).Confined := by
  intro set
  change Loader.Confined (if set.has Optional.itemField then _ else _)
  split
  · exact (Loader.Confined.read Deferred.read_confined).bind fun _ => .update _
  · exact .nothing _

/-! ## Records -/

namespace Record

theorem FieldValue.read_confined (kind : FieldKind) : Reader.Confined (FieldValue.read kind) := by
  cases kind with
  | long => exact Reader.long_confined.bind fun _ => .nothing _
  | int => exact (Reader.integer_confined .int).bind fun _ => .nothing _
  | bool => exact Reader.bool_confined.bind fun _ => .nothing _
  | float => exact (Reader.fixed_confined .binary32).bind fun _ => .nothing _
  | double => exact (Reader.fixed_confined .binary64).bind fun _ => .nothing _
  | text => exact Reader.text_confined.bind fun _ => .nothing _
  | blob => exact Reader.blob_confined.bind fun _ => .nothing _
  | ints => exact Deferred.read_confined.bind fun _ => .nothing _
  | error => exact Deferred.read_confined.bind fun _ => .nothing _

theorem loadValues_confined (fields : List Field) : Loader.Confined (loadValues fields) := by
  induction fields with
  | nil => exact .nothing _
  | cons field rest ih =>
    refine (Loader.Confined.read (FieldValue.read_confined _)).bind fun _ => ?_
    exact (Loader.Confined.update _).bind fun _ => ih

/-- Which fields are read is settled before the first of them is. -/
theorem segments_confined (table : Table) : (segments table).Confined := by
  intro set fields cursor value final after ran
  exact loadValues_confined _ fields cursor value final after ran

end Record

/-! ## Schemas -/

mutual

/-- No schema has objects that are read with a look ahead. -/
theorem Schema.confined : (schema : Schema) → schema.format.Confined
  | .sequence element => Sequence.confined element.confined
  | .dictionary element => Dictionary.confined element.confined
  | .frameworkError => Structured.confined FrameworkError.segments_confined
  | .errorEnvelope => Structured.confined ErrorEnvelope.segments_confined
  | .signedChunk => Structured.confined SignedChunk.segments_confined
  | .optional item => Structured.confined (Optional.segments_confined item.format)
  | .record table => Structured.confined (Record.segments_confined table)
  | .tree => Tree.confined

theorem ElementKind.confined : (kind : ElementKind) → kind.format.Confined
  | .bool => ElementFormat.bool_confined
  | .integer width => ElementFormat.integer_confined width
  | .float => ElementFormat.fixed_confined .binary32 _
  | .double => ElementFormat.fixed_confined .binary64 _
  | .text => ElementFormat.text_confined
  | .object schema => schema.confined.element

end

end FieldWire
