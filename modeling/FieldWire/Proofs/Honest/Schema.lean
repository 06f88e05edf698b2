import FieldWire.Proofs.Honest
import FieldWire.Schema

/-!
# Honest objects

The objects of every schema are read in bounds, from wherever the cursor stands and into whatever
object, and the errors are true.  A schema has one layout to which errors about field sets refer:
its own if its objects are structures, and that of the elements if they are collections.  Payloads
and fields that are objects themselves are deferred, so that reading them reports nothing about what
is inside.
-/

set_option autoImplicit false

namespace FieldWire

variable {layout : Layout} {room : Nat}

/-! ## Messages -/

theorem FrameworkError.loadFields_honest (set : FieldSet) :
    Honest Prod.snd layout room (FrameworkError.loadFields set) := by
  rw [loadFields]
  split
  · exact (Loader.read_honest Reader.text_honest).bind fun _ => Loader.update_honest _
  · exact .nothing _

theorem ErrorEnvelope.loadFields_honest (set : FieldSet) :
    Honest Prod.snd layout room (ErrorEnvelope.loadFields set) := by
  refine (Loader.read_honest Reader.text_honest).bind fun _ => ?_
  refine (Loader.update_honest _).bind fun _ => ?_
  exact (Loader.read_honest Reader.object_honest).bind fun _ => Loader.update_honest _

theorem SignedChunk.loadFields_honest (set : FieldSet) :
    Honest Prod.snd layout room (SignedChunk.loadFields set) := by
  rw [loadFields]
  cases set.wireType with
  | eightByte =>
    exact (Loader.read_honest (Reader.fixed_honest .binary64)).bind fun _ => Loader.update_honest _
  | list =>
    refine (Loader.read_honest Reader.blob_honest).bind fun _ => ?_
    refine (Loader.update_honest _).bind fun _ => ?_
    split
    · exact (Loader.read_honest Reader.object_honest).bind fun _ => Loader.update_honest _
    · exact Loader.update_honest _
  | varint => exact .nothing _
  | fourByte => exact .nothing _

theorem Optional.loadFields_honest {σ : Type} (set : FieldSet) :
    Honest Prod.snd layout room (Optional.loadFields (σ := σ) set) := by
  rw [loadFields]
  split
  · exact (Loader.read_honest Deferred.read_honest).bind fun _ => Loader.update_honest _
  · exact .nothing _

/-! ## Records -/

namespace Record

theorem FieldValue.read_honest (kind : FieldKind) :
    Honest id layout room (FieldValue.read kind) := by
  cases kind with
  | long => exact Reader.long_honest.bind fun _ => .nothing _
  | int => exact (Reader.integer_honest .int).bind fun _ => .nothing _
  | bool => exact Reader.bool_honest.bind fun _ => .nothing _
  | float => exact (Reader.fixed_honest .binary32).bind fun _ => .nothing _
  | double => exact (Reader.fixed_honest .binary64).bind fun _ => .nothing _
  | text => exact Reader.text_honest.bind fun _ => .nothing _
  | blob => exact Reader.blob_honest.bind fun _ => .nothing _
  | ints => exact Deferred.read_honest.bind fun _ => .nothing _
  | error => exact Deferred.read_honest.bind fun _ => .nothing _

theorem loadValues_honest (fields : List Field) :
    Honest Prod.snd layout room (loadValues fields) := by
  induction fields with
  | nil => exact .nothing _
  | cons field rest ih =>
    refine (Loader.read_honest (FieldValue.read_honest _)).bind fun _ => ?_
    exact (Loader.update_honest _).bind fun _ => ih

theorem loadFields_honest (slot : Option Nat) (set : FieldSet) :
    Honest Prod.snd layout room (loadFields slot set) :=
  .getBind fun _ => loadValues_honest _

end Record

/-! ## Schemas -/

mutual

/-- The segments that errors refer to when objects of a schema are read. -/
def Schema.layout : Schema → Layout
  | .sequence element => element.layout
  | .dictionary element => element.layout
  | .frameworkError => FrameworkError.segments.layout
  | .errorEnvelope => ErrorEnvelope.segments.layout
  | .signedChunk => SignedChunk.segments.layout
  | .optional item => (Optional.segments item.format).layout
  | .record table => (Record.segments table).layout
  | .tree => []

/-- The segments that errors refer to when elements of a kind are read. -/
def ElementKind.layout : ElementKind → Layout
  | .bool => []
  | .integer _ => []
  | .float => []
  | .double => []
  | .text => []
  | .object schema => schema.layout

end

mutual

theorem Schema.load_honest : (schema : Schema) → (room : Nat) →
    Honest Prod.snd schema.layout room schema.format.load
  | .sequence element, room =>
    (Sequence.load_honest (element.read_honest room)).mono (Nat.le_succ _)
  | .dictionary element, room => Dictionary.load_honest (element.read_honest room)
  | .frameworkError, _ => Structured.load_honest FrameworkError.loadFields_honest
  | .errorEnvelope, _ => Structured.load_honest ErrorEnvelope.loadFields_honest
  | .signedChunk, _ => Structured.load_honest SignedChunk.loadFields_honest
  | .optional _, _ => Structured.load_honest Optional.loadFields_honest
  | .record _, _ => Structured.load_honest fun _ => Record.loadFields_honest _ _
  | .tree, _ => Tree.load_honest

theorem ElementKind.read_honest : (kind : ElementKind) → (room : Nat) →
    Honest id kind.layout room kind.format.read
  | .bool, _ => Reader.bool_honest
  | .integer width, _ => Reader.integer_honest width
  | .float, _ => Reader.fixed_honest .binary32
  | .double, _ => Reader.fixed_honest .binary64
  | .text, _ => Reader.text_honest
  | .object schema, room => Loader.toReader_honest (schema.load_honest room)

end

/-- The error of decoding a whole buffer is true of some place in the buffer. -/
theorem Schema.deserializeWithin_honest (schema : Schema) {buffer : Bytes} {limit : Nat}
    {error : CodecError} (failed : schema.format.deserializeWithin limit buffer = .error error) :
    ∃ place : Cursor, place.Within buffer limit ∧ error.Truthful schema.layout place := by
  have whole : Honest id schema.layout (buffer.length + 1) (do
      let object ← schema.format.read
      Reader.finish
      return object) :=
    (Loader.toReader_honest (schema.load_honest _)).bind fun _ =>
      Reader.finish_honest.bind fun _ => .nothing _
  rw [ObjectFormat.deserializeWithin] at failed
  split at failed
  · cases failed
  · rename_i reason place stopped
    cases failed
    obtain ⟨onward, truthful⟩ := whole.error _ _ _ (Nat.lt_succ_self _) stopped
    exact ⟨place, onward.within (Cursor.within_ofBytes buffer limit), truthful⟩

end FieldWire
