import FieldWire.Proofs.Honest.Schema

/-!
# Sessions

A session is a run of operations on one cursor: reads of single values, and of whole objects into
objects that are at hand.  An operation that fails does not end the session, and the next one starts
from where the error has left the cursor.

Every operation of every session stays in bounds.  It starts and stops within the buffer, never goes
back, holds in its result no other bytes than those it has gone over, and if it fails tells the
truth.  One operation preserves that the cursor is within the buffer, and the run follows by
induction over the operations.
-/

set_option autoImplicit false

namespace FieldWire

/-! ## Slices -/

namespace Reader

variable {α β : Type} {slice : α → Bytes}

/-- The bytes in the result are the last ones that the reader went over. -/
def Slices (reader : Reader α) (slice : α → Bytes) : Prop :=
  ∀ cursor value after, reader cursor = .ok value after → ∃ skipped,
    skipped + (slice value).length ≤ cursor.rest.length ∧
    slice value = (cursor.rest.drop skipped).take (slice value).length ∧
    after = cursor.advance (skipped + (slice value).length)

theorem Slices.bind {first : Reader β} {next : β → Reader α}
    (honest : ∀ room, Honest id [] room first) (more : ∀ value, (next value).Slices slice) :
    (first >>= next).Slices slice := by
  intro cursor result after ran
  obtain ⟨value, middle, firstRan, nextRan⟩ := (bind_eq_ok_iff _ _ _ _ _).mp ran
  obtain ⟨front, inside, rfl⟩ := (honest _).ok _ _ _ (Nat.lt_succ_self _) firstRan
  obtain ⟨skipped, there, same, rfl⟩ := more value _ _ _ nextRan
  simp only [id_eq, Cursor.rest_advance, List.length_drop, List.drop_drop] at there same inside
  refine ⟨front + skipped, by omega, same, ?_⟩
  rw [Nat.add_assoc]
  exact Cursor.advance_advance _ _ _

theorem Slices.map {reader : Reader α} {change : α → β} {other : β → Bytes}
    (slices : reader.Slices slice)
    (same : ∀ cursor value after, reader cursor = .ok value after →
      other (change value) = slice value) :
    (reader >>= fun value => pure (change value)).Slices other := by
  intro cursor result after ran
  obtain ⟨value, middle, read, returned⟩ := (bind_eq_ok_iff _ _ _ _ _).mp ran
  obtain ⟨rfl, rfl⟩ := (pure_eq_ok_iff _ _ _ _).mp returned
  rw [same _ _ _ read]
  exact slices _ _ _ read

theorem length_of_span {length : Nat} {bytes : Bytes} {cursor after : Cursor}
    (ran : span length cursor = .ok bytes after) : bytes.length = length := by
  obtain ⟨inside, rfl, _⟩ := span_eq_ok ran
  exact List.length_take_of_le inside

theorem span_slices (length : Nat) : (span length).Slices id := by
  intro cursor bytes after ran
  obtain rfl := length_of_span ran
  obtain ⟨inside, same, rfl⟩ := span_eq_ok ran
  exact ⟨0, by simpa using inside, same, by simp⟩

theorem fixed_slices (code : FixedWidth α) : (fixed code).Slices code.encode :=
  (span_slices code.width).map fun _ _ _ ran => code.encode_ofWire (length_of_span ran)

theorem blob_slices : blob.Slices id := .bind (fun _ => spanLength_honest) fun _ => span_slices _

theorem text_slices : text.Slices Text.bytes := blob_slices.map fun _ _ _ _ => rfl

theorem string_slices : string.Slices Text.utf8 := by
  intro cursor string after ran
  obtain ⟨text, middle, read, converted⟩ := (bind_eq_ok_iff _ _ _ _ _).mp ran
  cases found : text.read with
  | error error =>
    rw [found] at converted
    exact absurd converted (throw_ne_ok _ _ _ _)
  | ok result =>
    rw [found] at converted
    obtain ⟨rfl, rfl⟩ := (pure_eq_ok_iff _ _ _ _).mp converted
    rw [Text.read_eq_ok_iff.mp found]
    exact text_slices _ _ _ read

theorem object_slices : object.Slices id := by
  intro cursor bytes after ran
  obtain ⟨_, inside, same, rfl⟩ := object_eq_ok ran
  exact ⟨0, by simpa using inside, same, by simp⟩

/-- A slice as a part of the whole buffer. -/
theorem Slices.inBuffer {reader : Reader α} {buffer : Bytes} {limit : Nat} {cursor after : Cursor}
    {value : α} (slices : reader.Slices slice) (within : cursor.Within buffer limit)
    (ran : reader cursor = .ok value after) :
    ∃ start, cursor.pos ≤ start ∧ start + (slice value).length = after.pos ∧
      slice value = (buffer.drop start).take (slice value).length := by
  obtain ⟨skipped, inside, same, rfl⟩ := slices _ _ _ ran
  rw [within.rest_eq, List.drop_drop] at same
  exact ⟨cursor.pos + skipped, Nat.le_add_right _ _, Nat.add_assoc _ _ _, same⟩

end Reader

namespace Session

/-! ## Operations -/

/-- What can be done with a cursor. -/
inductive Operation where
  | position
  | remaining
  | isDone
  | finish
  | word
  | word32
  | long
  | integer (width : Width)
  | bool
  | binary32
  | binary64
  | span (length : Nat)
  | spanLength
  | count (scheme : WireType)
  | blob
  | text
  | string
  | object
  | skip (wireType : WireType)
  | fieldSet
  /-- Reads an element of a collection, which may be a new object. -/
  | element (kind : ElementKind)
  /-- Reads a run of elements. -/
  | elements (kind : ElementKind)
  /-- Reads an envelope into an object. -/
  | load (schema : Schema) (target : schema.Carrier)

namespace Operation

/-- What an operation gives. -/
def Result : Operation → Type
  | .position => Nat
  | .remaining => Nat
  | .isDone => Bool
  | .finish => Unit
  | .word => UInt64
  | .word32 => UInt32
  | .long => Integer .long
  | .integer width => Integer width
  | .bool => Bool
  | .binary32 => Binary32
  | .binary64 => Binary64
  | .span _ => Bytes
  | .spanLength => Nat
  | .count _ => Nat
  | .blob => Bytes
  | .text => Text
  | .string => String
  | .object => Bytes
  | .skip _ => Unit
  | .fieldSet => FieldSet
  | .element kind => kind.Carrier
  | .elements kind => List kind.Carrier
  | .load schema _ => schema.Carrier

/-- The reader of an operation. -/
def run : (operation : Operation) → Reader operation.Result
  | .position => Reader.position
  | .remaining => Reader.remaining
  | .isDone => Reader.isDone
  | .finish => Reader.finish
  | .word => Reader.word
  | .word32 => Reader.word32
  | .long => Reader.long
  | .integer width => Reader.integer width
  | .bool => Reader.bool
  | .binary32 => Reader.binary32
  | .binary64 => Reader.binary64
  | .span length => Reader.span length
  | .spanLength => Reader.spanLength
  | .count scheme => Reader.count scheme
  | .blob => Reader.blob
  | .text => Reader.text
  | .string => Reader.string
  | .object => Reader.object
  | .skip wireType => Reader.skip wireType
  | .fieldSet => FieldSet.read
  | .element kind => kind.format.read
  | .elements kind => kind.format.readValues
  | .load schema target => Loader.toReader target schema.format.load

/-- The segments that the errors of an operation refer to. -/
def layout : Operation → Layout
  | .element kind => kind.layout
  | .elements kind => kind.layout
  | .load schema _ => schema.layout
  | _ => []

/-- The bytes of the buffer that stand in a result as they were, if an operation gives any. -/
def slice? : (operation : Operation) → operation.Result → Option Bytes
  | .binary32, number => some (Binary32.encode number)
  | .binary64, number => some (Binary64.encode number)
  | .span _, bytes => some bytes
  | .blob, bytes => some bytes
  | .text, value => some (Text.bytes value)
  | .string, value => some (Text.utf8 value)
  | .object, bytes => some bytes
  | _, _ => none

theorem run_honest (operation : Operation) (room : Nat) :
    Honest id operation.layout room operation.run := by
  cases operation with
  | position => exact Reader.position_honest
  | remaining => exact .getBind fun _ => .nothing _
  | isDone => exact .getBind fun _ => .nothing _
  | finish => exact Reader.finish_honest
  | word => exact Reader.word_honest
  | word32 => exact Reader.word32_honest
  | long => exact Reader.long_honest
  | integer width => exact Reader.integer_honest width
  | bool => exact Reader.bool_honest
  | binary32 => exact Reader.fixed_honest .binary32
  | binary64 => exact Reader.fixed_honest .binary64
  | span length => exact Reader.span_honest length
  | spanLength => exact Reader.spanLength_honest
  | count scheme => exact Reader.count_honest scheme
  | blob => exact Reader.blob_honest
  | text => exact Reader.text_honest
  | string => exact Reader.string_honest
  | object => exact Reader.object_honest
  | skip wireType => exact Reader.skip_honest wireType
  | fieldSet => exact FieldSet.read_honest
  | element kind => exact kind.read_honest room
  | elements kind => exact ElementFormat.readValues_honest (kind.read_honest room)
  | load schema target => exact Loader.toReader_honest (schema.load_honest room)

theorem run_slices {operation : Operation} {buffer bytes : Bytes} {limit : Nat}
    {cursor after : Cursor} {value : operation.Result} (within : cursor.Within buffer limit)
    (ran : operation.run cursor = .ok value after) (given : operation.slice? value = some bytes) :
    ∃ start, cursor.pos ≤ start ∧ start + bytes.length = after.pos ∧
      bytes = (buffer.drop start).take bytes.length := by
  cases operation <;> cases given
  case binary32 => exact (Reader.fixed_slices .binary32).inBuffer within ran
  case binary64 => exact (Reader.fixed_slices .binary64).inBuffer within ran
  case span length => exact (Reader.span_slices length).inBuffer within ran
  case blob => exact Reader.blob_slices.inBuffer within ran
  case text => exact Reader.text_slices.inBuffer within ran
  case string => exact Reader.string_slices.inBuffer within ran
  case object => exact Reader.object_slices.inBuffer within ran

end Operation

/-! ## Runs -/

/-- An operation that was done. -/
structure Event where
  /-- The operation. -/
  operation : Operation
  /-- Where it started. -/
  before : Cursor
  /-- What it gave, or why it failed. -/
  outcome : Except CodecError operation.Result
  /-- Where it stopped. -/
  after : Cursor

/-- Does an operation. -/
def Operation.perform (operation : Operation) (cursor : Cursor) : Event :=
  match operation.run cursor with
  | .ok value after => ⟨operation, cursor, .ok value, after⟩
  | .error error after => ⟨operation, cursor, .error error, after⟩

/-- Does some operations one after the other, whether they fail or not. -/
def trace : List Operation → Cursor → List Event
  | [], _ => []
  | operation :: operations, cursor =>
    operation.perform cursor :: trace operations (operation.perform cursor).after

/-- What an operation on a cursor of the buffer has done is in bounds, and its error is true. -/
structure Event.Sound (buffer : Bytes) (limit : Nat) (event : Event) : Prop where
  before : event.before.Within buffer limit
  after : event.after.Within buffer limit
  forward : event.before.pos ≤ event.after.pos
  slice : ∀ value bytes, event.outcome = .ok value → event.operation.slice? value = some bytes →
    ∃ start, event.before.pos ≤ start ∧ start + bytes.length = event.after.pos ∧
      bytes = (buffer.drop start).take bytes.length
  truthful : ∀ error, event.outcome = .error error →
    error.Truthful event.operation.layout event.after

variable {buffer : Bytes} {limit : Nat} {cursor : Cursor}

theorem Operation.before_perform (operation : Operation) (cursor : Cursor) :
    (operation.perform cursor).before = cursor := by
  rw [perform]
  cases operation.run cursor <;> rfl

theorem Operation.perform_sound (operation : Operation) (within : cursor.Within buffer limit) :
    (operation.perform cursor).Sound buffer limit := by
  have honest := operation.run_honest (cursor.rest.length + 1)
  rw [perform]
  cases ran : operation.run cursor with
  | ok value after =>
    have onward : cursor.Onward after := honest.ok _ _ _ (Nat.lt_succ_self _) ran
    refine ⟨within, onward.within within, onward.pos_le, ?_, nofun⟩
    rintro _ bytes ⟨⟩ given
    exact run_slices within ran given
  | error error after =>
    obtain ⟨onward, truthful⟩ := honest.error _ _ _ (Nat.lt_succ_self _) ran
    refine ⟨within, onward.within within, onward.pos_le, nofun, ?_⟩
    rintro _ ⟨⟩
    exact truthful

theorem sound_of_mem_trace {operations : List Operation} {event : Event}
    (within : cursor.Within buffer limit) (member : event ∈ trace operations cursor) :
    event.Sound buffer limit := by
  induction operations generalizing cursor with
  | nil => cases member
  | cons operation operations ih =>
    have sound := operation.perform_sound within
    rcases List.mem_cons.mp member with rfl | later
    · exact sound
    · exact ih sound.after later

/-- Nothing in a run comes before the place where it started. -/
theorem pos_le_of_mem_trace {operations : List Operation} {event : Event}
    (within : cursor.Within buffer limit) (member : event ∈ trace operations cursor) :
    cursor.pos ≤ event.before.pos := by
  induction operations generalizing cursor with
  | nil => cases member
  | cons operation operations ih =>
    have sound := operation.perform_sound within
    rcases List.mem_cons.mp member with rfl | later
    · rw [operation.before_perform]
    · have forward := sound.forward
      rw [operation.before_perform] at forward
      exact Nat.le_trans forward (ih sound.after later)

theorem pairwise_trace (within : cursor.Within buffer limit) (operations : List Operation) :
    (trace operations cursor).Pairwise fun earlier later =>
      earlier.after.pos ≤ later.before.pos := by
  induction operations generalizing cursor with
  | nil => exact .nil
  | cons operation operations ih =>
    have sound := operation.perform_sound within
    exact .cons (fun event later => pos_le_of_mem_trace sound.after later) (ih sound.after)

/-- Whatever the buffer and the limit, an operation is in bounds and its error is true wherever in the
buffer it starts, be it in the middle of an object; so is every operation of every session, along
which positions grow; and the error of decoding the whole buffer is true of some place in it. -/
theorem stays_in_bounds_and_tells_the_truth (buffer : Bytes) (limit : Nat) :
    (∀ (operation : Operation) (cursor : Cursor), cursor.Within buffer limit →
      (operation.perform cursor).Sound buffer limit) ∧
    (∀ operations : List Operation,
      (∀ event ∈ trace operations (Cursor.ofBytes buffer limit), event.Sound buffer limit) ∧
      (trace operations (Cursor.ofBytes buffer limit)).Pairwise fun earlier later =>
        earlier.after.pos ≤ later.before.pos) ∧
    ∀ (schema : Schema) (error : CodecError),
      schema.format.deserializeWithin limit buffer = .error error →
        ∃ place : Cursor, place.Within buffer limit ∧ error.Truthful schema.layout place := by
  have start := Cursor.within_ofBytes buffer limit
  refine ⟨fun operation cursor within => operation.perform_sound within, fun operations => ?_,
    fun schema error failed => schema.deserializeWithin_honest failed⟩
  exact ⟨fun event member => sound_of_mem_trace start member, pairwise_trace start operations⟩

/-- A session of five operations, four of which fail, and a whole buffer that does not decode. -/
theorem stays_in_bounds_and_tells_the_truth_example :
    let buffer : Bytes := [0xac, 0x02, 4, 8, 7]
    let start := Cursor.ofBytes buffer 10
    let load := Operation.load .errorEnvelope ErrorEnvelope.format.empty
    let session := trace [.span 6, .integer .byte, load, .finish, .word] start
    session.map (fun event => (event.before.pos, event.after.pos)) =
      [(0, 0), (0, 2), (2, 4), (4, 4), (4, 5)] ∧
    session.map (fun event => match event.outcome with
      | .ok _ => none
      | .error error => some error) =
      [some (.bufferUnderrun 6 5), some (.varintOutOfRange 150 .byte),
        some (.requiredFieldMissing .list 0 16), some (.trailingBytes 1), none] ∧
    (load.perform (start.advance 2)).Sound buffer 10 ∧
    (∀ event ∈ session, event.Sound buffer 10) ∧
    ErrorEnvelope.format.deserializeWithin 10 [4, 8] =
      .error (.requiredFieldMissing .list 0 16) ∧
    ∃ place : Cursor, place.Within [4, 8] 10 ∧
      (CodecError.requiredFieldMissing .list 0 16).Truthful ErrorEnvelope.segments.layout
        place := by
  intro buffer start load session
  obtain ⟨anywhere, along, _⟩ := stays_in_bounds_and_tells_the_truth buffer 10
  have within : (start.advance 2).Within buffer 10 := ⟨by decide, rfl, rfl⟩
  have failed : ErrorEnvelope.format.deserializeWithin 10 [4, 8] =
      .error (.requiredFieldMissing .list 0 16) := rfl
  refine ⟨by decide, by decide, anywhere _ _ within, (along _).1, failed, ?_⟩
  exact (stays_in_bounds_and_tells_the_truth [4, 8] 10).2.2 .errorEnvelope _ failed

end Session

end FieldWire
