import FieldWire.Reader
import FieldWire.Write

/-!
# Object formats

An object is written as an envelope: the length of its body, then the body.  Objects remember sizes
they have worked out and nested values they have decoded, so every operation that looks at an object
also gives the object as it is afterwards; the two have the same contents, but the second may know
more.

Decoding works in place.  A loader moves an object together with a cursor, and an error leaves both
as they were when it arose.
-/

set_option autoImplicit false

namespace FieldWire

/-- A step of an object and a cursor. -/
abbrev Loader (σ α : Type) := EStateM CodecError (σ × Cursor) α

namespace Loader

/-- Reads from the cursor and leaves the object alone. -/
def read {σ α : Type} (reader : Reader α) : Loader σ α := fun (object, cursor) =>
  match reader cursor with
  | .ok value after => .ok value (object, after)
  | .error error after => .error error (object, after)

/-- Changes the object and leaves the cursor alone. -/
def update {σ : Type} (change : σ → σ) : Loader σ Unit :=
  modify fun (object, cursor) => (change object, cursor)

/-- Works on one part of an object. -/
def part {σ τ α : Type} (get : σ → τ) (put : σ → τ → σ) (loader : Loader τ α) : Loader σ α :=
  fun (object, cursor) =>
    match loader (get object, cursor) with
    | .ok value (inner, after) => .ok value (put object inner, after)
    | .error error (inner, after) => .error error (put object inner, after)

/-- Runs a loader as a reader that starts from a given object and gives the object it ends with. -/
def toReader {σ : Type} (start : σ) (loader : Loader σ Unit) : Reader σ := fun cursor =>
  match loader (start, cursor) with
  | .ok _ (object, after) => .ok object after
  | .error error (_, after) => .error error after

end Loader

/-- How objects of a type are written and read. -/
structure ObjectFormat (σ : Type) where
  /-- A new object. -/
  empty : σ
  /-- The number of bytes of the body. -/
  size : σ → Nat × σ
  /-- The envelope. -/
  encode : σ → Bytes × σ
  /-- Reads an envelope into an object. -/
  load : Loader σ Unit
  /-- Whether two objects are equal. -/
  same : σ → σ → Bool × σ × σ

namespace ObjectFormat

variable {σ : Type}

/-- The number of bytes of the envelope. -/
def encodedSize (format : ObjectFormat σ) (object : σ) : Nat × σ :=
  let (size, object) := format.size object
  (LengthTag.spanSize size, object)

/-- Reads an envelope into a new object. -/
def read (format : ObjectFormat σ) : Reader σ := Loader.toReader format.empty format.load

/-- The bytes of an object. -/
def serialize (format : ObjectFormat σ) (object : σ) : Bytes × σ := format.encode object

/-- The bytes of an object whose body keeps to a limit. -/
def serializeWithin (format : ObjectFormat σ) (limit : Nat) (object : σ) :
    Except CodecError Bytes × σ :=
  let (size, object) := format.size object
  if size ≤ limit then
    let (bytes, object) := format.encode object
    (.ok bytes, object)
  else (.error (.payloadTooLarge size limit), object)

/-- The object that fills a buffer, read with a limit. -/
def deserializeWithin (format : ObjectFormat σ) (limit : Nat) (bytes : Bytes) :
    Except CodecError σ :=
  let whole : Reader σ := do
    let object ← format.read
    Reader.finish
    return object
  match whole (Cursor.ofBytes bytes limit) with
  | .ok object _ => .ok object
  | .error error _ => .error error

/-- The object that fills a buffer. -/
def deserialize (format : ObjectFormat σ) (bytes : Bytes) : Except CodecError σ :=
  format.deserializeWithin defaultPayloadLimit bytes

/-- Reads an envelope from the front of a buffer into an object.  The object is as reading left it,
and the number is the place where the cursor stopped, whether reading succeeded or not. -/
def loadFrom (format : ObjectFormat σ) (limit : Nat) (bytes : Bytes) (object : σ) :
    Except CodecError Unit × σ × Nat :=
  match format.load (object, Cursor.ofBytes bytes limit) with
  | .ok _ (object, cursor) => (.ok (), object, cursor.pos)
  | .error error (object, cursor) => (.error error, object, cursor.pos)

end ObjectFormat

end FieldWire
