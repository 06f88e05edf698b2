import FieldWire.Bytes
import FieldWire.Error

/-!
# Cursors

A cursor stands somewhere in a buffer and knows what is left of it, how far it has come, and how
long a span may be.  A reader is a step of a cursor: it gives a value or an error, and in both cases
the place where the cursor stands afterwards.  Reading can therefore go on after an error.
-/

set_option autoImplicit false

namespace FieldWire

/-- A place in a buffer. -/
structure Cursor where
  /-- The bytes from here to the end of the buffer. -/
  rest : Bytes
  /-- The number of bytes before this place. -/
  pos : Nat
  /-- The largest envelope, span or collection that may be read. -/
  limit : Nat
deriving DecidableEq, Repr

/-- The limit of a cursor unless a configuration sets another: one gibibyte. -/
def defaultPayloadLimit : Nat := 1073741824

/-- A cursor at the front of a buffer. -/
def Cursor.ofBytes (bytes : Bytes) (limit : Nat) : Cursor := ⟨bytes, 0, limit⟩

/-- The cursor `count` bytes further on. -/
def Cursor.advance (cursor : Cursor) (count : Nat) : Cursor :=
  { cursor with rest := cursor.rest.drop count, pos := cursor.pos + count }

/-- A step of a cursor that gives a value or an error. -/
abbrev Reader (α : Type) := EStateM CodecError Cursor α

namespace Reader

/-- The number of bytes read so far. -/
def position : Reader Nat := do return (← get).pos

/-- The number of bytes left. -/
def remaining : Reader Nat := do return (← get).rest.length

/-- Whether nothing is left. -/
def isDone : Reader Bool := do return (← get).rest.isEmpty

/-- Fails unless `needed` bytes are left. -/
def ensure (needed : Nat) : Reader Unit := do
  let cursor ← get
  if Bytes.hasAtLeast needed cursor.rest then return ()
  else throw (.bufferUnderrun needed cursor.rest.length)

/-- Fails if `size` exceeds the limit. -/
def withinLimit (size : Nat) : Reader Unit := do
  let cursor ← get
  if size ≤ cursor.limit then return () else throw (.payloadTooLarge size cursor.limit)

/-- Moves on, reading nothing. -/
def advance (count : Nat) : Reader Unit := modify fun cursor => cursor.advance count

/-- Fails if anything is left. -/
def finish : Reader Unit := do
  match (← get).rest.length with
  | 0 => return ()
  | count + 1 => throw (.trailingBytes (count + 1))

end Reader

end FieldWire
