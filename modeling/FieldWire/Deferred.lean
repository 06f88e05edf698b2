import FieldWire.ObjectFormat

/-!
# Deferred objects

A nested object read from the wire stays as bytes until someone asks for it.  Asking decodes it and
keeps the result; from then on the object, not the bytes, is what is written.  As long as nobody has
asked, or the bytes do not decode, the bytes are written back as they came.

A deferred object is in one of three states.  `raw` and `decoded` hold the bytes as they came, and
differ in whether they have been decoded; `owned` holds an object that was put in, or taken out to
be changed, and no bytes.
-/

set_option autoImplicit false

namespace FieldWire

/-- A nested object that may not have been decoded yet. -/
inductive Deferred (σ : Type) where
  /-- Bytes that nobody has asked for, or that did not decode. -/
  | raw (bytes : Bytes)
  /-- Bytes and the object they decode to. -/
  | decoded (bytes : Bytes) (object : σ)
  /-- An object without bytes. -/
  | owned (object : σ)

namespace Deferred

variable {σ : Type}

/-- A deferred new object. -/
def empty (format : ObjectFormat σ) : Deferred σ := .owned format.empty

/-- The object, if it is at hand. -/
def object? : Deferred σ → Option σ
  | .raw _ => none
  | .decoded _ object => some object
  | .owned object => some object

/-- Whether the object is at hand. -/
def isMaterialized (deferred : Deferred σ) : Bool := deferred.object?.isSome

/-- The bytes as they came, if they are still held. -/
def raw? : Deferred σ → Option Bytes
  | .raw bytes => some bytes
  | .decoded bytes _ => some bytes
  | .owned _ => none

/-- Takes the bytes of an object from the wire without decoding them. -/
def read : Reader (Deferred σ) := do return .raw (← Reader.object)

/-- The object, decoded now if it was not before. -/
def get (format : ObjectFormat σ) : Deferred σ → Except CodecError σ × Deferred σ
  | .raw bytes =>
    match format.deserialize bytes with
    | .ok object => (.ok object, .decoded bytes object)
    | .error error => (.error error, .raw bytes)
  | .decoded bytes object => (.ok object, .decoded bytes object)
  | .owned object => (.ok object, .owned object)

/-- Puts back an object that was looked at, in the state it was in. -/
def refresh (object : σ) : Deferred σ → Deferred σ
  | .raw bytes => .raw bytes
  | .decoded bytes _ => .decoded bytes object
  | .owned _ => .owned object

/-- Looks at the object, decoded now if it was not before. -/
def visit {α : Type} (format : ObjectFormat σ) (look : σ → α × σ) (deferred : Deferred σ) :
    Except CodecError α × Deferred σ :=
  match deferred.get format with
  | (.ok object, deferred) =>
    let (answer, object) := look object
    (.ok answer, deferred.refresh object)
  | (.error error, deferred) => (.error error, deferred)

/-- Changes the object.  The bytes are dropped, unless they do not decode: then nothing changes. -/
def modify {α : Type} (format : ObjectFormat σ) (change : σ → α × σ) (deferred : Deferred σ) :
    Except CodecError α × Deferred σ :=
  match deferred.get format with
  | (.ok object, _) =>
    let (answer, object) := change object
    (.ok answer, .owned object)
  | (.error error, deferred) => (.error error, deferred)

/-- The object itself. -/
def intoInner (format : ObjectFormat σ) (deferred : Deferred σ) : Except CodecError σ :=
  (deferred.get format).1

/-- The number of bytes that are written. -/
def encodedSize (format : ObjectFormat σ) : Deferred σ → Nat × Deferred σ
  | .raw bytes => (bytes.length, .raw bytes)
  | .decoded bytes object =>
    let (size, object) := format.encodedSize object
    (size, .decoded bytes object)
  | .owned object =>
    let (size, object) := format.encodedSize object
    (size, .owned object)

/-- What is written: the object if it is at hand, and else the bytes as they came. -/
def encode (format : ObjectFormat σ) : Deferred σ → Bytes × Deferred σ
  | .raw bytes => (bytes, .raw bytes)
  | .decoded bytes object =>
    let (written, object) := format.encode object
    (written, .decoded bytes object)
  | .owned object =>
    let (written, object) := format.encode object
    (written, .owned object)

/-- Whether two deferred objects are equal.  If neither has been decoded their bytes are compared;
otherwise both are decoded and the objects are compared, and one that does not decode is equal to
nothing. -/
def same (format : ObjectFormat σ) : Deferred σ → Deferred σ → Bool × Deferred σ × Deferred σ
  | .raw left, .raw right => (left == right, .raw left, .raw right)
  | left, right =>
    match left.get format, right.get format with
    | (.ok leftObject, left), (.ok rightObject, right) =>
      let (answer, leftObject, rightObject) := format.same leftObject rightObject
      (answer, left.refresh leftObject, right.refresh rightObject)
    | (_, left), (_, right) => (false, left, right)

end Deferred

end FieldWire
