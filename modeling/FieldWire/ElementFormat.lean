import FieldWire.ObjectFormat

/-!
# Element formats

The elements of a collection have one wire type, their scheme.  A run of elements is written as a
length tag with their count and scheme, and then the elements one after the other.
-/

set_option autoImplicit false

namespace FieldWire

/-- How the elements of a collection are written and read. -/
structure ElementFormat (α : Type) where
  /-- The wire type of the elements. -/
  scheme : WireType
  /-- The number of bytes of an element. -/
  size : α → Nat × α
  /-- An element. -/
  write : α → Bytes × α
  /-- Reads an element. -/
  read : Reader α
  /-- Whether two elements are equal. -/
  same : α → α → Bool × α × α

namespace ElementFormat

variable {α : Type}

/-- Elements without memory: looking at them does not change them. -/
def ofPlain (scheme : WireType) (size : α → Nat) (write : α → Bytes) (read : Reader α)
    (same : α → α → Bool) : ElementFormat α where
  scheme := scheme
  size value := (size value, value)
  write value := (write value, value)
  read := read
  same left right := (same left right, left, right)

/-- Truth values. -/
def bool : ElementFormat Bool := ofPlain .varint (fun _ => 1) Write.bool Reader.bool (· == ·)

/-- Integers of one width. -/
def integer (width : Width) : ElementFormat (Integer width) :=
  ofPlain .varint Write.integerSize Write.integer (Reader.integer width) (fun left right =>
    left.val == right.val)

/-- Four-byte floating-point numbers. -/
def binary32 : ElementFormat Binary32 :=
  ofPlain .fourByte (fun _ => 4) Binary32.encode Reader.binary32 Binary32.same

/-- Eight-byte floating-point numbers. -/
def binary64 : ElementFormat Binary64 :=
  ofPlain .eightByte (fun _ => 8) Binary64.encode Reader.binary64 Binary64.same

/-- Texts. -/
def text : ElementFormat Text := ofPlain .list Text.encodedSize Write.text Reader.text Text.same

/-- Objects. -/
def object {σ : Type} (format : ObjectFormat σ) : ElementFormat σ where
  scheme := .list
  size := format.encodedSize
  write := format.encode
  read := format.read
  same := format.same

/-- The number of bytes of some elements, one after the other. -/
def elementsSize (format : ElementFormat α) : List α → Nat × List α
  | [] => (0, [])
  | value :: values =>
    let (size, value) := format.size value
    let (rest, values) := format.elementsSize values
    (size + rest, value :: values)

/-- The number of bytes of a run of elements.  If the scheme fixes the width of an element, no
element is looked at. -/
def valuesSize (format : ElementFormat α) (values : List α) : Nat × List α :=
  let tagSize := LengthTag.size values.length format.scheme
  match format.scheme.fixedWidth? with
  | some width => (tagSize + width * values.length, values)
  | none =>
    let (size, values) := format.elementsSize values
    (tagSize + size, values)

/-- A run of elements. -/
def writeValues (format : ElementFormat α) (values : List α) : Bytes × List α :=
  let visited := values.map format.write
  (Write.lengthTag values.length format.scheme ++ visited.flatMap (·.1), visited.map (·.2))

/-- Reads a given number of elements. -/
def readMany (format : ElementFormat α) : Nat → Reader (List α)
  | 0 => return []
  | count + 1 => do
    let value ← format.read
    let values ← format.readMany count
    return value :: values

/-- Reads a run of elements. -/
def readValues (format : ElementFormat α) : Reader (List α) := do
  format.readMany (← Reader.count format.scheme)

/-- Whether two runs of the same length have equal elements.  The comparison stops at the first two
that differ. -/
def sameValues (format : ElementFormat α) : List α → List α → Bool × List α × List α
  | left :: lefts, right :: rights =>
    match format.same left right with
    | (true, left, right) =>
      let (answer, lefts, rights) := format.sameValues lefts rights
      (answer, left :: lefts, right :: rights)
    | (false, left, right) => (false, left :: lefts, right :: rights)
  | lefts, rights => (lefts.isEmpty && rights.isEmpty, lefts, rights)

end ElementFormat

end FieldWire
