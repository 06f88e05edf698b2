import FieldWire.ElementFormat

/-!
# Sequences

A sequence is an envelope around one run of elements.  It remembers the size of its body until its
elements change.
-/

set_option autoImplicit false

namespace FieldWire

/-- A list of elements that travels as an object. -/
structure Sequence (α : Type) where
  /-- The elements. -/
  items : List α
  /-- The size of the body, if it is remembered. -/
  memo : Option Nat

namespace Sequence

variable {α : Type}

/-- The sequence without elements. -/
def empty : Sequence α := ⟨[], none⟩

/-- The sequence of the given elements. -/
def ofList (items : List α) : Sequence α := ⟨items, none⟩

/-- The number of elements. -/
def length (sequence : Sequence α) : Nat := sequence.items.length

/-- Whether there are no elements. -/
def isEmpty (sequence : Sequence α) : Bool := sequence.items.isEmpty

/-- The element at an index. -/
def get? (sequence : Sequence α) (index : Nat) : Option α := sequence.items[index]?

/-- Adds an element at the end. -/
def push (sequence : Sequence α) (value : α) : Sequence α := ⟨sequence.items ++ [value], none⟩

/-- Adds elements at the end.  Without any, the remembered size stays. -/
def append (sequence : Sequence α) (values : List α) : Sequence α :=
  if values.isEmpty then sequence else ⟨sequence.items ++ values, none⟩

/-- Puts another element at an index and gives the old one.  Nothing happens at an index beyond the
end. -/
def replace (sequence : Sequence α) (index : Nat) (value : α) : Option α × Sequence α :=
  match sequence.items[index]? with
  | some old => (some old, ⟨sequence.items.set index value, none⟩)
  | none => (none, sequence)

/-- Removes all elements. -/
def clear (_ : Sequence α) : Sequence α := empty

/-- The size of the body, remembered from now on. -/
def size (format : ElementFormat α) (sequence : Sequence α) : Nat × Sequence α :=
  match sequence.memo with
  | some size => (size, sequence)
  | none =>
    let (size, items) := format.valuesSize sequence.items
    (size, ⟨items, some size⟩)

/-- The envelope.  Its length is the remembered size. -/
def encode (format : ElementFormat α) (sequence : Sequence α) : Bytes × Sequence α :=
  let (size, sequence) := sequence.size format
  let (body, items) := format.writeValues sequence.items
  (Write.word (LengthTag.span size) ++ body, { sequence with items := items })

/-- Reads an envelope.  If its length proves wrong the new elements stay, and so does the size that
was remembered for the old ones. -/
def load (format : ElementFormat α) : Loader (Sequence α) Unit := do
  let declared ← Loader.read Reader.openSpan
  let start ← Loader.read Reader.position
  let items ← Loader.read format.readValues
  Loader.update fun sequence => { sequence with items := items }
  let stop ← Loader.read Reader.position
  if stop - start != declared then
    throw (.lengthMismatch declared (stop - start))
  Loader.update fun sequence => { sequence with memo := some declared }

/-- Whether two sequences have equal elements in the same order. -/
def same (format : ElementFormat α) (left right : Sequence α) :
    Bool × Sequence α × Sequence α :=
  if left.length = right.length then
    let (answer, leftItems, rightItems) := format.sameValues left.items right.items
    (answer, { left with items := leftItems }, { right with items := rightItems })
  else (false, left, right)

/-- The format of sequences. -/
def format (format : ElementFormat α) : ObjectFormat (Sequence α) where
  empty := empty
  size := size format
  encode := encode format
  load := load format
  same := same format

/-- The strings of a sequence of texts, if all of them are strings. -/
def toStrings (sequence : Sequence Text) : Except CodecError (List String) :=
  sequence.items.mapM Text.read

end Sequence

end FieldWire
