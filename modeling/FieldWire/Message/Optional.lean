import FieldWire.Deferred
import FieldWire.Structured

/-!
# Optional payloads

A wrapper around an object that may be absent.  The object is deferred: it stays as bytes until it
is asked for.
-/

set_option autoImplicit false

namespace FieldWire

/-- The fields of an optional payload. -/
structure Optional.Fields (σ : Type) where
  /-- The payload last set or read. -/
  item : Option (Deferred σ)

/-- A payload that may be absent. -/
abbrev Optional (σ : Type) := Structured (Optional.Fields σ)

namespace Optional

variable {σ : Type}

/-- The slot of the only segment. -/
def slot : Nat := 0

/-- The mask of the payload. -/
def itemField : UInt64 := fieldBit 0

/-- The number of bytes of the payload, if a field set says that it is present. -/
def fieldsSize (inner : ObjectFormat σ) (set : FieldSet) (fields : Fields σ) : Nat × Fields σ :=
  match fields.item with
  | some item =>
    if set.has itemField then
      let (size, item) := item.encodedSize inner
      (size, ⟨some item⟩)
    else (0, fields)
  | none => (0, fields)

/-- The payload, if a field set says that it is present. -/
def encodeFields (inner : ObjectFormat σ) (set : FieldSet) (fields : Fields σ) :
    Bytes × Fields σ :=
  match fields.item with
  | some item =>
    if set.has itemField then
      let (bytes, item) := item.encode inner
      (bytes, ⟨some item⟩)
    else ([], fields)
  | none => ([], fields)

/-- Reads the payload if a field set says that it is present. -/
def loadFields (set : FieldSet) : Loader (Fields σ) Unit := do
  if set.has itemField then
    let item ← Loader.read Deferred.read
    Loader.update fun _ => ⟨some item⟩

/-- Whether two payloads are both missing or equal. -/
def sameFields (inner : ObjectFormat σ) (left right : Fields σ) : Bool × Fields σ × Fields σ :=
  match left.item, right.item with
  | some leftItem, some rightItem =>
    let (answer, leftItem, rightItem) := Deferred.same inner leftItem rightItem
    (answer, ⟨some leftItem⟩, ⟨some rightItem⟩)
  | none, none => (true, left, right)
  | _, _ => (false, left, right)

/-- How the fields are written and read. -/
def segments (inner : ObjectFormat σ) : SegmentFormat (Fields σ) where
  layout := [Segment.make .list 0 0 itemField]
  empty := ⟨none⟩
  size := fieldsSize inner
  encode := encodeFields inner
  load := loadFields
  same := sameFields inner

/-- The format of optional payloads. -/
def format (inner : ObjectFormat σ) : ObjectFormat (Optional σ) :=
  Structured.format (segments inner)

/-- Whether there is a payload. -/
def hasItem (wrapper : Optional σ) : Bool := wrapper.presence.has slot itemField

/-- Looks at the payload, if there is one.  The remembered size of the wrapper stays. -/
def visitItem {α : Type} (inner : ObjectFormat σ) (look : σ → α × σ) (wrapper : Optional σ) :
    Except CodecError (Option α) × Optional σ :=
  match wrapper.fields.item with
  | some item =>
    if hasItem wrapper then
      match item.visit inner look with
      | (.ok answer, item) => (.ok (some answer), { wrapper with fields := ⟨some item⟩ })
      | (.error error, item) => (.error error, { wrapper with fields := ⟨some item⟩ })
    else (.ok none, wrapper)
  | none => (.ok none, wrapper)

/-- Changes the payload, if there is one.  The wrapper forgets its size, even if the payload does
not decode. -/
def modifyItem {α : Type} (inner : ObjectFormat σ) (change : σ → α × σ) (wrapper : Optional σ) :
    Except CodecError (Option α) × Optional σ :=
  if hasItem wrapper then
    let wrapper := wrapper.forget
    match wrapper.fields.item with
    | some item =>
      match item.modify inner change with
      | (.ok answer, item) => (.ok (some answer), { wrapper with fields := ⟨some item⟩ })
      | (.error error, item) => (.error error, { wrapper with fields := ⟨some item⟩ })
    | none => (.ok none, wrapper)
  else (.ok none, wrapper)

/-- Sets the payload. -/
def setItem (wrapper : Optional σ) (item : σ) : Optional σ :=
  (wrapper.change fun _ => ⟨some (.owned item)⟩).mark slot itemField true

/-- Removes the payload. -/
def clearItem (wrapper : Optional σ) : Optional σ :=
  (wrapper.change fun _ => ⟨none⟩).mark slot itemField false

/-- The payload itself, if there is one. -/
def intoItem (inner : ObjectFormat σ) (wrapper : Optional σ) : Except CodecError (Option σ) :=
  match wrapper.fields.item with
  | some item => if hasItem wrapper then (item.intoInner inner).map some else .ok none
  | none => .ok none

/-- The wrapper of a payload. -/
def ofItem (inner : ObjectFormat σ) (item : σ) : Optional σ := setItem (format inner).empty item

end Optional

end FieldWire
