import FieldWire.Proofs.Elements
import FieldWire.Sequence

/-!
# Sequences

A sequence is faithful, readable and measured if its elements are.  The length that a sequence
remembers after it was read is the one that was declared; the elements may be shorter than that once
they are written again, and then the length is not exact.
-/

set_option autoImplicit false

namespace FieldWire

/-- A remembered size, if there is one, is the number of the given bytes. -/
def Remembers (memo : Option Nat) (bytes : Bytes) : Prop := ∀ size, memo = some size → size = bytes.length

theorem remembers_none (bytes : Bytes) : Remembers none bytes := by
  intro size found
  cases found

theorem remembers_some_iff (size : Nat) (bytes : Bytes) :
    Remembers (some size) bytes ↔ size = bytes.length := by
  constructor
  · intro remembers
    exact remembers size rfl
  · intro same other found
    cases found
    exact same

namespace Sequence

variable {α : Type} {format : ElementFormat α} {element : View α}

/-- What is seen of a sequence: its elements. -/
def view (scheme : WireType) (element : View α) : View (Sequence α) where
  Contents := List element.Contents
  contents sequence := sequence.items.map element.contents
  bytes sequence := (element.run scheme).bytes sequence.items
  forget sequence := ⟨sequence.items.map element.forget, none⟩
  Exact sequence := Remembers sequence.memo ((element.run scheme).bytes sequence.items) ∧
    ∀ item ∈ sequence.items, element.Exact item
  Valid sequence := ∀ item ∈ sequence.items, element.Valid item

theorem alike_items {scheme : WireType} {items later : List α} (memo : Option Nat)
    (alike : (element.run scheme).Alike items later) :
    (Sequence.view scheme element).Alike ⟨items, memo⟩ ⟨later, memo⟩ where
  contents := alike.contents
  bytes := alike.bytes
  exact exact := by
    refine ⟨?_, alike.exact exact.2⟩
    rw [alike.bytes]
    exact exact.1
  valid := alike.valid

/-! ## Faithful -/

theorem size_alike (elements : format.Faithful element) {sequence : Sequence α}
    (valid : ∀ item ∈ sequence.items, element.Valid item) :
    (Sequence.view format.scheme element).Alike sequence (sequence.size format).2 := by
  obtain ⟨items, memo⟩ := sequence
  cases memo with
  | some size => exact View.Alike.refl _ _
  | none =>
    have alike : (element.run format.scheme).Alike items (format.valuesSize items).2 :=
      elements.valuesSize_alike valid
    refine ⟨alike.contents, alike.bytes, ?_, alike.valid⟩
    intro exact
    refine ⟨?_, alike.exact exact.2⟩
    change Remembers (some (format.valuesSize items).1)
      ((element.run format.scheme).bytes (format.valuesSize items).2)
    rw [alike.bytes, remembers_some_iff]
    exact elements.valuesSize_eq valid exact.2

theorem size_eq (elements : format.Faithful element) {sequence : Sequence α}
    (valid : ∀ item ∈ sequence.items, element.Valid item)
    (exact : (Sequence.view format.scheme element).Exact sequence) :
    (sequence.size format).1 = ((element.run format.scheme).bytes sequence.items).length := by
  obtain ⟨items, memo⟩ := sequence
  cases memo with
  | some size => exact exact.1 size rfl
  | none => exact elements.valuesSize_eq valid exact.2

theorem encode_fst (format : ElementFormat α) (sequence : Sequence α) :
    (sequence.encode format).1 = Write.word (LengthTag.span (sequence.size format).1) ++
      (format.writeValues (sequence.size format).2.items).1 := rfl

/-- Elements behind a size that is remembered. -/
theorem encode_of_some (elements : format.Faithful element) {items : List α}
    (valid : ∀ item ∈ items, element.Valid item) (exact : ∀ item ∈ items, element.Exact item)
    (remembered : Nat) : (encode format ⟨items, some remembered⟩).1 =
      Write.word (LengthTag.span remembered) ++ (element.run format.scheme).bytes items := by
  rw [← elements.writeValues_eq valid exact]
  rfl

theorem encode_alike (elements : format.Faithful element) {sequence : Sequence α}
    (valid : ∀ item ∈ sequence.items, element.Valid item) :
    (Sequence.view format.scheme element).Alike sequence (sequence.encode format).2 := by
  have sized := size_alike elements valid
  have written := elements.writeValues_alike (sized.valid valid)
  exact sized.trans (alike_items (sequence.size format).2.memo written)

theorem faithful (elements : format.Faithful element) :
    (Sequence.format format).Faithful (Sequence.view format.scheme element) where
  afterSize sequence valid := size_alike elements valid
  afterEncode sequence valid := encode_alike elements valid
  size_eq sequence valid exact := size_eq elements valid exact
  encode_eq sequence valid exact := by
    have sized := size_alike elements valid
    have written := elements.writeValues_eq (sized.valid valid) (sized.exact exact).2
    change (sequence.encode format).1 = _
    rw [encode_fst, written, size_eq elements valid exact]
    change Write.word _ ++ (Sequence.view format.scheme element).bytes (sequence.size format).2 = _
    rw [sized.bytes]
    rfl
  forgotten sequence valid := by
    obtain ⟨alike, exact⟩ := elements.forget_alike valid
    exact ⟨⟨alike.contents, alike.bytes, fun _ => ⟨remembers_none _, exact⟩, alike.valid⟩,
      remembers_none _, exact⟩

/-! ## Readable -/

/-- A span of as many bytes as the run of elements in it takes becomes those elements. -/
theorem load_of_span {cursor middle after : Cursor} {declared : Nat} {items : List α}
    (start : Sequence α) (opened : Reader.openSpan cursor = .ok declared middle)
    (read : format.readValues middle = .ok items after) (consumed : after.pos - middle.pos = declared) :
    load format (start, cursor) = .ok () (⟨items, some declared⟩, after) := by
  have same : ¬(after.pos - middle.pos != declared) = true := by simp [consumed]
  rw [load, bind_of_ok (Loader.read_of_ok opened start),
    bind_of_ok (Loader.read_of_ok (Reader.position_apply _) _),
    bind_of_ok (Loader.read_of_ok read _), bind_of_ok (Loader.update_apply _ _ _),
    bind_of_ok (Loader.read_of_ok (Reader.position_apply _) _), if_neg same]
  rfl

/-- From its own envelope any sequence becomes the elements that are read. -/
theorem load_of_read {limit pos : Nat} {bytes tail : Bytes} {items : List α} (start : Sequence α)
    (within : bytes.length ≤ limit) (small : bytes.length < 2 ^ 62)
    (read : format.readValues
      ⟨bytes ++ tail, pos + (Write.word (LengthTag.span bytes.length)).length, limit⟩ = .ok items
        ⟨tail, pos + (Write.word (LengthTag.span bytes.length)).length + bytes.length, limit⟩) :
    load format (start, ⟨Write.blob bytes ++ tail, pos, limit⟩) =
      .ok () (⟨items, some bytes.length⟩, ⟨tail, pos + (Write.blob bytes).length, limit⟩) := by
  have there : bytes.length ≤ (bytes ++ tail).length := by
    rw [List.length_append]
    exact Nat.le_add_right _ _
  have opened : Reader.openSpan ⟨Write.blob bytes ++ tail, pos, limit⟩ = .ok bytes.length
      ⟨bytes ++ tail, pos + (Write.word (LengthTag.span bytes.length)).length, limit⟩ := by
    rw [Write.blob, List.append_assoc]
    exact Reader.openSpan_of_le within small there
  rw [load_of_span start opened read (Nat.add_sub_cancel_left _ _), Write.blob, List.length_append,
    ← Nat.add_assoc]
  rfl

/-- What is read of the run of elements is the sequence, with the length of its run remembered. -/
theorem read_gives {limit : Nat} {bytes : Bytes} {P : List α → Prop} (within : bytes.length ≤ limit)
    (small : bytes.length < 2 ^ 62) (gives : Reader.Gives format.readValues limit bytes P) :
    Reader.Gives (Sequence.format format).read limit (Write.blob bytes) fun sequence =>
      P sequence.items ∧ sequence.memo = some bytes.length := by
  intro tail pos
  obtain ⟨items, read, holds⟩ := gives tail
    (pos + (Write.word (LengthTag.span bytes.length)).length)
  exact ⟨⟨items, some bytes.length⟩, Loader.toReader_of_ok (load_of_read empty within small read),
    holds, rfl⟩

theorem readable (elements : format.Readable element) :
    (Sequence.format format).Readable (Sequence.view format.scheme element) := by
  intro limit sequence valid within default tail pos
  obtain ⟨back, read, same, _⟩ := read_gives within (lt_of_le_default within default)
    (elements.readValues_recovers valid within default) tail pos
  exact ⟨back, read, same⟩

/-! ## Measured -/

theorem opensSpan : (Sequence.format format).OpensSpan := ObjectFormat.opensSpan_of_load rfl

theorem load_eq_ok {start final : Sequence α} {cursor after : Cursor} {value : Unit}
    (ran : load format (start, cursor) = .ok value (final, after)) :
    ∃ tagSize declared, Reader.openSpan cursor = .ok declared (cursor.advance tagSize) ∧
      format.readValues (cursor.advance tagSize) = .ok final.items after ∧
      after.pos - (cursor.advance tagSize).pos = declared ∧ final.memo = some declared := by
  obtain ⟨declared, ⟨object, middle⟩, opened, rest⟩ := (bind_eq_ok_iff _ _ _ _ _).mp ran
  obtain ⟨rfl, spanOpened⟩ := Loader.read_eq_ok opened
  obtain ⟨tagSize, _, _, _, _, rfl⟩ := Reader.openSpan_costs spanOpened
  rw [bind_of_ok (Loader.read_of_ok (Reader.position_apply _) _)] at rest
  obtain ⟨items, ⟨object, last⟩, read, checked⟩ := (bind_eq_ok_iff _ _ _ _ _).mp rest
  obtain ⟨rfl, itemsRead⟩ := Loader.read_eq_ok read
  rw [bind_of_ok (Loader.update_apply _ _ _),
    bind_of_ok (Loader.read_of_ok (Reader.position_apply _) _)] at checked
  split at checked
  · obtain ⟨_, _, thrown, _⟩ := (bind_eq_ok_iff _ _ _ _ _).mp checked
    exact absurd thrown (throw_ne_ok _ _ _ _)
  · rename_i same
    cases checked
    exact ⟨tagSize, declared, spanOpened, itemsRead, by simpa using same, rfl⟩

theorem load_bounds (faithful : format.Faithful element) (elements : format.Measured element)
    {start final : Sequence α} {cursor after : Cursor} {value : Unit}
    (ran : load format (start, cursor) = .ok value (final, after)) :
    ∃ tagSize declared, Reader.openSpan cursor = .ok declared (cursor.advance tagSize) ∧
      format.readValues (cursor.advance tagSize) = .ok final.items after ∧
      final = ⟨final.items, some declared⟩ ∧ after = cursor.advance (tagSize + declared) ∧
      (∀ item ∈ final.items, format.Weighed element item) ∧
      (format.valuesSize final.items).1 ≤ declared := by
  obtain ⟨tagSize, declared, opened, read, consumed, remembered⟩ := load_eq_ok ran
  obtain ⟨_, weighed, length, _, rfl, fits⟩ := elements.readValues_eq_ok faithful read
  obtain ⟨items, memo⟩ := final
  cases remembered
  have reached : length = declared := by
    rw [Cursor.pos_advance, Nat.add_sub_cancel_left] at consumed
    exact consumed
  have moved : (cursor.advance tagSize).advance length = cursor.advance (tagSize + declared) := by
    rw [Cursor.advance_advance, reached]
  exact ⟨tagSize, declared, opened, read, rfl, moved, weighed,
    Nat.le_trans fits (Nat.le_of_eq reached)⟩

/-- A sequence that remembers a length which is long enough for its elements. -/
theorem weighed_of_some (faithful : format.Faithful element) {items : List α} {declared : Nat}
    (weighed : ∀ item ∈ items, format.Weighed element item)
    (fits : (format.valuesSize items).1 ≤ declared) (small : declared < 2 ^ 62) :
    (Sequence.format format).Weighed (Sequence.view format.scheme element)
      ⟨items, some declared⟩ := by
  have valid : ∀ item ∈ items, element.Valid item := fun item member => (weighed item member).valid
  have bounds := (faithful.run_bounds weighed).remember fits fun exact =>
    congrArg List.length (faithful.writeValues_eq valid exact)
  exact ⟨valid, rfl, small, (format.writeValues items).1, rfl,
    bounds.imp fun right => ⟨(remembers_some_iff _ _).mpr right.1, right.2⟩⟩

theorem measured (faithful : format.Faithful element) (elements : format.Measured element) :
    (Sequence.format format).Measured (Sequence.view format.scheme element) := by
  intro cursor sequence after ran
  obtain ⟨tagSize, declared, opened, _, remembered, rfl, weighed, fits⟩ :=
    load_bounds faithful elements (ObjectFormat.load_of_read ran)
  obtain ⟨sized, inside, small, within⟩ := Reader.openSpan_bounds opened
  rw [remembered]
  exact ⟨weighed_of_some faithful weighed fits small, within, tagSize + declared, inside, rfl,
    Nat.add_le_add_right sized _⟩

end Sequence

end FieldWire
