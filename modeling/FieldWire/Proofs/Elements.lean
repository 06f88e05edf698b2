import FieldWire.Proofs.FixedWidth
import FieldWire.Proofs.View
import Mathlib.Data.List.Basic
import Mathlib.Data.List.Forall2

/-!
# Elements and runs of elements

Every kind of element is faithful, readable and measured, and what holds of elements holds of runs
of them: the count in front is written for as many elements as follow, and it is accepted because no
element is shorter than its wire type allows.
-/

set_option autoImplicit false

namespace FieldWire.ElementFormat

variable {α : Type}

/-! ## Elements without memory -/

theorem ofPlain_faithful {γ : Type} {scheme : WireType} {size : α → Nat} {write : α → Bytes}
    {read : Reader α} {same : α → α → Bool} (contents : α → γ)
    (sized : ∀ value, size value = (write value).length)
    (fixed : ∀ value width, scheme.fixedWidth? = some width → size value = width) :
    (ofPlain scheme size write read same).Faithful (View.plain contents write) where
  afterSize value _ := View.Alike.refl _ value
  afterWrite value _ := View.Alike.refl _ value
  size_eq value _ _ := sized value
  write_eq _ _ _ := rfl
  forgotten value _ := ⟨View.Alike.refl _ value, trivial⟩
  fixed value width found := congrArg (·, value) (fixed value width found)

theorem ofPlain_weighed {γ : Type} {scheme : WireType} {size : α → Nat} {write : α → Bytes}
    {read : Reader α} {same : α → α → Bool} (contents : α → γ)
    (sized : ∀ value, size value = (write value).length) (value : α) :
    (ofPlain scheme size write read same).Weighed (View.plain contents write) value := by
  refine ⟨trivial, rfl, ?_⟩
  change Bounds (size value) (write value).length (write value).length True
  rw [sized value]
  exact Bounds.refl _

theorem ofPlain_measured {γ : Type} {scheme : WireType} {size : α → Nat} {write : α → Bytes}
    {read : Reader α} {same : α → α → Bool} (contents : α → γ)
    (sized : ∀ value, size value = (write value).length)
    (costs : ∀ cursor value after, read cursor = .ok value after → ∃ length,
      size value ≤ length ∧ length ≤ cursor.rest.length ∧ after = cursor.advance length) :
    (ofPlain scheme size write read same).Measured (View.plain contents write) := by
  intro cursor value after ran
  obtain ⟨length, fits, inside, moved⟩ := costs cursor value after ran
  exact ⟨ofPlain_weighed contents sized value, length, inside, moved, fits⟩

/-- Truth values. -/
def boolView : View Bool := View.plain id Write.bool

theorem size_bool (value : Bool) : 1 = (Write.bool value).length := by
  cases value <;> decide

theorem bool_faithful : bool.Faithful boolView :=
  ofPlain_faithful id size_bool (fun _ _ found => by cases found)

theorem bool_readable : bool.Readable boolView where
  read limit value _ _ _ := (Reader.bool_takes limit value).recovers rfl
  minimal value _ := Nat.le_of_eq (size_bool value)

theorem bool_measured : bool.Measured boolView :=
  ofPlain_measured id size_bool (fun _ _ _ ran => Reader.bool_costs ran)

/-- Integers of one width. -/
def integerView (width : Width) : View (Integer width) := View.plain id Write.integer

theorem size_integer {width : Width} (value : Integer width) :
    Write.integerSize value = (Write.integer value).length :=
  (Varint.length_encode _).symm

theorem integer_faithful (width : Width) : (integer width).Faithful (integerView width) :=
  ofPlain_faithful id size_integer (fun _ _ found => by cases found)

theorem integer_readable (width : Width) : (integer width).Readable (integerView width) where
  read limit value _ _ _ := (Reader.integer_takes limit value).recovers rfl
  minimal value _ := by
    change 1 ≤ (Write.integer value).length
    rw [← size_integer]
    exact Varint.size_pos _

theorem integer_measured (width : Width) : (integer width).Measured (integerView width) :=
  ofPlain_measured id size_integer (fun _ _ _ ran => Reader.integer_costs ran)

/-- Numbers of fixed width. -/
def fixed (code : FixedWidth α) (same : α → α → Bool) : ElementFormat α :=
  ofPlain code.scheme (fun _ => code.width) code.encode (Reader.fixed code) same

/-- Numbers of fixed width, bit by bit. -/
def fixedView (code : FixedWidth α) : View α := View.plain id code.encode

theorem size_fixed (code : FixedWidth α) (value : α) : code.width = (code.encode value).length :=
  (code.length_encode value).symm

theorem fixed_faithful (code : FixedWidth α) (same : α → α → Bool) :
    (fixed code same).Faithful (fixedView code) :=
  ofPlain_faithful id (size_fixed code) fun _ _ found =>
    Option.some.inj (code.scheme_width.symm.trans found)

theorem fixed_readable (code : FixedWidth α) (same : α → α → Bool) :
    (fixed code same).Readable (fixedView code) where
  read limit value _ _ _ := (Reader.fixed_takes code limit value).recovers rfl
  minimal value _ := Nat.le_of_eq (code.minimalWidth_eq.trans (size_fixed code value))

theorem fixed_measured (code : FixedWidth α) (same : α → α → Bool) :
    (fixed code same).Measured (fixedView code) :=
  ofPlain_measured id (size_fixed code) fun _ _ _ ran =>
    ⟨code.width, Nat.le_refl _, (Reader.fixed_costs code ran).1, (Reader.fixed_costs code ran).2⟩

/-- Four-byte floating-point numbers, bit by bit. -/
def binary32View : View Binary32 := View.plain id Binary32.encode

/-- Eight-byte floating-point numbers, bit by bit. -/
def binary64View : View Binary64 := View.plain id Binary64.encode

/-- Texts, byte by byte. -/
def textView : View Text := View.plain Text.bytes Write.text

theorem size_text (value : Text) : value.encodedSize = (Write.text value).length :=
  (Write.length_blob value.bytes).symm

theorem text_faithful : text.Faithful textView :=
  ofPlain_faithful Text.bytes size_text (fun _ _ found => by cases found)

theorem text_readable : text.Readable textView where
  read _ _ _ within default := (Reader.text_takes_of_le within default).recovers rfl
  minimal value _ := Write.length_blob_pos value.bytes

theorem text_measured : text.Measured textView :=
  ofPlain_measured Text.bytes size_text (fun _ _ _ ran => Reader.text_costs ran)

end FieldWire.ElementFormat

namespace FieldWire

/-! ## Runs -/

/-- A run of elements: the count and the wire type in front, then the elements. -/
def View.run {α : Type} (view : View α) (scheme : WireType) : View (List α) where
  Contents := List view.Contents
  contents values := values.map view.contents
  bytes values := Write.lengthTag values.length scheme ++ values.flatMap view.bytes
  forget values := values.map view.forget
  Exact values := ∀ value ∈ values, view.Exact value
  Valid values := ∀ value ∈ values, view.Valid value

namespace ElementFormat

variable {α : Type} {format : ElementFormat α} {view : View α}

theorem run_alike_map {values : List α} (scheme : WireType) (look : α → α)
    (alike : ∀ value ∈ values, view.Alike value (look value)) :
    (view.run scheme).Alike values (values.map look) where
  contents := by
    change (values.map look).map view.contents = values.map view.contents
    rw [List.map_map]
    exact List.map_congr_left fun value member => (alike value member).contents
  bytes := by
    change Write.lengthTag (values.map look).length scheme ++ (values.map look).flatMap view.bytes = _
    rw [List.length_map, List.flatMap_map]
    congr 1
    exact List.flatMap_congr fun value member => (alike value member).bytes
  exact exact later member := by
    obtain ⟨value, inside, rfl⟩ := List.mem_map.mp member
    exact (alike value inside).exact (exact value inside)
  valid valid later member := by
    obtain ⟨value, inside, rfl⟩ := List.mem_map.mp member
    exact (alike value inside).valid (valid value inside)

theorem elementsSize_fst (format : ElementFormat α) (values : List α) :
    (format.elementsSize values).1 = (values.map fun value => (format.size value).1).sum := by
  induction values with
  | nil => rfl
  | cons value values ih =>
    rw [List.map_cons, List.sum_cons, ← ih]
    rfl

theorem elementsSize_snd (format : ElementFormat α) (values : List α) :
    (format.elementsSize values).2 = values.map fun value => (format.size value).2 := by
  induction values with
  | nil => rfl
  | cons value values ih =>
    rw [List.map_cons, ← ih]
    rfl

theorem Faithful.valuesSize_fst (faithful : format.Faithful view) (values : List α) :
    (format.valuesSize values).1 = LengthTag.size values.length format.scheme +
      (values.map fun value => (format.size value).1).sum := by
  rw [valuesSize]
  split
  · rename_i width found
    have each : ∀ value ∈ values, (format.size value).1 = width := by
      intro value _
      rw [faithful.fixed value width found]
    rw [List.map_congr_left each, List.map_const', List.sum_replicate_nat, Nat.mul_comm]
  · rw [← elementsSize_fst]

theorem Faithful.valuesSize_snd (faithful : format.Faithful view) (values : List α) :
    (format.valuesSize values).2 = values.map fun value => (format.size value).2 := by
  rw [valuesSize]
  split
  · rename_i width found
    have each : ∀ value ∈ values, (format.size value).2 = value := by
      intro value _
      rw [faithful.fixed value width found]
    rw [List.map_congr_left each, List.map_id']
  · rw [← elementsSize_snd]

theorem writeValues_snd (format : ElementFormat α) (values : List α) :
    (format.writeValues values).2 = values.map fun value => (format.write value).2 := by
  rw [writeValues]
  exact List.map_map

theorem writeValues_fst (format : ElementFormat α) (values : List α) :
    (format.writeValues values).1 = Write.lengthTag values.length format.scheme ++
      values.flatMap fun value => (format.write value).1 := by
  rw [writeValues]
  simp only [List.flatMap_map]

/-! ## Runs are faithful -/

theorem Faithful.valuesSize_alike (faithful : format.Faithful view) {values : List α}
    (valid : ∀ value ∈ values, view.Valid value) :
    (view.run format.scheme).Alike values (format.valuesSize values).2 := by
  rw [faithful.valuesSize_snd]
  exact run_alike_map _ _ fun value member => faithful.afterSize value (valid value member)

theorem Faithful.writeValues_alike (faithful : format.Faithful view) {values : List α}
    (valid : ∀ value ∈ values, view.Valid value) :
    (view.run format.scheme).Alike values (format.writeValues values).2 := by
  rw [writeValues_snd]
  exact run_alike_map _ _ fun value member => faithful.afterWrite value (valid value member)

theorem Faithful.forget_alike (faithful : format.Faithful view) {values : List α}
    (valid : ∀ value ∈ values, view.Valid value) :
    (view.run format.scheme).Alike values (values.map view.forget) ∧
      ∀ value ∈ values.map view.forget, view.Exact value := by
  constructor
  · exact run_alike_map _ _ fun value member => (faithful.forgotten value (valid value member)).1
  · intro later member
    obtain ⟨value, inside, rfl⟩ := List.mem_map.mp member
    exact (faithful.forgotten value (valid value inside)).2

theorem length_run_bytes (view : View α) (scheme : WireType) (values : List α) :
    ((view.run scheme).bytes values).length = LengthTag.size values.length scheme +
      (values.map fun value => (view.bytes value).length).sum := by
  change (Write.lengthTag values.length scheme ++ values.flatMap view.bytes).length = _
  rw [List.length_append, List.length_flatMap, Write.lengthTag, Varint.length_encode]
  rfl

theorem Faithful.valuesSize_eq (faithful : format.Faithful view) {values : List α}
    (valid : ∀ value ∈ values, view.Valid value) (exact : ∀ value ∈ values, view.Exact value) :
    (format.valuesSize values).1 = ((view.run format.scheme).bytes values).length := by
  have each : ∀ value ∈ values, (format.size value).1 = (view.bytes value).length := by
    intro value member
    exact faithful.size_eq value (valid value member) (exact value member)
  rw [faithful.valuesSize_fst, length_run_bytes, List.map_congr_left each]

theorem Faithful.writeValues_eq (faithful : format.Faithful view) {values : List α}
    (valid : ∀ value ∈ values, view.Valid value) (exact : ∀ value ∈ values, view.Exact value) :
    (format.writeValues values).1 = (view.run format.scheme).bytes values := by
  rw [writeValues_fst]
  change _ = Write.lengthTag values.length format.scheme ++ values.flatMap view.bytes
  congr 1
  apply List.flatMap_congr
  intro value member
  exact faithful.write_eq value (valid value member) (exact value member)

/-! ## Runs are readable -/

theorem readMany_gives {β : Type} {limit : Nat} {items : List β} {bytes : β → Bytes}
    {P : β → α → Prop}
    (each : ∀ item ∈ items, Reader.Gives format.read limit (bytes item) (P item)) :
    Reader.Gives (format.readMany items.length) limit (items.flatMap bytes) (List.Forall₂ P items) := by
  induction items with
  | nil => exact fun tail pos => ⟨[], rfl, .nil⟩
  | cons item items ih =>
    intro tail pos
    obtain ⟨head, headTaken, headHolds⟩ :=
      each item List.mem_cons_self (items.flatMap bytes ++ tail) pos
    obtain ⟨others, othersTaken, othersHold⟩ :=
      ih (fun other member => each other (List.mem_cons_of_mem _ member)) tail
        (pos + (bytes item).length)
    refine ⟨head :: others, ?_, .cons headHolds othersHold⟩
    rw [List.flatMap_cons, List.append_assoc, List.length_cons, readMany, bind_of_ok headTaken,
      bind_of_ok othersTaken, List.length_append, Nat.add_assoc]
    rfl

/-- Elements that are not too short pass the check of their count. -/
theorem count_fits {β : Type} {items : List β} {bytes : β → Bytes} {width : Nat}
    (minimal : ∀ item ∈ items, width ≤ (bytes item).length) :
    items.length * width ≤ (items.flatMap bytes).length := by
  induction items with
  | nil => simp
  | cons item items ih =>
    have first := minimal item List.mem_cons_self
    have rest := ih fun other member => minimal other (List.mem_cons_of_mem _ member)
    rw [List.flatMap_cons, List.length_append, List.length_cons, Nat.succ_mul]
    omega

theorem minimalWidth_pos (scheme : WireType) : 1 ≤ scheme.minimalWidth := by
  cases scheme <;> decide

theorem readValues_gives {β : Type} {limit : Nat} {items : List β} {bytes : β → Bytes}
    {P : β → α → Prop}
    (each : ∀ item ∈ items, (bytes item).length ≤ limit →
      Reader.Gives format.read limit (bytes item) (P item))
    (minimal : ∀ item ∈ items, format.scheme.minimalWidth ≤ (bytes item).length)
    (within : (items.flatMap bytes).length ≤ limit) (default : limit ≤ defaultPayloadLimit) :
    Reader.Gives format.readValues limit
      (Write.lengthTag items.length format.scheme ++ items.flatMap bytes) (List.Forall₂ P items) := by
  have inside : ∀ item ∈ items, (bytes item).length ≤ limit := fun item member =>
    Nat.le_trans (List.sublist_flatten_of_mem (List.mem_map_of_mem member)).length_le within
  have counted := count_fits minimal
  have few : items.length ≤ items.length * format.scheme.minimalWidth :=
    Nat.le_mul_of_pos_right _ (minimalWidth_pos format.scheme)
  intro tail pos
  have small : items.length < 2 ^ 62 := lt_of_le_default (by omega) default
  have there : items.length * format.scheme.minimalWidth ≤ (items.flatMap bytes ++ tail).length := by
    rw [List.length_append]
    omega
  obtain ⟨back, taken, holds⟩ := readMany_gives
    (fun item member => each item member (inside item member)) tail
    (pos + (Write.lengthTag items.length format.scheme).length)
  refine ⟨back, ?_, holds⟩
  rw [List.append_assoc, readValues, bind_of_ok (Reader.count_of_le small (by omega) there),
    taken, Nat.add_assoc, ← List.length_append]

theorem Readable.readValues_recovers (readable : format.Readable view) {limit : Nat}
    {values : List α} (valid : ∀ value ∈ values, view.Valid value)
    (within : ((view.run format.scheme).bytes values).length ≤ limit)
    (default : limit ≤ defaultPayloadLimit) :
    Reader.Recovers format.readValues limit ((view.run format.scheme).bytes values)
      (List.map view.contents) (values.map view.contents) := by
  have elementsWithin : (values.flatMap view.bytes).length ≤ limit := by
    refine Nat.le_trans ?_ within
    change _ ≤ (Write.lengthTag values.length format.scheme ++ values.flatMap view.bytes).length
    rw [List.length_append]
    exact Nat.le_add_left _ _
  intro tail pos
  obtain ⟨back, taken, same⟩ := readValues_gives
    (fun value member short => readable.read limit value (valid value member) short default)
    (fun value member => readable.minimal value (valid value member)) elementsWithin default tail pos
  refine ⟨back, taken, ?_⟩
  rw [← List.forall₂_eq_eq_eq, List.forall₂_map_left_iff, List.forall₂_map_right_iff]
  exact same.flip

/-! ## Runs are measured -/

/-- A sum of bounds. -/
theorem bounds_sum {values : List α} {size written least : α → Nat} {Exact : α → Prop}
    (each : ∀ value ∈ values, Bounds (size value) (written value) (least value) (Exact value)) :
    Bounds (values.map size).sum (values.map written).sum (values.map least).sum
      (∀ value ∈ values, Exact value) := by
  induction values with
  | nil => exact (Bounds.refl 0).imp fun _ value member => by cases member
  | cons value values ih =>
    have first := each value List.mem_cons_self
    have rest := ih fun other member => each other (List.mem_cons_of_mem _ member)
    rw [List.map_cons, List.map_cons, List.map_cons, List.sum_cons, List.sum_cons, List.sum_cons]
    apply (first.add rest).imp
    rintro ⟨here, there⟩ other member
    rcases List.mem_cons.mp member with rfl | inside
    · exact here
    · exact there other inside

/-- What holds of every element that is read holds of all that are read one after the other. -/
theorem readMany_forall {P : α → Prop}
    (each : ∀ cursor value after, format.read cursor = .ok value after → P value) {count : Nat}
    {values : List α} {cursor after : Cursor}
    (ran : format.readMany count cursor = .ok values after) : ∀ value ∈ values, P value := by
  induction count generalizing values cursor with
  | zero =>
    obtain ⟨rfl, rfl⟩ := (pure_eq_ok_iff _ _ _ _).mp ran
    simp
  | succ count ih =>
    obtain ⟨value, middle, first, ran⟩ := (bind_eq_ok_iff _ _ _ _ _).mp ran
    obtain ⟨rest, final, others, returned⟩ := (bind_eq_ok_iff _ _ _ _ _).mp ran
    obtain ⟨rfl, rfl⟩ := (pure_eq_ok_iff _ _ _ _).mp returned
    exact List.forall_mem_cons.mpr ⟨each _ _ _ first, ih others⟩

theorem readValues_forall {P : α → Prop}
    (each : ∀ cursor value after, format.read cursor = .ok value after → P value)
    {values : List α} {cursor after : Cursor} (ran : format.readValues cursor = .ok values after) :
    ∀ value ∈ values, P value := by
  obtain ⟨count, middle, _, ran⟩ := (bind_eq_ok_iff _ _ _ _ _).mp ran
  exact readMany_forall each ran

theorem Measured.readMany_eq_ok (measured : format.Measured view) {count : Nat} {values : List α}
    {cursor after : Cursor} (ran : format.readMany count cursor = .ok values after) :
    values.length = count ∧ (∀ value ∈ values, format.Weighed view value) ∧
      ∃ length, length ≤ cursor.rest.length ∧ after = cursor.advance length ∧
        (values.map fun value => (format.size value).1).sum ≤ length := by
  induction count generalizing values cursor with
  | zero =>
    obtain ⟨rfl, rfl⟩ := (pure_eq_ok_iff _ _ _ _).mp ran
    exact ⟨rfl, by simp, 0, Nat.zero_le _, rfl, Nat.le_refl 0⟩
  | succ count ih =>
    obtain ⟨value, middle, first, ran⟩ := (bind_eq_ok_iff _ _ _ _ _).mp ran
    obtain ⟨rest, final, others, returned⟩ := (bind_eq_ok_iff _ _ _ _ _).mp ran
    obtain ⟨rfl, rfl⟩ := (pure_eq_ok_iff _ _ _ _).mp returned
    obtain ⟨heavy, length, inside, rfl, fits⟩ := measured cursor value middle first
    obtain ⟨counted, weighed, more, insideMore, rfl, fitsMore⟩ := ih others
    rw [Cursor.rest_advance, List.length_drop] at insideMore
    refine ⟨by rw [List.length_cons, counted], ?_, length + more, by omega,
      Cursor.advance_advance _ _ _, ?_⟩
    · intro other member
      rcases List.mem_cons.mp member with rfl | inRest
      · exact heavy
      · exact weighed other inRest
    · rw [List.map_cons, List.sum_cons]
      omega

/-- The bounds of a run whose elements have bounds. -/
theorem Faithful.run_bounds (faithful : format.Faithful view) {values : List α}
    (weighed : ∀ value ∈ values, format.Weighed view value) :
    Bounds (format.valuesSize values).1 (format.writeValues values).1.length
      ((view.run format.scheme).bytes values).length (∀ value ∈ values, view.Exact value) := by
  have elements := bounds_sum fun value member => (weighed value member).bounds
  have whole := (Bounds.refl (LengthTag.size values.length format.scheme)).add elements
  have written : (format.writeValues values).1.length =
      LengthTag.size values.length format.scheme +
        (values.map fun value => (format.write value).1.length).sum := by
    rw [writeValues_fst, List.length_append, List.length_flatMap, Write.lengthTag,
      Varint.length_encode]
    rfl
  rw [faithful.valuesSize_fst, written, length_run_bytes]
  exact whole.imp fun both => both.2

theorem Measured.readValues_eq_ok (faithful : format.Faithful view) (measured : format.Measured view)
    {values : List α} {cursor after : Cursor} (ran : format.readValues cursor = .ok values after) :
    values.length < 2 ^ 62 ∧ (∀ value ∈ values, format.Weighed view value) ∧
      ∃ length, length ≤ cursor.rest.length ∧ after = cursor.advance length ∧
        (format.valuesSize values).1 ≤ length := by
  obtain ⟨count, middle, counted, ran⟩ := (bind_eq_ok_iff _ _ _ _ _).mp ran
  obtain ⟨tagLength, tagSize, inside, small, rfl⟩ := Reader.count_costs counted
  obtain ⟨rfl, weighed, length, insideRest, rfl, fits⟩ := measured.readMany_eq_ok ran
  rw [Cursor.rest_advance, List.length_drop] at insideRest
  refine ⟨small, weighed, tagLength + length, by omega, Cursor.advance_advance _ _ _, ?_⟩
  rw [faithful.valuesSize_fst]
  omega

/-- Writing after working out the sizes writes the same. -/
theorem Faithful.writeValues_afterSize (faithful : format.Faithful view) {values : List α}
    (weighed : ∀ value ∈ values, format.Weighed view value) :
    (format.writeValues (format.valuesSize values).2).1 = (format.writeValues values).1 := by
  rw [faithful.valuesSize_snd, writeValues_fst, writeValues_fst, List.length_map, List.flatMap_map]
  congr 1
  apply List.flatMap_congr
  intro value member
  exact (weighed value member).settled

end ElementFormat

end FieldWire
