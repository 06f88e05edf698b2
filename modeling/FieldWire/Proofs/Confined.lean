import FieldWire.Proofs.Dictionary
import FieldWire.Proofs.FieldSet
import FieldWire.Proofs.Tree

/-!
# Reading does not look ahead

A reader checks lengths and counts against all that is left of the buffer and against the limit, so
what it does could depend on bytes that it never takes.  It does not, once it succeeds: `Confined`
says that a reader which took some bytes takes the same value from them wherever they stand, whatever
follows, and with every limit that admits them.  The reason is that whatever a check asked for has
been read in the end: elements are no shorter than their wire type allows, and spans are as long as
they were declared.
-/

set_option autoImplicit false

namespace FieldWire

namespace Reader

variable {α β : Type}

/-- What the reader took is all that its result depends on. -/
def Confined (reader : Reader α) : Prop :=
  ∀ cursor value after, reader cursor = .ok value after → ∃ length, length ≤ cursor.rest.length ∧
    after = cursor.advance length ∧
    ∀ limit, length ≤ limit → Takes reader limit (cursor.rest.take length) value

theorem Confined.nothing (value : α) : Confined (pure value : Reader α) := by
  intro cursor result after ran
  obtain ⟨rfl, rfl⟩ := (pure_eq_ok_iff _ _ _ _).mp ran
  exact ⟨0, Nat.zero_le _, rfl, fun limit _ => Takes.nothing limit value⟩

theorem Confined.fail (error : CodecError) : Confined (throw error : Reader α) := by
  intro cursor value after ran
  exact absurd ran (throw_ne_ok _ _ _ _)

theorem Confined.bind {first : Reader α} {next : α → Reader β} (confined : Confined first)
    (more : ∀ value, Confined (next value)) : Confined (first >>= next) := by
  intro cursor result after ran
  obtain ⟨value, middle, firstRan, nextRan⟩ := (bind_eq_ok_iff _ _ _ _ _).mp ran
  obtain ⟨front, insideFront, rfl, takesFront⟩ := confined _ _ _ firstRan
  obtain ⟨back, insideBack, rfl, takesBack⟩ := more value _ _ _ nextRan
  rw [Cursor.rest_advance, List.length_drop] at insideBack
  refine ⟨front + back, by omega, Cursor.advance_advance _ _ _, ?_⟩
  intro limit fits
  rw [List.take_add]
  exact (takesFront limit (by omega)).bind (takesBack limit (by omega))

theorem Confined.advances {reader : Reader α} (confined : Confined reader) {cursor after : Cursor}
    {value : α} (ran : reader cursor = .ok value after) :
    cursor.pos ≤ after.pos ∧ after.rest.length ≤ cursor.rest.length := by
  obtain ⟨length, _, rfl, _⟩ := confined _ _ _ ran
  simp

/-! ## Words and numbers -/

/-- A part of a buffer that holds some bytes, as it is found elsewhere. -/
theorem advance_take_append {bytes tail : Bytes} {length pos limit : Nat}
    (inside : length ≤ bytes.length) :
    (Cursor.mk (bytes.take length ++ tail) pos limit).advance length =
      ⟨tail, pos + length, limit⟩ := by
  have same : (bytes.take length).length = length := List.length_take_of_le inside
  have moved := Cursor.advance_append (bytes.take length) tail pos limit
  rwa [same] at moved

theorem word_confined : Confined word := by
  intro cursor value after ran
  obtain ⟨length, decoded, rfl⟩ := word_eq_ok ran
  have inside := Varint.length_le_of_decode decoded
  refine ⟨length, inside, rfl, ?_⟩
  intro limit _ tail pos
  have again : Varint.decode (Cursor.mk (cursor.rest.take length ++ tail) pos limit).rest =
      .ok (some (value, length)) := Varint.decode_append tail (Varint.decode_take decoded)
  rw [word_of_decode again, advance_take_append inside, List.length_take_of_le inside]

theorem word32_confined : Confined word32 := by
  refine word_confined.bind fun value => ?_
  split
  · exact .nothing _
  · exact .fail _

theorem long_confined : Confined long := word_confined.bind fun _ => .nothing _

theorem integer_confined (width : Width) : Confined (integer width) := by
  refine long_confined.bind fun value => ?_
  split
  · exact .nothing _
  · exact .fail _

theorem bool_confined : Confined bool := long_confined.bind fun _ => .nothing _

theorem lengthTag_confined (expected : WireType) : Confined (lengthTag expected) := by
  refine word_confined.bind fun value => ?_
  split
  · exact .nothing _
  · exact .fail _

/-! ## Spans -/

theorem span_confined (length : Nat) : Confined (span length) := by
  intro cursor bytes after ran
  obtain ⟨inside, rfl, rfl⟩ := span_eq_ok ran
  have taken := fun limit => span_takes limit (cursor.rest.take length)
  rw [List.length_take_of_le inside] at taken
  exact ⟨length, inside, rfl, fun limit _ => taken limit⟩

theorem fixed_confined {α : Type} (code : FixedWidth α) : Confined (fixed code) :=
  (span_confined code.width).bind fun _ => .nothing _

/-- The length of a span depends on the limit, which has to admit the span and not its tag only. -/
theorem spanLength_take {cursor : Cursor} {number tagSize limit : Nat}
    (ran : spanLength cursor = .ok number (cursor.advance tagSize)) (within : number ≤ limit) :
    Takes spanLength limit (cursor.rest.take tagSize) number := by
  obtain ⟨tag, length, decoded, listed, rfl, _, same⟩ := spanLength_eq_ok ran
  obtain rfl := Cursor.advance_injective same
  have inside := Varint.length_le_of_decode decoded
  intro tail pos
  let here := Cursor.mk (cursor.rest.take tagSize ++ tail) pos limit
  have again : Varint.decode here.rest = .ok (some (tag, tagSize)) :=
    Varint.decode_append tail (Varint.decode_take decoded)
  rw [spanLength, bind_of_ok (lengthTag_of_decode again listed), advance_take_append inside,
    bind_of_ok (withinLimit_of_le within), List.length_take_of_le inside]
  rfl

theorem blob_confined : Confined blob := by
  intro cursor bytes after ran
  obtain ⟨number, middle, opened, taken⟩ := (bind_eq_ok_iff _ _ _ _ _).mp ran
  obtain ⟨tag, tagSize, decoded, _, _, _, rfl⟩ := spanLength_eq_ok opened
  have insideTag := Varint.length_le_of_decode decoded
  obtain ⟨insideSpan, rfl, rfl⟩ := span_eq_ok taken
  rw [Cursor.rest_advance, List.length_drop] at insideSpan
  refine ⟨tagSize + number, by omega, Cursor.advance_advance _ _ _, ?_⟩
  intro limit fits
  have spanTaken := span_takes limit ((cursor.rest.drop tagSize).take number)
  rw [List.length_take_of_le (by rw [List.length_drop]; omega)] at spanTaken
  rw [List.take_add]
  exact (spanLength_take opened (by omega)).bind spanTaken

theorem text_confined : Confined text := blob_confined.bind fun _ => .nothing _

/-- A span that was opened can be opened elsewhere, if all of it is there and the limit admits it. -/
theorem openSpan_take {cursor : Cursor} {number tagSize limit pos : Nat} {tail : Bytes}
    (ran : openSpan cursor = .ok number (cursor.advance tagSize)) (within : number ≤ limit) :
    openSpan ⟨cursor.rest.take (tagSize + number) ++ tail, pos, limit⟩ =
      .ok number ⟨(cursor.rest.drop tagSize).take number ++ tail, pos + tagSize, limit⟩ := by
  obtain ⟨_, inside, _, _⟩ := openSpan_bounds ran
  obtain ⟨found, middle, opened, checked⟩ := (bind_eq_ok_iff _ _ _ _ _).mp ran
  obtain ⟨_, final, there, returned⟩ := (bind_eq_ok_iff _ _ _ _ _).mp checked
  obtain ⟨_, rfl⟩ := ensure_eq_ok there
  obtain ⟨rfl, rfl⟩ := (pure_eq_ok_iff _ _ _ _).mp returned
  have spanned : ((cursor.rest.drop tagSize).take found).length = found :=
    List.length_take_of_le (by rw [List.length_drop]; omega)
  have enough : found ≤ ((cursor.rest.drop tagSize).take found ++ tail).length := by
    rw [List.length_append, spanned]
    exact Nat.le_add_right _ _
  rw [openSpan, List.take_add, List.append_assoc,
    bind_of_ok (spanLength_take opened within _ pos), List.length_take_of_le (by omega),
    bind_of_ok (ensure_of_le enough)]
  rfl

theorem object_confined : Confined object := by
  intro cursor bytes after ran
  obtain ⟨envelope, inside, same, moved⟩ := object_eq_ok ran
  refine ⟨bytes.length, inside, moved, ?_⟩
  intro limit fits
  rw [← same]
  exact object_takes envelope fits

theorem skip_confined (wireType : WireType) : Confined (skip wireType) := by
  have fixed : ∀ width, Confined (do ensure width; advance width) := by
    intro width cursor value after ran
    obtain ⟨inside, rfl⟩ := ensure_advance_eq_ok ran
    refine ⟨width, inside, rfl, ?_⟩
    intro limit _ tail pos
    have enough : width ≤ (Cursor.mk (cursor.rest.take width ++ tail) pos limit).rest.length := by
      rw [List.length_append, List.length_take_of_le inside]
      exact Nat.le_add_right _ _
    rw [bind_of_ok (ensure_of_le enough), advance_apply, advance_take_append inside,
      List.length_take_of_le inside]
  cases wireType with
  | varint => exact word_confined.bind fun _ => .nothing _
  | fourByte => exact fixed 4
  | eightByte => exact fixed 8
  | list =>
    intro cursor value after ran
    obtain ⟨number, middle, opened, moved⟩ := (bind_eq_ok_iff _ _ _ _ _).mp ran
    obtain ⟨tagSize, _, inside, _, _, rfl⟩ := openSpan_costs opened
    cases moved
    refine ⟨tagSize + number, inside, Cursor.advance_advance _ _ _, ?_⟩
    intro limit fits tail pos
    have insideSpan : number ≤ (cursor.rest.drop tagSize).length := by
      rw [List.length_drop]
      omega
    change (openSpan >>= fun length => advance length) _ = _
    rw [bind_of_ok (openSpan_take opened (by omega)), advance_apply,
      advance_take_append insideSpan, List.length_take_of_le inside, Nat.add_assoc]

theorem skipAll_confined (wireType : WireType) (fields : List UInt64) :
    Confined (fields.forM fun _ => skip wireType) := by
  induction fields with
  | nil => exact .nothing _
  | cons field fields ih => exact (skip_confined wireType).bind fun _ => ih

end Reader

theorem FieldSet.read_confined : Reader.Confined FieldSet.read := by
  refine Reader.word_confined.bind fun header => ?_
  change Reader.Confined (if header &&& continuationFlag = 0 then _ else _)
  split
  · exact .nothing _
  · exact Reader.word32_confined.bind fun _ => .nothing _

/-! ## Elements -/

namespace ElementFormat

variable {α : Type} {format : ElementFormat α}

/-- Elements do not look ahead, and take at least the bytes that counts allow for. -/
structure Confined (format : ElementFormat α) : Prop where
  read : Reader.Confined format.read
  minimal : ∀ cursor value after, format.read cursor = .ok value after →
    cursor.pos + format.scheme.minimalWidth ≤ after.pos

theorem bool_confined : bool.Confined where
  read := Reader.bool_confined
  minimal cursor value after ran := by
    obtain ⟨length, positive, _, rfl⟩ := Reader.bool_costs ran
    exact Nat.add_le_add_left positive _

theorem integer_confined (width : Width) : (integer width).Confined where
  read := Reader.integer_confined width
  minimal cursor value after ran := by
    obtain ⟨length, sized, _, rfl⟩ := Reader.integer_costs ran
    exact Nat.add_le_add_left (Nat.le_trans (Varint.size_pos _) sized) _

theorem fixed_confined (code : FixedWidth α) (same : α → α → Bool) :
    (fixed code same).Confined where
  read := Reader.fixed_confined code
  minimal cursor value after ran := by
    obtain ⟨_, rfl⟩ := Reader.fixed_costs code ran
    exact Nat.le_of_eq (congrArg (cursor.pos + ·) code.minimalWidth_eq)

theorem text_confined : text.Confined where
  read := Reader.text_confined
  minimal cursor value after ran := by
    obtain ⟨length, sized, _, rfl⟩ := Reader.text_costs ran
    have positive : 1 ≤ value.encodedSize :=
      Nat.le_trans (LengthTag.size_pos _ .list) (Nat.le_add_right _ _)
    exact Nat.add_le_add_left (Nat.le_trans positive sized) _

theorem Confined.readMany (confined : format.Confined) (count : Nat) :
    Reader.Confined (format.readMany count) := by
  induction count with
  | zero => exact .nothing _
  | succ count ih => exact confined.read.bind fun _ => ih.bind fun _ => .nothing _

theorem Confined.readMany_minimal (confined : format.Confined) {count : Nat} {values : List α}
    {cursor after : Cursor} (ran : format.readMany count cursor = .ok values after) :
    cursor.pos + count * format.scheme.minimalWidth ≤ after.pos := by
  induction count generalizing values cursor with
  | zero =>
    obtain ⟨_, rfl⟩ := (pure_eq_ok_iff _ _ _ _).mp ran
    simp
  | succ count ih =>
    obtain ⟨value, middle, first, rest⟩ := (bind_eq_ok_iff _ _ _ _ _).mp ran
    obtain ⟨others, last, more, returned⟩ := (bind_eq_ok_iff _ _ _ _ _).mp rest
    obtain ⟨_, rfl⟩ := (pure_eq_ok_iff _ _ _ _).mp returned
    have here := confined.minimal _ _ _ first
    have there := ih more
    rw [Nat.add_mul, Nat.one_mul]
    omega

/-- A count was checked against more than the elements, but they have been read in the end. -/
theorem Confined.readValues (confined : format.Confined) : Reader.Confined format.readValues := by
  intro cursor values after ran
  obtain ⟨count, middle, counted, elements⟩ := (bind_eq_ok_iff _ _ _ _ _).mp ran
  obtain ⟨found, start, tagged, checked⟩ := (bind_eq_ok_iff _ _ _ _ _).mp counted
  obtain ⟨_, second, small, bounded⟩ := (bind_eq_ok_iff _ _ _ _ _).mp checked
  obtain ⟨_, rfl⟩ := Reader.withinLimit_eq_ok small
  obtain ⟨_, third, there, returned⟩ := (bind_eq_ok_iff _ _ _ _ _).mp bounded
  obtain ⟨_, rfl⟩ := Reader.ensure_eq_ok there
  obtain ⟨rfl, rfl⟩ := (pure_eq_ok_iff _ _ _ _).mp returned
  obtain ⟨tagSize, insideTag, rfl, takesTag⟩ := Reader.lengthTag_confined _ _ _ _ tagged
  obtain ⟨length, inside, rfl, takes⟩ := confined.readMany found _ _ _ elements
  have paid := confined.readMany_minimal elements
  rw [Cursor.rest_advance, List.length_drop] at inside
  rw [Cursor.pos_advance (cursor.advance tagSize)] at paid
  refine ⟨tagSize + length, by omega, Cursor.advance_advance _ _ _, ?_⟩
  intro limit fits tail pos
  have needed : min (found * format.scheme.minimalWidth) Reader.largestSize ≤ length :=
    Nat.le_trans (Nat.min_le_left _ _) (by omega)
  have run : ((cursor.rest.drop tagSize).take length).length = length :=
    List.length_take_of_le (by rw [List.length_drop]; omega)
  have enough : min (found * format.scheme.minimalWidth) Reader.largestSize ≤
      ((cursor.rest.drop tagSize).take length ++ tail).length := by
    rw [List.length_append, run]
    omega
  have within : min (found * format.scheme.minimalWidth) Reader.largestSize ≤ limit := by
    omega
  have accepted : Reader.count format.scheme
      ⟨cursor.rest.take tagSize ++ ((cursor.rest.drop tagSize).take length ++ tail), pos, limit⟩ =
      .ok found ⟨(cursor.rest.drop tagSize).take length ++ tail,
        pos + (cursor.rest.take tagSize).length, limit⟩ := by
    rw [Reader.count, bind_of_ok (takesTag limit (by omega) _ pos),
      bind_of_ok (Reader.withinLimit_of_le within), bind_of_ok (Reader.ensure_of_le enough)]
    rfl
  rw [ElementFormat.readValues, List.take_add, List.append_assoc, bind_of_ok accepted,
    List.length_append, ← Nat.add_assoc]
  exact takes limit (by omega) tail _

end ElementFormat

/-! ## Objects -/

namespace Loader

variable {σ τ α β : Type}

/-- What the loader took is all that its result depends on, besides the object. -/
def Confined (loader : Loader σ α) : Prop :=
  ∀ object cursor value final after, loader (object, cursor) = .ok value (final, after) →
    ∃ length, length ≤ cursor.rest.length ∧ after = cursor.advance length ∧
      ∀ limit, length ≤ limit → Fills loader limit (cursor.rest.take length) object value final

theorem Confined.nothing (value : α) : Confined (pure value : Loader σ α) := by
  intro object cursor result final after ran
  cases ran
  exact ⟨0, Nat.zero_le _, rfl, fun _ _ _ _ => rfl⟩

theorem Confined.fail (error : CodecError) : Confined (throw error : Loader σ α) := by
  intro object cursor value final after ran
  exact absurd ran (throw_ne_ok _ _ _ _)

theorem Confined.read {reader : Reader α} (confined : Reader.Confined reader) :
    Confined (Loader.read reader : Loader σ α) := by
  intro object cursor value final after ran
  obtain ⟨rfl, readerRan⟩ := read_eq_ok ran
  obtain ⟨length, inside, moved, takes⟩ := confined _ _ _ readerRan
  exact ⟨length, inside, moved, fun limit fits => Fills.read (takes limit fits) final⟩

theorem Confined.update (change : σ → σ) : Confined (Loader.update change) := by
  intro object cursor value final after ran
  cases ran
  exact ⟨0, Nat.zero_le _, rfl, fun limit _ => Fills.update limit change object⟩

theorem Confined.bind {first : Loader σ α} {next : α → Loader σ β} (confined : Confined first)
    (more : ∀ value, Confined (next value)) : Confined (first >>= next) := by
  intro object cursor result final after ran
  obtain ⟨value, ⟨changed, middle⟩, firstRan, nextRan⟩ := (bind_eq_ok_iff _ _ _ _ _).mp ran
  obtain ⟨front, insideFront, rfl, fillsFront⟩ := confined _ _ _ _ _ firstRan
  obtain ⟨back, insideBack, rfl, fillsBack⟩ := more value _ _ _ _ _ nextRan
  rw [Cursor.rest_advance, List.length_drop] at insideBack
  refine ⟨front + back, by omega, Cursor.advance_advance _ _ _, ?_⟩
  intro limit fits
  rw [List.take_add]
  exact (fillsFront limit (by omega)).bind (fillsBack limit (by omega))

theorem Confined.part {get : σ → τ} {put : σ → τ → σ} {loader : Loader τ α}
    (confined : Confined loader) : Confined (Loader.part get put loader) := by
  intro object cursor value final after ran
  obtain ⟨inner, rfl, loaderRan⟩ := part_eq_ok ran
  obtain ⟨length, inside, moved, fills⟩ := confined _ _ _ _ _ loaderRan
  exact ⟨length, inside, moved, fun limit fits tail pos => part_of_ok (fills limit fits tail pos)⟩

end Loader

namespace ObjectFormat

variable {σ : Type} {format : ObjectFormat σ}

/-- Loading takes a whole envelope.  The limit has to admit the body of it, and nothing else counts
besides the object and the envelope. -/
def Confined (format : ObjectFormat σ) : Prop :=
  ∀ object cursor final after, format.load (object, cursor) = .ok () (final, after) →
    ∃ tagSize declared, Reader.openSpan cursor = .ok declared (cursor.advance tagSize) ∧
      after = cursor.advance (tagSize + declared) ∧
      ∀ limit, declared ≤ limit →
        Loader.Fills format.load limit (cursor.rest.take (tagSize + declared)) object () final

theorem Confined.load (confined : format.Confined) : Loader.Confined format.load := by
  intro object cursor value final after ran
  obtain ⟨tagSize, declared, opened, rfl, fills⟩ := confined _ _ _ _ ran
  obtain ⟨_, inside, _, _⟩ := Reader.openSpan_bounds opened
  exact ⟨tagSize + declared, inside, rfl, fun limit fits => fills limit (by omega)⟩

theorem Confined.read (confined : format.Confined) : Reader.Confined format.read := by
  intro cursor object after ran
  obtain ⟨length, inside, moved, fills⟩ := confined.load _ _ _ _ _ (load_of_read ran)
  exact ⟨length, inside, moved,
    fun limit fits tail pos => Loader.toReader_of_ok (fills limit fits tail pos)⟩

theorem Confined.element (confined : format.Confined) : (ElementFormat.object format).Confined where
  read := confined.read
  minimal cursor object after ran := by
    obtain ⟨tagSize, declared, opened, rfl, _⟩ := confined _ _ _ _ (load_of_read ran)
    obtain ⟨sized, _⟩ := Reader.openSpan_bounds opened
    have positive : 1 ≤ tagSize := Nat.le_trans (LengthTag.size_pos declared .list) sized
    change cursor.pos + 1 ≤ cursor.pos + (tagSize + declared)
    omega

end ObjectFormat

namespace Sequence

variable {α : Type} {format : ElementFormat α}

theorem confined (elements : format.Confined) : (Sequence.format format).Confined := by
  intro start cursor final after ran
  obtain ⟨tagSize, declared, opened, read, consumed, remembered⟩ := load_eq_ok ran
  obtain ⟨length, inside, rfl, takes⟩ := elements.readValues _ _ _ read
  have reached : length = declared := by
    rw [Cursor.pos_advance, Nat.add_sub_cancel_left] at consumed
    exact consumed
  subst reached
  obtain ⟨items, memo⟩ := final
  cases remembered
  refine ⟨tagSize, length, opened, Cursor.advance_advance _ _ _, ?_⟩
  intro limit fits tail pos
  have again := takes limit fits tail (pos + tagSize)
  rw [List.length_take_of_le inside] at again
  rw [List.length_take_of_le (Reader.openSpan_bounds opened).2.1, ← Nat.add_assoc]
  exact load_of_span start (Reader.openSpan_take opened fits) again (Nat.add_sub_cancel_left _ _)

end Sequence

namespace Dictionary

variable {α : Type} {format : ElementFormat α}

theorem confined (elements : format.Confined) : (Dictionary.format format).Confined := by
  intro start cursor final after ran
  obtain ⟨tagSize, declared, keys, values, middle, opened, keysRead, valuesRead, paired, consumed,
    rfl⟩ := load_eq_ok ran
  obtain ⟨front, insideFront, rfl, takesKeys⟩ :=
    ElementFormat.text_confined.readValues _ _ _ keysRead
  obtain ⟨back, insideBack, rfl, takesValues⟩ := elements.readValues _ _ _ valuesRead
  have reached : front + back = declared := by
    rw [Cursor.advance_advance, Cursor.pos_advance, Nat.add_sub_cancel_left] at consumed
    exact consumed
  subst reached
  refine ⟨tagSize, front + back, opened, by rw [Cursor.advance_advance, Cursor.advance_advance], ?_⟩
  intro limit fits tail pos
  have keysAgain := takesKeys limit (by omega)
    (((cursor.advance tagSize).advance front).rest.take back ++ tail) (pos + tagSize)
  have valuesAgain := takesValues limit (by omega) tail (pos + tagSize + front)
  rw [← List.append_assoc, Cursor.rest_advance (cursor.advance tagSize), ← List.take_add,
    List.length_take_of_le insideFront, ← Cursor.rest_advance] at keysAgain
  rw [List.length_take_of_le insideBack] at valuesAgain
  rw [List.length_take_of_le (Reader.openSpan_bounds opened).2.1, ← Nat.add_assoc pos,
    ← Nat.add_assoc (pos + tagSize)]
  have spanned : pos + tagSize + front + back - (pos + tagSize) = front + back := by omega
  exact load_of_span start (Reader.openSpan_take opened fits) keysAgain valuesAgain paired spanned

end Dictionary

/-! ## Trees -/

namespace Tree

theorem load_of_children {format : ObjectFormat (Sequence Tree)} {tree : Tree}
    {children : Sequence Tree} {cursor after : Cursor}
    (ran : format.load (tree.children, cursor) = .ok () (children, after)) :
    (ofSequenceFormat format).load (tree, cursor) = .ok () (node children, after) := by
  have whole : Loader.part Tree.children (fun _ later => node later) format.load (tree, cursor) =
      .ok () (node children, after) := Loader.part_of_ok ran
  exact whole

theorem children_of_load {format : ObjectFormat (Sequence Tree)} {tree final : Tree}
    {cursor after : Cursor}
    (ran : (ofSequenceFormat format).load (tree, cursor) = .ok () (final, after)) :
    ∃ children, final = node children ∧
      format.load (tree.children, cursor) = .ok () (children, after) := by
  have whole : Loader.part Tree.children (fun _ later => node later) format.load (tree, cursor) =
      .ok () (final, after) := ran
  exact Loader.part_eq_ok whole

theorem ofSequenceFormat_confined {format : ObjectFormat (Sequence Tree)}
    (children : format.Confined) : (ofSequenceFormat format).Confined := by
  intro tree cursor final after ran
  obtain ⟨inner, rfl, loaded⟩ := children_of_load ran
  obtain ⟨tagSize, declared, opened, moved, fills⟩ := children _ _ _ _ loaded
  refine ⟨tagSize, declared, opened, moved, ?_⟩
  intro limit fits tail pos
  exact load_of_children (fills limit fits tail pos)

theorem formatUpTo_empty (levels : Nat) : (formatUpTo levels).empty = leaf := by
  cases levels <;> rfl

theorem formatUpTo_confined (levels : Nat) : (formatUpTo levels).Confined := by
  induction levels with
  | zero =>
    intro tree cursor final after ran
    cases ran
  | succ levels ih => exact ofSequenceFormat_confined (Sequence.confined ih.element)

/-- Two ways of reading an element that agree as long as no more than some bytes are left. -/
theorem readMany_eq_ok_of_lt {first second : ElementFormat Tree} (confined : first.Confined)
    {bound count : Nat}
    (same : ∀ cursor tree after, cursor.rest.length < bound → first.read cursor = .ok tree after →
      second.read cursor = .ok tree after)
    {trees : List Tree} {cursor after : Cursor} (few : cursor.rest.length < bound)
    (ran : first.readMany count cursor = .ok trees after) :
    second.readMany count cursor = .ok trees after := by
  induction count generalizing trees cursor with
  | zero => exact ran
  | succ count ih =>
    obtain ⟨tree, middle, here, rest⟩ := (bind_eq_ok_iff _ _ _ _ _).mp ran
    obtain ⟨others, last, more, returned⟩ := (bind_eq_ok_iff _ _ _ _ _).mp rest
    obtain ⟨rfl, rfl⟩ := (pure_eq_ok_iff _ _ _ _).mp returned
    have fewer := (confined.read.advances here).2
    rw [ElementFormat.readMany, bind_of_ok (same _ _ _ few here),
      bind_of_ok (ih (Nat.lt_of_le_of_lt fewer few) more)]
    rfl

/-- As long as there are more levels than bytes, their number does not matter for reading. -/
theorem load_of_levels {lower upper : Nat} {tree final : Tree} {cursor after : Cursor}
    (ran : (formatUpTo lower).load (tree, cursor) = .ok () (final, after))
    (enough : cursor.rest.length < upper) :
    (formatUpTo upper).load (tree, cursor) = .ok () (final, after) := by
  induction lower generalizing upper tree final cursor after with
  | zero => cases ran
  | succ lower ih =>
    cases upper with
    | zero => omega
    | succ upper =>
      obtain ⟨⟨items, memo⟩, rfl, loaded⟩ := children_of_load ran
      obtain ⟨tagSize, declared, opened, read, consumed, remembered⟩ := Sequence.load_eq_ok loaded
      cases remembered
      obtain ⟨sized, inside, _, _⟩ := Reader.openSpan_bounds opened
      have positive : 1 ≤ tagSize := Nat.le_trans (LengthTag.size_pos declared .list) sized
      obtain ⟨count, start, counted, elements⟩ := (bind_eq_ok_iff _ _ _ _ _).mp read
      obtain ⟨length, _, _, _, rfl⟩ := Reader.count_costs counted
      have fewer : ((cursor.advance tagSize).advance length).rest.length < upper := by
        rw [Cursor.rest_advance, Cursor.rest_advance, List.length_drop, List.length_drop]
        omega
      have same : ∀ here tree there, here.rest.length < upper →
          (formatUpTo lower).read here = .ok tree there →
            (formatUpTo upper).read here = .ok tree there := by
        intro here tree there few found
        have loaded := ObjectFormat.load_of_read found
        rw [formatUpTo_empty, ← formatUpTo_empty upper] at loaded
        exact Loader.toReader_of_ok (ih loaded few)
      have again : (ElementFormat.object (formatUpTo upper)).readValues (cursor.advance tagSize) =
          .ok items after := by
        rw [ElementFormat.readValues]
        refine (bind_of_ok counted).trans ?_
        exact readMany_eq_ok_of_lt (formatUpTo_confined lower).element same fewer elements
      exact load_of_children (Sequence.load_of_span _ opened again consumed)

theorem confined : format.Confined := by
  intro tree cursor final after ran
  have ran : (formatUpTo (cursor.rest.length + 1)).load (tree, cursor) = .ok () (final, after) := ran
  obtain ⟨tagSize, declared, opened, moved, fills⟩ := formatUpTo_confined _ _ _ _ _ ran
  refine ⟨tagSize, declared, opened, moved, ?_⟩
  intro limit fits tail pos
  exact load_of_levels (fills limit fits tail pos) (Nat.lt_succ_self _)

end Tree

end FieldWire
