import FieldWire.Proofs.Dictionary

/-!
# Integers read with a smaller width

The width of an integer is not on the wire: integers of all widths share one wire type, and the same
number has the same bytes whatever its width.  A collection of long integers may therefore be read
with a smaller width.  It then comes back with the same numbers, or it is refused because of the
first number that does not fit; no number is ever cut down to the width.
-/

set_option autoImplicit false

namespace FieldWire

/-- The numbers of a width. -/
def Width.Holds (width : Width) (number : Int) : Prop :=
  -width.bound ≤ number ∧ number < width.bound

instance (width : Width) (number : Int) : Decidable (width.Holds number) :=
  inferInstanceAs (Decidable (_ ∧ _))

/-! ## The bytes of a number -/

section Bytes

variable {first second : Width}

theorem ElementFormat.run_bytes_of_integers {scheme : WireType} {lefts : List (Integer first)}
    {rights : List (Integer second)} (same : lefts.map (·.val) = rights.map (·.val)) :
    ((integerView first).run scheme).bytes lefts =
      ((integerView second).run scheme).bytes rights := by
  have counts := congrArg List.length same
  rw [List.length_map, List.length_map] at counts
  let bytes (number : Int) : Bytes := Varint.encode (UInt64.ofNat (ZigZag.encode number))
  have numbers : lefts.flatMap Write.integer = rights.flatMap Write.integer := by
    change (lefts.flatMap fun left => bytes left.val) = rights.flatMap fun right => bytes right.val
    rw [← List.flatMap_map, same, List.flatMap_map]
  change Write.lengthTag lefts.length scheme ++ lefts.flatMap Write.integer = _
  rw [counts, numbers]
  rfl

end Bytes

/-! ## Readers of a smaller width -/

section Readers

variable {width : Width} {cursor after : Cursor} {number : Integer .long}
  {numbers : List (Integer .long)}

theorem Reader.integer_of_holds (read : long cursor = .ok number after)
    (holds : width.Holds number.val) :
    integer width cursor = .ok ⟨number.val, holds.1, holds.2⟩ after := by
  have fits : Integer.ofInt? width number.val = some ⟨number.val, holds.1, holds.2⟩ := by
    simp [Integer.ofInt?, holds.1, holds.2]
  rw [integer, bind_of_ok read, fits]
  rfl

theorem Reader.integer_of_not_holds (read : long cursor = .ok number after)
    (large : ¬width.Holds number.val) :
    integer width cursor = .error (.varintOutOfRange number.val width) after := by
  have none : Integer.ofInt? width number.val = none := by
    simpa [Integer.ofInt?, Width.Holds] using large
  rw [integer, bind_of_ok read, none]
  rfl

/-- Every number that there is fits the largest width. -/
theorem Reader.integer_long : integer .long = long := by
  funext cursor
  cases read : long cursor with
  | ok number after => exact integer_of_holds read ⟨number.lower, number.upper⟩
  | error error after => rw [integer, bind_of_error read]

namespace ElementFormat

theorem readMany_eq_cons {α : Type} {format : ElementFormat α} {count : Nat} {value : α}
    {values : List α} (read : format.readMany count cursor = .ok (value :: values) after) :
    ∃ others middle, count = others + 1 ∧ format.read cursor = .ok value middle ∧
      format.readMany others middle = .ok values after := by
  cases count with
  | zero => cases read
  | succ others =>
    obtain ⟨first, middle, head, rest⟩ := (bind_eq_ok_iff _ _ _ _ _).mp read
    obtain ⟨more, last, tail, returned⟩ := (bind_eq_ok_iff _ _ _ _ _).mp rest
    obtain ⟨all, rfl⟩ := (pure_eq_ok_iff _ _ _ _).mp returned
    cases all
    exact ⟨others, middle, rfl, head, tail⟩

theorem readMany_of_holds {count : Nat}
    (read : (integer .long).readMany count cursor = .ok numbers after)
    (fit : ∀ number ∈ numbers, width.Holds number.val) :
    ∃ narrow, (integer width).readMany count cursor = .ok narrow after ∧
      narrow.map (·.val) = numbers.map (·.val) := by
  induction numbers generalizing count cursor with
  | nil =>
    obtain ⟨counted, _⟩ := (integer_measured .long).readMany_eq_ok read
    obtain rfl : 0 = count := counted
    cases read
    exact ⟨[], rfl, rfl⟩
  | cons number numbers ih =>
    obtain ⟨others, middle, rfl, first, rest⟩ := readMany_eq_cons read
    have long : Reader.long cursor = .ok number middle := Reader.integer_long ▸ first
    have holds := fit number List.mem_cons_self
    obtain ⟨narrow, more, same⟩ := ih rest fun other member => fit other (List.mem_cons_of_mem _ member)
    refine ⟨⟨number.val, holds.1, holds.2⟩ :: narrow, ?_, by simp [same]⟩
    have narrowed : (integer width).read cursor = _ := Reader.integer_of_holds long holds
    rw [readMany, bind_of_ok narrowed, bind_of_ok more]
    rfl

theorem readMany_of_not_holds {count : Nat} {front back : List (Integer .long)}
    (read : (integer .long).readMany count cursor = .ok (front ++ number :: back) after)
    (fit : ∀ other ∈ front, width.Holds other.val) (large : ¬width.Holds number.val) :
    ∃ stopped, (integer width).readMany count cursor =
      .error (.varintOutOfRange number.val width) stopped := by
  induction front generalizing count cursor with
  | nil =>
    obtain ⟨others, middle, rfl, first, _⟩ := readMany_eq_cons read
    have long : Reader.long cursor = .ok number middle := Reader.integer_long ▸ first
    exact ⟨middle, bind_of_error (Reader.integer_of_not_holds long large)⟩
  | cons other front ih =>
    obtain ⟨others, middle, rfl, first, rest⟩ := readMany_eq_cons read
    have long : Reader.long cursor = .ok other middle := Reader.integer_long ▸ first
    have narrowed : (integer width).read cursor = _ :=
      Reader.integer_of_holds long (fit other List.mem_cons_self)
    obtain ⟨stopped, failed⟩ := ih rest fun later member => fit later (List.mem_cons_of_mem _ member)
    refine ⟨stopped, ?_⟩
    rw [readMany, bind_of_ok narrowed, bind_of_error failed]

theorem readValues_of_holds
    (read : (integer .long).readValues cursor = .ok numbers after)
    (fit : ∀ number ∈ numbers, width.Holds number.val) :
    ∃ narrow, (integer width).readValues cursor = .ok narrow after ∧
      narrow.map (·.val) = numbers.map (·.val) := by
  obtain ⟨count, middle, counted, rest⟩ := (bind_eq_ok_iff _ _ _ _ _).mp read
  obtain ⟨narrow, more, same⟩ := readMany_of_holds rest fit
  exact ⟨narrow, (bind_of_ok counted).trans more, same⟩

theorem readValues_of_not_holds {front back : List (Integer .long)}
    (read : (integer .long).readValues cursor = .ok (front ++ number :: back) after)
    (fit : ∀ other ∈ front, width.Holds other.val) (large : ¬width.Holds number.val) :
    ∃ stopped, (integer width).readValues cursor =
      .error (.varintOutOfRange number.val width) stopped := by
  obtain ⟨count, middle, counted, rest⟩ := (bind_eq_ok_iff _ _ _ _ _).mp read
  obtain ⟨stopped, failed⟩ := readMany_of_not_holds rest fit large
  exact ⟨stopped, (bind_of_ok counted).trans failed⟩

end ElementFormat

end Readers

/-! ## Collections -/

/-- What reading some numbers with a smaller width comes to.  All is well if they fit the width, and
then the object holds them; or the first that does not fit is the error. -/
structure Narrows {σ : Type} (width : Width) (numbers : List Int) (holds : σ → Prop)
    (answer : Except CodecError σ) : Prop where
  accepted : (∃ object, answer = .ok object) ↔ ∀ number ∈ numbers, width.Holds number
  same : ∀ object, answer = .ok object → holds object
  refused : ∀ front number back, numbers = front ++ number :: back →
    (∀ other ∈ front, width.Holds other) → ¬width.Holds number →
      answer = .error (.varintOutOfRange number width)

theorem exists_first {α : Type} {P : α → Prop} {values : List α} (some : ¬∀ value ∈ values, P value) :
    ∃ front value back, values = front ++ value :: back ∧ (∀ other ∈ front, P other) ∧ ¬P value := by
  classical
  cases found : values.find? fun value => !decide (P value) with
  | none =>
    rw [List.find?_eq_none] at found
    exact absurd (fun value member => by simpa using found value member) some
  | some value =>
    obtain ⟨fails, front, back, split, before⟩ := List.find?_eq_some_iff_append.mp found
    exact ⟨front, value, back, split, fun other member => by simpa using before other member,
      by simpa using fails⟩

theorem narrows_of_cases {σ : Type} {width : Width} {numbers : List (Integer .long)}
    {holds : σ → Prop} {answer : Except CodecError σ}
    (taken : (∀ number ∈ numbers, width.Holds number.val) →
      ∃ object, answer = .ok object ∧ holds object)
    (refused : ∀ front number back, numbers = front ++ number :: back →
      (∀ other ∈ front, width.Holds other.val) → ¬width.Holds number.val →
        answer = .error (.varintOutOfRange number.val width)) :
    Narrows width (numbers.map (·.val)) holds answer := by
  have first : ∀ front number back, numbers.map (·.val) = front ++ number :: back →
      (∀ other ∈ front, width.Holds other) → ¬width.Holds number →
        answer = .error (.varintOutOfRange number width) := by
    intro front number back split fit large
    obtain ⟨before, rest, rfl, rfl, cut⟩ := List.map_eq_append_iff.mp split
    obtain ⟨middle, after, rfl, rfl, rfl⟩ := List.map_eq_cons_iff.mp cut
    exact refused before middle after rfl (by simpa using fit) large
  by_cases fit : ∀ number ∈ numbers, width.Holds number.val
  · obtain ⟨object, answered, held⟩ := taken fit
    refine ⟨⟨fun _ => by simpa using fit, fun _ => ⟨object, answered⟩⟩, ?_, first⟩
    intro other same
    obtain rfl : object = other := by simpa [answered] using same
    exact held
  · obtain ⟨front, number, back, split, before, large⟩ := exists_first fit
    have answered := refused front number back split before large
    refine ⟨⟨?_, fun all => absurd (by simpa using all) fit⟩, ?_, first⟩
    · rintro ⟨object, accepted⟩
      simp [answered] at accepted
    · intro object accepted
      simp [answered] at accepted

variable {width : Width} {bytes : Bytes}

namespace Sequence

/-- The numbers of a sequence, whatever their width. -/
def numbers (sequence : Sequence (Integer width)) : List Int := sequence.items.map (·.val)

theorem read_of_error {α : Type} {format : ElementFormat α} {cursor middle stopped : Cursor}
    {declared : Nat} {error : CodecError} (opened : Reader.openSpan cursor = .ok declared middle)
    (failed : format.readValues middle = .error error stopped) :
    (Sequence.format format).read cursor = .error error stopped := by
  have loaded : load format (empty, cursor) = .error error (empty, stopped) := by
    rw [load, bind_of_ok (Loader.read_of_ok opened _),
      bind_of_ok (Loader.read_of_ok (Reader.position_apply _) _)]
    exact bind_of_error (Loader.read_of_error failed _)
  exact Loader.toReader_of_error loaded

/-- Whatever reads as a sequence of long integers, read with a smaller width. -/
theorem narrows_of_deserialize {longs : Sequence (Integer .long)}
    (accepted : (Sequence.format (.integer .long)).deserialize bytes = .ok longs) :
    Narrows width longs.numbers (·.numbers = longs.numbers)
      ((Sequence.format (.integer width)).deserialize bytes) := by
  obtain ⟨after, read, finished⟩ := ObjectFormat.read_of_deserialize accepted
  obtain ⟨tagSize, declared, opened, items, consumed, _⟩ := load_eq_ok (ObjectFormat.load_of_read read)
  refine narrows_of_cases (fun fit => ?_) fun front number back split fit large => ?_
  · obtain ⟨narrow, narrowed, same⟩ := ElementFormat.readValues_of_holds items fit
    have taken := Loader.toReader_of_ok (load_of_span empty opened narrowed consumed)
    exact ⟨_, ObjectFormat.deserializeWithin_of_ok taken finished, same⟩
  · rw [split] at items
    obtain ⟨stopped, failed⟩ := ElementFormat.readValues_of_not_holds items fit large
    exact ObjectFormat.deserializeWithin_of_error (read_of_error opened failed)

theorem narrows_serialize {longs : Sequence (Integer .long)}
    (exact : (Sequence.view .varint (ElementFormat.integerView .long)).Exact longs)
    (within : ((Sequence.format (.integer .long)).size longs).1 ≤ defaultPayloadLimit) :
    Narrows width longs.numbers (·.numbers = longs.numbers)
      ((Sequence.format (.integer width)).deserialize
        ((Sequence.format (.integer .long)).serialize longs).1) := by
  have faithful := Sequence.faithful (ElementFormat.integer_faithful .long)
  have valid : (Sequence.view .varint (ElementFormat.integerView .long)).Valid longs :=
    fun _ _ => trivial
  rw [faithful.size_eq longs valid exact] at within
  obtain ⟨back, accepted, same⟩ := ObjectFormat.deserializeWithin_of_recovers
    (Sequence.readable (ElementFormat.integer_readable .long) _ longs valid within (Nat.le_refl _))
  have items : back.items = longs.items := by
    simpa [Sequence.view, ElementFormat.integerView, View.plain] using same
  have narrows : Narrows width back.numbers _ _ := narrows_of_deserialize accepted
  rw [numbers, items] at narrows
  rw [ObjectFormat.serialize, faithful.encode_eq longs valid exact]
  exact narrows

theorem serialize_congr {narrow : Sequence (Integer width)} {longs : Sequence (Integer .long)}
    (exactNarrow : (Sequence.view .varint (ElementFormat.integerView width)).Exact narrow)
    (exact : (Sequence.view .varint (ElementFormat.integerView .long)).Exact longs)
    (same : narrow.numbers = longs.numbers) :
    ((Sequence.format (.integer width)).serialize narrow).1 =
      ((Sequence.format (.integer .long)).serialize longs).1 := by
  have bytes : ((ElementFormat.integerView width).run .varint).bytes narrow.items =
      ((ElementFormat.integerView .long).run .varint).bytes longs.items :=
    ElementFormat.run_bytes_of_integers same
  rw [ObjectFormat.serialize, ObjectFormat.serialize,
    (Sequence.faithful (ElementFormat.integer_faithful width)).encode_eq narrow
      (fun _ _ => trivial) exactNarrow,
    (Sequence.faithful (ElementFormat.integer_faithful .long)).encode_eq longs
      (fun _ _ => trivial) exact]
  exact congrArg Write.blob bytes

end Sequence

namespace Dictionary

theorem read_of_error {α : Type} {format : ElementFormat α}
    {cursor first second stopped : Cursor} {declared : Nat} {keys : List Text} {error : CodecError}
    (opened : Reader.openSpan cursor = .ok declared first)
    (keysRead : ElementFormat.text.readValues first = .ok keys second)
    (failed : format.readValues second = .error error stopped) :
    (Dictionary.format format).read cursor = .error error stopped := by
  have loaded : load format (empty, cursor) = .error error (empty, stopped) := by
    rw [load, bind_of_ok (Loader.read_of_ok opened _),
      bind_of_ok (Loader.read_of_ok (Reader.position_apply _) _),
      bind_of_ok (Loader.read_of_ok keysRead _)]
    exact bind_of_error (Loader.read_of_error failed _)
  exact Loader.toReader_of_error loaded

/-- The keys, as they are compared, with the numbers under them, whatever their width. -/
def numbers (dictionary : Dictionary (Integer width)) : List (Bytes × Int) :=
  dictionary.entries.map fun entry => (entry.1.bytes, entry.2.val)

theorem numbers_zip (keys : List Text) (values : List (Integer width)) (memo : Option Nat) :
    numbers ⟨keys.zip values, memo⟩ = (keys.map Text.bytes).zip (values.map (·.val)) := by
  simp [numbers, List.zip_map]

theorem numbers_eq_zip (dictionary : Dictionary (Integer width)) :
    dictionary.numbers =
      (dictionary.keys.map Text.bytes).zip (dictionary.values.map (·.val)) := by
  simp [numbers, keys, values, List.zip_map', Function.comp_def]

/-- How the bytes of a dictionary of long integers are read: its keys come back byte by byte and its
values as they are. -/
theorem runs_of_serialize {longs : Dictionary (Integer .long)} {limit : Nat}
    (valid : (Dictionary.view .varint (ElementFormat.integerView .long)).Valid longs)
    (exact : (Dictionary.view .varint (ElementFormat.integerView .long)).Exact longs)
    (within : ((Dictionary.format (.integer .long)).size longs).1 ≤ limit)
    (default : limit ≤ defaultPayloadLimit) :
    ∃ declared keys first second after,
      Reader.openSpan
        (Cursor.ofBytes ((Dictionary.format (.integer .long)).serialize longs).1 limit) =
          .ok declared first ∧
      ElementFormat.text.readValues first = .ok keys second ∧
      (ElementFormat.integer .long).readValues second = .ok longs.values after ∧
      keys.map Text.bytes = longs.keys.map Text.bytes ∧ after.pos - first.pos = declared ∧
      after.rest = [] := by
  have faithful := Dictionary.faithful (ElementFormat.integer_faithful .long)
  rw [faithful.size_eq longs valid exact] at within
  rw [ObjectFormat.serialize, faithful.encode_eq longs valid exact]
  let keyRun := (ElementFormat.textView.run .list).bytes longs.keys
  let valueRun := ((ElementFormat.integerView .long).run .varint).bytes longs.values
  let start := (Write.word (LengthTag.span (keyRun ++ valueRun).length)).length
  change (keyRun ++ valueRun).length ≤ limit at within
  have opened : Reader.openSpan (Cursor.ofBytes (Write.blob (keyRun ++ valueRun)) limit) =
      .ok (keyRun ++ valueRun).length ⟨keyRun ++ valueRun, 0 + start, limit⟩ :=
    Reader.openSpan_of_le within (lt_of_le_default within default) (Nat.le_refl _)
  rw [List.length_append] at within
  have keysTaken : Reader.Recovers ElementFormat.text.readValues limit keyRun
      (List.map Text.bytes) (longs.keys.map Text.bytes) :=
    ElementFormat.text_readable.readValues_recovers (fun _ _ => trivial)
      (show keyRun.length ≤ limit by omega) default
  have valuesTaken : Reader.Recovers (ElementFormat.integer .long).readValues limit valueRun
      (List.map id) (longs.values.map id) :=
    (ElementFormat.integer_readable .long).readValues_recovers (fun _ _ => trivial)
      (show valueRun.length ≤ limit by omega) default
  obtain ⟨keys, keysRead, sameKeys⟩ := keysTaken valueRun (0 + start)
  obtain ⟨values, valuesRead, sameValues⟩ := valuesTaken [] (0 + start + keyRun.length)
  rw [List.append_nil] at valuesRead
  obtain rfl : values = longs.values := by simpa using sameValues
  refine ⟨_, keys, _, _, _, opened, keysRead, valuesRead, sameKeys, ?_, rfl⟩
  rw [List.length_append]
  change 0 + start + keyRun.length + valueRun.length - (0 + start) = _
  omega

theorem narrows_serialize {longs : Dictionary (Integer .long)}
    (valid : (Dictionary.view .varint (ElementFormat.integerView .long)).Valid longs)
    (exact : (Dictionary.view .varint (ElementFormat.integerView .long)).Exact longs)
    (within : ((Dictionary.format (.integer .long)).size longs).1 ≤ defaultPayloadLimit) :
    Narrows width (longs.values.map (·.val)) (·.numbers = longs.numbers)
      ((Dictionary.format (.integer width)).deserialize
        ((Dictionary.format (.integer .long)).serialize longs).1) := by
  obtain ⟨declared, keys, first, second, after, opened, keysRead, valuesRead, sameKeys, consumed,
    finished⟩ := runs_of_serialize valid exact within (Nat.le_refl _)
  refine narrows_of_cases (fun fit => ?_) fun front number back split fit large => ?_
  · obtain ⟨narrow, narrowed, same⟩ := ElementFormat.readValues_of_holds valuesRead fit
    have paired : narrow.length = keys.length := by
      have values := congrArg List.length same
      have texts := congrArg List.length sameKeys
      simp only [List.length_map, Dictionary.values, Dictionary.keys] at values texts
      rw [values, texts]
    have distinct : (keys.map Text.bytes).Nodup := by
      rw [sameKeys]
      exact valid.1
    have taken := Loader.toReader_of_ok
      (load_of_span empty opened keysRead narrowed paired consumed)
    refine ⟨_, ObjectFormat.deserializeWithin_of_ok taken finished, ?_⟩
    rw [collapse_of_nodup _ paired distinct, numbers_zip, numbers_eq_zip, same, sameKeys]
  · rw [split] at valuesRead
    obtain ⟨stopped, failed⟩ := ElementFormat.readValues_of_not_holds valuesRead fit large
    exact ObjectFormat.deserializeWithin_of_error (read_of_error opened keysRead failed)

theorem serialize_congr {narrow : Dictionary (Integer width)} {longs : Dictionary (Integer .long)}
    (validNarrow : (Dictionary.view .varint (ElementFormat.integerView width)).Valid narrow)
    (exactNarrow : (Dictionary.view .varint (ElementFormat.integerView width)).Exact narrow)
    (valid : (Dictionary.view .varint (ElementFormat.integerView .long)).Valid longs)
    (exact : (Dictionary.view .varint (ElementFormat.integerView .long)).Exact longs)
    (same : narrow.numbers = longs.numbers) :
    ((Dictionary.format (.integer width)).serialize narrow).1 =
      ((Dictionary.format (.integer .long)).serialize longs).1 := by
  have values : narrow.values.map (·.val) = longs.values.map (·.val) := by
    simpa [numbers, Dictionary.values, Function.comp_def] using congrArg (List.map (·.2)) same
  have keys : narrow.keys.map Text.bytes = longs.keys.map Text.bytes := by
    simpa [numbers, Dictionary.keys, Function.comp_def] using congrArg (List.map (·.1)) same
  have valueBytes : ((ElementFormat.integerView width).run .varint).bytes narrow.values =
      ((ElementFormat.integerView .long).run .varint).bytes longs.values :=
    ElementFormat.run_bytes_of_integers values
  have keyBytes : (ElementFormat.textView.run .list).bytes narrow.keys =
      (ElementFormat.textView.run .list).bytes longs.keys :=
    ElementFormat.run_bytes_of_texts keys
  rw [ObjectFormat.serialize, ObjectFormat.serialize,
    (Dictionary.faithful (ElementFormat.integer_faithful width)).encode_eq narrow validNarrow
      exactNarrow,
    (Dictionary.faithful (ElementFormat.integer_faithful .long)).encode_eq longs valid exact]
  change Write.blob (_ ++ _) = Write.blob (_ ++ _)
  exact congrArg Write.blob (congr (congrArg _ keyBytes) valueBytes)

end Dictionary

/-! ## Both kinds of collections -/

/-- A sequence of long integers, or a dictionary with long integers for values, is read back with
any width.  It succeeds exactly if all numbers are in the range of the width, and gives the same
numbers; otherwise the error names the first that is not.  The same numbers have the same bytes
whatever their width. -/
theorem narrows_or_refuses (width : Width) :
    (∀ longs : Sequence (Integer .long),
      (Sequence.view .varint (ElementFormat.integerView .long)).Exact longs →
      ((Sequence.format (.integer .long)).size longs).1 ≤ defaultPayloadLimit →
        Narrows width longs.numbers (·.numbers = longs.numbers)
          ((Sequence.format (.integer width)).deserialize
            ((Sequence.format (.integer .long)).serialize longs).1)) ∧
    (∀ (narrow : Sequence (Integer width)) (longs : Sequence (Integer .long)),
      (Sequence.view .varint (ElementFormat.integerView width)).Exact narrow →
      (Sequence.view .varint (ElementFormat.integerView .long)).Exact longs →
      narrow.numbers = longs.numbers →
        ((Sequence.format (.integer width)).serialize narrow).1 =
          ((Sequence.format (.integer .long)).serialize longs).1) ∧
    (∀ longs : Dictionary (Integer .long),
      (Dictionary.view .varint (ElementFormat.integerView .long)).Valid longs →
      (Dictionary.view .varint (ElementFormat.integerView .long)).Exact longs →
      ((Dictionary.format (.integer .long)).size longs).1 ≤ defaultPayloadLimit →
        Narrows width (longs.values.map (·.val)) (·.numbers = longs.numbers)
          ((Dictionary.format (.integer width)).deserialize
            ((Dictionary.format (.integer .long)).serialize longs).1)) ∧
    (∀ (narrow : Dictionary (Integer width)) (longs : Dictionary (Integer .long)),
      (Dictionary.view .varint (ElementFormat.integerView width)).Valid narrow →
      (Dictionary.view .varint (ElementFormat.integerView width)).Exact narrow →
      (Dictionary.view .varint (ElementFormat.integerView .long)).Valid longs →
      (Dictionary.view .varint (ElementFormat.integerView .long)).Exact longs →
      narrow.numbers = longs.numbers →
        ((Dictionary.format (.integer width)).serialize narrow).1 =
          ((Dictionary.format (.integer .long)).serialize longs).1) :=
  ⟨fun _ => Sequence.narrows_serialize, fun _ _ => Sequence.serialize_congr,
    fun _ => Dictionary.narrows_serialize, fun _ _ => Dictionary.serialize_congr⟩

/-- Long integers read as bytes: two that fit, and three of which the second does not. -/
theorem narrows_or_refuses_examples :
    let number (value : Int) (lower : -Width.long.bound ≤ value) (upper : value < Width.long.bound) :
      Integer .long := ⟨value, lower, upper⟩
    let least := number (-128) (by decide) (by decide)
    let large := number 128 (by decide) (by decide)
    let fitting : Sequence (Integer .long) := Sequence.ofList [least, least]
    let under : Dictionary (Integer .long) :=
      ⟨[(Text.ofString "a", least), (Text.ofString "b", large), (Text.ofString "c", least)], none⟩
    (∃ narrow, (Sequence.format (.integer .byte)).deserialize
        ((Sequence.format (.integer .long)).serialize fitting).1 = .ok narrow ∧
      narrow.numbers = [-128, -128]) ∧
      (Dictionary.format (.integer .byte)).deserialize
        ((Dictionary.format (.integer .long)).serialize under).1 =
          .error (.varintOutOfRange 128 .byte) := by
  intro number least large fitting under
  obtain ⟨sequences, _, dictionaries, _⟩ := narrows_or_refuses .byte
  have taken := sequences fitting ⟨remembers_none _, fun _ _ => trivial⟩ (by decide)
  have refused := dictionaries under ⟨by decide, fun _ _ => trivial⟩
    ⟨remembers_none _, fun _ _ => trivial⟩ (by decide)
  obtain ⟨narrow, accepted⟩ := taken.accepted.mpr (by decide)
  exact ⟨⟨narrow, accepted, taken.same narrow accepted⟩,
    refused.refused [-128] 128 [-128] rfl (by decide) (by decide)⟩

end FieldWire
