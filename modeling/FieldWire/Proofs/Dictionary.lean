import FieldWire.Dictionary
import FieldWire.Proofs.Sequence
import Mathlib.Algebra.Order.BigOperators.Group.List

/-!
# Dictionaries

A dictionary is a run of texts and a run of values.  It comes back because its keys are distinct, so
that none of its entries is dropped.  When entries are dropped, the length that was declared is not
remembered, and the size is worked out from what is left, which takes no more bytes.
-/

set_option autoImplicit false

namespace FieldWire

namespace ElementFormat

variable {α : Type} {format : ElementFormat α} {element : View α}

/-- Fewer elements take no more bytes. -/
theorem Faithful.valuesSize_le (faithful : format.Faithful element) {fewer values : List α}
    (among : fewer.Sublist values) (small : values.length < 2 ^ 62) :
    (format.valuesSize fewer).1 ≤ (format.valuesSize values).1 := by
  rw [faithful.valuesSize_fst, faithful.valuesSize_fst]
  have tags := LengthTag.size_mono format.scheme among.length_le small
  have sums := (among.map fun value => (format.size value).1).sum_le_sum fun size _ => Nat.zero_le size
  omega

theorem text_valuesSize_snd (texts : List Text) : (text.valuesSize texts).2 = texts := by
  rw [text_faithful.valuesSize_snd]
  exact List.map_id texts

theorem text_writeValues_snd (texts : List Text) : (text.writeValues texts).2 = texts := by
  rw [writeValues_snd]
  exact List.map_id texts

/-- A run of texts depends on their bytes only. -/
theorem run_bytes_of_texts {texts others : List Text}
    (same : texts.map Text.bytes = others.map Text.bytes) :
    (textView.run .list).bytes texts = (textView.run .list).bytes others := by
  have counts := congrArg List.length same
  rw [List.length_map, List.length_map] at counts
  have blobs : texts.flatMap Write.text = others.flatMap Write.text := by
    change (texts.flatMap fun text => Write.blob text.bytes) =
      others.flatMap fun text => Write.blob text.bytes
    rw [← List.flatMap_map, same, List.flatMap_map]
  change Write.lengthTag texts.length .list ++ texts.flatMap Write.text = _
  rw [counts, blobs]
  rfl

end ElementFormat

namespace Dictionary

variable {α : Type} {format : ElementFormat α} {element : View α}

/-! ## Keys -/

/-- The keys, as they are compared. -/
def keyBytes (entries : List (Text × α)) : List Bytes := entries.map fun entry => entry.1.bytes

theorem lookup?_isSome_iff (key : Bytes) (entries : List (Text × α)) :
    (lookup? key entries).isSome = true ↔ key ∈ keyBytes entries := by
  induction entries with
  | nil => simp [lookup?, keyBytes]
  | cons entry rest ih =>
    obtain ⟨other, value⟩ := entry
    rw [lookup?, keyBytes, List.map_cons, List.mem_cons, ← keyBytes]
    by_cases same : other.bytes = key
    · rw [if_pos same]
      exact ⟨fun _ => .inl same.symm, fun _ => rfl⟩
    · rw [if_neg same, ih]
      exact ⟨.inr, fun member => member.resolve_left fun equal => same equal.symm⟩

theorem lastOccurrences_sublist (entries : List (Text × α)) :
    (lastOccurrences entries).Sublist entries := by
  induction entries with
  | nil => exact List.Sublist.refl _
  | cons entry rest ih =>
    obtain ⟨key, value⟩ := entry
    rw [lastOccurrences]
    split
    · exact ih.cons _
    · exact ih.cons_cons _

theorem nodup_lastOccurrences (entries : List (Text × α)) :
    (keyBytes (lastOccurrences entries)).Nodup := by
  induction entries with
  | nil => exact List.nodup_nil
  | cons entry rest ih =>
    obtain ⟨key, value⟩ := entry
    rw [lastOccurrences]
    split
    · exact ih
    · rename_i last
      rw [lookup?_isSome_iff] at last
      refine List.nodup_cons.mpr ⟨fun member => last ?_, ih⟩
      exact ((lastOccurrences_sublist rest).map fun entry => entry.1.bytes).subset member

theorem lastOccurrences_of_nodup {entries : List (Text × α)} (distinct : (keyBytes entries).Nodup) :
    lastOccurrences entries = entries := by
  induction entries with
  | nil => rfl
  | cons entry rest ih =>
    obtain ⟨key, value⟩ := entry
    obtain ⟨fresh, distinctRest⟩ := List.nodup_cons.mp distinct
    have last : ¬(lookup? key.bytes rest).isSome = true := by
      rw [lookup?_isSome_iff]
      exact fresh
    rw [lastOccurrences, if_neg last, ih distinctRest]

/-! ## The view -/

/-- The bytes of a dictionary: its keys, then its values. -/
def bytesOf (scheme : WireType) (element : View α) (entries : List (Text × α)) : Bytes :=
  (ElementFormat.textView.run .list).bytes (entries.map (·.1)) ++
    (element.run scheme).bytes (entries.map (·.2))

/-- The contents of a dictionary: the bytes of its keys with the contents of their values. -/
def contentsOf (element : View α) (entries : List (Text × α)) : List (Bytes × element.Contents) :=
  ((entries.map (·.1)).map Text.bytes).zip ((entries.map (·.2)).map element.contents)

/-- What is seen of a dictionary: its entries, in order. -/
def view (scheme : WireType) (element : View α) : View (Dictionary α) where
  Contents := List (Bytes × element.Contents)
  contents dictionary := contentsOf element dictionary.entries
  bytes dictionary := bytesOf scheme element dictionary.entries
  forget dictionary :=
    ⟨(dictionary.entries.map (·.1)).zip ((dictionary.entries.map (·.2)).map element.forget), none⟩
  Exact dictionary := Remembers dictionary.memo (bytesOf scheme element dictionary.entries) ∧
    ∀ value ∈ dictionary.entries.map (·.2), element.Exact value
  Valid dictionary := ((dictionary.entries.map (·.1)).map Text.bytes).Nodup ∧
    ∀ value ∈ dictionary.entries.map (·.2), element.Valid value

theorem keys_zip {keys : List Text} {values : List α} (same : values.length = keys.length) :
    (keys.zip values).map (·.1) = keys :=
  List.map_fst_zip (Nat.le_of_eq same.symm)

theorem keyBytes_zip {keys : List Text} {values : List α} (same : values.length = keys.length) :
    keyBytes (keys.zip values) = keys.map Text.bytes := by
  rw [← congrArg (List.map Text.bytes) (keys_zip same), List.map_map]
  rfl

theorem values_zip {keys : List Text} {values : List α} (same : values.length = keys.length) :
    (keys.zip values).map (·.2) = values :=
  List.map_snd_zip (Nat.le_of_eq same)

theorem bytesOf_zip {scheme : WireType} {keys : List Text} {values : List α}
    (same : values.length = keys.length) :
    bytesOf scheme element (keys.zip values) =
      (ElementFormat.textView.run .list).bytes keys ++ (element.run scheme).bytes values := by
  rw [bytesOf, keys_zip same, values_zip same]

theorem contentsOf_zip {keys : List Text} {values : List α} (same : values.length = keys.length) :
    contentsOf element (keys.zip values) =
      (keys.map Text.bytes).zip (values.map element.contents) := by
  rw [contentsOf, keys_zip same, values_zip same]

/-- Other states of the values, under the same keys. -/
theorem alike_values {scheme : WireType} {entries : List (Text × α)} {values : List α}
    (memo : Option Nat) (same : values.length = entries.length)
    (alike : (element.run scheme).Alike (entries.map (·.2)) values) :
    (Dictionary.view scheme element).Alike ⟨entries, memo⟩ ⟨(entries.map (·.1)).zip values, memo⟩ := by
  have lengths : values.length = (entries.map (·.1)).length := by rw [same, List.length_map]
  have bytes : bytesOf scheme element ((entries.map (·.1)).zip values) =
      bytesOf scheme element entries := by
    rw [bytesOf_zip lengths, alike.bytes, bytesOf]
  have contents : contentsOf element ((entries.map (·.1)).zip values) =
      contentsOf element entries := by
    have sameValues : values.map element.contents = (entries.map (·.2)).map element.contents :=
      alike.contents
    rw [contentsOf_zip lengths, sameValues, contentsOf]
  refine ⟨contents, bytes, ?_, ?_⟩
  · rintro ⟨remembers, exact⟩
    have later : Remembers memo (bytesOf scheme element ((entries.map (·.1)).zip values)) := by
      rw [bytes]
      exact remembers
    refine ⟨later, ?_⟩
    intro value member
    rw [values_zip lengths] at member
    exact alike.exact exact value member
  · rintro ⟨distinct, valid⟩
    refine ⟨?_, ?_⟩
    · rw [keys_zip lengths]
      exact distinct
    · intro value member
      rw [values_zip lengths] at member
      exact alike.valid valid value member

/-! ## Faithful -/

/-- The size of the body, worked out from the entries. -/
def sizeOf (format : ElementFormat α) (entries : List (Text × α)) : Nat :=
  (ElementFormat.text.valuesSize (entries.map (·.1))).1 +
    (format.valuesSize (entries.map (·.2))).1

theorem size_of_none (format : ElementFormat α) (entries : List (Text × α)) :
    size format ⟨entries, none⟩ = (sizeOf format entries,
      ⟨(entries.map (·.1)).zip (format.valuesSize (entries.map (·.2))).2,
        some (sizeOf format entries)⟩) := by
  have keys := ElementFormat.text_valuesSize_snd (entries.map (·.1))
  change (sizeOf format entries,
    (⟨(ElementFormat.text.valuesSize (entries.map (·.1))).2.zip _, _⟩ : Dictionary α)) = _
  rw [keys]
  rfl

theorem size_of_some (format : ElementFormat α) (entries : List (Text × α)) (remembered : Nat) :
    size format ⟨entries, some remembered⟩ = (remembered, ⟨entries, some remembered⟩) := rfl

theorem encode_fst (format : ElementFormat α) (dictionary : Dictionary α) :
    (dictionary.encode format).1 = Write.word (LengthTag.span (dictionary.size format).1) ++
      ((ElementFormat.textView.run .list).bytes ((dictionary.size format).2.entries.map (·.1)) ++
        (format.writeValues ((dictionary.size format).2.entries.map (·.2))).1) := by
  have keys : (ElementFormat.text.writeValues
      ((dictionary.size format).2.entries.map (·.1))).1 = _ :=
    ElementFormat.text_faithful.writeValues_eq (fun _ _ => trivial) (fun _ _ => trivial)
  rw [← List.append_assoc]
  exact congrArg (Write.word (LengthTag.span (dictionary.size format).1) ++ · ++
    (format.writeValues ((dictionary.size format).2.entries.map (·.2))).1) keys

theorem encode_snd (format : ElementFormat α) (dictionary : Dictionary α) :
    (dictionary.encode format).2 = ⟨((dictionary.size format).2.entries.map (·.1)).zip
      (format.writeValues ((dictionary.size format).2.entries.map (·.2))).2,
        (dictionary.size format).2.memo⟩ := by
  have keys := ElementFormat.text_writeValues_snd ((dictionary.size format).2.entries.map (·.1))
  change (⟨(ElementFormat.text.writeValues
    ((dictionary.size format).2.entries.map (·.1))).2.zip _, _⟩ : Dictionary α) = _
  rw [keys]
  rfl

/-- Entries behind a size that is remembered. -/
theorem encode_of_some (elements : format.Faithful element) {entries : List (Text × α)}
    (valid : ∀ value ∈ entries.map (·.2), element.Valid value)
    (exact : ∀ value ∈ entries.map (·.2), element.Exact value) (remembered : Nat) :
    (encode format ⟨entries, some remembered⟩).1 =
      Write.word (LengthTag.span remembered) ++ bytesOf format.scheme element entries := by
  rw [encode_fst, size_of_some, elements.writeValues_eq valid exact]
  rfl

theorem sizeOf_eq (elements : format.Faithful element) {entries : List (Text × α)}
    (valid : ∀ value ∈ entries.map (·.2), element.Valid value)
    (exact : ∀ value ∈ entries.map (·.2), element.Exact value) :
    sizeOf format entries = (bytesOf format.scheme element entries).length := by
  have keys : (ElementFormat.text.valuesSize (entries.map (·.1))).1 = _ :=
    ElementFormat.text_faithful.valuesSize_eq (fun _ _ => trivial) (fun _ _ => trivial)
  rw [sizeOf, keys, elements.valuesSize_eq valid exact, bytesOf, List.length_append]
  rfl

theorem size_alike (elements : format.Faithful element) {dictionary : Dictionary α}
    (valid : (Dictionary.view format.scheme element).Valid dictionary) :
    (Dictionary.view format.scheme element).Alike dictionary (dictionary.size format).2 := by
  obtain ⟨entries, memo⟩ := dictionary
  cases memo with
  | some size => exact View.Alike.refl _ _
  | none =>
    have alike := elements.valuesSize_alike valid.2
    have lengths : (format.valuesSize (entries.map (·.2))).2.length = entries.length := by
      rw [elements.valuesSize_snd, List.length_map, List.length_map]
    have kept := alike_values none lengths alike
    rw [size_of_none]
    refine ⟨kept.contents, kept.bytes, ?_, kept.valid⟩
    intro exact
    refine ⟨?_, (kept.exact exact).2⟩
    rw [remembers_some_iff, sizeOf_eq elements valid.2 exact.2]
    exact congrArg List.length kept.bytes.symm

theorem size_eq (elements : format.Faithful element) {dictionary : Dictionary α}
    (valid : (Dictionary.view format.scheme element).Valid dictionary)
    (exact : (Dictionary.view format.scheme element).Exact dictionary) :
    (dictionary.size format).1 = (bytesOf format.scheme element dictionary.entries).length := by
  obtain ⟨entries, memo⟩ := dictionary
  cases memo with
  | some size => exact exact.1 size rfl
  | none =>
    rw [size_of_none]
    exact sizeOf_eq elements valid.2 exact.2

theorem encode_alike (elements : format.Faithful element) {dictionary : Dictionary α}
    (valid : (Dictionary.view format.scheme element).Valid dictionary) :
    (Dictionary.view format.scheme element).Alike dictionary (dictionary.encode format).2 := by
  have sized := size_alike elements valid
  have written := elements.writeValues_alike (sized.valid valid).2
  have lengths : (format.writeValues ((dictionary.size format).2.entries.map (·.2))).2.length =
      (dictionary.size format).2.entries.length := by
    rw [ElementFormat.writeValues_snd, List.length_map, List.length_map]
  rw [encode_snd]
  exact sized.trans (alike_values (dictionary.size format).2.memo lengths written)

theorem faithful (elements : format.Faithful element) :
    (Dictionary.format format).Faithful (Dictionary.view format.scheme element) where
  afterSize dictionary valid := size_alike elements valid
  afterEncode dictionary valid := encode_alike elements valid
  size_eq dictionary valid exact := size_eq elements valid exact
  encode_eq dictionary valid exact := by
    have sized := size_alike elements valid
    have written := elements.writeValues_eq (sized.valid valid).2 (sized.exact exact).2
    have bytes : bytesOf format.scheme element (dictionary.size format).2.entries =
        bytesOf format.scheme element dictionary.entries := sized.bytes
    change (dictionary.encode format).1 = Write.blob (bytesOf format.scheme element dictionary.entries)
    rw [encode_fst, written, size_eq elements valid exact, ← bytesOf, bytes]
    rfl
  forgotten dictionary valid := by
    obtain ⟨alike, exact⟩ := elements.forget_alike valid.2
    have lengths : ((dictionary.entries.map (·.2)).map element.forget).length =
        dictionary.entries.length := by
      rw [List.length_map, List.length_map]
    have kept := alike_values none lengths alike
    have exactForgotten : (Dictionary.view format.scheme element).Exact
        ⟨(dictionary.entries.map (·.1)).zip ((dictionary.entries.map (·.2)).map element.forget),
          none⟩ := by
      refine ⟨remembers_none _, ?_⟩
      intro value member
      rw [values_zip (by rw [lengths, List.length_map])] at member
      exact exact value member
    exact ⟨⟨kept.contents, kept.bytes, fun _ => exactForgotten, kept.valid⟩, exactForgotten⟩

/-! ## Readable -/

/-- The dictionary of keys and values that were read for a declared length. -/
def collapse (keys : List Text) (values : List α) (declared : Nat) : Dictionary α :=
  ⟨lastOccurrences (keys.zip values),
    if (lastOccurrences (keys.zip values)).length = keys.length then some declared else none⟩

/-- A span of as many bytes as the two runs in it take becomes what they collapse to. -/
theorem load_of_span {cursor first second after : Cursor} {declared : Nat} {keys : List Text}
    {values : List α} (object : Dictionary α) (opened : Reader.openSpan cursor = .ok declared first)
    (keysRead : ElementFormat.text.readValues first = .ok keys second)
    (valuesRead : format.readValues second = .ok values after)
    (paired : values.length = keys.length) (consumed : after.pos - first.pos = declared) :
    load format (object, cursor) = .ok () (collapse keys values declared, after) := by
  have pairedCheck : ¬(keys.length != values.length) = true := by simp [paired]
  have same : ¬(after.pos - first.pos != declared) = true := by simp [consumed]
  rw [load, bind_of_ok (Loader.read_of_ok opened object),
    bind_of_ok (Loader.read_of_ok (Reader.position_apply _) _),
    bind_of_ok (Loader.read_of_ok keysRead _), bind_of_ok (Loader.read_of_ok valuesRead _),
    if_neg pairedCheck]
  refine (bind_of_ok (Loader.read_of_ok (Reader.position_apply _) _)).trans ?_
  rw [if_neg same]
  rfl

/-- From its own envelope any dictionary becomes what the keys and values collapse to. -/
theorem load_of_read {limit pos start : Nat} {keyRun valueRun tail : Bytes} {keys : List Text}
    {values : List α} (object : Dictionary α) (within : (keyRun ++ valueRun).length ≤ limit)
    (small : (keyRun ++ valueRun).length < 2 ^ 62)
    (front : pos + (Write.word (LengthTag.span (keyRun ++ valueRun).length)).length = start)
    (keysRead : ElementFormat.text.readValues ⟨keyRun ++ (valueRun ++ tail), start, limit⟩ =
      .ok keys ⟨valueRun ++ tail, start + keyRun.length, limit⟩)
    (valuesRead : format.readValues ⟨valueRun ++ tail, start + keyRun.length, limit⟩ =
      .ok values ⟨tail, start + keyRun.length + valueRun.length, limit⟩)
    (paired : values.length = keys.length) :
    load format (object, ⟨Write.blob (keyRun ++ valueRun) ++ tail, pos, limit⟩) =
      .ok () (collapse keys values (keyRun ++ valueRun).length,
        ⟨tail, pos + (Write.blob (keyRun ++ valueRun)).length, limit⟩) := by
  have there : (keyRun ++ valueRun).length ≤ (keyRun ++ (valueRun ++ tail)).length := by
    simp only [List.length_append]
    omega
  have opened : Reader.openSpan ⟨Write.blob (keyRun ++ valueRun) ++ tail, pos, limit⟩ =
      .ok (keyRun ++ valueRun).length ⟨keyRun ++ (valueRun ++ tail), start, limit⟩ := by
    rw [Write.blob, List.append_assoc, List.append_assoc, ← front]
    exact Reader.openSpan_of_le within small there
  have consumed : start + keyRun.length + valueRun.length - start =
      (keyRun ++ valueRun).length := by
    rw [List.length_append]
    omega
  have whole : pos + (Write.blob (keyRun ++ valueRun)).length =
      start + keyRun.length + valueRun.length := by
    rw [Write.blob, ← front, Write.word, List.length_append, List.length_append]
    omega
  rw [whole]
  exact load_of_span object opened keysRead valuesRead paired consumed

/-- What is read of the two runs is what they collapse to. -/
theorem read_gives {limit : Nat} {keyRun valueRun : Bytes} {P : List Text → Prop}
    {Q : List α → Prop} (within : (keyRun ++ valueRun).length ≤ limit)
    (small : (keyRun ++ valueRun).length < 2 ^ 62)
    (keysGiven : Reader.Gives ElementFormat.text.readValues limit keyRun P)
    (valuesGiven : Reader.Gives format.readValues limit valueRun Q)
    (paired : ∀ keys values, P keys → Q values → values.length = keys.length) :
    Reader.Gives (Dictionary.format format).read limit (Write.blob (keyRun ++ valueRun))
      fun dictionary => ∃ keys values, P keys ∧ Q values ∧
        dictionary = collapse keys values (keyRun ++ valueRun).length := by
  intro tail pos
  let start := pos + (Write.word (LengthTag.span (keyRun ++ valueRun).length)).length
  obtain ⟨keys, keysRead, keysHold⟩ := keysGiven (valueRun ++ tail) start
  obtain ⟨values, valuesRead, valuesHold⟩ := valuesGiven tail (start + keyRun.length)
  exact ⟨collapse keys values (keyRun ++ valueRun).length,
    Loader.toReader_of_ok (load_of_read empty within small rfl keysRead valuesRead
      (paired keys values keysHold valuesHold)), keys, values, keysHold, valuesHold, rfl⟩

theorem collapse_of_nodup {keys : List Text} {values : List α} (declared : Nat)
    (paired : values.length = keys.length) (distinct : (keys.map Text.bytes).Nodup) :
    collapse keys values declared = ⟨keys.zip values, some declared⟩ := by
  have fresh : (keyBytes (keys.zip values)).Nodup := by
    rw [keyBytes_zip paired]
    exact distinct
  have whole : (keys.zip values).length = keys.length := by
    rw [List.length_zip, paired, Nat.min_self]
  rw [collapse, lastOccurrences_of_nodup fresh, if_pos whole]

/-- As many values as keys, if they have the bytes and the contents of the keys and values of some
entries. -/
theorem paired_of_maps {γ : Type} {entries : List (Text × α)} (contents : α → γ) (keys : List Text)
    (values : List α) (sameKeys : keys.map Text.bytes = (entries.map (·.1)).map Text.bytes)
    (sameValues : values.map contents = (entries.map (·.2)).map contents) :
    values.length = keys.length := by
  have keyCount := congrArg List.length sameKeys
  have valueCount := congrArg List.length sameValues
  simp only [List.length_map] at keyCount valueCount
  rw [keyCount, valueCount]

theorem readable (elements : format.Readable element) :
    (Dictionary.format format).Readable (Dictionary.view format.scheme element) := by
  intro limit dictionary valid within default tail pos
  obtain ⟨distinct, validValues⟩ := valid
  let keyRun := (ElementFormat.textView.run .list).bytes (dictionary.entries.map (·.1))
  let valueRun := (element.run format.scheme).bytes (dictionary.entries.map (·.2))
  have fits : keyRun.length + valueRun.length ≤ limit := by
    rw [← List.length_append]
    exact within
  have keysGiven : Reader.Gives ElementFormat.text.readValues limit keyRun fun keys =>
      keys.map Text.bytes = (dictionary.entries.map (·.1)).map Text.bytes :=
    ElementFormat.text_readable.readValues_recovers (fun _ _ => trivial)
      (show keyRun.length ≤ limit by omega) default
  have valuesGiven : Reader.Gives format.readValues limit valueRun fun values =>
      values.map element.contents = (dictionary.entries.map (·.2)).map element.contents :=
    elements.readValues_recovers validValues (show valueRun.length ≤ limit by omega) default
  obtain ⟨back, read, keys, values, sameKeys, sameValues, rfl⟩ :=
    read_gives within (lt_of_le_default within default) keysGiven valuesGiven (paired_of_maps _) tail
      pos
  have paired := paired_of_maps _ keys values sameKeys sameValues
  refine ⟨_, read, ?_⟩
  rw [collapse_of_nodup _ paired (sameKeys ▸ distinct)]
  change contentsOf element (keys.zip values) = contentsOf element dictionary.entries
  rw [contentsOf_zip paired, sameKeys, sameValues]
  rfl

/-! ## Measured -/

theorem opensSpan : (Dictionary.format format).OpensSpan := ObjectFormat.opensSpan_of_load rfl

theorem load_eq_ok {start final : Dictionary α} {cursor after : Cursor} {value : Unit}
    (ran : load format (start, cursor) = .ok value (final, after)) :
    ∃ tagSize declared keys values middle,
      Reader.openSpan cursor = .ok declared (cursor.advance tagSize) ∧
      ElementFormat.text.readValues (cursor.advance tagSize) = .ok keys middle ∧
      format.readValues middle = .ok values after ∧ values.length = keys.length ∧
      after.pos - (cursor.advance tagSize).pos = declared ∧
      final = collapse keys values declared := by
  obtain ⟨declared, ⟨object, middle⟩, opened, rest⟩ := (bind_eq_ok_iff _ _ _ _ _).mp ran
  obtain ⟨rfl, spanOpened⟩ := Loader.read_eq_ok opened
  obtain ⟨tagSize, _, _, _, _, rfl⟩ := Reader.openSpan_costs spanOpened
  rw [bind_of_ok (Loader.read_of_ok (Reader.position_apply _) _)] at rest
  obtain ⟨keys, ⟨object, middle⟩, first, second⟩ := (bind_eq_ok_iff _ _ _ _ _).mp rest
  obtain ⟨rfl, keysRead⟩ := Loader.read_eq_ok first
  obtain ⟨values, ⟨object, last⟩, third, checked⟩ := (bind_eq_ok_iff _ _ _ _ _).mp second
  obtain ⟨rfl, valuesRead⟩ := Loader.read_eq_ok third
  split at checked
  · obtain ⟨_, _, thrown, _⟩ := (bind_eq_ok_iff _ _ _ _ _).mp checked
    exact absurd thrown (throw_ne_ok _ _ _ _)
  · rename_i paired
    have checked := (bind_of_ok (Loader.read_of_ok (Reader.position_apply _) _)).symm.trans checked
    split at checked
    · obtain ⟨_, _, thrown, _⟩ := (bind_eq_ok_iff _ _ _ _ _).mp checked
      exact absurd thrown (throw_ne_ok _ _ _ _)
    · rename_i same
      have equal : keys.length = values.length := by simpa using paired
      cases checked
      exact ⟨tagSize, declared, keys, values, middle, spanOpened, keysRead, valuesRead, equal.symm,
        by simpa using same, rfl⟩

theorem sizeOf_bounds (faithful : format.Faithful element) {entries : List (Text × α)}
    (weighed : ∀ value ∈ entries.map (·.2), format.Weighed element value) :
    Bounds (sizeOf format entries)
      ((ElementFormat.textView.run .list).bytes (entries.map (·.1)) ++
        (format.writeValues (entries.map (·.2))).1).length
      (bytesOf format.scheme element entries).length
      (∀ value ∈ entries.map (·.2), element.Exact value) := by
  have keys : (ElementFormat.text.valuesSize (entries.map (·.1))).1 = _ :=
    ElementFormat.text_faithful.valuesSize_eq (fun _ _ => trivial) (fun _ _ => trivial)
  have values := faithful.run_bounds weighed
  rw [sizeOf, keys, bytesOf, List.length_append, List.length_append]
  exact ((Bounds.refl _).add values).imp fun both => both.2

theorem sizeOf_le (faithful : format.Faithful element) {fewer entries : List (Text × α)}
    (among : fewer.Sublist entries) (small : entries.length < 2 ^ 62) :
    sizeOf format fewer ≤ sizeOf format entries := by
  have keys := ElementFormat.text_faithful.valuesSize_le (among.map (·.1))
    (by rw [List.length_map]; exact small)
  have values := faithful.valuesSize_le (among.map (·.2)) (by rw [List.length_map]; exact small)
  exact Nat.add_le_add keys values

/-- The entries that are left are no longer than what was declared for all of them. -/
theorem sizeOf_lastOccurrences_le (faithful : format.Faithful element) {keys : List Text}
    {values : List α} {declared : Nat} (paired : values.length = keys.length)
    (few : keys.length < 2 ^ 62)
    (fits : (ElementFormat.text.valuesSize keys).1 + (format.valuesSize values).1 ≤ declared) :
    sizeOf format (lastOccurrences (keys.zip values)) ≤ declared := by
  have pairs : (keys.zip values).length < 2 ^ 62 := by
    rw [List.length_zip, paired, Nat.min_self]
    exact few
  have left := sizeOf_le faithful (lastOccurrences_sublist (keys.zip values)) pairs
  have all : sizeOf format (keys.zip values) =
      (ElementFormat.text.valuesSize keys).1 + (format.valuesSize values).1 := by
    rw [sizeOf, keys_zip paired, values_zip paired]
  omega

/-- A dictionary that remembers a length which is long enough for its entries. -/
theorem weighed_of_some (faithful : format.Faithful element) {entries : List (Text × α)}
    {declared : Nat} (distinct : ((entries.map (·.1)).map Text.bytes).Nodup)
    (weighed : ∀ value ∈ entries.map (·.2), format.Weighed element value)
    (fits : sizeOf format entries ≤ declared) (small : declared < 2 ^ 62) :
    (Dictionary.format format).Weighed (Dictionary.view format.scheme element)
      ⟨entries, some declared⟩ := by
  have valid : ∀ value ∈ entries.map (·.2), element.Valid value :=
    fun value member => (weighed value member).valid
  have bounds := (sizeOf_bounds faithful weighed).remember fits fun exact => by
    rw [faithful.writeValues_eq valid exact, ← bytesOf]
  have encoded : ((Dictionary.format format).encode ⟨entries, some declared⟩).1 =
      Write.word (LengthTag.span declared) ++
        ((ElementFormat.textView.run .list).bytes (entries.map (·.1)) ++
          (format.writeValues (entries.map (·.2))).1) := by
    change (Dictionary.encode format ⟨entries, some declared⟩).1 = _
    rw [encode_fst, size_of_some]
  exact ⟨⟨distinct, valid⟩, rfl, small, _, encoded,
    bounds.imp fun right => ⟨(remembers_some_iff _ _).mpr right.1, right.2⟩⟩

/-- A dictionary that remembers nothing. -/
theorem weighed_of_none (faithful : format.Faithful element) {entries : List (Text × α)}
    (distinct : ((entries.map (·.1)).map Text.bytes).Nodup)
    (weighed : ∀ value ∈ entries.map (·.2), format.Weighed element value)
    (small : sizeOf format entries < 2 ^ 62) :
    (Dictionary.format format).Weighed (Dictionary.view format.scheme element) ⟨entries, none⟩ := by
  have lengths : (format.valuesSize (entries.map (·.2))).2.length = (entries.map (·.1)).length := by
    rw [faithful.valuesSize_snd, List.length_map, List.length_map, List.length_map]
  have size : ((Dictionary.format format).size ⟨entries, none⟩).1 = sizeOf format entries :=
    congrArg Prod.fst (size_of_none format entries)
  have encoded : (Dictionary.encode format ⟨entries, none⟩).1 =
      Write.word (LengthTag.span (sizeOf format entries)) ++
        ((ElementFormat.textView.run .list).bytes (entries.map (·.1)) ++
          (format.writeValues (entries.map (·.2))).1) := by
    rw [encode_fst, size_of_none, keys_zip lengths, values_zip lengths,
      faithful.writeValues_afterSize weighed]
  refine ⟨⟨distinct, fun value member => (weighed value member).valid⟩, rfl, ?_,
    (ElementFormat.textView.run .list).bytes (entries.map (·.1)) ++
      (format.writeValues (entries.map (·.2))).1, ?_, ?_⟩
  · rw [size]
    exact small
  · rw [size]
    exact encoded
  · rw [size]
    exact (sizeOf_bounds faithful weighed).imp fun exact => ⟨remembers_none _, exact⟩

theorem load_bounds (faithful : format.Faithful element) (elements : format.Measured element)
    {start final : Dictionary α} {cursor after : Cursor} {value : Unit}
    (ran : load format (start, cursor) = .ok value (final, after)) :
    ∃ tagSize declared keys values middle,
      Reader.openSpan cursor = .ok declared (cursor.advance tagSize) ∧
      format.readValues middle = .ok values after ∧ values.length = keys.length ∧
      final = collapse keys values declared ∧ after = cursor.advance (tagSize + declared) ∧
      (∀ value ∈ values, format.Weighed element value) ∧
      sizeOf format (lastOccurrences (keys.zip values)) ≤ declared := by
  obtain ⟨tagSize, declared, keys, values, middle, opened, keysRead, valuesRead, paired, consumed,
    collapsed⟩ := load_eq_ok ran
  obtain ⟨few, _, keyLength, _, rfl, keysFit⟩ :=
    ElementFormat.text_measured.readValues_eq_ok ElementFormat.text_faithful keysRead
  obtain ⟨_, weighed, valueLength, _, moved, valuesFit⟩ :=
    elements.readValues_eq_ok faithful valuesRead
  have reached : keyLength + valueLength = declared := by
    rw [moved, Cursor.advance_advance, Cursor.pos_advance, Nat.add_sub_cancel_left] at consumed
    exact consumed
  have stopped : after = cursor.advance (tagSize + declared) := by
    rw [moved, Cursor.advance_advance, Cursor.advance_advance, reached]
  exact ⟨tagSize, declared, keys, values, _, opened, valuesRead, paired, collapsed, stopped, weighed,
    sizeOf_lastOccurrences_le faithful paired few (by omega)⟩

/-- The values that are left are among those that were read. -/
theorem mem_of_mem_lastOccurrences {keys : List Text} {values : List α} {value : α}
    (paired : values.length = keys.length)
    (member : value ∈ (lastOccurrences (keys.zip values)).map (·.2)) : value ∈ values := by
  have inside := ((lastOccurrences_sublist (keys.zip values)).map (·.2)).subset member
  rwa [values_zip paired] at inside

theorem measured (faithful : format.Faithful element) (elements : format.Measured element) :
    (Dictionary.format format).Measured (Dictionary.view format.scheme element) := by
  intro cursor dictionary after ran
  obtain ⟨tagSize, declared, keys, values, middle, opened, _, paired, rfl, rfl, weighed, fits⟩ :=
    load_bounds faithful elements (ObjectFormat.load_of_read ran)
  obtain ⟨sized, inside, small, within⟩ := Reader.openSpan_bounds opened
  let entries := lastOccurrences (keys.zip values)
  have distinct : ((entries.map (·.1)).map Text.bytes).Nodup := by
    rw [List.map_map]
    exact nodup_lastOccurrences _
  have weighedLeft : ∀ value ∈ entries.map (·.2), format.Weighed element value :=
    fun value member => weighed value (mem_of_mem_lastOccurrences paired member)
  by_cases kept : entries.length = keys.length
  · have remembered : collapse keys values declared = ⟨entries, some declared⟩ := by
      rw [collapse, if_pos kept]
    rw [remembered]
    exact ⟨weighed_of_some faithful distinct weighedLeft fits small, within, tagSize + declared,
      inside, rfl, Nat.add_le_add_right sized _⟩
  · have forgotten : collapse keys values declared = ⟨entries, none⟩ := by
      rw [collapse, if_neg kept]
    have size : ((Dictionary.format format).size ⟨entries, none⟩).1 = sizeOf format entries :=
      congrArg Prod.fst (size_of_none format entries)
    have envelope := LengthTag.spanSize_mono fits small
    have declaredEnvelope : LengthTag.spanSize declared ≤ tagSize + declared :=
      Nat.add_le_add_right sized _
    rw [forgotten]
    refine ⟨weighed_of_none faithful distinct weighedLeft (Nat.lt_of_le_of_lt fits small), ?_,
      tagSize + declared, inside, rfl, ?_⟩
    · rw [size]
      exact Nat.le_trans fits within
    · rw [size]
      exact Nat.le_trans envelope declaredEnvelope

end Dictionary

end FieldWire
