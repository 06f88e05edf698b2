import FieldWire.Proofs.Accepts
import FieldWire.Proofs.Dictionary.Keyed
import FieldWire.Proofs.Received

/-!
# Repeated keys

The wire may repeat a key.  Reading goes by last occurrences and insertion by first ones, so the two
store the same entries in different orders; which value a key has does not depend on the way.
-/

set_option autoImplicit false

namespace FieldWire.Dictionary

variable {α : Type} {format : ElementFormat α} {element : View α}

theorem contentsOf_eq_map (element : View α) (entries : List (Text × α)) :
    contentsOf element entries = entries.map fun entry => (entry.1.bytes, element.contents entry.2) := by
  rw [contentsOf, List.map_map, List.map_map, List.zip_map']
  rfl

/-- What is found under a key depends on the contents of the entries only. -/
theorem lookup?_of_contentsOf {entries others : List (Text × α)}
    (same : contentsOf element entries = contentsOf element others) (key : Bytes) :
    (lookup? key entries).map element.contents = (lookup? key others).map element.contents := by
  rw [contentsOf_eq_map, contentsOf_eq_map] at same
  induction entries generalizing others with
  | nil =>
    rw [List.map_nil, eq_comm, List.map_eq_nil_iff] at same
    rw [same]
  | cons entry rest ih =>
    cases others with
    | nil => cases same
    | cons other others =>
      obtain ⟨head, tail⟩ := List.cons_eq_cons.mp same
      obtain ⟨sameKey, sameValue⟩ := Prod.mk.inj head
      rw [lookup?, lookup?, ← sameKey]
      split
      · exact congrArg some sameValue
      · exact ih tail

theorem contentsOf_reverse (element : View α) (entries : List (Text × α)) :
    contentsOf element entries.reverse = (contentsOf element entries).reverse := by
  rw [contentsOf_eq_map, contentsOf_eq_map, List.map_reverse]

/-- The two runs are read as the keys and the values of some entries, however they are spelled. -/
structure Spelled (format : ElementFormat α) (element : View α) (limit : Nat)
    (entries : List (Text × α)) (keyRun valueRun : Bytes) : Prop where
  keys : Reader.Recovers ElementFormat.text.readValues limit keyRun (List.map Text.bytes)
    (keyBytes entries)
  values : Reader.Recovers format.readValues limit valueRun (List.map element.contents)
    ((entries.map (·.2)).map element.contents)

/-- What is written for entries is read back as their keys and values, repeated or not. -/
theorem spelled_of_sound (lawful : format.Lawful element) {limit : Nat} {entries : List (Text × α)}
    (sound : ∀ entry ∈ entries, element.Sound entry.2)
    (within : ((ElementFormat.text.writeValues (entries.map (·.1))).1 ++
      (format.writeValues (entries.map (·.2))).1).length ≤ limit)
    (default : limit ≤ defaultPayloadLimit) :
    Spelled format element limit entries (ElementFormat.text.writeValues (entries.map (·.1))).1
      (format.writeValues (entries.map (·.2))).1 := by
  have values : ∀ value ∈ entries.map (·.2), element.Sound value := by
    intro value member
    obtain ⟨entry, inside, rfl⟩ := List.mem_map.mp member
    exact sound entry inside
  have valid : ∀ value ∈ entries.map (·.2), element.Valid value :=
    fun value member => (values value member).valid
  rw [List.length_append] at within
  rw [ElementFormat.text_faithful.writeValues_eq (fun _ _ => trivial) fun _ _ => trivial,
    lawful.faithful.writeValues_eq valid fun value member => (values value member).exact] at within ⊢
  constructor
  · rw [keyBytes_eq]
    exact ElementFormat.text_readable.readValues_recovers (fun _ _ => trivial)
      (Nat.le_trans (Nat.le_add_right _ _) within) default
  · exact lawful.readable.readValues_recovers valid (Nat.le_trans (Nat.le_add_left _ _) within)
      default

/-- Values that were read take the bytes of those that were written in the shortest way. -/
theorem valuesSize_of_written (lawful : format.Lawful element) {values back : List α} {run : Bytes}
    {cursor after : Cursor} (sound : ∀ value ∈ values, element.Sound value)
    (written : run = (format.writeValues values).1) (read : format.readValues cursor = .ok back after)
    (reached : after = cursor.advance run.length)
    (same : back.map element.contents = values.map element.contents) :
    (format.valuesSize back).1 = run.length := by
  obtain ⟨_, weighed, length, inside, rfl, fits⟩ :=
    lawful.measured.readValues_eq_ok lawful.faithful read
  have taken : length = run.length := Cursor.advance_injective reached
  have bytes : (element.run format.scheme).bytes back = run := by
    rw [written, lawful.faithful.writeValues_eq (fun value member => (sound value member).valid)
      fun value member => (sound value member).exact]
    exact lawful.determined.run format.scheme values back (fun value member => (sound value member).valid)
      (fun value member => (weighed value member).valid) same
  have least := (lawful.faithful.run_bounds weighed).least_le
  rw [bytes] at least
  omega

/-- The same of texts, which are compared by their bytes. -/
theorem text_valuesSize_of_written {texts back : List Text}
    (same : back.map Text.bytes = texts.map Text.bytes) :
    (ElementFormat.text.valuesSize back).1 = (ElementFormat.text.writeValues texts).1.length := by
  have determined : ElementFormat.textView.Determined :=
    View.plain_determined fun _ _ => congrArg Write.blob
  have bytes := determined.run ElementFormat.text.scheme texts back (fun _ _ => trivial)
    (fun _ _ => trivial) same
  have sized : (ElementFormat.text.valuesSize back).1 = _ :=
    ElementFormat.text_faithful.valuesSize_eq (fun _ _ => trivial) fun _ _ => trivial
  have written : (ElementFormat.text.writeValues texts).1 = _ :=
    ElementFormat.text_faithful.writeValues_eq (fun _ _ => trivial) fun _ _ => trivial
  rw [sized, written, bytes]

/-- The two runs behind a tag that declares them become what they collapse to. -/
theorem load_of_spelled {limit : Nat} {entries : List (Text × α)} {tag keyRun valueRun : Bytes}
    (spelled : Spelled format element limit entries keyRun valueRun)
    (declares : LengthTag.Declares limit tag (keyRun ++ valueRun).length) (start : Dictionary α)
    (tail : Bytes) (pos : Nat) :
    ∃ keys values middle,
      load format (start, ⟨tag ++ (keyRun ++ valueRun) ++ tail, pos, limit⟩) =
        .ok () (collapse keys values (keyRun ++ valueRun).length,
          ⟨tail, pos + (tag ++ (keyRun ++ valueRun)).length, limit⟩) ∧
      values.length = keys.length ∧ keys.map Text.bytes = keyBytes entries ∧
      values.map element.contents = (entries.map (·.2)).map element.contents ∧
      format.readValues middle = .ok values (middle.advance valueRun.length) := by
  let front := pos + tag.length
  obtain ⟨keys, keysRead, sameKeys⟩ := spelled.keys (valueRun ++ tail) front
  obtain ⟨values, valuesRead, sameValues⟩ := spelled.values tail (front + keyRun.length)
  have paired : values.length = keys.length :=
    paired_of_maps element.contents keys values (sameKeys.trans (keyBytes_eq entries)) sameValues
  have there : (keyRun ++ valueRun).length ≤ (keyRun ++ (valueRun ++ tail)).length := by
    simp only [List.length_append]
    omega
  have opened : Reader.openSpan ⟨tag ++ (keyRun ++ valueRun) ++ tail, pos, limit⟩ =
      .ok (keyRun ++ valueRun).length ⟨keyRun ++ (valueRun ++ tail), front, limit⟩ :=
    Reader.openSpan_eq_ok_iff.mpr
      ⟨tag, _, by simp only [List.append_assoc], declares, there, rfl⟩
  have consumed : front + keyRun.length + valueRun.length - front = (keyRun ++ valueRun).length := by
    rw [List.length_append]
    omega
  have whole : pos + (tag ++ (keyRun ++ valueRun)).length =
      front + keyRun.length + valueRun.length := by
    simp only [List.length_append, front]
    omega
  rw [whole]
  refine ⟨keys, values, ⟨valueRun ++ tail, front + keyRun.length, limit⟩,
    load_of_span start opened keysRead valuesRead paired consumed, paired, sameKeys, sameValues, ?_⟩
  rw [Cursor.advance_append]
  exact valuesRead

/-- If the runs are written in the shortest way, a size that is remembered is the one that would be
worked out. -/
theorem size_collapse (lawful : format.Lawful element) {entries : List (Text × α)}
    {keyRun valueRun : Bytes} {keys : List Text} {values : List α} {middle : Cursor}
    (sound : ∀ value ∈ entries.map (·.2), element.Sound value)
    (keysWritten : keyRun = (ElementFormat.text.writeValues (entries.map (·.1))).1)
    (valuesWritten : valueRun = (format.writeValues (entries.map (·.2))).1)
    (paired : values.length = keys.length) (sameKeys : keys.map Text.bytes = keyBytes entries)
    (sameValues : values.map element.contents = (entries.map (·.2)).map element.contents)
    (read : format.readValues middle = .ok values (middle.advance valueRun.length)) :
    ((collapse keys values (keyRun ++ valueRun).length).size format).1 =
      (size format ⟨(collapse keys values (keyRun ++ valueRun).length).entries, none⟩).1 := by
  rw [size_of_none, collapse]
  split
  · rename_i whole
    have all : lastOccurrences (keys.zip values) = keys.zip values := by
      apply (lastOccurrences_sublist _).eq_of_length
      rw [whole, List.length_zip, paired, Nat.min_self]
    have keySize : (ElementFormat.text.valuesSize keys).1 = keyRun.length := by
      rw [keysWritten]
      exact text_valuesSize_of_written (sameKeys.trans (keyBytes_eq entries))
    have valueSize := valuesSize_of_written lawful sound valuesWritten read rfl sameValues
    rw [size_of_some, all, sizeOf, keys_zip paired, values_zip paired, keySize, valueSize,
      List.length_append]
  · rw [size_of_none]

/-- Entries with repeated keys, in any spelling.  What is read of them is what inserting them one
after the other gives, except that each key has the place of its last occurrence.  Without
repetitions nothing moves; and the size is that of the entries that were kept if the shortest
spelling was used. -/
theorem load_agrees_with_ofList {limit : Nat} {entries : List (Text × α)}
    {tag keyRun valueRun : Bytes} (spelled : Spelled format element limit entries keyRun valueRun)
    (declares : LengthTag.Declares limit tag (keyRun ++ valueRun).length) (start : Dictionary α)
    (tail : Bytes) (pos : Nat) :
    ∃ dictionary,
      load format (start, ⟨tag ++ (keyRun ++ valueRun) ++ tail, pos, limit⟩) =
        .ok () (dictionary, ⟨tail, pos + (tag ++ (keyRun ++ valueRun)).length, limit⟩) ∧
      dictionary.length = (ofList entries).length ∧
      (∀ key, (dictionary.get? key).map element.contents =
        ((ofList entries).get? key).map element.contents) ∧
      keyBytes dictionary.entries = (keyBytes entries).dedup ∧
      ((keyBytes entries).Nodup →
        contentsOf element dictionary.entries = contentsOf element entries) ∧
      (format.Lawful element → (∀ entry ∈ entries, element.Sound entry.2) →
        keyRun = (ElementFormat.text.writeValues (entries.map (·.1))).1 →
        valueRun = (format.writeValues (entries.map (·.2))).1 →
          (dictionary.size format).1 = (size format ⟨dictionary.entries, none⟩).1) := by
  obtain ⟨keys, values, middle, loaded, paired, sameKeys, sameValues, read⟩ :=
    load_of_spelled spelled declares start tail pos
  let pairs := keys.zip values
  have pairKeys : keyBytes pairs = keyBytes entries := (keyBytes_zip paired).trans sameKeys
  have pairContents : contentsOf element pairs = contentsOf element entries := by
    rw [contentsOf_zip paired, sameKeys, sameValues, keyBytes_eq, contentsOf]
  refine ⟨_, loaded, ?_, ?_, ?_, ?_, ?_⟩
  · change (lastOccurrences pairs).length = _
    rw [length_ofList, ← pairKeys, ← keyBytes_lastOccurrences, keyBytes, List.length_map]
  · intro key
    change (lookup? key (lastOccurrences pairs)).map element.contents = _
    rw [lookup?_lastOccurrences, get?_ofList]
    apply lookup?_of_contentsOf
    rw [contentsOf_reverse, contentsOf_reverse, pairContents]
  · rw [← pairKeys]
    exact keyBytes_lastOccurrences pairs
  · intro distinct
    change contentsOf element (lastOccurrences pairs) = _
    rw [lastOccurrences_of_nodup (pairKeys ▸ distinct), pairContents]
  · intro lawful sound keysWritten valuesWritten
    refine size_collapse lawful ?_ keysWritten valuesWritten paired sameKeys sameValues read
    intro value member
    obtain ⟨entry, inside, rfl⟩ := List.mem_map.mp member
    exact sound entry inside

/-- The keys `a`, `b` and `a` again, with a length tag in more bytes than it needs.  The second `a`
counts, behind `b`, and its entry is found although insertion would have put it in front. -/
theorem load_agrees_with_ofList_example :
    let entries : List (Text × Bool) :=
      [(Text.ofWire [0x61], false), (Text.ofWire [0x62], true), (Text.ofWire [0x61], true)]
    let keyRun : Bytes := [0x0c, 0x04, 0x61, 0x04, 0x62, 0x04, 0x61]
    let valueRun : Bytes := [0x0d, 0x00, 0x02, 0x02]
    (Spelled ElementFormat.bool ElementFormat.boolView 20 entries keyRun valueRun ∧
      LengthTag.Declares 20 [0xac, 0x00] (keyRun ++ valueRun).length) ∧
    ∃ dictionary,
      load ElementFormat.bool (empty, ⟨[0xac, 0x00] ++ (keyRun ++ valueRun) ++ [0xff], 0, 20⟩) =
        .ok () (dictionary, ⟨[0xff], 13, 20⟩) ∧
      dictionary.length = 2 ∧ dictionary.get? [0x61] = some true ∧
      keyBytes dictionary.entries = [[0x62], [0x61]] ∧
      keyBytes (ofList entries).entries = [[0x61], [0x62]] ∧
      (dictionary.size ElementFormat.bool).1 =
        (size ElementFormat.bool ⟨dictionary.entries, none⟩).1 := by
  intro entries keyRun valueRun
  have lawful := ElementKind.bool.received_lawful rfl
  have sound : ∀ entry ∈ entries, ElementFormat.boolView.Sound entry.2 :=
    fun _ _ => ⟨trivial, trivial⟩
  have spelled : Spelled ElementFormat.bool ElementFormat.boolView 20 entries keyRun valueRun :=
    spelled_of_sound lawful sound (by decide) (by decide)
  have declares : LengthTag.Declares 20 [0xac, 0x00] (keyRun ++ valueRun).length :=
    ⟨0x2c, rfl, rfl, by decide, by decide⟩
  obtain ⟨dictionary, loaded, length, values, keys, _, size⟩ :=
    load_agrees_with_ofList spelled declares empty [0xff] 0
  have last : (dictionary.get? [0x61]).map id = some true := values [0x61]
  rw [Option.map_id, id] at last
  exact ⟨⟨spelled, declares⟩, dictionary, loaded, length, last, keys, rfl, size lawful sound rfl rfl⟩

end FieldWire.Dictionary
