import FieldWire.Proofs.Dictionary.Reference

/-!
# Dictionaries in two arrays

The keys of a dictionary stand in one array and its values in another.  A key is searched in the
first, and what is then done at its place is done in both, so that one array which is forgotten once
spoils every later lookup.  A place may be out of range, which gives no result at all.  After any
operations the arrays are the two columns of the entries, and no place is out of range on the way.
-/

set_option autoImplicit false

namespace FieldWire.Dictionary

variable {α : Type}

/-- A dictionary as an array of keys and an array of values. -/
structure Arrays (α : Type) where
  keys : List Text
  values : List α
  /-- The size of the body, if it is remembered. -/
  memo : Option Nat

namespace Arrays

/-! ## Operations on the arrays -/

def new : Arrays α := ⟨[], [], none⟩

def length (arrays : Arrays α) : Nat := arrays.keys.length

/-- The place of a key. -/
def position? (key : Bytes) (keys : List Text) : Option Nat :=
  keys.findIdx? fun existing => existing.bytes == key

/-- The value at the place of a key, if there is one. -/
def get (arrays : Arrays α) (key : Bytes) : Option (Option α) :=
  match position? key arrays.keys with
  | some index => do return some (← arrays.values[index]?)
  | none => some none

def contains (arrays : Arrays α) (key : Bytes) : Bool := (position? key arrays.keys).isSome

/-- Puts a value at the place of its key and gives the old one.  A new key goes to the end of the
keys, and its value to the end of the values. -/
def insert (arrays : Arrays α) (key : Text) (value : α) : Option (Option α × Arrays α) :=
  match position? key.bytes arrays.keys with
  | some index => do
    let old ← arrays.values[index]?
    return (some old, ⟨arrays.keys, arrays.values.set index value, none⟩)
  | none => some (none, ⟨arrays.keys ++ [key], arrays.values ++ [value], none⟩)

/-- Takes out what is at the place of a key, in either array, and gives the value. -/
def erase (arrays : Arrays α) (key : Bytes) : Option (Option α × Arrays α) :=
  match position? key arrays.keys with
  | some index => do
    let old ← arrays.values[index]?
    return (some old, ⟨arrays.keys.eraseIdx index, arrays.values.eraseIdx index, none⟩)
  | none => some (none, arrays)

/-- The two columns of the entries of a standard map, in the order in which they are listed. -/
def ofMap (entries : List (String × α)) : Arrays α :=
  let columns := (entries.map fun entry => (Text.ofString entry.1, entry.2)).unzip
  ⟨columns.1, columns.2, none⟩

/-- The given entries, inserted one after the other. -/
def ofList (entries : List (Text × α)) : Option (Arrays α) :=
  entries.foldlM (fun arrays entry => (·.2) <$> arrays.insert entry.1 entry.2) new

/-- The keys with their values, as long as there are both. -/
def iter (arrays : Arrays α) : List (Text × α) := arrays.keys.zip arrays.values

/-- Puts an entry into a standard map, where it takes the place of one under the same string. -/
def put (map : String → Option α) (entry : Text × α) : Except CodecError (String → Option α) := do
  return Function.update map (← entry.1.read) (some entry.2)

/-- The entries in a standard map, if all keys are strings. -/
def toMap (arrays : Arrays α) : Except CodecError (String → Option α) :=
  arrays.iter.foldlM put fun _ => none

/-- The size of the body, remembered from now on. -/
def size (format : ElementFormat α) (arrays : Arrays α) : Nat × Arrays α :=
  match arrays.memo with
  | some size => (size, arrays)
  | none =>
    let (keysSize, keys) := ElementFormat.text.valuesSize arrays.keys
    let (valuesSize, values) := format.valuesSize arrays.values
    (keysSize + valuesSize, ⟨keys, values, some (keysSize + valuesSize)⟩)

/-- The envelope. -/
def encode (format : ElementFormat α) (arrays : Arrays α) : Bytes × Arrays α :=
  let (size, arrays) := arrays.size format
  let (keysBody, keys) := ElementFormat.text.writeValues arrays.keys
  let (valuesBody, values) := format.writeValues arrays.values
  (Write.word (LengthTag.span size) ++ keysBody ++ valuesBody, ⟨keys, values, arrays.memo⟩)

/-- Which keys are new, each of them being seen from then on. -/
def unseen (seen : List Bytes) : List Bytes → List Bool
  | [] => []
  | key :: rest => (!seen.contains key) :: unseen (key :: seen) rest

/-- Which keys to keep: those that are new when the keys are gone through from the back. -/
def mask (keys : List Text) : List Bool := (unseen [] (keys.map Text.bytes).reverse).reverse

/-- The last of the entries with each key.  Nothing is moved if all are kept. -/
def collapse (keys : List Text) (values : List α) : List Text × List α :=
  let keep := mask keys
  if keep.all id then (keys, values)
  else (((keys.zip values).zip keep).filterMap fun entry =>
    if entry.2 then some entry.1 else none).unzip

/-- Reads an envelope.  Both arrays are replaced once everything has been read and checked. -/
def load (format : ElementFormat α) : Loader (Arrays α) Unit := do
  let declared ← Loader.read Reader.openSpan
  let start ← Loader.read Reader.position
  let keys ← Loader.read ElementFormat.text.readValues
  let values ← Loader.read format.readValues
  if keys.length != values.length then
    throw (.lengthMismatch keys.length values.length)
  let stop ← Loader.read Reader.position
  if stop - start != declared then
    throw (.lengthMismatch declared (stop - start))
  let kept := collapse keys values
  let memo := if kept.1.length = keys.length then some declared else none
  Loader.update fun _ => ⟨kept.1, kept.2, memo⟩

/-- Reads an envelope from the front of a buffer.  The arrays are as reading left them, and the
number is the place where the cursor stopped. -/
def loadFrom (format : ElementFormat α) (limit : Nat) (bytes : Bytes) (arrays : Arrays α) :
    Except CodecError Unit × Arrays α × Nat :=
  match load format (arrays, Cursor.ofBytes bytes limit) with
  | .ok _ (arrays, cursor) => (.ok (), arrays, cursor.pos)
  | .error error (arrays, cursor) => (.error error, arrays, cursor.pos)

/-- An operation in the arrays. -/
def apply (format : ElementFormat α) : Operation α → Arrays α → Option (Option α × Arrays α)
  | .insert key value, arrays => arrays.insert key value
  | .erase key, arrays => arrays.erase key
  | .clear, _ => some (none, new)
  | .ofMap entries _, _ => some (none, ofMap entries)
  | .ofList entries, _ => (none, ·) <$> ofList entries
  | .load limit bytes, arrays => some (none, (loadFrom format limit bytes arrays).2.1)
  | .size, arrays => some (none, (arrays.size format).2)
  | .encode, arrays => some (none, (arrays.encode format).2)
  | .clone, arrays => some (none, arrays)

/-- Operations one after the other, as long as no place is out of range. -/
def run (format : ElementFormat α) :
    List (Operation α) → Arrays α → Option (List (Option α) × Arrays α)
  | [], arrays => some ([], arrays)
  | operation :: operations, arrays => do
    let (answer, arrays) ← apply format operation arrays
    let (answers, arrays) ← run format operations arrays
    return (answer :: answers, arrays)

/-! ## The columns of a dictionary -/

/-- The two columns of the entries. -/
def of (dictionary : Dictionary α) : Arrays α :=
  ⟨dictionary.keys, dictionary.values, dictionary.memo⟩

theorem keys_of (dictionary : Dictionary α) :
    (of dictionary).keys = dictionary.entries.map (·.1) := rfl

theorem values_of (dictionary : Dictionary α) :
    (of dictionary).values = dictionary.entries.map (·.2) := rfl

/-- The first entry with a key has a place, and to change it is to change either column there. -/
structure Place (key : Bytes) (entries : List (Text × α)) (index : Nat) (value : α) : Prop where
  position : position? key (entries.map (·.1)) = some index
  there : (entries.map (·.2))[index]? = some value
  lookup : lookup? key entries = some value
  keys_overwrite : ∀ other, (overwrite key other entries).map (·.1) = entries.map (·.1)
  values_overwrite : ∀ other,
    (overwrite key other entries).map (·.2) = (entries.map (·.2)).set index other
  keys_erase : (eraseKey key entries).map (·.1) = (entries.map (·.1)).eraseIdx index
  values_erase : (eraseKey key entries).map (·.2) = (entries.map (·.2)).eraseIdx index

theorem place_head {key : Bytes} {text : Text} (here : text.bytes = key) (value : α)
    (rest : List (Text × α)) : Place key ((text, value) :: rest) 0 value where
  position := by rw [List.map_cons, position?, List.findIdx?_cons, if_pos (by simpa using here)]
  there := rfl
  lookup := by rw [lookup?, if_pos here]
  keys_overwrite other := by rw [overwrite, if_pos here]; rfl
  values_overwrite other := by rw [overwrite, if_pos here]; rfl
  keys_erase := by rw [eraseKey, if_pos here]; rfl
  values_erase := by rw [eraseKey, if_pos here]; rfl

theorem position?_cons_of_ne {key : Bytes} {text : Text} (elsewhere : text.bytes ≠ key)
    (rest : List Text) : position? key (text :: rest) = (position? key rest).map (· + 1) := by
  rw [position?, List.findIdx?_cons, if_neg (by simpa using elsewhere)]
  rfl

theorem Place.tail {key : Bytes} {text : Text} {rest : List (Text × α)} {index : Nat} {value : α}
    (place : Place key rest index value) (elsewhere : text.bytes ≠ key) (first : α) :
    Place key ((text, first) :: rest) (index + 1) value where
  position := by
    rw [List.map_cons, position?_cons_of_ne elsewhere, place.position]
    rfl
  there := place.there
  lookup := by rw [lookup?, if_neg elsewhere, place.lookup]
  keys_overwrite other := by
    rw [overwrite, if_neg elsewhere, List.map_cons, List.map_cons, place.keys_overwrite]
  values_overwrite other := by
    rw [overwrite, if_neg elsewhere, List.map_cons, List.map_cons, place.values_overwrite]
    rfl
  keys_erase := by
    rw [eraseKey, if_neg elsewhere, List.map_cons, List.map_cons, place.keys_erase]
    rfl
  values_erase := by
    rw [eraseKey, if_neg elsewhere, List.map_cons, List.map_cons, place.values_erase]
    rfl

/-- A key is found in the column of the keys if and only if it is found in the entries. -/
theorem place_cases (key : Bytes) (entries : List (Text × α)) :
    (position? key (entries.map (·.1)) = none ∧ lookup? key entries = none) ∨
      ∃ index value, Place key entries index value := by
  induction entries with
  | nil => exact .inl ⟨rfl, rfl⟩
  | cons entry rest ih =>
    obtain ⟨text, value⟩ := entry
    by_cases here : text.bytes = key
    · exact .inr ⟨0, value, place_head here value rest⟩
    · rcases ih with ⟨missing, unknown⟩ | ⟨index, found, place⟩
      · refine .inl ⟨?_, by rw [lookup?, if_neg here, unknown]⟩
        rw [List.map_cons, position?_cons_of_ne here, missing]
        rfl
      · exact .inr ⟨index + 1, found, place.tail here value⟩

theorem get_of (dictionary : Dictionary α) (key : Bytes) :
    (of dictionary).get key = some (dictionary.get? key) := by
  rw [get, get?, keys_of, values_of]
  rcases place_cases key dictionary.entries with ⟨missing, unknown⟩ | ⟨index, value, place⟩
  · rw [missing, unknown]
  · rw [place.position, place.lookup]
    simp only [place.there]
    rfl

theorem contains_of (dictionary : Dictionary α) (key : Bytes) :
    (of dictionary).contains key = dictionary.contains key := by
  rw [contains, Dictionary.contains, get?, keys_of]
  rcases place_cases key dictionary.entries with ⟨missing, unknown⟩ | ⟨index, value, place⟩
  · rw [missing, unknown]
    rfl
  · rw [place.position, place.lookup]
    rfl

theorem insert_of (dictionary : Dictionary α) (key : Text) (value : α) :
    (of dictionary).insert key value =
      some ((dictionary.insert key value).1, of (dictionary.insert key value).2) := by
  rw [insert, Dictionary.insert, get?, keys_of, values_of]
  rcases place_cases key.bytes dictionary.entries with ⟨missing, unknown⟩ | ⟨index, old, place⟩
  · rw [missing, unknown]
    simp [of, Dictionary.keys, Dictionary.values]
  · rw [place.position, place.lookup]
    simp only [place.there, of, Dictionary.keys, Dictionary.values, place.keys_overwrite,
      place.values_overwrite]
    rfl

theorem erase_of (dictionary : Dictionary α) (key : Bytes) :
    (of dictionary).erase key =
      some ((dictionary.erase key).1, of (dictionary.erase key).2) := by
  rw [erase, Dictionary.erase, get?, keys_of, values_of]
  rcases place_cases key dictionary.entries with ⟨missing, unknown⟩ | ⟨index, old, place⟩
  · rw [missing, unknown]
  · rw [place.position, place.lookup]
    simp only [place.there, of, Dictionary.keys, Dictionary.values, place.keys_erase,
      place.values_erase]
    rfl

theorem length_of (dictionary : Dictionary α) : (of dictionary).length = dictionary.length := by
  rw [length, keys_of, List.length_map]
  rfl

/-- Side by side again, the columns are the entries. -/
theorem iter_of (dictionary : Dictionary α) : (of dictionary).iter = dictionary.entries := by
  rw [iter, keys_of, values_of]
  exact List.zip_of_prod rfl rfl |>.symm

theorem ofMap_eq {entries : List (String × α)} (distinct : (entries.map (·.1)).Nodup) :
    ofMap entries =
      of (Dictionary.ofList (entries.map fun entry => (Text.ofString entry.1, entry.2))) := by
  rw [ofList_of_nodup (nodup_ofString distinct), ofMap, List.unzip_eq_map]
  rfl

theorem ofList_eq (entries : List (Text × α)) :
    ofList entries = some (of (Dictionary.ofList entries)) := by
  have all : ∀ dictionary : Dictionary α,
      entries.foldlM (fun arrays entry => (·.2) <$> arrays.insert entry.1 entry.2) (of dictionary) =
        some (of (entries.foldl (fun dictionary entry => (dictionary.insert entry.1 entry.2).2)
          dictionary)) := by
    induction entries with
    | nil => exact fun _ => rfl
    | cons entry rest ih =>
      intro dictionary
      rw [List.foldlM_cons, insert_of]
      exact ih _
  exact all empty

/-! ## Sizes and bytes -/

/-- Columns of the same length are those of the entries that they make. -/
theorem of_zip {keys : List Text} {values : List α} (same : values.length = keys.length)
    (memo : Option Nat) : of ⟨keys.zip values, memo⟩ = ⟨keys, values, memo⟩ := by
  rw [of, Dictionary.keys, Dictionary.values, keys_zip same, values_zip same]

theorem size_of (format : ElementFormat α) (dictionary : Dictionary α) :
    (of dictionary).size format = ((dictionary.size format).1, of (dictionary.size format).2) := by
  obtain ⟨entries, memo⟩ := dictionary
  cases memo with
  | some size => rfl
  | none =>
    have keys := ElementFormat.text_valuesSize_snd (entries.map (·.1))
    have lengths : (format.valuesSize (entries.map (·.2))).2.length =
        (entries.map (·.1)).length := by
      rw [← (format.looked_follows.valuesSize _).length_eq, List.length_map, List.length_map]
    rw [size_of_none, of_zip lengths]
    change (sizeOf format entries, (⟨(ElementFormat.text.valuesSize (entries.map (·.1))).2,
      (format.valuesSize (entries.map (·.2))).2, some (sizeOf format entries)⟩ : Arrays α)) = _
    rw [keys]

theorem encode_of (format : ElementFormat α) (dictionary : Dictionary α) :
    (of dictionary).encode format =
      ((dictionary.encode format).1, of (dictionary.encode format).2) := by
  have sized := size_of format dictionary
  have keys := ElementFormat.text_writeValues_snd ((dictionary.size format).2.entries.map (·.1))
  have lengths : (format.writeValues ((dictionary.size format).2.entries.map (·.2))).2.length =
      ((dictionary.size format).2.entries.map (·.1)).length := by
    rw [ElementFormat.writeValues_snd, List.length_map, List.length_map, List.length_map]
  rw [encode_snd, of_zip lengths, encode, sized]
  refine Prod.ext rfl ?_
  change (⟨(ElementFormat.text.writeValues
    ((dictionary.size format).2.entries.map (·.1))).2, _, _⟩ : Arrays α) = _
  rw [keys]
  rfl

/-! ## The last of the entries with each key -/

theorem unseen_concat (seen keys : List Bytes) (key : Bytes) :
    unseen seen (keys ++ [key]) =
      unseen seen keys ++ [!(seen.contains key || keys.contains key)] := by
  induction keys generalizing seen with
  | nil => simp [unseen]
  | cons first rest ih =>
    rw [List.cons_append, unseen, unseen, ih, List.cons_append, List.contains_cons,
      List.contains_cons, Bool.or_left_comm, Bool.or_assoc]

/-- Read from the front, a key is kept if and only if it does not come again. -/
theorem mask_cons (key : Text) (rest : List Text) :
    mask (key :: rest) = (!(rest.map Text.bytes).contains key.bytes) :: mask rest := by
  rw [mask, List.map_cons, List.reverse_cons, unseen_concat, List.reverse_append]
  simp [mask]

theorem mask_all_iff (keys : List Text) :
    (mask keys).all id = true ↔ (keys.map Text.bytes).Nodup := by
  induction keys with
  | nil => simp [mask, unseen]
  | cons key rest ih =>
    rw [mask_cons, List.all_cons, Bool.and_eq_true, ih, List.map_cons, List.nodup_cons, id,
      Bool.not_eq_true', Bool.eq_false_iff, Ne, List.contains_iff_mem]

theorem filterMap_mask (entries : List (Text × α)) :
    ((entries.zip (mask (entries.map (·.1)))).filterMap fun entry =>
      if entry.2 then some entry.1 else none) = lastOccurrences entries := by
  induction entries with
  | nil => rfl
  | cons entry rest ih =>
    obtain ⟨key, value⟩ := entry
    have again : ((rest.map (·.1)).map Text.bytes).contains key.bytes =
        (lookup? key.bytes rest).isSome := by
      rw [Bool.eq_iff_iff, List.contains_iff_mem, lookup?_isSome_iff, keyBytes_eq]
    rw [List.map_cons, mask_cons, again, List.zip_cons_cons, List.filterMap_cons, ih,
      lastOccurrences]
    cases (lookup? key.bytes rest).isSome <;> rfl

/-- What is kept of two arrays of the same length are the columns of the last entries. -/
theorem collapse_eq {keys : List Text} {values : List α} (same : values.length = keys.length) :
    collapse keys values = (lastOccurrences (keys.zip values)).unzip := by
  have columns : (keys.zip values).map (·.1) = keys := keys_zip same
  rw [collapse]
  by_cases all : (mask keys).all id = true
  · have distinct : (keyBytes (keys.zip values)).Nodup := by
      rw [keyBytes_eq, columns]
      exact (mask_all_iff keys).mp all
    rw [if_pos all, lastOccurrences_of_nodup distinct, List.unzip_eq_map, columns, values_zip same]
  · rw [if_neg all, ← filterMap_mask, columns]

theorem load_along (format : ElementFormat α) :
    Loader.Along of (Dictionary.load format) (load format) := by
  refine (Loader.along_read _ _).bind fun declared => (Loader.along_read _ _).bind fun start =>
    (Loader.along_read _ _).bind fun keys => (Loader.along_read _ _).bind fun values => ?_
  dsimp only
  by_cases same : keys.length = values.length
  · have pass : ¬(keys.length != values.length) = true := by simp [same]
    rw [if_neg pass, if_neg pass]
    -- Only behind the check do the two arrays make entries without losing any.
    refine (Loader.along_read _ _).bind fun stop => ?_
    split
    · exact Loader.along_throw _ _
    · apply Loader.along_update
      intro object
      rw [collapse_eq same.symm, List.unzip_eq_map]
      simp [of, Dictionary.keys, Dictionary.values]
  · have refused : (keys.length != values.length) = true := by simp [same]
    rw [if_pos refused, if_pos refused]
    exact Loader.along_throw _ _

theorem loadFrom_of (format : ElementFormat α) (limit : Nat) (bytes : Bytes)
    (dictionary : Dictionary α) :
    let loaded := (Dictionary.format format).loadFrom limit bytes dictionary
    loadFrom format limit bytes (of dictionary) = (loaded.1, of loaded.2.1, loaded.2.2) := by
  intro loaded
  have ran := load_along format dictionary (Cursor.ofBytes bytes limit)
  change _ = Loader.through of ((Dictionary.format format).load _) at ran
  simp only [loaded, loadFrom, ObjectFormat.loadFrom, ran]
  cases (Dictionary.format format).load (dictionary, Cursor.ofBytes bytes limit) <;> rfl

/-! ## Standard maps -/

theorem foldlM_put_eq_ok {entries : List (Text × α)} {start map : String → Option α}
    (ran : entries.foldlM put start = .ok map) (string : String) :
    map string = (lookup? (Text.utf8 string) entries.reverse).or (start string) := by
  induction entries generalizing start with
  | nil =>
    cases ran
    rfl
  | cons entry rest ih =>
    obtain ⟨text, value⟩ := entry
    cases first : text.read with
    | error error =>
      rw [List.foldlM_cons, put, first] at ran
      cases ran
    | ok key =>
      rw [List.foldlM_cons, put, first] at ran
      have bytes := Text.read_eq_ok_iff.mp first
      rw [ih ran, List.reverse_cons, lookup?_append, Option.or_assoc]
      -- The entries behind this one are found first; it counts if none of them has its string.
      congr 1
      by_cases here : string = key
      · rw [here, Function.update_self, lookup?, if_pos bytes.symm, Option.some_or]
      · have elsewhere : text.bytes ≠ Text.utf8 string := fun same =>
          here (Text.utf8_injective (bytes.trans same)).symm
        rw [Function.update_of_ne here, lookup?, if_neg elsewhere, lookup?, Option.none_or]

theorem foldlM_put_eq_error_iff {entries : List (Text × α)} {start : String → Option α}
    {error : CodecError} :
    entries.foldlM put start = .error error ↔ withStringKeys entries = .error error := by
  induction entries generalizing start with
  | nil => exact iff_of_false (fun failed => by cases failed) fun failed => by cases failed
  | cons entry rest ih =>
    rw [List.foldlM_cons, put, withStringKeys_cons]
    cases entry.1.read with
    | error other => constructor <;> (intro failed; cases failed; rfl)
    | ok key =>
      refine ih.trans ?_
      cases withStringKeys rest with
      | error other => exact Iff.rfl
      | ok strings =>
        exact iff_of_false (fun failed => by cases failed) fun failed => by cases failed

theorem toMap_eq_ok {dictionary : Dictionary α} (distinct : (keyBytes dictionary.entries).Nodup)
    {map : String → Option α} (ran : (of dictionary).toMap = .ok map) (string : String) :
    map string = dictionary.get? (Text.utf8 string) := by
  rw [toMap, iter_of] at ran
  rw [foldlM_put_eq_ok ran, Option.or_none, ← lookup?_lastOccurrences,
    lastOccurrences_of_nodup distinct, get?]

theorem toMap_eq_error_iff {dictionary : Dictionary α} {error : CodecError} :
    (of dictionary).toMap = .error error ↔ dictionary.toStringKeys = .error error := by
  rw [toMap, iter_of, foldlM_put_eq_error_iff, toStringKeys]

/-! ## Every operation -/

theorem apply_of (format : ElementFormat α) (operation : Operation α) (dictionary : Dictionary α) :
    apply format operation (of dictionary) =
      some ((operation.apply format dictionary).1, of (operation.apply format dictionary).2) := by
  cases operation with
  | insert key value => exact insert_of dictionary key value
  | erase key => exact erase_of dictionary key
  | clear => rfl
  | ofMap entries distinct => rw [apply_ofMap, apply, ofMap_eq distinct]
  | ofList entries => rw [apply, ofList_eq]; rfl
  | load limit bytes => rw [apply, loadFrom_of]; rfl
  | size => rw [apply, size_of]; rfl
  | encode => rw [apply, encode_of]; rfl
  | clone => rfl

theorem run_of (format : ElementFormat α) (operations : List (Operation α))
    (dictionary : Dictionary α) :
    run format operations (of dictionary) =
      some ((runAll (Operation.apply format) operations dictionary).1,
        of (runAll (Operation.apply format) operations dictionary).2) := by
  induction operations generalizing dictionary with
  | nil => rfl
  | cons operation operations ih =>
    rw [run, apply_of]
    change (do
      let (answers, arrays) ← run format operations (of (operation.apply format dictionary).2)
      return ((operation.apply format dictionary).1 :: answers, arrays)) = _
    rw [ih]
    rfl

/-! ## What can be observed -/

/-- Whatever is asked of the arrays, no place is out of range, and the answer is that of the
reference. -/
structure Mirrors (format : ElementFormat α) (arrays : Arrays α) (reference : Reference α) :
    Prop where
  /-- There are as many values as keys. -/
  paired : arrays.keys.length = arrays.values.length
  /-- No key is there twice. -/
  distinct : (arrays.keys.map Text.bytes).Nodup
  get : ∀ key, ∃ value, arrays.get key = some value ∧
    Option.Rel format.Looked (reference.value key) value
  contains : ∀ key, arrays.contains key = (reference.value key).isSome
  length : arrays.length = reference.order.length
  /-- Iteration goes through the keys in order and has the value of each. -/
  iter : List.Forall₂ (fun key entry => entry.1.bytes = key ∧
    Option.Rel format.Looked (reference.value key) (some entry.2)) reference.order arrays.iter
  /-- The standard map has under a string what the reference has under its bytes. -/
  toMap : ∀ map, arrays.toMap = .ok map → ∀ string,
    Option.Rel format.Looked (reference.value (Text.utf8 string)) (map string)
  unconvertible : ∀ error, arrays.toMap = .error error ↔
    error = .invalidUtf8 ∧ ∃ key ∈ reference.order, Text.decode? key = none
  /-- Neither the keys nor the values nor the size change when an envelope is refused. -/
  refused : ∀ limit bytes error later stop,
    loadFrom format limit bytes arrays = (.error error, later, stop) → later = arrays

variable {format : ElementFormat α} {dictionary : Dictionary α} {reference : Reference α}

theorem mirrors_of_refines (refines : Refines format dictionary reference) :
    (of dictionary).Mirrors format reference where
  paired := by rw [keys_of, values_of, List.length_map, List.length_map]
  distinct := refines.mirrors.distinct
  get key := ⟨dictionary.get? key, get_of dictionary key, refines.values key⟩
  contains key := by rw [contains_of, refines.mirrors.contains]
  length := by rw [length_of, refines.mirrors.length]
  iter := by
    rw [iter_of]
    exact refines.entries
  toMap map ran string := by
    rw [toMap_eq_ok (refines.keys ▸ refines.distinct) ran]
    exact refines.values (Text.utf8 string)
  unconvertible error := by
    rw [toMap_eq_error_iff, toStringKeys, withStringKeys_eq_error_iff, refines.keys]
  refused limit bytes error later stop failed := by
    rw [loadFrom_of] at failed
    obtain ⟨result, left, place⟩ := Prod.mk.inj failed |>.imp_right Prod.mk.inj
    rw [← left, loadFrom_eq_error (Prod.ext result rfl)]

/-- Any operations in any order, on any kind of element.  In arrays as in a list of entries, every
value that they return and everything that can be observed in the end is as the reference says. -/
theorem mirrors_of_run (format : ElementFormat α) (operations : List (Operation α)) :
    let state := runAll (Operation.apply format) operations empty
    let seen := runAll (Operation.applyReference format) operations .empty
    ∃ arrays, run format operations new = some (state.1, arrays) ∧ arrays = of state.2 ∧
      List.Forall₂ (Option.Rel format.Looked) seen.1 state.1 ∧
      arrays.Mirrors format seen.2 ∧ Dictionary.Mirrors format state.2 seen.2 := by
  intro state seen
  have start : Refines format empty .empty := refines_empty
  obtain ⟨answers, refines⟩ := start.runAll operations
  exact ⟨of state.2, run_of format operations empty, rfl, answers, mirrors_of_refines refines,
    refines.mirrors⟩

/-- A key that is written again keeps its place, and what follows a key that is removed moves up in
both arrays. -/
example : run ElementFormat.bool
    [.insert (.ofWire [0x61]) true, .insert (.ofWire [0x62]) false, .insert (.ofWire [0x61]) false,
      .erase [0x61]] new =
    some ([none, none, some true, some false], ⟨[.ofWire [0x62]], [false], none⟩) := rfl

end Arrays

end FieldWire.Dictionary
