import FieldWire.Proofs.Dictionary.Keyed
import FieldWire.Proofs.Interrupted
import Mathlib.Logic.Relation

/-!
# Dictionaries behave like a function with an order

A reference dictionary is an order of keys and a function from keys to values; nothing is stored
twice, nothing is remembered, and every operation on it is one line.  Whatever is done with a
dictionary, by calls or from the wire, it goes along with the reference on which the same is done.
The two differ in one respect only: the values of a dictionary may have been looked at.
-/

set_option autoImplicit false

namespace FieldWire

/-! ## Elements that were looked at -/

namespace ElementFormat

variable {α : Type}

/-- One call that only looks at an element. -/
inductive Look (format : ElementFormat α) (value : α) : α → Prop where
  | size : Look format value (format.size value).2
  | write : Look format value (format.write value).2
  | left (other : α) : Look format value (format.same value other).2.1
  | right (other : α) : Look format value (format.same other value).2.2

/-- The states that an element comes to by calls that only look at it. -/
abbrev Looked (format : ElementFormat α) : α → α → Prop := Relation.ReflTransGen format.Look

theorem looked_follows (format : ElementFormat α) : format.Follows format.Looked where
  refl _ := .refl
  trans _ _ _ before after := before.trans after
  size _ := .single .size
  write _ := .single .write
  left _ other := .single (.left other)
  right _ other := .single (.right other)

end ElementFormat

/-- A reference dictionary: the keys in order, and what each of them stands for. -/
structure Reference (α : Type) where
  /-- The keys, in order. -/
  order : List Bytes
  /-- The value under a key. -/
  value : Bytes → Option α

namespace Reference

variable {α : Type}

/-- No keys. -/
def empty : Reference α := ⟨[], fun _ => none⟩

/-- Puts a value under a key, which keeps its place or comes last. -/
def put (reference : Reference α) (key : Bytes) (value : α) : Reference α :=
  ⟨if key ∈ reference.order then reference.order else reference.order ++ [key],
    Function.update reference.value key (some value)⟩

/-- Takes a key out and leaves the others in order. -/
def drop (reference : Reference α) (key : Bytes) : Reference α :=
  ⟨reference.order.erase key, Function.update reference.value key none⟩

/-- The given entries, put one after the other. -/
def ofList (entries : List (Text × α)) : Reference α :=
  entries.foldl (fun reference entry => reference.put entry.1.bytes entry.2) empty

/-- The given entries as they come from the wire: the same values, but each key in the place of its
last occurrence. -/
def received (entries : List (Text × α)) : Reference α :=
  ⟨(Dictionary.keyBytes entries).dedup, (ofList entries).value⟩

end Reference

namespace Dictionary

variable {α : Type}

/-! ## Operations -/

/-- What can be done with a dictionary.  Creation replaces what was there. -/
inductive Operation (α : Type) where
  /-- Puts a value under a key. -/
  | insert (key : Text) (value : α)
  /-- Removes an entry. -/
  | erase (key : Bytes)
  /-- A new dictionary. -/
  | clear
  /-- A dictionary of the entries of a standard map, in the order in which they are listed. -/
  | ofMap (entries : List (String × α)) (distinct : (entries.map (·.1)).Nodup)
  /-- A dictionary of entries that are inserted one after the other. -/
  | ofList (entries : List (Text × α))
  /-- Reads an envelope from the front of a buffer. -/
  | load (limit : Nat) (bytes : Bytes)
  /-- Asks for the size. -/
  | size
  /-- Asks for the bytes. -/
  | encode
  /-- Goes on with a copy, which is the same value. -/
  | clone

/-- What an operation returns, for the two that return a value, and the dictionary afterwards. -/
def Operation.apply (format : ElementFormat α) :
    Operation α → Dictionary α → Option α × Dictionary α
  | .insert key value, dictionary => dictionary.insert key value
  | .erase key, dictionary => dictionary.erase key
  | .clear, _ => (none, empty)
  | .ofMap entries _, dictionary =>
    (none, match ofStringKeys (entries.map fun entry => (Text.ofString entry.1, entry.2)) with
      | .ok made => made
      | .error _ => dictionary)
  | .ofList entries, _ => (none, Dictionary.ofList entries)
  | .load limit bytes, dictionary =>
    (none, ((Dictionary.format format).loadFrom limit bytes dictionary).2.1)
  | .size, dictionary => (none, (dictionary.size format).2)
  | .encode, dictionary => (none, (dictionary.encode format).2)
  | .clone, dictionary => (none, dictionary)

/-- The entries of an envelope as they stand on the wire, behind the length that it declares. -/
def readEntries (format : ElementFormat α) : Reader (Nat × List (Text × α)) := do
  let declared ← Reader.openSpan
  let start ← Reader.position
  let keys ← ElementFormat.text.readValues
  let values ← format.readValues
  if keys.length != values.length then
    throw (.lengthMismatch keys.length values.length)
  let stop ← Reader.position
  if stop - start != declared then
    throw (.lengthMismatch declared (stop - start))
  return (declared, keys.zip values)

/-- The same operation on a reference. -/
def Operation.applyReference (format : ElementFormat α) :
    Operation α → Reference α → Option α × Reference α
  | .insert key value, reference => (reference.value key.bytes, reference.put key.bytes value)
  | .erase key, reference => (reference.value key, reference.drop key)
  | .clear, _ => (none, .empty)
  | .ofMap entries _, _ =>
    (none, .ofList (entries.map fun entry => (Text.ofString entry.1, entry.2)))
  | .ofList entries, _ => (none, .ofList entries)
  | .load limit bytes, reference =>
    (none, match readEntries format (Cursor.ofBytes bytes limit) with
      | .ok (_, entries) _ => .received entries
      | .error _ _ => reference)
  | .size, reference => (none, reference)
  | .encode, reference => (none, reference)
  | .clone, reference => (none, reference)

/-- Operations one after the other: what each of them returns, and the state at the end. -/
def runAll {σ : Type} (apply : Operation α → σ → Option α × σ) :
    List (Operation α) → σ → List (Option α) × σ
  | [], state => ([], state)
  | operation :: operations, state =>
    let (answer, state) := apply operation state
    let (answers, state) := runAll apply operations state
    (answer :: answers, state)

/-! ## Reading is storing what the wire holds -/

/-- Loading reads all of the envelope and then stores what it has read. -/
theorem load_eq_bind (format : ElementFormat α) :
    load format = Loader.read (readEntries format) >>= fun read =>
      Loader.update fun _ => ⟨lastOccurrences read.2,
        if (lastOccurrences read.2).length = read.2.length then some read.1 else none⟩ := by
  rw [load, readEntries]
  simp only [Loader.read_bind, Loader.read_ite, Loader.read_pure, Loader.read_throw, bind_assoc,
    Loader.throw_bind]
  congr 1; funext declared
  congr 1; funext start
  congr 1; funext keys
  congr 1; funext values
  by_cases paired : keys.length = values.length
  · have pass : ¬(keys.length != values.length) = true := by simp [paired]
    have whole : (keys.zip values).length = keys.length := by
      rw [List.length_zip, ← paired, Nat.min_self]
    rw [if_neg pass, if_neg pass, bind_assoc]
    congr 1; funext stop
    split
    · rw [Loader.throw_bind]
    · rw [pure_bind, whole]
  · have refused : (keys.length != values.length) = true := by simp [paired]
    rw [if_pos refused, if_pos refused, Loader.throw_bind]

theorem load_of_readEntries_ok {format : ElementFormat α} {cursor after : Cursor} {declared : Nat}
    {entries : List (Text × α)} (read : readEntries format cursor = .ok (declared, entries) after)
    (start : Dictionary α) :
    ∃ memo, load format (start, cursor) = .ok () (⟨lastOccurrences entries, memo⟩, after) := by
  rw [load_eq_bind, bind_of_ok (Loader.read_of_ok read start)]
  exact ⟨_, rfl⟩

theorem load_of_readEntries_error {format : ElementFormat α} {cursor after : Cursor}
    {error : CodecError} (failed : readEntries format cursor = .error error after)
    (start : Dictionary α) : load format (start, cursor) = .error error (start, after) := by
  rw [load_eq_bind, bind_of_error (Loader.read_of_error failed start)]

/-! ## Going along with the reference -/

/-- The dictionary has the keys of the reference, in order, and under each of them the value of the
reference, which may have been looked at. -/
structure Refines (format : ElementFormat α) (dictionary : Dictionary α)
    (reference : Reference α) : Prop where
  keys : keyBytes dictionary.entries = reference.order
  distinct : reference.order.Nodup
  values : ∀ key, Option.Rel format.Looked (reference.value key) (dictionary.get? key)

variable {format : ElementFormat α} {dictionary later : Dictionary α} {reference : Reference α}

theorem rel_update {Rel : α → α → Prop} {values others : Bytes → Option α}
    (each : ∀ key, Option.Rel Rel (values key) (others key)) (key : Bytes) {value other : Option α}
    (new : Option.Rel Rel value other) (aim : Bytes) :
    Option.Rel Rel (Function.update values key value aim) (Function.update others key other aim) := by
  by_cases same : aim = key
  · rw [same, Function.update_self, Function.update_self]
    exact new
  · rw [Function.update_of_ne same, Function.update_of_ne same]
    exact each aim

theorem rel_looked_trans {first second third : Option α}
    (before : Option.Rel format.Looked first second)
    (after : Option.Rel format.Looked second third) : Option.Rel format.Looked first third := by
  cases before with
  | none => exact after
  | some looked =>
    cases after with
    | some again => exact .some (looked.trans again)

theorem refines_empty : Refines format empty Reference.empty :=
  ⟨rfl, List.nodup_nil, fun _ => .none⟩

theorem Refines.insert (refines : Refines format dictionary reference) (key : Text) (value : α) :
    Refines format (dictionary.insert key value).2 (reference.put key.bytes value) where
  keys := by
    rw [keyBytes_insert, refines.keys]
    rfl
  distinct := by
    rw [Reference.put]
    dsimp only
    split
    · exact refines.distinct
    · rename_i fresh
      exact List.nodup_append.mpr ⟨refines.distinct, List.nodup_singleton _,
        fun old there new here same => fresh (List.mem_singleton.mp here ▸ same ▸ there)⟩
  values other := by
    rw [get?_insert]
    exact rel_update refines.values key.bytes (.some .refl) other

theorem Refines.erase (refines : Refines format dictionary reference) (key : Bytes) :
    Refines format (dictionary.erase key).2 (reference.drop key) where
  keys := by
    rw [keyBytes_erase, refines.keys]
    rfl
  distinct := refines.distinct.erase key
  values other := by
    rw [get?_erase (refines.keys ▸ refines.distinct)]
    exact rel_update refines.values key .none other

theorem refines_ofList (entries : List (Text × α)) :
    Refines format (ofList entries) (Reference.ofList entries) := by
  have all : ∀ (dictionary : Dictionary α) (reference : Reference α),
      Refines format dictionary reference →
      Refines format
        (entries.foldl (fun dictionary entry => (dictionary.insert entry.1 entry.2).2) dictionary)
        (entries.foldl (fun reference entry => reference.put entry.1.bytes entry.2) reference) := by
    induction entries with
    | nil => exact fun _ _ refines => refines
    | cons entry rest ih => exact fun _ _ refines => ih _ _ (refines.insert entry.1 entry.2)
  exact all empty .empty refines_empty

theorem refines_received (entries : List (Text × α)) (memo : Option Nat) :
    Refines format ⟨lastOccurrences entries, memo⟩ (Reference.received entries) where
  keys := keyBytes_lastOccurrences entries
  distinct := List.nodup_dedup _
  values key := by
    have inserted : Refines format (ofList entries) (Reference.ofList entries) :=
      refines_ofList entries
    have found := inserted.values key
    rwa [get?_ofList, ← lookup?_lastOccurrences] at found

/-- Looking at values changes neither the keys nor what is found under them. -/
theorem lookup?_of_sameKey {Rel : α → α → Prop} {entries others : List (Text × α)}
    (same : List.Forall₂ (SameKey Rel) entries others) (key : Bytes) :
    Option.Rel Rel (lookup? key entries) (lookup? key others) := by
  induction same with
  | nil => exact .none
  | @cons entry other rest others head _ ih =>
    obtain ⟨first, value⟩ := entry
    obtain ⟨firstLater, valueLater⟩ := other
    obtain ⟨rfl, looked⟩ : firstLater = first ∧ Rel value valueLater := head
    rw [lookup?, lookup?]
    split
    · exact .some looked
    · exact ih

theorem Refines.of_sameKey (refines : Refines format dictionary reference)
    (same : List.Forall₂ (SameKey format.Looked) dictionary.entries later.entries) :
    Refines format later reference where
  keys := by
    have texts := congrArg (List.map Text.bytes) (sameKey_parts same).1
    rw [List.map_map, List.map_map] at texts
    exact texts.trans refines.keys
  distinct := refines.distinct
  values key := rel_looked_trans (refines.values key) (lookup?_of_sameKey same key)

/-! ## Every operation -/

/-- A standard map is inserted entry by entry, since all of its keys are strings. -/
theorem apply_ofMap (entries : List (String × α)) (distinct : (entries.map (·.1)).Nodup)
    (dictionary : Dictionary α) :
    Operation.apply format (.ofMap entries distinct) dictionary =
      (none, ofList (entries.map fun entry => (Text.ofString entry.1, entry.2))) := by
  rw [Operation.apply, ofStringKeys_ofString]

theorem Refines.load (refines : Refines format dictionary reference) (limit : Nat) (bytes : Bytes) :
    Refines format ((Dictionary.format format).loadFrom limit bytes dictionary).2.1
      (Operation.applyReference format (.load limit bytes) reference).2 := by
  rw [ObjectFormat.loadFrom, Operation.applyReference]
  cases read : readEntries format (Cursor.ofBytes bytes limit) with
  | ok found after =>
    obtain ⟨memo, loaded⟩ := load_of_readEntries_ok read dictionary
    change (Dictionary.format format).load _ = _ at loaded
    rw [loaded]
    exact refines_received found.2 memo
  | error error after =>
    have failed := load_of_readEntries_error read dictionary
    change (Dictionary.format format).load _ = _ at failed
    rw [failed]
    exact refines

theorem size_sameKey {Rel : α → α → Prop} (elements : format.Follows Rel)
    (dictionary : Dictionary α) :
    List.Forall₂ (SameKey Rel) dictionary.entries (dictionary.size format).2.entries := by
  obtain ⟨entries, memo⟩ := dictionary
  cases memo with
  | some size => exact entries_unchanged elements entries
  | none =>
    rw [size_of_none]
    exact entries_zip (elements.valuesSize _)

theorem Refines.size (refines : Refines format dictionary reference) :
    Refines format (dictionary.size format).2 reference :=
  refines.of_sameKey (size_sameKey format.looked_follows dictionary)

theorem Refines.encode (refines : Refines format dictionary reference) :
    Refines format (dictionary.encode format).2 reference := by
  apply refines.size.of_sameKey
  rw [encode_snd]
  exact entries_zip (format.looked_follows.writeValues _)

/-- One operation. -/
theorem Refines.apply (refines : Refines format dictionary reference) (operation : Operation α) :
    Option.Rel format.Looked (operation.applyReference format reference).1
        (operation.apply format dictionary).1 ∧
      Refines format (operation.apply format dictionary).2
        (operation.applyReference format reference).2 := by
  cases operation with
  | insert key value =>
    refine ⟨?_, refines.insert key value⟩
    change Option.Rel _ _ (dictionary.insert key value).1
    rw [insert_fst]
    exact refines.values key.bytes
  | erase key =>
    refine ⟨?_, refines.erase key⟩
    change Option.Rel _ _ (dictionary.erase key).1
    rw [erase_fst]
    exact refines.values key
  | clear => exact ⟨.none, refines_empty⟩
  | ofMap entries distinct =>
    rw [apply_ofMap]
    exact ⟨.none, refines_ofList _⟩
  | ofList entries => exact ⟨.none, refines_ofList entries⟩
  | load limit bytes => exact ⟨.none, refines.load limit bytes⟩
  | size => exact ⟨.none, refines.size⟩
  | encode => exact ⟨.none, refines.encode⟩
  | clone => exact ⟨.none, refines⟩

/-- Any number of operations. -/
theorem Refines.runAll (refines : Refines format dictionary reference)
    (operations : List (Operation α)) :
    List.Forall₂ (Option.Rel format.Looked)
        (Dictionary.runAll (Operation.applyReference format) operations reference).1
        (Dictionary.runAll (Operation.apply format) operations dictionary).1 ∧
      Refines format (Dictionary.runAll (Operation.apply format) operations dictionary).2
        (Dictionary.runAll (Operation.applyReference format) operations reference).2 := by
  induction operations generalizing dictionary reference with
  | nil => exact ⟨.nil, refines⟩
  | cons operation operations ih =>
    obtain ⟨answer, next⟩ := refines.apply operation
    obtain ⟨answers, last⟩ := ih next
    exact ⟨.cons answer answers, last⟩

/-! ## What can be observed -/

/-- Whatever is asked of the dictionary, the answer is that of the reference. -/
structure Mirrors (format : ElementFormat α) (dictionary : Dictionary α)
    (reference : Reference α) : Prop where
  /-- No key is there twice. -/
  distinct : (dictionary.keys.map Text.bytes).Nodup
  get : ∀ key, Option.Rel format.Looked (reference.value key) (dictionary.get? key)
  contains : ∀ key, dictionary.contains key = (reference.value key).isSome
  length : dictionary.length = reference.order.length
  /-- Iteration goes through the keys in order and has the value of each. -/
  entries : List.Forall₂ (fun key entry => entry.1.bytes = key ∧
    Option.Rel format.Looked (reference.value key) (some entry.2)) reference.order dictionary.entries
  /-- So does the standard map, under the same keys. -/
  strings : ∀ strings, dictionary.toStringKeys = .ok strings →
    List.Forall₂ (fun key entry => Text.utf8 entry.1 = key ∧
      Option.Rel format.Looked (reference.value key) (some entry.2)) reference.order strings
  unconvertible : (∃ error, dictionary.toStringKeys = .error error) ↔
    ∃ key ∈ reference.order, Text.decode? key = none
  /-- Nothing at all changes when an envelope is refused. -/
  refused : ∀ limit bytes error later stop,
    (Dictionary.format format).loadFrom limit bytes dictionary = (.error error, later, stop) →
      later = dictionary

theorem loadFrom_eq_error {limit : Nat} {bytes : Bytes} {error : CodecError} {stop : Nat}
    (failed : (Dictionary.format format).loadFrom limit bytes dictionary = (.error error, later, stop)) :
    later = dictionary := by
  rw [ObjectFormat.loadFrom] at failed
  split at failed
  · cases failed
  · rename_i found object cursor ran
    cases failed
    exact eq_of_load_eq_error ran

theorem Refines.entries (refines : Refines format dictionary reference) :
    List.Forall₂ (fun key entry => entry.1.bytes = key ∧
      Option.Rel format.Looked (reference.value key) (some entry.2)) reference.order
        dictionary.entries := by
  have distinct : (keyBytes dictionary.entries).Nodup := refines.keys ▸ refines.distinct
  rw [← refines.keys, keyBytes, List.forall₂_map_left_iff, List.forall₂_same]
  intro entry member
  have value := refines.values entry.1.bytes
  rw [get?, lookup?_of_mem distinct member] at value
  exact ⟨rfl, value⟩

theorem Refines.strings (refines : Refines format dictionary reference)
    {strings : List (String × α)} (converted : dictionary.toStringKeys = .ok strings) :
    List.Forall₂ (fun key entry => Text.utf8 entry.1 = key ∧
      Option.Rel format.Looked (reference.value key) (some entry.2)) reference.order strings := by
  have same := withStringKeys_eq_ok_iff.mp converted
  have entries := refines.entries
  have mapped : List.Forall₂ (fun key (entry : Bytes × α) => entry.1 = key ∧
      Option.Rel format.Looked (reference.value key) (some entry.2)) reference.order
        (dictionary.entries.map fun entry => (entry.1.bytes, entry.2)) :=
    List.forall₂_map_right_iff.mpr entries
  rw [← same, List.forall₂_map_right_iff] at mapped
  exact mapped

theorem isSome_of_rel {Rel : α → α → Prop} {value other : Option α}
    (rel : Option.Rel Rel value other) : other.isSome = value.isSome := by
  cases rel with
  | none => rfl
  | some _ => rfl

theorem Refines.unconvertible (refines : Refines format dictionary reference) :
    (∃ error, dictionary.toStringKeys = .error error) ↔
      ∃ key ∈ reference.order, Text.decode? key = none := by
  rw [← refines.keys]
  constructor
  · rintro ⟨error, failed⟩
    exact (withStringKeys_eq_error_iff.mp failed).2
  · intro there
    exact ⟨_, withStringKeys_eq_error_iff.mpr ⟨rfl, there⟩⟩

theorem Refines.mirrors (refines : Refines format dictionary reference) :
    Mirrors format dictionary reference where
  distinct := by
    rw [Dictionary.keys, ← keyBytes_eq, refines.keys]
    exact refines.distinct
  get := refines.values
  contains key := isSome_of_rel (refines.values key)
  length := by
    rw [← refines.keys, keyBytes, List.length_map]
    rfl
  entries := refines.entries
  strings _ := refines.strings
  unconvertible := refines.unconvertible
  refused _ _ _ _ _ := loadFrom_eq_error

end Dictionary

end FieldWire
