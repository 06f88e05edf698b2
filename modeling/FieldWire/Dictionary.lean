import FieldWire.ElementFormat

/-!
# Dictionaries

A dictionary is an envelope around two runs of elements: its keys, which are texts, and then its
values.  Two keys are the same when their bytes are.  Entries keep the order in which their keys
came in; looking one up goes through them from the front.

If a key comes more than once on the wire, the last value counts, and the entry has the place of
that last key.
-/

set_option autoImplicit false

namespace FieldWire

/-- Entries with distinct keys that travel as an object. -/
structure Dictionary (α : Type) where
  /-- The entries, in order. -/
  entries : List (Text × α)
  /-- The size of the body, if it is remembered. -/
  memo : Option Nat

namespace Dictionary

variable {α : Type}

/-- The dictionary without entries. -/
def empty : Dictionary α := ⟨[], none⟩

/-- The number of entries. -/
def length (dictionary : Dictionary α) : Nat := dictionary.entries.length

/-- Whether there are no entries. -/
def isEmpty (dictionary : Dictionary α) : Bool := dictionary.entries.isEmpty

/-- The keys, in order. -/
def keys (dictionary : Dictionary α) : List Text := dictionary.entries.map (·.1)

/-- The values, in the order of their keys. -/
def values (dictionary : Dictionary α) : List α := dictionary.entries.map (·.2)

/-- The first value under a key, among the given entries. -/
def lookup? (key : Bytes) : List (Text × α) → Option α
  | [] => none
  | (other, value) :: rest => if other.bytes = key then some value else lookup? key rest

/-- Puts another value under the first entry with a key. -/
def overwrite (key : Bytes) (value : α) : List (Text × α) → List (Text × α)
  | [] => []
  | (other, old) :: rest =>
    if other.bytes = key then (other, value) :: rest
    else (other, old) :: overwrite key value rest

/-- Removes the first entry with a key. -/
def eraseKey (key : Bytes) : List (Text × α) → List (Text × α)
  | [] => []
  | (other, value) :: rest =>
    if other.bytes = key then rest else (other, value) :: eraseKey key rest

/-- The value under a key. -/
def get? (dictionary : Dictionary α) (key : Bytes) : Option α := lookup? key dictionary.entries

/-- Whether there is an entry with a key. -/
def contains (dictionary : Dictionary α) (key : Bytes) : Bool := (dictionary.get? key).isSome

/-- Puts a value under a key and gives the old one.  A key that is there keeps its place, and the
way it was written the first time. -/
def insert (dictionary : Dictionary α) (key : Text) (value : α) : Option α × Dictionary α :=
  match dictionary.get? key.bytes with
  | some old => (some old, ⟨overwrite key.bytes value dictionary.entries, none⟩)
  | none => (none, ⟨dictionary.entries ++ [(key, value)], none⟩)

/-- Removes an entry and gives its value.  Nothing happens if there is none. -/
def erase (dictionary : Dictionary α) (key : Bytes) : Option α × Dictionary α :=
  match dictionary.get? key with
  | some old => (some old, ⟨eraseKey key dictionary.entries, none⟩)
  | none => (none, dictionary)

/-- The dictionary that the given entries make when they are inserted one after the other. -/
def ofList (entries : List (Text × α)) : Dictionary α :=
  entries.foldl (fun dictionary entry => (dictionary.insert entry.1 entry.2).2) empty

/-- The last entry for each key, in order. -/
def lastOccurrences : List (Text × α) → List (Text × α)
  | [] => []
  | (key, value) :: rest =>
    if (lookup? key.bytes rest).isSome then lastOccurrences rest
    else (key, value) :: lastOccurrences rest

/-- The size of the body, remembered from now on. -/
def size (format : ElementFormat α) (dictionary : Dictionary α) : Nat × Dictionary α :=
  match dictionary.memo with
  | some size => (size, dictionary)
  | none =>
    let (keysSize, keys) := ElementFormat.text.valuesSize dictionary.keys
    let (valuesSize, values) := format.valuesSize dictionary.values
    (keysSize + valuesSize, ⟨keys.zip values, some (keysSize + valuesSize)⟩)

/-- The envelope.  Its length is the remembered size. -/
def encode (format : ElementFormat α) (dictionary : Dictionary α) : Bytes × Dictionary α :=
  let (size, dictionary) := dictionary.size format
  let (keysBody, keys) := ElementFormat.text.writeValues dictionary.keys
  let (valuesBody, values) := format.writeValues dictionary.values
  (Write.word (LengthTag.span size) ++ keysBody ++ valuesBody,
    { dictionary with entries := keys.zip values })

/-- Reads an envelope.  Nothing changes unless all of it is well formed.  The declared size is
remembered unless entries were dropped. -/
def load (format : ElementFormat α) : Loader (Dictionary α) Unit := do
  let declared ← Loader.read Reader.openSpan
  let start ← Loader.read Reader.position
  let keys ← Loader.read ElementFormat.text.readValues
  let values ← Loader.read format.readValues
  if keys.length != values.length then
    throw (.lengthMismatch keys.length values.length)
  let stop ← Loader.read Reader.position
  if stop - start != declared then
    throw (.lengthMismatch declared (stop - start))
  let entries := lastOccurrences (keys.zip values)
  let memo := if entries.length = keys.length then some declared else none
  Loader.update fun _ => ⟨entries, memo⟩

/-- Whether every one of the given entries has an equal value among the `others`.  The comparison
stops at the first that has not. -/
def sameEntries (format : ElementFormat α) :
    List (Text × α) → List (Text × α) → Bool × List (Text × α) × List (Text × α)
  | [], others => (true, [], others)
  | (key, value) :: rest, others =>
    match lookup? key.bytes others with
    | none => (false, (key, value) :: rest, others)
    | some other =>
      match format.same other value with
      | (true, other, value) =>
        let (answer, rest, others) :=
          sameEntries format rest (overwrite key.bytes other others)
        (answer, (key, value) :: rest, others)
      | (false, other, value) =>
        (false, (key, value) :: rest, overwrite key.bytes other others)

/-- Whether two dictionaries have the same keys and equal values under them, in whatever order. -/
def same (format : ElementFormat α) (left right : Dictionary α) :
    Bool × Dictionary α × Dictionary α :=
  if left.length = right.length then
    let (answer, leftEntries, rightEntries) := sameEntries format left.entries right.entries
    (answer, { left with entries := leftEntries }, { right with entries := rightEntries })
  else (false, left, right)

/-- The format of dictionaries. -/
def format (format : ElementFormat α) : ObjectFormat (Dictionary α) where
  empty := empty
  size := size format
  encode := encode format
  load := load format
  same := same format

/-- The given entries under the strings that their keys are, if all of them are strings. -/
def withStringKeys (entries : List (Text × α)) : Except CodecError (List (String × α)) :=
  entries.mapM fun entry => do return (← entry.1.read, entry.2)

/-- The entries under the strings that their keys are, if all of them are strings. -/
def toStringKeys (dictionary : Dictionary α) : Except CodecError (List (String × α)) :=
  withStringKeys dictionary.entries

/-- The dictionary that the given entries make if all their keys are strings.  Its keys count as
converted. -/
def ofStringKeys (entries : List (Text × α)) : Except CodecError (Dictionary α) := do
  return ofList ((← withStringKeys entries).map fun entry => (Text.ofString entry.1, entry.2))

/-- The entries in ascending order of the bytes of their keys. -/
def sorted (dictionary : Dictionary α) : List (Text × α) :=
  dictionary.entries.mergeSort fun left right => decide (left.1.bytes ≤ right.1.bytes)

end Dictionary

end FieldWire
