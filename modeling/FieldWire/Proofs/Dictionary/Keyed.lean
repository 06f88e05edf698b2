import FieldWire.Proofs.Built
import Mathlib.Data.List.Dedup
import Mathlib.Logic.Function.Basic

/-!
# Entries under keys

What each operation on entries does to the two things that can be seen of them: the order of their
keys, and the value under each key.  The value under a key is a function of the key, so that a write
is an update of that function.
-/

set_option autoImplicit false

namespace FieldWire.Dictionary

variable {α : Type}

/-! ## Lookup -/

theorem keyBytes_eq (entries : List (Text × α)) :
    keyBytes entries = (entries.map (·.1)).map Text.bytes :=
  List.map_map.symm

theorem keyBytes_append (front back : List (Text × α)) :
    keyBytes (front ++ back) = keyBytes front ++ keyBytes back :=
  List.map_append

theorem lookup?_of_notMem {key : Bytes} {entries : List (Text × α)}
    (missing : key ∉ keyBytes entries) : lookup? key entries = none := by
  rwa [← lookup?_isSome_iff, Bool.not_eq_true, Option.isSome_eq_false_iff,
    Option.isNone_iff_eq_none] at missing

theorem lookup?_append (key : Bytes) (front back : List (Text × α)) :
    lookup? key (front ++ back) = (lookup? key front).or (lookup? key back) := by
  induction front with
  | nil => rfl
  | cons entry rest ih =>
    obtain ⟨other, value⟩ := entry
    rw [List.cons_append, lookup?, lookup?]
    split
    · rfl
    · exact ih

theorem ne_of_mem {key : Bytes} {entries : List (Text × α)} (missing : key ∉ keyBytes entries)
    {entry : Text × α} (member : entry ∈ entries) : entry.1.bytes ≠ key := by
  rintro rfl
  exact missing (List.mem_map_of_mem (f := fun entry => entry.1.bytes) member)

/-- Under distinct keys every entry is found. -/
theorem lookup?_of_mem {entries : List (Text × α)} (distinct : (keyBytes entries).Nodup)
    {entry : Text × α} (member : entry ∈ entries) :
    lookup? entry.1.bytes entries = some entry.2 := by
  induction entries with
  | nil => cases member
  | cons first rest ih =>
    obtain ⟨key, value⟩ := first
    obtain ⟨fresh, distinctRest⟩ := List.nodup_cons.mp distinct
    rcases List.mem_cons.mp member with rfl | inside
    · rw [lookup?, if_pos rfl]
    · rw [lookup?, if_neg (ne_of_mem fresh inside).symm]
      exact ih distinctRest inside

theorem lookup?_overwrite {key : Bytes} {entries : List (Text × α)} (there : key ∈ keyBytes entries)
    (value : α) (other : Bytes) :
    lookup? other (overwrite key value entries) =
      Function.update (fun key => lookup? key entries) key (some value) other := by
  induction entries with
  | nil => cases there
  | cons entry rest ih =>
    obtain ⟨first, old⟩ := entry
    rw [overwrite]
    by_cases here : first.bytes = key
    · rw [if_pos here, lookup?]
      subst here
      by_cases same : first.bytes = other
      · rw [if_pos same, ← same, Function.update_self]
      · rw [if_neg same, Function.update_of_ne (Ne.symm same), lookup?, if_neg same]
    · have later : key ∈ keyBytes rest := (List.mem_cons.mp there).resolve_left (Ne.symm here)
      rw [if_neg here, lookup?, ih later]
      by_cases same : first.bytes = other
      · have apart : other ≠ key := same ▸ here
        rw [if_pos same, Function.update_of_ne apart, lookup?, if_pos same]
      · rw [if_neg same]
        by_cases aim : other = key
        · rw [aim, Function.update_self, Function.update_self]
        · rw [Function.update_of_ne aim, Function.update_of_ne aim, lookup?, if_neg same]

theorem keyBytes_eraseKey (key : Bytes) (entries : List (Text × α)) :
    keyBytes (eraseKey key entries) = (keyBytes entries).erase key := by
  induction entries with
  | nil => rfl
  | cons entry rest ih =>
    obtain ⟨first, value⟩ := entry
    rw [eraseKey]
    change _ = (first.bytes :: keyBytes rest).erase key
    by_cases here : first.bytes = key
    · rw [if_pos here, here, List.erase_cons_head]
    · rw [if_neg here, List.erase_cons_tail (by simpa using here), ← ih]
      rfl

/-- Only the first entry with the key is removed, so the key must not come again. -/
theorem lookup?_eraseKey {entries : List (Text × α)} (distinct : (keyBytes entries).Nodup)
    (key other : Bytes) :
    lookup? other (eraseKey key entries) =
      Function.update (fun key => lookup? key entries) key none other := by
  by_cases aim : other = key
  · have gone : key ∉ keyBytes (eraseKey key entries) := by
      rw [keyBytes_eraseKey]
      exact distinct.not_mem_erase
    rw [aim, Function.update_self, lookup?_of_notMem gone]
  · rw [Function.update_of_ne aim]
    induction entries with
    | nil => rfl
    | cons entry rest ih =>
      obtain ⟨first, value⟩ := entry
      rw [eraseKey]
      split
      · rename_i here
        rw [lookup?, if_neg (fun same => aim (same.symm.trans here))]
      · rw [lookup?, lookup?, ih (List.nodup_cons.mp distinct).2]

/-! ## Last occurrences -/

theorem keyBytes_lastOccurrences (entries : List (Text × α)) :
    keyBytes (lastOccurrences entries) = (keyBytes entries).dedup := by
  induction entries with
  | nil => rfl
  | cons entry rest ih =>
    obtain ⟨key, value⟩ := entry
    change _ = (key.bytes :: keyBytes rest).dedup
    rw [lastOccurrences]
    split
    · rename_i again
      rw [List.dedup_cons_of_mem ((lookup?_isSome_iff _ _).mp again), ih]
    · rename_i last
      rw [List.dedup_cons_of_notMem (fun member => last ((lookup?_isSome_iff _ _).mpr member)), ← ih]
      rfl

/-- The value that is kept for a key is the one that comes last. -/
theorem lookup?_lastOccurrences (key : Bytes) (entries : List (Text × α)) :
    lookup? key (lastOccurrences entries) = lookup? key entries.reverse := by
  induction entries with
  | nil => rfl
  | cons entry rest ih =>
    obtain ⟨first, value⟩ := entry
    rw [List.reverse_cons, lookup?_append, ← ih, lastOccurrences]
    split
    · rename_i again
      by_cases here : first.bytes = key
      · have kept : (lookup? key (lastOccurrences rest)).isSome = true := by
          rw [lookup?_isSome_iff, keyBytes_lastOccurrences, List.mem_dedup, ← lookup?_isSome_iff,
            ← here]
          exact again
        obtain ⟨found, there⟩ := Option.isSome_iff_exists.mp kept
        rw [there, Option.some_or]
      · rw [lookup?, if_neg here, lookup?, Option.or_none]
    · rename_i last
      rw [lookup?]
      by_cases here : first.bytes = key
      · have gone : key ∉ keyBytes (lastOccurrences rest) := by
          rw [keyBytes_lastOccurrences, List.mem_dedup, ← lookup?_isSome_iff, ← here]
          exact last
        rw [if_pos here, lookup?_of_notMem gone, Option.none_or, lookup?, if_pos here]
      · rw [if_neg here, lookup?, if_neg here, lookup?, Option.or_none]

/-! ## Dictionaries -/

theorem contains_iff (dictionary : Dictionary α) (key : Bytes) :
    dictionary.contains key = true ↔ key ∈ keyBytes dictionary.entries :=
  lookup?_isSome_iff key dictionary.entries

theorem insert_fst (dictionary : Dictionary α) (key : Text) (value : α) :
    (dictionary.insert key value).1 = dictionary.get? key.bytes := by
  rw [insert]
  split
  · rename_i there
    exact there.symm
  · rename_i missing
    exact missing.symm

/-- A new key goes to the end, and one that is there stays where it is. -/
theorem keyBytes_insert (dictionary : Dictionary α) (key : Text) (value : α) :
    keyBytes (dictionary.insert key value).2.entries =
      if key.bytes ∈ keyBytes dictionary.entries then keyBytes dictionary.entries
      else keyBytes dictionary.entries ++ [key.bytes] := by
  rw [insert]
  split
  · rename_i there
    have member := (lookup?_isSome_iff _ _).mp (Option.isSome_of_eq_some there)
    rw [if_pos member]
    exact keyBytes_overwrite key.bytes value dictionary.entries
  · rename_i missing
    have fresh : key.bytes ∉ keyBytes dictionary.entries := by
      rw [← lookup?_isSome_iff, ← get?, missing]
      exact Bool.false_ne_true
    rw [if_neg fresh]
    exact keyBytes_append dictionary.entries [(key, value)]

theorem get?_insert (dictionary : Dictionary α) (key : Text) (value : α) (other : Bytes) :
    (dictionary.insert key value).2.get? other =
      Function.update dictionary.get? key.bytes (some value) other := by
  rw [insert]
  split
  · rename_i there
    exact lookup?_overwrite ((lookup?_isSome_iff _ _).mp (Option.isSome_of_eq_some there)) value other
  · rename_i missing
    change lookup? other (dictionary.entries ++ [(key, value)]) = _
    rw [lookup?_append]
    by_cases aim : other = key.bytes
    · subst aim
      have none : lookup? key.bytes dictionary.entries = none := missing
      rw [none, Option.none_or, Function.update_self, lookup?, if_pos rfl]
    · rw [Function.update_of_ne aim, lookup?, if_neg (Ne.symm aim), lookup?, Option.or_none]
      rfl

theorem erase_fst (dictionary : Dictionary α) (key : Bytes) :
    (dictionary.erase key).1 = dictionary.get? key := by
  rw [erase]
  split
  · rename_i there
    exact there.symm
  · rename_i missing
    exact missing.symm

/-- The other keys stay in order. -/
theorem keyBytes_erase (dictionary : Dictionary α) (key : Bytes) :
    keyBytes (dictionary.erase key).2.entries = (keyBytes dictionary.entries).erase key := by
  rw [erase]
  split
  · exact keyBytes_eraseKey key dictionary.entries
  · rename_i missing
    have absent : key ∉ keyBytes dictionary.entries := by
      rw [← lookup?_isSome_iff, ← get?, missing]
      exact Bool.false_ne_true
    rw [List.erase_of_not_mem absent]

theorem get?_erase {dictionary : Dictionary α} (distinct : (keyBytes dictionary.entries).Nodup)
    (key other : Bytes) :
    (dictionary.erase key).2.get? other = Function.update dictionary.get? key none other := by
  rw [erase]
  split
  · exact lookup?_eraseKey distinct key other
  · rename_i missing
    by_cases aim : other = key
    · rw [aim, Function.update_self, missing]
    · rw [Function.update_of_ne aim]

/-! ## Insertion one after the other -/

/-- The last value that was inserted under a key is the one that is found. -/
theorem get?_foldl_insert (entries : List (Text × α)) (start : Dictionary α) (key : Bytes) :
    (entries.foldl (fun dictionary entry => (dictionary.insert entry.1 entry.2).2) start).get? key =
      (lookup? key entries.reverse).or (start.get? key) := by
  induction entries generalizing start with
  | nil => rfl
  | cons entry rest ih =>
    obtain ⟨first, value⟩ := entry
    rw [List.foldl_cons, ih, get?_insert, List.reverse_cons, lookup?_append, Option.or_assoc]
    congr 1
    by_cases here : first.bytes = key
    · rw [here, Function.update_self, lookup?, if_pos here, Option.some_or]
    · rw [Function.update_of_ne (Ne.symm here), lookup?, if_neg here, lookup?, Option.none_or]

theorem get?_ofList (entries : List (Text × α)) (key : Bytes) :
    (ofList entries).get? key = lookup? key entries.reverse := by
  rw [ofList, get?_foldl_insert]
  exact Option.or_none

theorem nodup_foldl_insert (entries : List (Text × α)) {start : Dictionary α}
    (distinct : (keyBytes start.entries).Nodup) :
    (keyBytes (entries.foldl (fun dictionary entry => (dictionary.insert entry.1 entry.2).2)
      start).entries).Nodup := by
  induction entries generalizing start with
  | nil => exact distinct
  | cons entry rest ih =>
    apply ih
    rw [keyBytes_insert]
    split
    · exact distinct
    · rename_i fresh
      exact List.nodup_append.mpr ⟨distinct, List.nodup_singleton _, fun key there other here same =>
        fresh (List.mem_singleton.mp here ▸ same ▸ there)⟩

theorem nodup_ofList (entries : List (Text × α)) : (keyBytes (ofList entries).entries).Nodup :=
  nodup_foldl_insert entries List.nodup_nil

theorem mem_keyBytes_ofList (entries : List (Text × α)) (key : Bytes) :
    key ∈ keyBytes (ofList entries).entries ↔ key ∈ keyBytes entries := by
  rw [← lookup?_isSome_iff, ← get?, get?_ofList, lookup?_isSome_iff, keyBytes, List.map_reverse,
    List.mem_reverse, ← keyBytes]

/-- However often its keys come, a list of entries has as many places as it has keys. -/
theorem length_ofList (entries : List (Text × α)) :
    (ofList entries).length = (keyBytes entries).dedup.length := by
  have same : (keyBytes (ofList entries).entries).Perm (keyBytes entries).dedup := by
    rw [List.perm_ext_iff_of_nodup (nodup_ofList entries) (List.nodup_dedup _)]
    intro key
    rw [mem_keyBytes_ofList, List.mem_dedup]
  rw [← same.length_eq, keyBytes, List.length_map]
  rfl

/-- Entries with distinct keys are stored as they come. -/
theorem foldl_insert_of_nodup {entries : List (Text × α)} {start : Dictionary α}
    (forgotten : start.memo = none) (distinct : (keyBytes (start.entries ++ entries)).Nodup) :
    entries.foldl (fun dictionary entry => (dictionary.insert entry.1 entry.2).2) start =
      ⟨start.entries ++ entries, none⟩ := by
  induction entries generalizing start with
  | nil =>
    obtain ⟨held, memo⟩ := start
    cases forgotten
    rw [List.append_nil]
    rfl
  | cons entry rest ih =>
    have apart := distinct
    rw [keyBytes_append] at apart
    have fresh : entry.1.bytes ∉ keyBytes start.entries := fun there =>
      (List.nodup_append.mp apart).2.2 _ there _ List.mem_cons_self rfl
    have added : (start.insert entry.1 entry.2).2 = ⟨start.entries ++ [entry], none⟩ := by
      have missing : start.get? entry.1.bytes = none := lookup?_of_notMem fresh
      rw [insert, missing]
    rw [List.foldl_cons, added, ih rfl (by rwa [List.append_assoc]), List.append_assoc]
    rfl

theorem ofList_of_nodup {entries : List (Text × α)} (distinct : (keyBytes entries).Nodup) :
    ofList entries = ⟨entries, none⟩ :=
  foldl_insert_of_nodup rfl distinct

/-! ## Strings as keys -/

theorem withStringKeys_cons (entry : Text × α) (rest : List (Text × α)) :
    withStringKeys (entry :: rest) = do
      let string ← entry.1.read
      let strings ← withStringKeys rest
      return (string, entry.2) :: strings := by
  simp only [withStringKeys, List.mapM_cons, bind_assoc, pure_bind]

/-- Keys that are converted stay the same keys. -/
theorem withStringKeys_eq_ok_iff {entries : List (Text × α)} {strings : List (String × α)} :
    withStringKeys entries = .ok strings ↔
      strings.map (fun entry => (Text.utf8 entry.1, entry.2)) =
        entries.map fun entry => (entry.1.bytes, entry.2) := by
  induction entries generalizing strings with
  | nil =>
    rw [List.map_nil, List.map_eq_nil_iff]
    exact ⟨fun converted => (Except.ok.inj converted).symm, fun none => none ▸ rfl⟩
  | cons entry rest ih =>
    rw [withStringKeys_cons]
    constructor
    · intro converted
      cases first : entry.1.read with
      | error error =>
        rw [first] at converted
        cases converted
      | ok string =>
        cases others : withStringKeys rest with
        | error error =>
          rw [first, others] at converted
          cases converted
        | ok more =>
          rw [first, others] at converted
          cases converted
          rw [List.map_cons, List.map_cons, ih.mp others, Text.read_eq_ok_iff.mp first]
    · intro same
      cases strings with
      | nil => cases same
      | cons string strings =>
        obtain ⟨head, tail⟩ := List.cons_eq_cons.mp same
        obtain ⟨key, value⟩ := Prod.mk.inj head
        rw [Text.read_eq_ok_iff.mpr key, ih.mpr tail, ← value]
        rfl

/-- The conversion fails if and only if some key is not a string. -/
theorem withStringKeys_eq_error_iff {entries : List (Text × α)} {error : CodecError} :
    withStringKeys entries = .error error ↔
      error = .invalidUtf8 ∧ ∃ key ∈ keyBytes entries, Text.decode? key = none := by
  induction entries with
  | nil =>
    constructor
    · intro failed
      cases failed
    · rintro ⟨_, key, member, _⟩
      cases member
  | cons entry rest ih =>
    have keys : keyBytes (entry :: rest) = entry.1.bytes :: keyBytes rest := rfl
    rw [withStringKeys_cons, keys, List.exists_mem_cons_iff, Text.read, Text.string?]
    cases decoded : Text.decode? entry.1.bytes with
    | none =>
      constructor
      · intro failed
        cases failed
        exact ⟨rfl, .inl rfl⟩
      · rintro ⟨rfl, _⟩
        rfl
    | some string =>
      have only : (some string = none ∨ ∃ key ∈ keyBytes rest, Text.decode? key = none) ↔
          ∃ key ∈ keyBytes rest, Text.decode? key = none := by simp
      rw [only, ← ih]
      cases withStringKeys rest with
      | ok strings => exact iff_of_false (fun failed => by cases failed) fun failed => by cases failed
      | error other => exact Iff.rfl

/-- Keys that were made from strings give those strings back. -/
theorem ofStringKeys_ofString (entries : List (String × α)) :
    ofStringKeys (entries.map fun entry => (Text.ofString entry.1, entry.2)) =
      .ok (ofList (entries.map fun entry => (Text.ofString entry.1, entry.2))) := by
  have converted : withStringKeys (entries.map fun entry => (Text.ofString entry.1, entry.2)) =
      .ok entries := by
    rw [withStringKeys_eq_ok_iff, List.map_map]
    rfl
  rw [ofStringKeys, converted]
  rfl

/-- Different strings are different keys. -/
theorem nodup_ofString {entries : List (String × α)} (distinct : (entries.map (·.1)).Nodup) :
    (keyBytes (entries.map fun entry => (Text.ofString entry.1, entry.2))).Nodup := by
  have keys : keyBytes (entries.map fun entry => (Text.ofString entry.1, entry.2)) =
      (entries.map (·.1)).map Text.utf8 := by
    rw [keyBytes, List.map_map, List.map_map]
    rfl
  rw [keys]
  exact distinct.map Text.utf8_injective

end FieldWire.Dictionary
