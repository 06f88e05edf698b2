import FieldWire.Proofs.Dictionary.Reference
import FieldWire.Proofs.Equivalence
import FieldWire.Proofs.Reuse

/-!
# Equality of dictionaries

Comparing two dictionaries goes one way only: there are as many entries on the left as on the right,
and each on the left has an equal one on the right.  Since no key is there twice, that is equality of
what is found under every key, and it does not matter in which order the entries are stored or where
they came from.
-/

set_option autoImplicit false

namespace FieldWire.Dictionary

variable {α : Type} {format : ElementFormat α} {Looked : α → α → Prop} {Domain : α → Prop}

/-! ## Dictionaries that can come about -/

/-- A look at one entry: at its value, or at its key, which is asked for its string. -/
inductive Glance (Looked : α → α → Prop) (dictionary : Dictionary α) : Dictionary α → Prop where
  | value {later : Dictionary α} (inside : Inside Looked dictionary later) :
      Glance Looked dictionary later
  | key {index : Nat} {key : Text} {value : α}
      (there : dictionary.entries[index]? = some (key, value)) :
      Glance Looked dictionary
        { dictionary with entries := dictionary.entries.set index (key.touch, value) }

/-- The states of a dictionary: it was made, changed, read, looked at or compared in any order, and
reading may have failed. -/
abbrev Reached (format : ElementFormat α) (Looked : α → α → Prop) : Dictionary α → Prop :=
  (Dictionary.format format).Reached (Step fun _ => True)
    ((Dictionary.format format).Peek (Glance Looked))

theorem nodup_of_step {dictionary later : Dictionary α}
    (distinct : (keyBytes dictionary.entries).Nodup) (step : Step (fun _ => True) dictionary later) :
    (keyBytes later.entries).Nodup := by
  cases step with
  | ofList => exact nodup_ofList _
  | @insert key value => exact nodup_foldl_insert [(key, value)] distinct
  | erase key =>
    rw [keyBytes_erase]
    exact distinct.erase key

theorem keyBytes_touch {entries : List (Text × α)} {index : Nat} {key : Text} {value : α}
    (there : entries[index]? = some (key, value)) :
    keyBytes (entries.set index (key.touch, value)) = keyBytes entries := by
  have same : (keyBytes entries)[index]? = some key.bytes := by
    rw [keyBytes, List.getElem?_map, there]
    rfl
  obtain ⟨inside, held⟩ := List.getElem?_eq_some_iff.mp same
  rw [keyBytes, List.map_set, ← keyBytes]
  change (keyBytes entries).set index key.bytes = _
  rw [← held, List.set_getElem_self]

/-- Looking leaves the keys as they are. -/
theorem keyBytes_of_peek {dictionary later : Dictionary α}
    (peek : (Dictionary.format format).Peek (Glance Looked) dictionary later) :
    keyBytes later.entries = keyBytes dictionary.entries := by
  let Rel (first second : Dictionary α) : Prop := keyBytes second.entries = keyBytes first.entries
  have elements : format.Follows fun _ _ => True :=
    ⟨fun _ => trivial, fun _ _ _ _ _ => trivial, fun _ => trivial, fun _ => trivial,
      fun _ _ => trivial, fun _ _ => trivial⟩
  have entries : ∀ (entries later : List (Text × α)) (memo : Option Nat),
      List.Forall₂ (SameKey fun _ _ => True) entries later → Rel ⟨entries, memo⟩ ⟨later, memo⟩ := by
    intro entries later memo same
    have texts := congrArg (List.map Text.bytes) (sameKey_parts same).1
    rwa [List.map_map, List.map_map] at texts
  have trans : ∀ first second third : Dictionary α, Rel first second → Rel second third →
      Rel first third := fun _ _ _ before after => after.trans before
  have size : ∀ dictionary : Dictionary α, Rel dictionary (dictionary.size format).2 := fun _ =>
    entries _ _ none (size_sameKey elements _)
  refine (follows elements trans size entries).of_peek (fun object later glance => ?_) peek
  cases glance with
  | value inside => exact rel_of_inside elements entries (fun _ _ _ => trivial) inside
  | key there => exact keyBytes_touch there

/-- No key is there twice. -/
theorem nodup_of_reached {dictionary : Dictionary α} (reached : Reached format Looked dictionary) :
    (keyBytes dictionary.entries).Nodup := by
  induction reached with
  | new => exact List.nodup_nil
  | change _ step ih => exact nodup_of_step ih step
  | look _ peek ih =>
    rw [keyBytes_of_peek peek]
    exact ih
  | @load dictionary limit bytes _ ih =>
    rw [ObjectFormat.loadFrom]
    split
    · rename_i later cursor ran
      cases read : readEntries format (Cursor.ofBytes bytes limit) with
      | ok found after =>
        obtain ⟨memo, loaded⟩ := load_of_readEntries_ok read dictionary
        cases loaded.symm.trans ran
        exact nodup_lastOccurrences _
      | error error after =>
        cases (load_of_readEntries_error read dictionary).symm.trans ran
    · rename_i error later cursor ran
      rw [eq_of_load_eq_error ran]
      exact ih

/-! ## What comparing finds out -/

/-- The entries with their keys as they are compared. -/
def pairs (dictionary : Dictionary α) : List (Bytes × α) :=
  dictionary.entries.map fun entry => (entry.1.bytes, entry.2)

theorem keys_pairs (dictionary : Dictionary α) :
    dictionary.pairs.map (·.1) = keyBytes dictionary.entries := by
  rw [pairs, List.map_map]
  rfl

theorem exists_of_lookup? {entries : List (Text × α)} {key : Bytes} {value : α}
    (found : lookup? key entries = some value) :
    ∃ entry ∈ entries, entry.1.bytes = key ∧ entry.2 = value := by
  induction entries with
  | nil => cases found
  | cons entry rest ih =>
    rw [lookup?] at found
    split at found
    · rename_i here
      exact ⟨entry, List.mem_cons_self, here, Option.some.inj found⟩
    · obtain ⟨other, inside, same⟩ := ih found
      exact ⟨other, List.mem_cons_of_mem _ inside, same⟩

theorem get?_eq_some_iff {dictionary : Dictionary α}
    (distinct : (keyBytes dictionary.entries).Nodup) {key : Bytes} {value : α} :
    dictionary.get? key = some value ↔ (key, value) ∈ dictionary.pairs := by
  constructor
  · intro found
    obtain ⟨entry, inside, rfl, rfl⟩ := exists_of_lookup? found
    exact List.mem_map_of_mem inside
  · intro member
    obtain ⟨entry, inside, same⟩ := List.mem_map.mp member
    cases same
    exact lookup?_of_mem distinct inside

/-- An entry on the left is compared once, with what was stored on the right from the start:
comparing the entries before it has touched other keys only. -/
theorem sameEntries_iff {entries : List (Text × α)} (distinct : (keyBytes entries).Nodup)
    (others : List (Text × α)) :
    (sameEntries format entries others).1 = true ↔
      ∀ entry ∈ entries, ∃ other, lookup? entry.1.bytes others = some other ∧
        (format.same other entry.2).1 = true := by
  induction entries generalizing others with
  | nil => simp [sameEntries]
  | cons entry rest ih =>
    obtain ⟨key, value⟩ := entry
    obtain ⟨fresh, distinctRest⟩ := List.nodup_cons.mp distinct
    rw [List.forall_mem_cons, sameEntries]
    cases found : lookup? key.bytes others with
    | none => simp
    | some other =>
      have there : key.bytes ∈ keyBytes others :=
        (lookup?_isSome_iff _ _).mp (Option.isSome_of_eq_some found)
      -- what comparing leaves behind is written under a key that no later entry has
      have kept : ∀ later, ∀ entry ∈ rest,
          lookup? entry.1.bytes (overwrite key.bytes later others) = lookup? entry.1.bytes others := by
        intro later entry member
        rw [lookup?_overwrite there, Function.update_of_ne (ne_of_mem fresh member)]
      rcases compared : format.same other value with ⟨_ | _, otherLater, valueLater⟩
      · simp [compared]
      · have tail := ih distinctRest (overwrite key.bytes otherLater others)
        simp only [compared, Option.some.injEq, exists_eq_left', true_and]
        rw [tail]
        exact forall₂_congr fun entry member => by rw [kept _ entry member]

theorem same_iff {left : Dictionary α} (distinct : (keyBytes left.entries).Nodup)
    (right : Dictionary α) :
    (left.same format right).1 = true ↔ left.length = right.length ∧
      ∀ entry ∈ left.entries, ∃ other, right.get? entry.1.bytes = some other ∧
        (format.same other entry.2).1 = true := by
  rw [same]
  split
  · rename_i long
    exact (sameEntries_iff distinct right.entries).trans (and_iff_right long).symm
  · rename_i apart
    exact iff_of_false Bool.false_ne_true fun equal => apart equal.1

/-- Two dictionaries have the same keys, and equal values under each of them. -/
structure Agrees (format : ElementFormat α) (left right : Dictionary α) : Prop where
  keys : ∀ key, left.contains key = right.contains key
  values : ∀ key value other, left.get? key = some value → right.get? key = some other →
    (format.same value other).1 = true

/-- No key is there twice, and all values belong to a domain. -/
structure Keyed (Domain : α → Prop) (dictionary : Dictionary α) : Prop where
  distinct : (keyBytes dictionary.entries).Nodup
  values : ∀ entry ∈ dictionary.entries, Domain entry.2

variable {first second third left right : Dictionary α}

theorem Keyed.get? (keyed : Keyed Domain left) {key : Bytes} {value : α}
    (found : left.get? key = some value) : Domain value := by
  obtain ⟨entry, inside, _, rfl⟩ := exists_of_lookup? found
  exact keyed.values entry inside

theorem exists_get?_iff (dictionary : Dictionary α) (key : Bytes) :
    (∃ value, dictionary.get? key = some value) ↔ dictionary.contains key = true := by
  rw [contains, Option.isSome_iff_exists]

theorem perm_keyBytes_iff (one : Keyed Domain left) (two : Keyed Domain right) :
    (keyBytes left.entries).Perm (keyBytes right.entries) ↔
      ∀ key, left.contains key = right.contains key := by
  rw [List.perm_ext_iff_of_nodup one.distinct two.distinct]
  refine forall_congr' fun key => ?_
  rw [← contains_iff, ← contains_iff]
  exact Bool.eq_iff_iff.symm

theorem length_keyBytes (dictionary : Dictionary α) :
    (keyBytes dictionary.entries).length = dictionary.length := List.length_map _

/-- Every key on the left is one on the right, and there are not more of these: so they are all. -/
theorem perm_keyBytes_of_same (one : Keyed Domain left)
    (long : left.length = right.length)
    (found : ∀ entry ∈ left.entries, ∃ other, right.get? entry.1.bytes = some other ∧
      (format.same other entry.2).1 = true) :
    (keyBytes left.entries).Perm (keyBytes right.entries) := by
  have subset : keyBytes left.entries ⊆ keyBytes right.entries := by
    intro key member
    obtain ⟨entry, inside, rfl⟩ := List.mem_map.mp member
    obtain ⟨other, there, _⟩ := found entry inside
    exact (contains_iff right _).mp ((exists_get?_iff right _).mp ⟨other, there⟩)
  refine (List.subperm_of_subset one.distinct subset).perm_of_length_le ?_
  rw [length_keyBytes, length_keyBytes, long]

theorem same_iff_agrees (elements : EquivalenceOn format.same Domain) (one : Keyed Domain left)
    (two : Keyed Domain right) :
    (left.same format right).1 = true ↔ Agrees format left right := by
  rw [same_iff one.distinct]
  constructor
  · rintro ⟨long, found⟩
    refine ⟨(perm_keyBytes_iff one two).mp (perm_keyBytes_of_same one long found), ?_⟩
    intro key value other here there
    obtain ⟨entry, inside, rfl, rfl⟩ := exists_of_lookup? here
    obtain ⟨again, thereAgain, equal⟩ := found entry inside
    cases there.symm.trans thereAgain
    exact elements.symm _ _ (two.get? there) (one.values entry inside) equal
  · intro agrees
    have perm := (perm_keyBytes_iff one two).mpr agrees.keys
    refine ⟨?_, fun entry inside => ?_⟩
    · rw [← length_keyBytes, ← length_keyBytes, perm.length_eq]
    · have here : left.get? entry.1.bytes = some entry.2 := lookup?_of_mem one.distinct inside
      obtain ⟨other, there⟩ := (exists_get?_iff right entry.1.bytes).mpr
        ((agrees.keys _).symm.trans ((exists_get?_iff left _).mp ⟨_, here⟩))
      have equal := agrees.values _ _ _ here there
      exact ⟨other, there, elements.symm _ _ (one.get? here) (two.get? there) equal⟩

/-! ## An equivalence that forgets the order -/

theorem agrees_refl (elements : EquivalenceOn format.same Domain) (one : Keyed Domain left) :
    Agrees format left left where
  keys _ := rfl
  values key value other here there := by
    cases here.symm.trans there
    exact elements.refl value (one.get? here)

theorem Agrees.symm (elements : EquivalenceOn format.same Domain) (one : Keyed Domain left)
    (two : Keyed Domain right) (agrees : Agrees format left right) : Agrees format right left where
  keys key := (agrees.keys key).symm
  values key value other here there :=
    elements.symm _ _ (one.get? there) (two.get? here) (agrees.values key other value there here)

theorem Agrees.trans (elements : EquivalenceOn format.same Domain) (one : Keyed Domain first)
    (two : Keyed Domain second) (three : Keyed Domain third) (front : Agrees format first second)
    (back : Agrees format second third) : Agrees format first third where
  keys key := (front.keys key).trans (back.keys key)
  values key value other here there := by
    obtain ⟨middle, between⟩ := (exists_get?_iff second key).mpr
      ((front.keys key).symm.trans ((exists_get?_iff first key).mp ⟨value, here⟩))
    exact elements.trans _ _ _ (one.get? here) (two.get? between) (three.get? there)
      (front.values key _ _ here between) (back.values key _ _ between there)

theorem equivalence (elements : EquivalenceOn format.same Domain) :
    EquivalenceOn (Dictionary.same format) (Keyed Domain) where
  refl _ one := (same_iff_agrees elements one one).mpr (agrees_refl elements one)
  symm _ _ one two equal := (same_iff_agrees elements two one).mpr
    (((same_iff_agrees elements one two).mp equal).symm elements one two)
  trans _ _ _ one two three front back := (same_iff_agrees elements one three).mpr
    (((same_iff_agrees elements one two).mp front).trans elements one two three
      ((same_iff_agrees elements two three).mp back))

/-- What is found under the keys does not depend on the order of the entries. -/
theorem get?_of_perm (distinct : (keyBytes first.entries).Nodup) (perm : first.pairs.Perm second.pairs)
    (key : Bytes) : first.get? key = second.get? key := by
  have keys := perm.map (·.1)
  rw [keys_pairs, keys_pairs] at keys
  ext value
  rw [get?_eq_some_iff distinct, get?_eq_some_iff (keys.nodup_iff.mp distinct), perm.mem_iff]

theorem Keyed.of_perm (keyed : Keyed Domain first) (perm : first.pairs.Perm second.pairs) :
    Keyed Domain second where
  distinct := by
    have keys := perm.map (·.1)
    rw [keys_pairs, keys_pairs] at keys
    exact keys.nodup_iff.mp keyed.distinct
  values entry inside := by
    have member := perm.mem_iff.mpr (List.mem_map_of_mem inside)
    exact keyed.get? ((get?_eq_some_iff keyed.distinct).mpr member)

/-- They are equal, and nothing that they are compared with tells them apart. -/
structure Interchangeable (format : ElementFormat α) (Others : Dictionary α → Prop)
    (first second : Dictionary α) : Prop where
  equal : (first.same format second).1 = true
  left : ∀ other, Others other → (first.same format other).1 = (second.same format other).1
  right : ∀ other, Others other → (other.same format first).1 = (other.same format second).1

/-- An answer depends on nothing but what is found under the keys. -/
theorem interchangeable_of_get? (elements : EquivalenceOn format.same Domain)
    (one : Keyed Domain first) (two : Keyed Domain second)
    (found : ∀ key, first.get? key = second.get? key) :
    Interchangeable format (Keyed Domain) first second := by
  have equal : (first.same format second).1 = true := by
    rw [same_iff_agrees elements one two]
    refine ⟨fun key => ?_, fun key value other here there => ?_⟩
    · rw [contains, contains, found]
    · rw [found, there] at here
      cases here
      exact elements.refl _ (two.get? there)
  have whole := equivalence elements
  have back := whole.symm _ _ one two equal
  refine ⟨equal, fun other three => ?_, fun other three => ?_⟩
  · rw [Bool.eq_iff_iff]
    exact ⟨whole.trans _ _ _ two one three back, whole.trans _ _ _ one two three equal⟩
  · rw [Bool.eq_iff_iff]
    exact ⟨fun same => whole.trans _ _ _ three one two same equal,
      fun same => whole.trans _ _ _ three two one same back⟩

/-! ## From wherever they come -/

/-- What is read and what is inserted hold the same under every key. -/
theorem get?_loadFrom {limit declared : Nat} {bytes : Bytes} {entries : List (Text × α)}
    {after : Cursor}
    (read : readEntries format (Cursor.ofBytes bytes limit) = .ok (declared, entries) after)
    (start : Dictionary α) (key : Bytes) :
    ((Dictionary.format format).loadFrom limit bytes start).2.1.get? key =
      (ofList entries).get? key := by
  obtain ⟨memo, loaded⟩ := load_of_readEntries_ok read start
  change (Dictionary.format format).load _ = _ at loaded
  rw [ObjectFormat.loadFrom, loaded, get?_ofList, ← lookup?_lastOccurrences]
  rfl

theorem keyed_ofList {entries : List (Text × α)} (each : ∀ entry ∈ entries, Domain entry.2) :
    Keyed Domain (ofList entries) where
  distinct := nodup_ofList entries
  values entry inside := by
    have found : (ofList entries).get? entry.1.bytes = some entry.2 :=
      lookup?_of_mem (nodup_ofList entries) inside
    rw [get?_ofList] at found
    obtain ⟨given, member, _, same⟩ := exists_of_lookup? found
    exact same ▸ each given (List.mem_reverse.mp member)

theorem keyed_loadFrom {limit declared : Nat} {bytes : Bytes} {entries : List (Text × α)}
    {after : Cursor}
    (read : readEntries format (Cursor.ofBytes bytes limit) = .ok (declared, entries) after)
    (each : ∀ entry ∈ entries, Domain entry.2) (start : Dictionary α) :
    Keyed Domain ((Dictionary.format format).loadFrom limit bytes start).2.1 := by
  obtain ⟨memo, loaded⟩ := load_of_readEntries_ok read start
  change (Dictionary.format format).load _ = _ at loaded
  rw [ObjectFormat.loadFrom, loaded]
  exact ⟨nodup_lastOccurrences _, fun entry inside =>
    each entry ((lastOccurrences_sublist entries).subset inside)⟩

/-- Equality of some dictionaries is equality of what stands under their keys. -/
structure Extensional (format : ElementFormat α) (Domain : α → Prop)
    (Maps : Dictionary α → Prop) : Prop where
  agrees : ∀ left right, Maps left → Maps right →
    ((left.same format right).1 = true ↔ Agrees format left right)
  equivalence : EquivalenceOn (Dictionary.same format) Maps
  /-- The order of the entries does not count, nor whether a key was converted. -/
  reordered : ∀ first second, Maps first → first.pairs.Perm second.pairs →
    Interchangeable format Maps first second
  /-- It does not count either whether the entries were inserted one after the other or read. -/
  received : ∀ limit bytes declared entries after, (∀ entry ∈ entries, Domain entry.2) →
    readEntries format (Cursor.ofBytes bytes limit) = .ok (declared, entries) after →
    ∀ start, Interchangeable format Maps
      ((Dictionary.format format).loadFrom limit bytes start).2.1 (ofList entries)

theorem Interchangeable.mono {Others Narrow : Dictionary α → Prop}
    (interchangeable : Interchangeable format Others first second)
    (inside : ∀ other, Narrow other → Others other) : Interchangeable format Narrow first second where
  equal := interchangeable.equal
  left other holds := interchangeable.left other (inside other holds)
  right other holds := interchangeable.right other (inside other holds)

/-- Whatever was done with dictionaries, and in whatever order their entries are. -/
theorem extensional_of_reached (format : ElementFormat α) (Looked : α → α → Prop)
    (elements : EquivalenceOn format.same Domain) :
    Extensional format Domain fun dictionary =>
      Reached format Looked dictionary ∧ ∀ entry ∈ dictionary.entries, Domain entry.2 := by
  have keyed : ∀ dictionary, Reached format Looked dictionary ∧
      (∀ entry ∈ dictionary.entries, Domain entry.2) → Keyed Domain dictionary :=
    fun _ maps => ⟨nodup_of_reached maps.1, maps.2⟩
  refine ⟨fun left right one two => ?_, (equivalence elements).mono keyed, ?_, ?_⟩
  · exact same_iff_agrees elements (keyed left one) (keyed right two)
  · intro first second one perm
    have found := get?_of_perm (keyed first one).distinct perm
    exact (interchangeable_of_get? elements (keyed first one) ((keyed first one).of_perm perm)
      found).mono keyed
  · intro limit bytes declared entries after each read start
    have found := get?_loadFrom read start
    exact (interchangeable_of_get? elements (keyed_loadFrom read each start) (keyed_ofList each)
      found).mono keyed

/-- Two entries, inserted in one order and read in the other with a raw key, and then looked at. -/
theorem extensional_of_reached_example :
    let format := ElementFormat.integer .int
    let Looked : Integer .int → Integer .int → Prop := Eq
    let inserted := ofList [(Text.ofString "a", (⟨1, by decide, by decide⟩ : Integer .int)),
      (Text.ofString "b", ⟨2, by decide, by decide⟩)]
    let read := ((Dictionary.format format).loadFrom 100
      [0x20, 0x08, 0x04, 0x62, 0x04, 0x61, 0x09, 0x04, 0x02] empty).2.1
    EquivalenceOn format.same (fun _ => True) ∧ Reached format Looked inserted ∧
      Reached format Looked read ∧ keyBytes inserted.entries ≠ keyBytes read.entries ∧
      (inserted.same format read).1 = true ∧ Agrees format read inserted := by
  intro format Looked inserted read
  have elements : EquivalenceOn format.same fun _ => True := ElementFormat.integer_equivalence .int _
  have one : Reached format Looked inserted := .change .new (.ofList fun _ _ => trivial)
  have two : Reached format Looked read := .load 100 _ .new
  have extensional := extensional_of_reached format Looked elements
  have equal : (inserted.same format read).1 = true := by decide
  refine ⟨elements, one, two, by decide, equal, ?_⟩
  have back := extensional.equivalence.symm inserted read ⟨one, fun _ _ => trivial⟩
    ⟨two, fun _ _ => trivial⟩ equal
  exact (extensional.agrees read inserted ⟨two, fun _ _ => trivial⟩ ⟨one, fun _ _ => trivial⟩).mp back

end FieldWire.Dictionary
