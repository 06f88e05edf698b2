import FieldWire.Proofs.Accepts
import FieldWire.Proofs.Confined

/-!
# What reading costs

A metered reader does what a reader does and keeps a ledger: for which counts room was reserved, what
was left of the buffer at that time, and how many elements have been read on all levels.  Reading a
tree has a number of nested calls that does not depend on the buffer, and halts in a way of its own
when it runs out of them.

Every element pays with a byte that no other element pays with, and every nested call takes two.  So
no more elements are read than bytes are taken, and more than half as many calls as there are bytes
are never used up.
-/

set_option autoImplicit false

namespace FieldWire

/-- Room that was reserved for some elements. -/
structure Reservation where
  count : Nat
  scheme : WireType
  /-- The bytes that were left. -/
  remaining : Nat
  /-- The limit that was in force. -/
  limit : Nat

/-- What has been spent. -/
structure Ledger where
  reservations : List Reservation
  /-- The elements that were read, whether or not they were kept. -/
  elements : Nat

namespace Ledger

def empty : Ledger := ⟨[], 0⟩

/-- Even the shortest elements of the wire type, as many as room was reserved for, keep to the limit
and to what is left. -/
def Covered (ledger : Ledger) : Prop :=
  ∀ room ∈ ledger.reservations,
    room.count * room.scheme.minimalWidth ≤ room.remaining ∧
      room.count * room.scheme.minimalWidth ≤ room.limit

theorem covered_empty : empty.Covered := by
  simp [Covered, empty]

end Ledger

/-- Why a metered reader stops. -/
inductive Halt where
  | refused (error : CodecError)
  /-- There are no nested calls left. -/
  | tooDeep

/-- A reader that keeps a ledger. -/
abbrev Metered (α : Type) := EStateM Halt (Cursor × Ledger) α

namespace Metered

variable {α β : Type}

/-- A reader that neither reserves room nor reads elements. -/
def lift (reader : Reader α) : Metered α := fun (cursor, ledger) =>
  match reader cursor with
  | .ok value after => .ok value (after, ledger)
  | .error error after => .error (.refused error) (after, ledger)

/-- An element of a collection. -/
def counted (element : Metered α) : Metered α := do
  let value ← element
  modify fun (cursor, ledger) => (cursor, { ledger with elements := ledger.elements + 1 })
  return value

/-- A count, with room reserved for it. -/
def reserved (scheme : WireType) : Metered Nat := do
  let count ← lift (Reader.count scheme)
  modify fun (cursor, ledger) => (cursor, { ledger with
    reservations := ledger.reservations ++ [⟨count, scheme, cursor.rest.length, cursor.limit⟩] })
  return count

def readMany (element : Metered α) : Nat → Metered (List α)
  | 0 => return []
  | count + 1 => do
    let value ← counted element
    let values ← readMany element count
    return value :: values

def readValues (scheme : WireType) (element : Metered α) : Metered (List α) := do
  readMany element (← reserved scheme)

def sequence (scheme : WireType) (element : Metered α) : Metered (Sequence α) := do
  let declared ← lift Reader.openSpan
  let start ← lift Reader.position
  let items ← readValues scheme element
  let stop ← lift Reader.position
  if stop - start != declared then
    throw (.refused (.lengthMismatch declared (stop - start)))
  return ⟨items, some declared⟩

def dictionary (scheme : WireType) (element : Metered α) : Metered (Dictionary α) := do
  let declared ← lift Reader.openSpan
  let start ← lift Reader.position
  let keys ← readValues .list (lift Reader.text)
  let values ← readValues scheme element
  if keys.length != values.length then
    throw (.refused (.lengthMismatch keys.length values.length))
  let stop ← lift Reader.position
  if stop - start != declared then
    throw (.refused (.lengthMismatch declared (stop - start)))
  return Dictionary.collapse keys values declared

/-- Trees, with so many calls of which each is nested in the one before. -/
def tree : Nat → Metered Tree
  | 0 => throw .tooDeep
  | calls + 1 => do return .node (← sequence .list (tree calls))

/-! ## Metered readers and readers -/

/-- What a metered reader that succeeded has done: room was covered, so much was counted for the
value, and the bytes that were taken pay for the elements with `cost` bytes to spare. -/
structure Paid (cursor : Cursor) (ledger : Ledger) (after : Cursor) (later : Ledger)
    (weight cost : Nat) : Prop where
  covered : ledger.Covered → later.Covered
  counted : ledger.elements + weight ≤ later.elements
  paid : later.elements + cost + after.rest.length ≤ ledger.elements + cursor.rest.length
  consumed : after.rest.length + cost ≤ cursor.rest.length

/-- A metered reader does what a reader does from every cursor with less than `room` bytes left. -/
structure Meters (metered : Metered α) (reader : Reader α) (weight : α → Nat)
    (room cost : Nat) : Prop where
  taken : ∀ {cursor after : Cursor} {value : α} (ledger : Ledger),
    cursor.rest.length < Reader.largestSize → cursor.rest.length < room →
      reader cursor = .ok value after →
        ∃ later, metered (cursor, ledger) = .ok value (after, later) ∧
          Paid cursor ledger after later (weight value) cost
  refused : ∀ {cursor after : Cursor} {error : CodecError} (ledger : Ledger),
    cursor.rest.length < Reader.largestSize → cursor.rest.length < room →
      reader cursor = .error error after →
        ∃ later, metered (cursor, ledger) = .error (.refused error) (after, later) ∧
          (ledger.Covered → later.Covered)

variable {metered : Metered α} {reader : Reader α} {weight : α → Nat} {room cost : Nat}

theorem Meters.mono (meters : Meters metered reader weight room cost) {less cheaper : Nat}
    (smaller : less ≤ room) (cheap : cheaper ≤ cost) : Meters metered reader weight less cheaper where
  taken ledger small inside read := by
    obtain ⟨later, ran, paid⟩ := meters.taken ledger small (by omega) read
    have all := paid.paid
    have bytes := paid.consumed
    exact ⟨later, ran, paid.covered, paid.counted, by omega, by omega⟩
  refused ledger small inside read := meters.refused ledger small (by omega) read

theorem meters_pure {value : α} (nothing : weight value = 0) (room : Nat) :
    Meters (pure value) (pure value) weight room 0 where
  taken ledger _ _ read := by
    obtain ⟨rfl, rfl⟩ := (pure_eq_ok_iff _ _ _ _).mp read
    exact ⟨ledger, rfl, id, by omega, by omega, by omega⟩
  refused _ _ _ read := by cases read

theorem meters_throw (error : CodecError) (weight : α → Nat) (room cost : Nat) :
    Meters (throw (.refused error)) (throw error) weight room cost where
  taken _ _ _ read := absurd read (throw_ne_ok _ _ _ _)
  refused ledger _ _ read := by
    cases read
    exact ⟨ledger, rfl, id⟩

theorem lift_of_ok {cursor after : Cursor} {value : α} (read : reader cursor = .ok value after)
    (ledger : Ledger) : lift reader (cursor, ledger) = .ok value (after, ledger) := by
  simp only [lift, read]

theorem lift_of_error {cursor after : Cursor} {error : CodecError}
    (read : reader cursor = .error error after) (ledger : Ledger) :
    lift reader (cursor, ledger) = .error (.refused error) (after, ledger) := by
  simp only [lift, read]

theorem meters_lift (costs : ∀ {cursor after : Cursor} {value : α},
      reader cursor = .ok value after → after.rest.length + cost ≤ cursor.rest.length) (room : Nat) :
    Meters (lift reader) reader (fun _ => 0) room cost where
  taken ledger _ _ read := by
    have bytes := costs read
    exact ⟨ledger, lift_of_ok read ledger, id, by omega, by omega, bytes⟩
  refused ledger _ _ read := ⟨ledger, lift_of_error read ledger, id⟩

/-- One after the other.  What the second counts is what is left of the weight of the result. -/
theorem Meters.bind {next : α → Metered β} {nextReader : α → Reader β} {total : β → Nat}
    {more : Nat} (first : Meters metered reader weight room cost)
    (second : ∀ value, Meters (next value) (nextReader value) (fun result => total result - weight value)
      (room - cost) more) :
    Meters (metered >>= next) (reader >>= nextReader) total room (cost + more) where
  taken {cursor after result} ledger small inside read := by
    obtain ⟨value, middle, firstRead, rest⟩ := (bind_eq_ok_iff _ _ _ _ _).mp read
    obtain ⟨between, firstRan, paid⟩ := first.taken ledger small inside firstRead
    have counted := paid.counted
    have all := paid.paid
    have bytes := paid.consumed
    obtain ⟨later, ran, paidRest⟩ := (second value).taken between (by omega) (by omega) rest
    have countedRest := paidRest.counted
    have allRest := paidRest.paid
    have bytesRest := paidRest.consumed
    refine ⟨later, (bind_of_ok firstRan).trans ran, fun covered => paidRest.covered (paid.covered covered),
      by omega, by omega, by omega⟩
  refused {cursor after error} ledger small inside read := by
    cases firstRead : reader cursor with
    | error found middle =>
      rw [bind_of_error firstRead] at read
      cases read
      obtain ⟨later, ran, covered⟩ := first.refused ledger small inside firstRead
      exact ⟨later, bind_of_error ran, covered⟩
    | ok value middle =>
      rw [bind_of_ok firstRead] at read
      obtain ⟨between, firstRan, paid⟩ := first.taken ledger small inside firstRead
      have bytes := paid.consumed
      obtain ⟨later, ran, covered⟩ := (second value).refused between (by omega) (by omega) read
      exact ⟨later, (bind_of_ok firstRan).trans ran, fun before => covered (paid.covered before)⟩

/-! ## Elements -/

/-- An element is counted, and the byte that it takes pays for that. -/
theorem Meters.counted (element : Meters metered reader weight room 1) :
    Meters (counted metered) reader (fun value => weight value + 1) room 0 where
  taken ledger small inside read := by
    obtain ⟨later, ran, paid⟩ := element.taken ledger small inside read
    have counted := paid.counted
    have all := paid.paid
    have bytes := paid.consumed
    refine ⟨{ later with elements := later.elements + 1 }, ?_, paid.covered, ?_, ?_, by omega⟩
    · rw [Metered.counted, bind_of_ok ran]
      rfl
    · dsimp only
      omega
    · dsimp only
      omega
  refused ledger small inside read := by
    obtain ⟨later, ran, covered⟩ := element.refused ledger small inside read
    exact ⟨later, bind_of_error ran, covered⟩

/-- An element of any wire type takes a byte at least. -/
theorem meters_element {format : ElementFormat α} (confined : format.Confined)
    (room : Nat) : Meters (lift format.read) format.read (fun _ => 0) room 1 := by
  refine meters_lift (fun {cursor after value} read => ?_) room
  have minimal := confined.minimal _ _ _ read
  have positive := ElementFormat.minimalWidth_pos format.scheme
  obtain ⟨length, inside, rfl, _⟩ := confined.read _ _ _ read
  rw [Cursor.pos_advance] at minimal
  rw [Cursor.rest_advance, List.length_drop]
  omega

theorem meters_readMany {format : ElementFormat α}
    (element : Meters metered format.read weight room 1) (count : Nat) :
    Meters (readMany metered count) (format.readMany count)
      (fun values => (values.map fun value => weight value + 1).sum) room 0 := by
  induction count with
  | zero =>
    refine meters_pure ?_ room
    rfl
  | succ count ih =>
    change Meters (Metered.counted metered >>= _) (format.read >>= _) _ room (0 + 0)
    refine element.counted.bind fun value => ?_
    change Meters (readMany metered count >>= _) (format.readMany count >>= _) _ room (0 + 0)
    refine ih.bind fun values => ?_
    exact meters_pure (by simp) _

/-- A buffer is shorter than the largest size, so a count that would not fit it is refused. -/
theorem meters_reserved (scheme : WireType) (room : Nat) :
    Meters (reserved scheme) (Reader.count scheme) (fun _ => 0) room 1 where
  taken {cursor after count} ledger small inside read := by
    obtain ⟨found, middle, tagged, checked⟩ := (bind_eq_ok_iff _ _ _ _ _).mp read
    obtain ⟨length, tagSize, tagInside, _, rfl⟩ := Reader.lengthTag_costs tagged
    obtain ⟨_, second, limited, checked⟩ := (bind_eq_ok_iff _ _ _ _ _).mp checked
    obtain ⟨within, rfl⟩ := Reader.withinLimit_eq_ok limited
    obtain ⟨_, third, ensured, returned⟩ := (bind_eq_ok_iff _ _ _ _ _).mp checked
    obtain ⟨there, rfl⟩ := Reader.ensure_eq_ok ensured
    obtain ⟨rfl, rfl⟩ := (pure_eq_ok_iff _ _ _ _).mp returned
    have positive := LengthTag.size_pos found scheme
    have rest : (cursor.advance length).rest.length + length = cursor.rest.length := by
      rw [Cursor.rest_advance, List.length_drop]
      omega
    have exact : min (found * scheme.minimalWidth) Reader.largestSize =
        found * scheme.minimalWidth := by omega
    rw [exact] at within there
    let taken : Reservation := ⟨found, scheme, (cursor.advance length).rest.length, cursor.limit⟩
    refine ⟨{ ledger with reservations := ledger.reservations ++ [taken] }, ?_, ?_, ?_, ?_, ?_⟩
    · rw [reserved, bind_of_ok (lift_of_ok read ledger)]
      rfl
    · intro covered room member
      rcases List.mem_append.mp member with before | now
      · exact covered room before
      · obtain rfl := List.mem_singleton.mp now
        exact ⟨there, within⟩
    · exact Nat.le_refl _
    · dsimp only
      omega
    · omega
  refused ledger _ _ read := ⟨ledger, bind_of_error (lift_of_error read ledger), id⟩

theorem meters_readValues {format : ElementFormat α}
    (element : Meters metered format.read weight room 1) :
    Meters (readValues format.scheme metered) format.readValues
      (fun values => (values.map fun value => weight value + 1).sum) (room + 1) 1 := by
  change Meters (reserved format.scheme >>= _) (Reader.count format.scheme >>= _) _ (room + 1) (1 + 0)
  refine (meters_reserved format.scheme (room + 1)).bind fun count => ?_
  exact meters_readMany element count

theorem meters_openSpan (room : Nat) :
    Meters (lift Reader.openSpan) Reader.openSpan (fun _ => 0) room 1 := by
  refine meters_lift (fun read => ?_) room
  obtain ⟨tagSize, sized, inside, _, _, rfl⟩ := Reader.openSpan_costs read
  have positive := LengthTag.size_pos _ .list |>.trans sized
  rw [Cursor.rest_advance, List.length_drop]
  omega

theorem meters_position (room : Nat) :
    Meters (lift Reader.position) Reader.position (fun _ => 0) room 0 := by
  refine meters_lift (fun read => ?_) room
  cases read
  exact Nat.le_refl _

end Metered

/-! ## Collections read anew -/

theorem Sequence.read_eq {α : Type} (format : ElementFormat α) :
    (Sequence.format format).read = do
      let declared ← Reader.openSpan
      let start ← Reader.position
      let items ← format.readValues
      let stop ← Reader.position
      if stop - start != declared then
        throw (.lengthMismatch declared (stop - start))
      return ⟨items, some declared⟩ := by
  change Loader.toReader empty (load format) = _
  rw [load]
  simp only [Loader.toReader_read_bind, Loader.toReader_update_bind, Loader.toReader_ite,
    Loader.toReader_throw_bind, Loader.toReader_update]
  rfl

theorem Dictionary.read_eq {α : Type} (format : ElementFormat α) :
    (Dictionary.format format).read = do
      let declared ← Reader.openSpan
      let start ← Reader.position
      let keys ← ElementFormat.text.readValues
      let values ← format.readValues
      if keys.length != values.length then
        throw (.lengthMismatch keys.length values.length)
      let stop ← Reader.position
      if stop - start != declared then
        throw (.lengthMismatch declared (stop - start))
      return collapse keys values declared := by
  change Loader.toReader empty (load format) = _
  rw [load]
  simp only [Loader.toReader_read_bind, Loader.toReader_ite, Loader.toReader_throw_bind,
    Loader.toReader_update]
  rfl

theorem Tree.read_eq (format : ObjectFormat (Sequence Tree)) :
    (ofSequenceFormat format).read = do return .node (← format.read) := by
  funext cursor
  cases ran : format.load (format.empty, cursor) with
  | ok value state =>
    have read : format.read cursor = .ok state.1 state.2 := Loader.toReader_of_ok ran
    rw [read_of_children read, bind_of_ok read]
    rfl
  | error error state =>
    have read : format.read cursor = .error error state.2 := Loader.toReader_of_error ran
    rw [bind_of_error read]
    simp only [ObjectFormat.read, Loader.toReader, ofSequenceFormat, Loader.part, Tree.children, ran]

namespace Metered

variable {α : Type} {metered : Metered α} {weight : α → Nat} {room : Nat} {format : ElementFormat α}

/-- An envelope and a count take a byte each, so the elements have two bytes less. -/
theorem meters_sequence (element : Meters metered format.read weight room 1) :
    Meters (sequence format.scheme metered) (Sequence.format format).read
      (fun sequence => (sequence.items.map fun item => weight item + 1).sum) (room + 2) 2 := by
  rw [Sequence.read_eq]
  change Meters (lift Reader.openSpan >>= _) (Reader.openSpan >>= _) _ (room + 2) (1 + 1)
  refine (meters_openSpan (room + 2)).bind fun declared => ?_
  change Meters (lift Reader.position >>= _) (Reader.position >>= _) _ (room + 1) (0 + 1)
  refine (meters_position (room + 1)).bind fun start => ?_
  change Meters (readValues format.scheme metered >>= _) (format.readValues >>= _) _ (room + 1) (1 + 0)
  refine (meters_readValues element).bind fun items => ?_
  change Meters (lift Reader.position >>= _) (Reader.position >>= _) _ room (0 + 0)
  refine (meters_position room).bind fun stop => ?_
  split
  · exact meters_throw _ _ _ _
  · exact meters_pure (by simp) _

/-- Entries that are dropped have been counted with the others. -/
theorem sum_collapse_le (weight : α → Nat) {keys : List Text} {values : List α} (declared : Nat)
    (paired : values.length = keys.length) :
    ((Dictionary.collapse keys values declared).entries.map fun entry => weight entry.2 + 2).sum ≤
      (keys.map fun _ => 0 + 1).sum + (values.map fun value => weight value + 1).sum := by
  have parts (entries : List (Text × α)) :
      (entries.map fun entry => weight entry.2 + 2).sum =
        ((entries.map (·.1)).map fun _ => 0 + 1).sum +
          ((entries.map (·.2)).map fun value => weight value + 1).sum := by
    induction entries with
    | nil => rfl
    | cons entry entries ih =>
      simp only [List.map_cons, List.sum_cons, ih]
      omega
  have fewer := ((Dictionary.lastOccurrences_sublist (keys.zip values)).map
    fun entry => weight entry.2 + 2).sum_le_sum fun size _ => Nat.zero_le size
  rw [parts (keys.zip values), Dictionary.keys_zip paired, Dictionary.values_zip paired] at fewer
  exact fewer

theorem meters_dictionary (element : Meters metered format.read weight room 1) :
    Meters (dictionary format.scheme metered) (Dictionary.format format).read
      (fun dictionary => (dictionary.entries.map fun entry => weight entry.2 + 2).sum) (room + 3) 3 := by
  have keysRead := meters_readValues (meters_element ElementFormat.text_confined (room + 2))
  rw [Dictionary.read_eq]
  change Meters (lift Reader.openSpan >>= _) (Reader.openSpan >>= _) _ (room + 3) (1 + 2)
  refine (meters_openSpan (room + 3)).bind fun declared => ?_
  change Meters (lift Reader.position >>= _) (Reader.position >>= _) _ (room + 2) (0 + 2)
  refine (meters_position (room + 2)).bind fun start => ?_
  change Meters (readValues .list (lift Reader.text) >>= _) (ElementFormat.text.readValues >>= _) _
    (room + 2) (1 + 1)
  refine (keysRead.mono (Nat.le_succ _) (Nat.le_refl _)).bind fun keys => ?_
  change Meters (readValues format.scheme metered >>= _) (format.readValues >>= _) _ (room + 1) (1 + 0)
  refine (meters_readValues element).bind fun values => ?_
  split
  · exact meters_throw _ _ _ _
  rename_i lengths
  have same : keys.length = values.length := by simpa using lengths
  change Meters (lift Reader.position >>= _) (Reader.position >>= _) _ room (0 + 0)
  refine (meters_position room).bind fun stop => ?_
  split
  · exact meters_throw _ _ _ _
  · refine meters_pure ?_ _
    have fewer := sum_collapse_le weight declared same.symm
    omega

end Metered

/-! ## Trees -/

namespace Tree

mutual

/-- The number of trees in a tree, itself included. -/
def nodes : Tree → Nat
  | .node ⟨items, _⟩ => nodesOfList items + 1

def nodesOfList : List Tree → Nat
  | [] => 0
  | tree :: trees => nodes tree + nodesOfList trees

end

theorem nodes_pos (tree : Tree) : 0 < tree.nodes := by
  obtain ⟨items, memo⟩ := tree
  rw [nodes]
  exact Nat.succ_pos _

theorem nodesOfList_eq_sum (trees : List Tree) : nodesOfList trees = (trees.map nodes).sum := by
  induction trees with
  | nil => rfl
  | cons tree trees ih => rw [nodesOfList, ih, List.map_cons, List.sum_cons]

mutual

theorem depth_le_nodes : (tree : Tree) → tree.depth ≤ tree.nodes
  | .node ⟨items, _⟩ => by
    rw [depth, nodes]
    exact Nat.add_le_add_right (depthOfList_le_nodes items) 1

theorem depthOfList_le_nodes : (trees : List Tree) → depthOfList trees ≤ nodesOfList trees
  | [] => Nat.le_refl 0
  | tree :: trees => by
    have first := depth_le_nodes tree
    have rest := depthOfList_le_nodes trees
    rw [depthOfList, nodesOfList]
    omega

end

/-- What every element of a run pays, the run pays. -/
theorem sum_le_of_readMany {format : ElementFormat Tree}
    (pays : ∀ {cursor after tree}, format.read cursor = .ok tree after →
      2 * tree.nodes + after.rest.length ≤ cursor.rest.length)
    {count : Nat} {trees : List Tree} {cursor after : Cursor}
    (ran : format.readMany count cursor = .ok trees after) :
    2 * nodesOfList trees + after.rest.length ≤ cursor.rest.length := by
  induction count generalizing trees cursor with
  | zero =>
    obtain ⟨rfl, rfl⟩ := (pure_eq_ok_iff _ _ _ _).mp ran
    simp [nodesOfList]
  | succ count ih =>
    obtain ⟨tree, middle, first, rest⟩ := (bind_eq_ok_iff _ _ _ _ _).mp ran
    obtain ⟨others, last, more, returned⟩ := (bind_eq_ok_iff _ _ _ _ _).mp rest
    obtain ⟨rfl, rfl⟩ := (pure_eq_ok_iff _ _ _ _).mp returned
    have here := pays first
    have there := ih more
    rw [nodesOfList]
    omega

/-- The envelope and the count of a tree take a byte each. -/
theorem nodes_le_of_formatUpTo {levels : Nat} {cursor after : Cursor} {tree : Tree}
    (ran : (formatUpTo levels).read cursor = .ok tree after) :
    2 * tree.nodes + after.rest.length ≤ cursor.rest.length := by
  induction levels generalizing cursor after tree with
  | zero => cases ran
  | succ levels ih =>
    rw [formatUpTo, Tree.read_eq] at ran
    obtain ⟨children, middle, read, returned⟩ := (bind_eq_ok_iff _ _ _ _ _).mp ran
    obtain ⟨rfl, rfl⟩ := (pure_eq_ok_iff _ _ _ _).mp returned
    obtain ⟨tagSize, declared, opened, values, _, kept⟩ :=
      Sequence.load_eq_ok (ObjectFormat.load_of_read read)
    obtain ⟨sized, inside, _, _⟩ := Reader.openSpan_bounds opened
    have envelope : 1 ≤ tagSize := (LengthTag.size_pos declared .list).trans sized
    obtain ⟨count, start, counted, elements⟩ := (bind_eq_ok_iff _ _ _ _ _).mp values
    obtain ⟨length, counts, within, _, rfl⟩ := Reader.count_costs counted
    have number : 1 ≤ length := (LengthTag.size_pos count _).trans counts
    have paid := sum_le_of_readMany ih elements
    obtain ⟨items, memo⟩ := children
    cases kept
    rw [nodes]
    simp only [Cursor.rest_advance, List.length_drop] at paid within ⊢
    omega

theorem nodes_le_of_read {cursor after : Cursor} {tree : Tree}
    (ran : format.read cursor = .ok tree after) :
    2 * tree.nodes + after.rest.length ≤ cursor.rest.length :=
  have levels : (formatUpTo (cursor.rest.length + 1)).read cursor = .ok tree after := ran
  nodes_le_of_formatUpTo levels

end Tree

namespace Metered

/-- With as many calls as levels, or more or fewer of them, as long as the buffer is short enough for
both. -/
theorem meters_tree (calls levels : Nat) :
    Meters (tree calls) (Tree.formatUpTo levels).read (fun tree => tree.nodes - 1)
      (min (2 * calls) (2 * levels)) 2 := by
  induction calls generalizing levels with
  | zero =>
    refine ⟨fun _ _ inside => ?_, fun _ _ inside => ?_⟩
    · omega
    · omega
  | succ calls ih =>
    cases levels with
    | zero =>
      refine ⟨fun _ _ inside => ?_, fun _ _ inside => ?_⟩
      · omega
      · omega
    | succ levels =>
      have element : Meters (tree calls) (ElementFormat.object (Tree.formatUpTo levels)).read _ _ 1 :=
        (ih levels).mono (Nat.le_refl _) (Nat.le_succ 1)
      have both : min (2 * (calls + 1)) (2 * (levels + 1)) = min (2 * calls) (2 * levels) + 2 := by
        omega
      rw [Tree.formatUpTo, Tree.read_eq, both]
      change Meters (sequence .list (tree calls) >>= _) _ _ _ (2 + 0)
      refine (meters_sequence element).bind fun children => ?_
      refine meters_pure ?_ _
      have sizes : (children.items.map fun item => item.nodes - 1 + 1) =
          children.items.map Tree.nodes :=
        List.map_congr_left fun item _ => Nat.sub_add_cancel item.nodes_pos
      rw [sizes, ← Tree.nodesOfList_eq_sum, Tree.nodes]
      omega

theorem meters_treeFormat (calls : Nat) :
    Meters (tree calls) Tree.format.read (fun tree => tree.nodes - 1) (2 * calls) 2 where
  taken {cursor after value} ledger small inside read :=
    (meters_tree calls (cursor.rest.length + 1)).taken ledger small (by omega) read
  refused {cursor after error} ledger small inside read :=
    (meters_tree calls (cursor.rest.length + 1)).refused ledger small (by omega) read

end Metered

end FieldWire
