import FieldWire.Proofs.Structured.View

/-!
# What was read for a structure bounds what is written for it

Blocks may come in any order and more than once, and may name fields that the layout does not know.
While they are read, the bytes of the blocks that would be written for what has been read so far
never exceed the bytes that were read: a block adds at most its own length, and what is replaced or
passed over is not written.
-/

set_option autoImplicit false

namespace FieldWire

/-! ## Passing over values -/

namespace Reader

theorem skip_eq_ok {wireType : WireType} {cursor after : Cursor} {value : Unit}
    (ran : skip wireType cursor = .ok value after) :
    ∃ length, length ≤ cursor.rest.length ∧ after = cursor.advance length := by
  cases wireType with
  | varint =>
    obtain ⟨_, middle, read, returned⟩ := (bind_eq_ok_iff _ _ _ _ _).mp ran
    obtain ⟨length, decoded, rfl⟩ := word_eq_ok read
    obtain ⟨_, rfl⟩ := (pure_eq_ok_iff _ _ _ _).mp returned
    exact ⟨length, Varint.length_le_of_decode decoded, rfl⟩
  | fourByte => exact ⟨4, ensure_advance_eq_ok ran⟩
  | eightByte => exact ⟨8, ensure_advance_eq_ok ran⟩
  | list =>
    obtain ⟨number, middle, opened, moved⟩ := (bind_eq_ok_iff _ _ _ _ _).mp ran
    obtain ⟨tagSize, _, inside, _, _, rfl⟩ := openSpan_costs opened
    cases moved
    exact ⟨tagSize + number, inside, Cursor.advance_advance _ _ _⟩

theorem skipAll_eq_ok {wireType : WireType} {fields : List UInt64} {cursor after : Cursor}
    {value : Unit} (ran : (fields.forM fun _ => skip wireType) cursor = .ok value after) :
    ∃ length, length ≤ cursor.rest.length ∧ after = cursor.advance length := by
  induction fields generalizing cursor with
  | nil =>
    obtain ⟨_, rfl⟩ := (pure_eq_ok_iff _ _ _ _).mp ran
    exact ⟨0, Nat.zero_le _, rfl⟩
  | cons field fields ih =>
    obtain ⟨_, middle, first, rest⟩ := (bind_eq_ok_iff _ _ _ _ _).mp ran
    obtain ⟨length, inside, rfl⟩ := skip_eq_ok first
    obtain ⟨more, insideMore, rfl⟩ := ih rest
    rw [Cursor.rest_advance, List.length_drop] at insideMore
    exact ⟨length + more, by omega, Cursor.advance_advance _ _ _⟩

end Reader

/-! ## Segments -/

namespace SegmentFormat

variable {φ : Type}

/-- Nothing is remembered in the fields: every size is the number of bytes of the view, and looking
at a field set changes nothing at all. -/
structure Settled (format : SegmentFormat φ) (view : SegmentView φ) (fields : φ) : Prop where
  size : ∀ set, format.size set fields = ((view.bytes set fields).length, fields)
  encode : ∀ set, format.encode set fields = (view.bytes set fields, fields)
  exact : ∀ set, view.Exact set fields

/-- Reading a field set leaves nothing remembered, takes the bytes that would be written for it, and
changes nothing that would be written for the other slots. -/
structure Measured (format : SegmentFormat φ) (view : SegmentView φ) : Prop where
  wellFormed : ∀ segment ∈ format.layout, segment.WellFormed
  empty : format.Settled view format.empty
  load : ∀ (slot : Nat) (segment : Segment) set target cursor filled after,
    format.layout[slot]? = some segment → segment.Admits set → format.Settled view target →
    format.load set (target, cursor) = .ok () (filled, after) →
      format.Settled view filled ∧ (set.bits ≠ 0 → view.Valid set filled) ∧
      (∃ length, length ≤ cursor.rest.length ∧ after = cursor.advance length ∧
        (set.bits ≠ 0 → (view.bytes set filled).length ≤ length)) ∧
      ∀ (other : Nat) (otherSegment : Segment) otherSet, other ≠ slot →
        format.layout[other]? = some otherSegment → otherSegment.Admits otherSet →
          view.bytes otherSet filled = view.bytes otherSet target ∧
            (view.Valid otherSet target → view.Valid otherSet filled)

variable {format : SegmentFormat φ} {view : SegmentView φ}

theorem Settled.blocksSize_eq {fields : φ} (settled : format.Settled view fields)
    (sets : List FieldSet) :
    format.blocksSize sets fields =
      ((sets.flatMap fun set => set.encode ++ view.bytes set fields).length, fields) := by
  induction sets with
  | nil => rfl
  | cons set sets ih =>
    have size := settled.size set
    rw [blocksSize, size]
    dsimp only
    rw [ih, List.flatMap_cons, List.length_append, List.length_append, FieldSet.length_encode]

theorem Settled.blocks_eq {fields : φ} (settled : format.Settled view fields)
    (sets : List FieldSet) :
    format.blocks sets fields =
      (sets.flatMap fun set => set.encode ++ view.bytes set fields, fields) := by
  induction sets with
  | nil => rfl
  | cons set sets ih =>
    have encoded := settled.encode set
    rw [blocks, encoded]
    dsimp only
    rw [ih, List.flatMap_cons]

end SegmentFormat

/-! ## The bytes of a presence -/

namespace SegmentView

variable {φ : Type}

/-- The number of bytes that are written for a field set. -/
def blockSize (view : SegmentView φ) (fields : φ) (set : FieldSet) : Nat :=
  if set.bits = 0 then 0 else set.encodedSize + (view.bytes set fields).length

theorem length_bodyOf (view : SegmentView φ) (presence : Presence) (fields : φ) :
    (view.bodyOf presence fields).length = (presence.map (view.blockSize fields)).sum := by
  induction presence with
  | nil => rfl
  | cons set rest ih =>
    rw [List.map_cons, List.sum_cons, ← ih, bodyOf, Presence.written]
    by_cases empty : set.bits = 0
    · rw [List.filter_cons_of_neg (by simp [FieldSet.isEmpty, empty]), blockSize, if_pos empty,
        Nat.zero_add]
      rfl
    · rw [List.filter_cons_of_pos (by simp [FieldSet.isEmpty, empty]), blockSize, if_neg empty,
        List.flatMap_cons, List.length_append, List.length_append, FieldSet.length_encode]
      rfl

end SegmentView

/-- Putting another entry into a list adds at most that entry to a sum over it. -/
theorem sum_map_set_le {presence : List FieldSet} {before after : FieldSet → Nat} (slot : Nat)
    (set : FieldSet)
    (same : ∀ other entry, other ≠ slot → presence[other]? = some entry →
      after entry = before entry) :
    ((List.set presence slot set).map after).sum ≤ (presence.map before).sum + after set := by
  induction presence generalizing slot with
  | nil => exact Nat.zero_le _
  | cons head rest ih =>
    cases slot with
    | zero =>
      have unchanged : rest.map after = rest.map before := by
        apply List.map_congr_left
        intro entry member
        obtain ⟨index, there⟩ := List.mem_iff_getElem?.mp member
        exact same (index + 1) entry (Nat.succ_ne_zero index) there
      rw [List.set_cons_zero, List.map_cons, List.map_cons, List.sum_cons, List.sum_cons, unchanged]
      omega
    | succ slot =>
      have first := same 0 head (Nat.succ_ne_zero slot).symm rfl
      have others := ih slot fun other entry different there =>
        same (other + 1) entry (fun equal => different (Nat.succ.inj equal)) there
      rw [List.set_cons_succ, List.map_cons, List.map_cons, List.sum_cons, List.sum_cons, first]
      omega

/-- A field set that takes the place of another one, while the others are written as before. -/
theorem SegmentView.length_bodyOf_replace_le {φ : Type} (view : SegmentView φ)
    {presence : Presence} {slot : Nat} {set : FieldSet} {before after : φ} {count : Nat}
    (block : view.blockSize after set ≤ count)
    (others : ∀ other entry, other ≠ slot → presence[other]? = some entry → entry.bits ≠ 0 →
      view.bytes entry after = view.bytes entry before) :
    (view.bodyOf (presence.replace slot set) after).length ≤
      (view.bodyOf presence before).length + count := by
  have unchanged : ∀ other entry, other ≠ slot → presence[other]? = some entry →
      view.blockSize after entry = view.blockSize before entry := by
    intro other entry different there
    rw [blockSize, blockSize]
    by_cases empty : entry.bits = 0
    · rw [if_pos empty, if_pos empty]
    · rw [if_neg empty, if_neg empty, others other entry different there empty]
  have total := sum_map_set_le slot set unchanged
  rw [length_bodyOf, length_bodyOf]
  exact Nat.le_trans total (Nat.add_le_add_left block _)

namespace Structured

variable {φ : Type} {format : SegmentFormat φ} {fieldView : SegmentView φ}

/-! ## The loop -/

/-- A slot that had a block, or may do without: its field set is one that its segment allows. -/
def Filled (layout : Layout) (presence : Presence) (slot : Nat) : Prop :=
  ∃ (segment : Segment) (set : FieldSet),
    layout[slot]? = some segment ∧ presence[slot]? = some set ∧ segment.Admits set

/-- What holds of an object between two blocks: every slot is empty or filled, and the values of
those that are not empty are valid. -/
structure Underway (format : SegmentFormat φ) (fieldView : SegmentView φ) (object : Structured φ) :
    Prop where
  slots : List.Forall₂ (fun segment set => segment.Admits set ∨
    (set = FieldSet.empty segment.wireType segment.index)) format.layout object.presence
  settled : format.Settled fieldView object.fields
  valid : ∀ set ∈ object.presence, set.bits ≠ 0 → fieldView.Valid set object.fields

/-- A block that was read: the field set of its slot, and the values it brought. -/
theorem loadBlock_parts {object final : Structured φ} {cursor after : Cursor} {answer : Nat × Bool}
    (ran : loadBlock format (object, cursor) = .ok answer (final, after)) :
    ∃ header segment headerLength filled middle more, FieldSet.read cursor =
        .ok header (cursor.advance headerLength) ∧
      format.layout[answer.1]? = some segment ∧ segment.wireType = header.wireType ∧
      segment.index = header.index ∧ header.missing segment.required = 0 ∧
      format.load (FieldSet.ofBits segment.wireType segment.index (header.bits &&& segment.known))
        (object.fields, cursor.advance headerLength) = .ok () (filled, middle) ∧
      more ≤ middle.rest.length ∧ after = middle.advance more ∧
      final = ⟨object.presence.replace answer.1
        (FieldSet.ofBits segment.wireType segment.index (header.bits &&& segment.known)),
        object.memo, filled⟩ := by
  obtain ⟨header, segment, _, filled, middle, headerRead, located, complete, loadRan, skipRan, _,
    rfl⟩ := loadBlock_eq_ok_iff.mp ran
  obtain ⟨_, headerLength, _, _, rfl, _⟩ := FieldSet.read_costs headerRead
  obtain ⟨found, sameType, sameIndex⟩ := Layout.locate?_eq_some located
  obtain ⟨more, inside, rfl⟩ := Reader.skipAll_eq_ok skipRan
  exact ⟨header, segment, headerLength, filled, middle, more, headerRead, found, sameType, sameIndex,
    complete, loadRan, inside, rfl, rfl⟩

/-- What a block does. -/
theorem loadBlock_eq_ok (measured : format.Measured fieldView) {object final : Structured φ}
    {cursor after : Cursor} {answer : Nat × Bool} (underway : Underway format fieldView object)
    (ran : loadBlock format (object, cursor) = .ok answer (final, after)) :
    Underway format fieldView final ∧ Filled format.layout final.presence answer.1 ∧
      (∀ slot, Filled format.layout object.presence slot →
        Filled format.layout final.presence slot) ∧
      ∃ length, 1 ≤ length ∧ length ≤ cursor.rest.length ∧ after = cursor.advance length ∧
        (fieldView.bodyOf final.presence final.fields).length ≤
          (fieldView.bodyOf object.presence object.fields).length + length := by
  obtain ⟨header, segment, headerLength, filled, middle, more, headerRead, found, sameType,
    sameIndex, complete, loadRan, insideMore, rfl, rfl⟩ := loadBlock_parts ran
  obtain ⟨_, length, positive, inside, moved, smaller⟩ := FieldSet.read_costs headerRead
  let set := FieldSet.ofBits segment.wireType segment.index (header.bits &&& segment.known)
  have admits : segment.Admits set :=
    (measured.wellFormed segment (List.mem_of_getElem? found)).admits complete
  obtain ⟨settled, valid, ⟨valuesLength, insideValues, rfl, valuesFit⟩, framed⟩ :=
    measured.load answer.1 segment set object.fields _ filled middle found admits
      underway.settled loadRan
  have sameLength : headerLength = length := by
    have places := congrArg Cursor.pos moved
    rw [Cursor.pos_advance, Cursor.pos_advance] at places
    omega
  subst sameLength
  rw [Cursor.rest_advance, List.length_drop] at insideValues
  rw [Cursor.rest_advance, Cursor.rest_advance, List.length_drop, List.length_drop] at insideMore
  -- The field sets of the other slots are written as before.
  have others : ∀ other entry, other ≠ answer.1 → object.presence[other]? = some entry →
      entry.bits ≠ 0 → fieldView.bytes entry filled = fieldView.bytes entry object.fields ∧
        fieldView.Valid entry filled := by
    intro other entry different there nonempty
    obtain ⟨otherSegment, otherFound, allowed⟩ := Presence.forall₂_getElem? underway.slots there
    rcases allowed with entryAdmits | rfl
    · have frame := framed other otherSegment entry different otherFound entryAdmits
      exact ⟨frame.1, frame.2 (underway.valid entry (List.mem_of_getElem? there) nonempty)⟩
    · exact absurd rfl nonempty
  have replaced : (object.presence.replace answer.1 set)[answer.1]? = some set := by
    have bound := (List.getElem?_eq_some_iff.mp found).1
    rw [List.Forall₂.length_eq underway.slots] at bound
    exact List.getElem?_set_self bound
  have kept : ∀ slot, slot ≠ answer.1 →
      (object.presence.replace answer.1 set)[slot]? = object.presence[slot]? := by
    intro slot different
    exact List.getElem?_set_ne different.symm
  refine ⟨⟨Presence.forall₂_set underway.slots found (.inl admits), settled, ?_⟩,
    ⟨segment, set, found, replaced, admits⟩, ?_, headerLength + valuesLength + more, by omega,
    by omega, ?_, ?_⟩
  · intro entry member nonempty
    obtain ⟨slot, there⟩ := List.mem_iff_getElem?.mp member
    by_cases here : slot = answer.1
    · subst here
      rw [replaced] at there
      cases there
      exact valid nonempty
    · rw [kept slot here] at there
      exact (others slot entry here there nonempty).2
  · rintro slot ⟨otherSegment, entry, otherFound, there, entryAdmits⟩
    by_cases here : slot = answer.1
    · subst here
      exact ⟨segment, set, found, replaced, admits⟩
    · rw [← kept slot here] at there
      exact ⟨otherSegment, entry, otherFound, there, entryAdmits⟩
  · rw [Cursor.advance_advance, Cursor.advance_advance, Nat.add_assoc]
  · have block : fieldView.blockSize filled set ≤ headerLength + valuesLength := by
      rw [SegmentView.blockSize]
      split
      · exact Nat.zero_le _
      · rename_i nonempty
        have headerFits := smaller segment.known
        rw [← sameType, ← sameIndex] at headerFits
        exact Nat.add_le_add headerFits (valuesFit nonempty)
    have total := fieldView.length_bodyOf_replace_le block
      fun other entry different there nonempty => (others other entry different there nonempty).1
    exact Nat.le_trans total (by omega)

/-- What the loop does. -/
theorem loadBlocks_eq_ok (measured : format.Measured fieldView) {start declared fuel : Nat}
    {object final : Structured φ} {cursor after : Cursor} {slots : List Nat} {skipped : Bool}
    (underway : Underway format fieldView object)
    (ran : loadBlocks format start declared fuel (object, cursor) =
      .ok (slots, skipped) (final, after)) :
    Underway format fieldView final ∧
      (∀ slot, slot ∈ slots ∨ Filled format.layout object.presence slot →
        Filled format.layout final.presence slot) ∧
      ∃ length, length ≤ cursor.rest.length ∧ after = cursor.advance length ∧
        (fieldView.bodyOf final.presence final.fields).length ≤
          (fieldView.bodyOf object.presence object.fields).length + length := by
  revert underway
  refine loadBlocks_induction (motive := fun object cursor slots _ final after =>
    Underway format fieldView object → Underway format fieldView final ∧
      (∀ slot, slot ∈ slots ∨ Filled format.layout object.presence slot →
        Filled format.layout final.presence slot) ∧
      ∃ length, length ≤ cursor.rest.length ∧ after = cursor.advance length ∧
        (fieldView.bodyOf final.presence final.fields).length ≤
          (fieldView.bodyOf object.presence object.fields).length + length) ?_ ?_ ran
  · intro object cursor underway
    refine ⟨underway, ?_, 0, Nat.zero_le _, rfl, Nat.le_refl _⟩
    rintro slot (member | already)
    · cases member
    · exact already
  · intro object cursor slot passed middle here slots more final after _ block rest underway
    obtain ⟨still, filled, keeps, length, _, inside, rfl, fits⟩ :=
      loadBlock_eq_ok measured underway block
    obtain ⟨done, fillsRest, further, insideRest, rfl, fitsRest⟩ := rest still
    rw [Cursor.rest_advance, List.length_drop] at insideRest
    refine ⟨done, ?_, length + further, by omega, Cursor.advance_advance _ _ _, by omega⟩
    rintro other (member | already)
    · rcases List.mem_cons.mp member with rfl | inRest
      · exact fillsRest _ (.inr filled)
      · exact fillsRest _ (.inl inRest)
    · exact fillsRest _ (.inr (keeps _ already))

/-! ## Whole structures -/

theorem underway_cleared (measured : format.Measured fieldView) (memo : Option Nat) :
    Underway format fieldView ⟨format.layout.fresh.clear, memo, format.empty⟩ where
  slots := by
    rw [Layout.fresh, Presence.clear, List.map_map]
    induction format.layout with
    | nil => exact .nil
    | cons segment rest ih => exact .cons (.inr rfl) ih
  settled := measured.empty
  valid set member nonempty := by
    obtain ⟨old, _, rfl⟩ := List.mem_map.mp member
    exact absurd rfl nonempty

theorem bodyOf_cleared (layout : Layout) (fields : φ) :
    fieldView.bodyOf layout.fresh.clear fields = [] := by
  rw [SegmentView.bodyOf, Presence.written, List.filter_eq_nil_iff.mpr]
  · rfl
  · intro set member
    obtain ⟨old, _, rfl⟩ := List.mem_map.mp member
    simp [FieldSet.isEmpty]

/-- When every slot with required fields had a block, each slot is as its segment allows. -/
theorem Underway.fits {object : Structured φ} (underway : Underway format fieldView object)
    {seen : List Nat} (allSeen : format.layout.firstUnseen? seen = none)
    (filled : ∀ slot ∈ seen, Filled format.layout object.presence slot) :
    object.presence.Fits format.layout := by
  rw [Layout.firstUnseen?_eq_none_iff] at allSeen
  refine List.forall₂_iff_get.mpr ⟨List.Forall₂.length_eq underway.slots, ?_⟩
  intro slot inLayout inPresence
  have found : format.layout[slot]? = some (format.layout.get ⟨slot, inLayout⟩) :=
    List.getElem?_eq_getElem inLayout
  have there : object.presence[slot]? = some (object.presence.get ⟨slot, inPresence⟩) :=
    List.getElem?_eq_getElem inPresence
  obtain ⟨segment, sameSegment, allowed⟩ := Presence.forall₂_getElem? underway.slots there
  rw [found] at sameSegment
  cases sameSegment
  rcases allowed with admits | empty
  · exact admits
  · by_cases required : (format.layout.get ⟨slot, inLayout⟩).required = 0
    · rw [empty]
      exact ⟨rfl, rfl, UInt64.zero_and, by rw [FieldSet.missing, required]; exact UInt64.zero_and,
        UInt64.zero_and⟩
    · obtain ⟨other, set, otherFound, present, admits⟩ :=
        filled slot (allSeen slot _ found required)
      rw [found] at otherFound
      rw [there] at present
      cases otherFound
      cases present
      exact admits

theorem opensSpan : (Structured.format format).OpensSpan := ObjectFormat.opensSpan_of_load rfl

theorem load_eq_ok {start final : Structured φ} {cursor after : Cursor} {value : Unit}
    (ran : load format (start, cursor) = .ok value (final, after)) :
    ∃ tagSize declared seen skipped object,
      Reader.openSpan cursor = .ok declared (cursor.advance tagSize) ∧
      loadBlocks format (cursor.advance tagSize).pos declared declared
        ({ start with presence := start.presence.clear }, cursor.advance tagSize) =
          .ok (seen, skipped) (object, after) ∧
      after.pos - (cursor.advance tagSize).pos = declared ∧
      format.layout.firstUnseen? seen = none ∧
      final = { object with memo := if skipped then none else some declared } := by
  obtain ⟨declared, ⟨object, middle⟩, opened, rest⟩ := (bind_eq_ok_iff _ _ _ _ _).mp ran
  obtain ⟨rfl, spanOpened⟩ := Loader.read_eq_ok opened
  obtain ⟨tagSize, _, _, _, _, rfl⟩ := Reader.openSpan_costs spanOpened
  rw [bind_of_ok (Loader.read_of_ok (Reader.position_apply _) _),
    bind_of_ok (Loader.update_apply _ _ _)] at rest
  obtain ⟨⟨seen, skipped⟩, ⟨filled, last⟩, looped, checked⟩ := (bind_eq_ok_iff _ _ _ _ _).mp rest
  have checked := (bind_of_ok (Loader.read_of_ok (Reader.position_apply _) _)).symm.trans checked
  split at checked
  · obtain ⟨_, _, thrown, _⟩ := (bind_eq_ok_iff _ _ _ _ _).mp checked
    exact absurd thrown (throw_ne_ok _ _ _ _)
  · rename_i same
    cases unseen : format.layout.firstUnseen? seen with
    | some segment =>
      simp only [unseen] at checked
      exact absurd checked (throw_ne_ok _ _ _ _)
    | none =>
      simp only [unseen] at checked
      cases checked
      exact ⟨tagSize, declared, seen, skipped, filled, spanOpened, looped, by simpa using same,
        unseen, rfl⟩

/-- What reading a field set keeps of the fields, reading a structure keeps. -/
theorem loadBlocks_preserves {P : φ → Prop} {start declared fuel : Nat}
    (step : ∀ set fields cursor filled after, P fields →
      format.load set (fields, cursor) = .ok () (filled, after) → P filled)
    {object final : Structured φ} {cursor after : Cursor} {answer : List Nat × Bool}
    (holds : P object.fields)
    (ran : loadBlocks format start declared fuel (object, cursor) = .ok answer (final, after)) :
    P final.fields := by
  revert holds
  refine loadBlocks_induction (motive := fun object _ _ _ final _ => P object.fields → P final.fields)
    (fun _ _ => id) ?_ ran
  intro object cursor slot passed middle here slots more final after _ block rest holds
  obtain ⟨_, _, _, filled, _, _, _, _, _, _, _, loaded, _, _, rfl⟩ := loadBlock_parts block
  exact rest (step _ _ _ _ _ holds loaded)

theorem load_preserves {P : φ → Prop}
    (step : ∀ set fields cursor filled after, P fields →
      format.load set (fields, cursor) = .ok () (filled, after) → P filled)
    {object final : Structured φ} {cursor after : Cursor} {value : Unit} (holds : P object.fields)
    (ran : load format (object, cursor) = .ok value (final, after)) : P final.fields := by
  obtain ⟨_, _, _, _, loaded, _, looped, _, _, rfl⟩ := load_eq_ok ran
  have kept : P loaded.fields := by
    refine loadBlocks_preserves step ?_ looped
    exact holds
  exact kept

/-- A structure that remembers a size which is long enough for its blocks. -/
theorem weighed_of_some {presence : Presence} {fields : φ} {declared : Nat}
    (settled : format.Settled fieldView fields)
    (valid : (Structured.view format.layout fieldView).Valid ⟨presence, some declared, fields⟩)
    (fits : (fieldView.bodyOf presence fields).length ≤ declared) (small : declared < 2 ^ 62) :
    (Structured.format format).Weighed (Structured.view format.layout fieldView)
      ⟨presence, some declared, fields⟩ := by
  have written : (Structured.encode format ⟨presence, some declared, fields⟩).1 =
      Write.word (LengthTag.span declared) ++ fieldView.bodyOf presence fields := by
    change Write.word _ ++ (format.blocks presence.written fields).1 = _
    rw [settled.blocks_eq]
    rfl
  have exact : declared ≤ (fieldView.bodyOf presence fields).length →
      (Structured.view format.layout fieldView).Exact ⟨presence, some declared, fields⟩ := by
    intro full
    exact ⟨(remembers_some_iff _ _).mpr (Nat.le_antisymm full fits), fun set _ => settled.exact set⟩
  exact ⟨valid, rfl, small, fieldView.bodyOf presence fields, written, fits, fits, exact, exact⟩

/-- A structure that remembers nothing. -/
theorem weighed_of_none {presence : Presence} {fields : φ}
    (settled : format.Settled fieldView fields)
    (valid : (Structured.view format.layout fieldView).Valid ⟨presence, none, fields⟩)
    (small : (fieldView.bodyOf presence fields).length < 2 ^ 62) :
    (Structured.format format).Weighed (Structured.view format.layout fieldView)
      ⟨presence, none, fields⟩ := by
  have blocks := settled.blocksSize_eq presence.written
  have size : ((Structured.format format).size ⟨presence, none, fields⟩).1 =
      (fieldView.bodyOf presence fields).length := congrArg Prod.fst blocks
  have written : (Structured.encode format ⟨presence, none, fields⟩).1 =
      Write.word (LengthTag.span (fieldView.bodyOf presence fields).length) ++
        fieldView.bodyOf presence fields := by
    change Write.word (LengthTag.span (format.blocksSize presence.written fields).1) ++
      (format.blocks presence.written (format.blocksSize presence.written fields).2).1 = _
    rw [blocks, settled.blocks_eq]
    rfl
  have exact : (Structured.view format.layout fieldView).Exact ⟨presence, none, fields⟩ :=
    ⟨remembers_none _, fun set _ => settled.exact set⟩
  refine ⟨valid, rfl, ?_, fieldView.bodyOf presence fields, ?_, ?_⟩
  · rw [size]
    exact small
  · rw [size]
    exact written
  · rw [size]
    exact (Bounds.refl _).imp fun _ => exact

theorem measured (segments : format.Measured fieldView) :
    (Structured.format format).Measured (Structured.view format.layout fieldView) := by
  intro cursor object after ran
  obtain ⟨tagSize, declared, seen, skipped, loaded, opened, looped, consumed, allSeen, rfl⟩ :=
    load_eq_ok (ObjectFormat.load_of_read ran)
  obtain ⟨sized, inside, small, within⟩ := Reader.openSpan_bounds opened
  obtain ⟨underway, filled, length, _, rfl, fits⟩ :=
    loadBlocks_eq_ok segments (underway_cleared segments none) looped
  have reached : length = declared := by
    rw [Cursor.pos_advance, Nat.add_sub_cancel_left] at consumed
    exact consumed
  have moved : (cursor.advance tagSize).advance length = cursor.advance (tagSize + declared) := by
    rw [Cursor.advance_advance, reached]
  have bodyFits : (fieldView.bodyOf loaded.presence loaded.fields).length ≤ declared := by
    have none : fieldView.bodyOf format.layout.fresh.clear format.empty = [] :=
      bodyOf_cleared format.layout format.empty
    rw [none, List.length_nil, Nat.zero_add, reached] at fits
    exact fits
  have presenceFits : loaded.presence.Fits format.layout :=
    underway.fits allSeen fun slot member => filled slot (.inl member)
  have valid : ∀ set ∈ loaded.presence.written, fieldView.Valid set loaded.fields := by
    intro set member
    obtain ⟨present, nonempty⟩ := (Presence.mem_written_iff _ _).mp member
    exact underway.valid set present nonempty
  have envelope : LengthTag.spanSize declared ≤ tagSize + declared := Nat.add_le_add_right sized _
  cases skipped with
  | false =>
    exact ⟨weighed_of_some underway.settled ⟨presenceFits, valid⟩ bodyFits small, within,
      tagSize + declared, inside, moved, envelope⟩
  | true =>
    have size : ((Structured.format format).size ⟨loaded.presence, none, loaded.fields⟩).1 =
        (fieldView.bodyOf loaded.presence loaded.fields).length :=
      congrArg Prod.fst (underway.settled.blocksSize_eq loaded.presence.written)
    have shorter := LengthTag.spanSize_mono bodyFits small
    refine ⟨weighed_of_none underway.settled ⟨presenceFits, valid⟩
      (Nat.lt_of_le_of_lt bodyFits small), ?_, tagSize + declared, inside, moved, ?_⟩
    · exact Nat.le_trans (Nat.le_of_eq size) (Nat.le_trans bodyFits within)
    · exact Nat.le_trans (Nat.le_of_eq (congrArg LengthTag.spanSize size))
        (Nat.le_trans shorter envelope)

end Structured

end FieldWire
