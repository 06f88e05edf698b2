import FieldWire.Layout
import FieldWire.Proofs.FieldSet
import Mathlib.Data.List.Forall2

/-!
# Layouts

In a layout without two segments of one wire type and index, a header leads to the slot of its own
segment.  `Fits` says which presence a layout allows: in every slot the required fields and, besides
them, known ones only.
-/

set_option autoImplicit false

namespace FieldWire

/-- The field sets that a segment allows: every required field is there, and no unknown one. -/
structure Segment.Admits (segment : Segment) (set : FieldSet) : Prop where
  wireType : set.wireType = segment.wireType
  index : set.index = segment.index
  proper : set.Proper
  complete : set.missing segment.required = 0
  known : set.bits &&& ~~~segment.known = 0

/-- The field sets that a header can name for a segment: every required field is there, and others
may be there that the segment does not know. -/
structure Segment.NamedBy (segment : Segment) (set : FieldSet) : Prop where
  wireType : set.wireType = segment.wireType
  index : set.index = segment.index
  proper : set.Proper
  complete : set.missing segment.required = 0

/-- The fields of a field set that a segment knows. -/
def Segment.restrict (segment : Segment) (set : FieldSet) : FieldSet :=
  FieldSet.ofBits segment.wireType segment.index (set.bits &&& segment.known)

theorem Segment.Admits.namedBy {segment : Segment} {set : FieldSet} (admits : segment.Admits set) :
    segment.NamedBy set :=
  ⟨admits.wireType, admits.index, admits.proper, admits.complete⟩

theorem Segment.Admits.restrict_eq {segment : Segment} {set : FieldSet}
    (admits : segment.Admits set) : segment.restrict set = set := by
  rw [restrict, and_eq_self_of_and_not admits.known, ← admits.wireType, ← admits.index]
  exact FieldSet.ofBits_of_proper admits.proper

theorem Segment.bits_restrict {segment : Segment} {set : FieldSet} (proper : set.Proper) :
    (segment.restrict set).bits = set.bits &&& segment.known := by
  change set.bits &&& segment.known &&& presenceMask = set.bits &&& segment.known
  rw [UInt64.and_assoc, UInt64.and_comm segment.known, ← UInt64.and_assoc, proper]

theorem Segment.known_restrict (segment : Segment) (set : FieldSet) :
    (segment.restrict set).bits &&& ~~~segment.known = 0 := by
  apply and_and_not_eq_zero
  change set.bits &&& segment.known &&& presenceMask &&& segment.known =
    set.bits &&& segment.known &&& presenceMask
  rw [UInt64.and_assoc (set.bits &&& segment.known), UInt64.and_comm presenceMask,
    ← UInt64.and_assoc, UInt64.and_assoc set.bits, UInt64.and_self]

/-- Required fields are presence bits, and are known. -/
structure Segment.WellFormed (segment : Segment) : Prop where
  proper : segment.required &&& presenceMask = segment.required
  known : segment.required &&& ~~~segment.known = 0

/-- Fields that a header names are presence bits. -/
theorem Segment.wellFormed_of_complete {segment : Segment} {set : FieldSet} (proper : set.Proper)
    (complete : set.missing segment.required = 0)
    (known : segment.required &&& ~~~segment.known = 0) : segment.WellFormed where
  proper := by
    rw [← and_eq_self_of_and_not complete, UInt64.and_assoc, proper]
  known := known

theorem Segment.wellFormed_make (wireType : WireType) (index : UInt32) (required known : UInt64) :
    (Segment.make wireType index required known).WellFormed where
  proper := by
    change required &&& presenceMask &&& presenceMask = required &&& presenceMask
    rw [UInt64.and_assoc, UInt64.and_self]
  known := by
    apply and_and_not_eq_zero
    change required &&& presenceMask &&& ((known ||| required) &&& presenceMask) =
      required &&& presenceMask
    apply UInt64.toBitVec_inj.mp
    ext position inside
    simp only [UInt64.toBitVec_and, UInt64.toBitVec_or, BitVec.getElem_and, BitVec.getElem_or]
    cases required.toBitVec[position] with
    | false => rfl
    | true => simp

/-- The known fields of a header that names all required ones. -/
theorem Segment.WellFormed.admits {segment : Segment} {set : FieldSet}
    (wellFormed : segment.WellFormed) (complete : set.missing segment.required = 0) :
    segment.Admits (segment.restrict set) where
  wireType := rfl
  index := rfl
  proper := FieldSet.proper_ofBits _ _ _
  complete := by
    have inHeader : segment.required &&& set.bits = segment.required :=
      and_eq_self_of_and_not complete
    have inKnown : segment.required &&& segment.known = segment.required :=
      and_eq_self_of_and_not wellFormed.known
    apply and_and_not_eq_zero
    change segment.required &&& (set.bits &&& segment.known &&& presenceMask) = segment.required
    rw [← UInt64.and_assoc, ← UInt64.and_assoc, inHeader, inKnown, wellFormed.proper]
  known := segment.known_restrict set

theorem Segment.Admits.set {segment : Segment} {set : FieldSet} (admits : segment.Admits set)
    {fields : UInt64} (present : Bool) (known : fields &&& ~~~segment.known = 0)
    (optional : segment.required &&& fields = 0) : segment.Admits (set.set fields present) := by
  cases present with
  | true =>
    refine ⟨admits.wireType, admits.index, ?_, ?_, ?_⟩
    · change (set.bits ||| fields &&& presenceMask) &&& presenceMask = set.bits ||| fields &&& presenceMask
      rw [or_and_distrib, admits.proper, UInt64.and_assoc, UInt64.and_self]
    · change segment.required &&& ~~~(set.bits ||| fields &&& presenceMask) = 0
      have complete : segment.required &&& ~~~set.bits = 0 := admits.complete
      rw [complement_or, ← UInt64.and_assoc, complete, UInt64.zero_and]
    · change (set.bits ||| fields &&& presenceMask) &&& ~~~segment.known = 0
      rw [or_and_distrib, admits.known, UInt64.zero_or, UInt64.and_assoc,
        UInt64.and_comm presenceMask, ← UInt64.and_assoc, known, UInt64.zero_and]
  | false =>
    refine ⟨admits.wireType, admits.index, ?_, ?_, ?_⟩
    · change set.bits &&& ~~~fields &&& presenceMask = set.bits &&& ~~~fields
      rw [UInt64.and_assoc, UInt64.and_comm (~~~fields), ← UInt64.and_assoc, admits.proper]
    · change segment.required &&& ~~~(set.bits &&& ~~~fields) = 0
      have complete : segment.required &&& ~~~set.bits = 0 := admits.complete
      rw [complement_and, UInt64.not_not, and_or_distrib, complete, optional, UInt64.or_zero]
    · change set.bits &&& ~~~fields &&& ~~~segment.known = 0
      rw [UInt64.and_assoc, UInt64.and_comm (~~~fields), ← UInt64.and_assoc, admits.known,
        UInt64.zero_and]

theorem Segment.WellFormed.admits_fresh {segment : Segment} (wellFormed : segment.WellFormed) :
    segment.Admits (FieldSet.ofBits segment.wireType segment.index segment.required) where
  wireType := rfl
  index := rfl
  proper := FieldSet.proper_ofBits _ _ _
  complete := by
    change segment.required &&& ~~~(segment.required &&& presenceMask) = 0
    rw [wellFormed.proper, UInt64.and_not_self]
  known := by
    change segment.required &&& presenceMask &&& ~~~segment.known = 0
    rw [wellFormed.proper, wellFormed.known]

namespace Layout

/-- No two segments have the same wire type and index. -/
def Distinct (layout : Layout) : Prop :=
  layout.Pairwise fun first second =>
    ¬(first.wireType = second.wireType ∧ first.index = second.index)

instance (layout : Layout) : Decidable layout.Distinct := inferInstanceAs (Decidable (List.Pairwise _ _))

theorem find?_zipIdx_of_distinct {layout : Layout} {segment : Segment} {slot : Nat} (start : Nat)
    (distinct : layout.Distinct) (found : layout[slot]? = some segment) :
    ((layout.zipIdx start).find? fun entry =>
      entry.1.wireType == segment.wireType && entry.1.index == segment.index) =
        some (segment, start + slot) := by
  induction layout generalizing slot start with
  | nil => cases found
  | cons head rest ih =>
    obtain ⟨others, distinctRest⟩ := List.pairwise_cons.mp distinct
    rw [List.zipIdx_cons]
    cases slot with
    | zero =>
      rw [List.getElem?_cons_zero] at found
      cases found
      rw [List.find?_cons_of_pos (by simp)]
      rfl
    | succ slot =>
      rw [List.getElem?_cons_succ] at found
      have different := others segment (List.mem_of_getElem? found)
      have skipped : (head.wireType == segment.wireType && head.index == segment.index) = false := by
        simpa using different
      rw [List.find?_cons, skipped, ih (start + 1) distinctRest found]
      change some (segment, start + 1 + slot) = some (segment, start + (slot + 1))
      rw [Nat.add_assoc, Nat.add_comm 1 slot]

theorem locate?_of_getElem? {layout : Layout} {segment : Segment} {slot : Nat}
    (distinct : layout.Distinct) (found : layout[slot]? = some segment) :
    layout.locate? segment.wireType segment.index = some (segment, slot) := by
  have first := find?_zipIdx_of_distinct 0 distinct found
  rw [Nat.zero_add] at first
  exact first

theorem locate?_eq_some {layout : Layout} {segment : Segment} {slot : Nat} {wireType : WireType}
    {index : UInt32} (located : layout.locate? wireType index = some (segment, slot)) :
    layout[slot]? = some segment ∧ segment.wireType = wireType ∧ segment.index = index := by
  have member := List.mem_of_find?_eq_some located
  have same := List.find?_some located
  rw [List.mem_zipIdx_iff_getElem?] at member
  simp only [Bool.and_eq_true, beq_iff_eq] at same
  exact ⟨member, same.1, same.2⟩

theorem locate?_eq_none_iff {layout : Layout} {wireType : WireType} {index : UInt32} :
    layout.locate? wireType index = none ↔
      ∀ segment ∈ layout, segment.wireType = wireType → segment.index ≠ index := by
  rw [locate?, List.find?_eq_none]
  constructor
  · intro none segment member sameType sameIndex
    obtain ⟨slot, found⟩ := List.mem_iff_getElem?.mp member
    refine none (segment, slot) (List.mem_zipIdx_iff_getElem?.mpr found) ?_
    simp [sameType, sameIndex]
  · intro none entry member same
    simp only [Bool.and_eq_true, beq_iff_eq] at same
    have found := List.mem_of_getElem? (List.mem_zipIdx_iff_getElem?.mp member)
    exact none entry.1 found same.1 same.2

theorem firstUnseen?_eq_none_iff (layout : Layout) (seen : List Nat) :
    layout.firstUnseen? seen = none ↔
      ∀ slot segment, layout[slot]? = some segment → segment.required ≠ 0 → slot ∈ seen := by
  rw [firstUnseen?, Option.map_eq_none_iff, List.find?_eq_none]
  constructor
  · intro all slot segment found required
    have member : (segment, slot) ∈ layout.zipIdx := List.mem_zipIdx_iff_getElem?.mpr found
    have satisfied := all (segment, slot) member
    simp only [Bool.and_eq_true, Bool.not_eq_true', bne_iff_ne, not_and, not_not] at satisfied
    by_contra unseen
    exact required (satisfied (by simpa using unseen))
  · intro all entry member
    have found := List.mem_zipIdx_iff_getElem?.mp member
    simp only [Bool.and_eq_true, Bool.not_eq_true', bne_iff_ne, not_and, not_not]
    intro unseen
    by_contra required
    have seenSlot := all entry.2 entry.1 found required
    simp [seenSlot] at unseen

theorem mem_of_firstUnseen? {layout : Layout} {segment : Segment} {seen : List Nat}
    (unseen : layout.firstUnseen? seen = some segment) :
    segment ∈ layout ∧ segment.required ≠ 0 := by
  obtain ⟨⟨found, slot⟩, first, rfl⟩ := Option.map_eq_some_iff.mp unseen
  have required := List.find?_some first
  simp only [Bool.and_eq_true, bne_iff_ne] at required
  exact ⟨List.mem_of_getElem? (List.mem_zipIdx_iff_getElem?.mp (List.mem_of_find?_eq_some first)),
    required.2⟩

/-- The fields of a field set that the layout knows in a slot. -/
def knownFields (layout : Layout) (slot : Nat) (set : FieldSet) : List UInt64 :=
  (layout[slot]?.map fun segment => fieldsOf (set.bits &&& segment.known)).getD []

/-- The fields of a field set that the layout does not know in a slot. -/
def unknownFields (layout : Layout) (slot : Nat) (set : FieldSet) : List UInt64 :=
  (layout[slot]?.map fun segment => fieldsOf (set.bits &&& ~~~segment.known)).getD []

/-- Whether the layout passes over a field of a field set that stands in a slot. -/
def passes (layout : Layout) (entry : FieldSet × Nat) : Bool :=
  !(layout.unknownFields entry.2 entry.1).isEmpty

variable {layout : Layout} {slot : Nat} {segment : Segment}

theorem knownFields_of_getElem? (set : FieldSet) (found : layout[slot]? = some segment) :
    layout.knownFields slot set = fieldsOf (set.bits &&& segment.known) := by
  rw [knownFields, found, Option.map_some, Option.getD_some]

theorem presentFields_restrict {set : FieldSet} (found : layout[slot]? = some segment)
    (proper : set.Proper) : (segment.restrict set).presentFields = layout.knownFields slot set := by
  rw [FieldSet.presentFields, Segment.bits_restrict proper, knownFields_of_getElem? set found]

theorem unknownFields_of_getElem? (set : FieldSet) (found : layout[slot]? = some segment) :
    layout.unknownFields slot set = fieldsOf (set.bits &&& ~~~segment.known) := by
  rw [unknownFields, found, Option.map_some, Option.getD_some]

theorem passes_of_getElem? {set : FieldSet} (found : layout[slot]? = some segment) :
    layout.passes (set, slot) = !(fieldsOf (set.bits &&& ~~~segment.known)).isEmpty := by
  rw [passes, unknownFields_of_getElem? set found]

end Layout

namespace Presence

/-- The field sets that are written, with their slots. -/
def entries (presence : Presence) : List (FieldSet × Nat) :=
  presence.zipIdx.filter fun entry => !entry.1.isEmpty

theorem mem_entries_iff (presence : Presence) (set : FieldSet) (slot : Nat) :
    (set, slot) ∈ presence.entries ↔ presence[slot]? = some set ∧ set.bits ≠ 0 := by
  rw [entries, List.mem_filter, List.mem_zipIdx_iff_getElem?]
  simp [FieldSet.isEmpty]

theorem map_entries (presence : Presence) : presence.entries.map (·.1) = presence.written := by
  have sets : presence.zipIdx.map (·.1) = presence := List.zipIdx_map_fst 0 presence
  rw [written, ← sets, List.filter_map, sets]
  rfl

/-- What a layout knows of a presence. -/
def restrict (layout : Layout) (presence : Presence) : Presence :=
  List.zipWith Segment.restrict layout presence

/-- In every slot stands a field set that the segment of the slot allows. -/
def Fits (presence : Presence) (layout : Layout) : Prop := List.Forall₂ Segment.Admits layout presence

theorem Fits.admits {presence : Presence} {layout : Layout} {segment : Segment} {set : FieldSet}
    {slot : Nat} (fits : presence.Fits layout) (found : layout[slot]? = some segment)
    (present : presence[slot]? = some set) : segment.Admits set := by
  induction fits generalizing slot with
  | nil => cases found
  | cons admits _ ih =>
    cases slot with
    | zero =>
      cases found
      cases present
      exact admits
    | succ slot => exact ih found present

theorem forall₂_set {layout : Layout} {presence : Presence} {segment : Segment} {set : FieldSet}
    {slot : Nat} {P : Segment → FieldSet → Prop} (slots : List.Forall₂ P layout presence)
    (found : layout[slot]? = some segment) (holds : P segment set) :
    List.Forall₂ P layout (List.set presence slot set) := by
  induction slots generalizing slot with
  | nil => cases found
  | cons first rest ih =>
    cases slot with
    | zero =>
      cases found
      exact .cons holds rest
    | succ slot => exact .cons first (ih found)

theorem forall₂_getElem? {α β : Type} {P : α → β → Prop} {left : List α} {right : List β} {index : Nat}
    {value : β} (related : List.Forall₂ P left right) (there : right[index]? = some value) :
    ∃ other, left[index]? = some other ∧ P other value := by
  induction related generalizing index with
  | nil => cases there
  | cons first _ ih =>
    cases index with
    | zero =>
      cases there
      exact ⟨_, rfl, first⟩
    | succ index => exact ih there

/-- A layout that knows all of each field set. -/
theorem restrict_eq_of_forall {presence : Presence} {layout : Layout}
    (lengths : layout.length = presence.length)
    (all : ∀ (slot : Nat) (segment : Segment) set, layout[slot]? = some segment →
      presence[slot]? = some set → segment.restrict set = set) : presence.restrict layout = presence := by
  apply List.ext_getElem
  · rw [restrict, List.length_zipWith, lengths, Nat.min_self]
  · intro slot _ inside
    refine List.getElem_zipWith.trans ?_
    exact all slot _ _ (List.getElem?_eq_getElem (lengths ▸ inside)) (List.getElem?_eq_getElem inside)

theorem Fits.restrict_eq {presence : Presence} {layout : Layout} (fits : presence.Fits layout) :
    presence.restrict layout = presence :=
  restrict_eq_of_forall (List.Forall₂.length_eq fits) fun _ _ _ found there =>
    (fits.admits found there).restrict_eq

/-- What a layout knows of a field set in a slot. -/
def restrictAt (layout : Layout) (entry : FieldSet × Nat) : FieldSet :=
  (layout[entry.2]?.map fun segment => segment.restrict entry.1).getD entry.1

theorem restrictAt_of_getElem? {layout : Layout} {slot : Nat} {segment : Segment} (set : FieldSet)
    (found : layout[slot]? = some segment) : restrictAt layout (set, slot) = segment.restrict set := by
  rw [restrictAt, found, Option.map_some, Option.getD_some]

theorem zipIdx_restrict {presence : Presence} {layout : Layout}
    (lengths : layout.length = presence.length) :
    (presence.restrict layout).zipIdx =
      presence.zipIdx.map fun entry => (restrictAt layout entry, entry.2) := by
  apply List.ext_getElem
  · simp [restrict, lengths]
  · intro slot _ inside
    have there : slot < presence.length := by simpa using inside
    have found : layout[slot]? = some layout[slot] := List.getElem?_eq_getElem (lengths ▸ there)
    simp [restrict, restrictAt, found]

theorem getElem?_restrict {presence : Presence} {layout : Layout} {slot : Nat} {set : FieldSet}
    (there : (presence.restrict layout)[slot]? = some set) :
    ∃ (segment : Segment) (whole : FieldSet), layout[slot]? = some segment ∧
      presence[slot]? = some whole ∧ segment.restrict whole = set :=
  List.getElem?_zipWith_eq_some.mp there

theorem Fits.exists_slot {presence : Presence} {layout : Layout} {set : FieldSet}
    (fits : presence.Fits layout) (member : set ∈ presence) :
    ∃ (slot : Nat) (segment : Segment), presence[slot]? = some set ∧
      layout[slot]? = some segment ∧ segment.Admits set := by
  obtain ⟨slot, there⟩ := List.mem_iff_getElem?.mp member
  obtain ⟨segment, found, admits⟩ := forall₂_getElem? fits there
  exact ⟨slot, segment, there, found, admits⟩

theorem Fits.fresh {layout : Layout} (wellFormed : ∀ segment ∈ layout, segment.WellFormed) :
    layout.fresh.Fits layout := by
  rw [Layout.fresh, Fits, List.forall₂_map_right_iff, List.forall₂_same]
  intro segment member
  exact (wellFormed segment member).admits_fresh

theorem Fits.set {presence : Presence} {layout : Layout} {segment : Segment} {slot : Nat}
    {fields : UInt64} (fits : presence.Fits layout) (present : Bool)
    (found : layout[slot]? = some segment) (known : fields &&& ~~~segment.known = 0)
    (optional : segment.required &&& fields = 0) :
    (presence.set slot fields present).Fits layout := by
  rw [Presence.set]
  induction fits generalizing slot with
  | nil => cases found
  | cons admits rest ih =>
    cases slot with
    | zero =>
      cases found
      exact .cons (admits.set present known optional) rest
    | succ slot => exact .cons admits (ih found)

/-- A field that was made absent is absent in its slot. -/
theorem not_has_of_set_false {presence : Presence} {slot : Nat} {fields : UInt64} {set : FieldSet}
    (there : (presence.set slot fields false)[slot]? = some set) : ¬set.has fields := by
  rw [Presence.set, List.getElem?_modify_eq] at there
  obtain ⟨old, _, rfl⟩ := Option.map_eq_some_iff.mp there
  change ¬(old.bits &&& ~~~fields &&& fields != 0) = true
  rw [UInt64.and_assoc, UInt64.not_and_self, UInt64.and_zero]
  decide

end Presence

end FieldWire
