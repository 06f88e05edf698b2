import FieldWire.FieldSet

/-!
# Layouts and presence

A layout lists the segments of a structure in the order in which they are written.  The presence of
a structure is one field set for each segment, in the same order; a place in that order is a slot.
-/

set_option autoImplicit false

namespace FieldWire

/-- Fields of one wire type: which of them a structure knows, and which it cannot do without. -/
structure Segment where
  /-- The wire type of the fields. -/
  wireType : WireType
  /-- The place among the segments of this wire type. -/
  index : UInt32
  /-- The mask of the fields that must be present. -/
  required : UInt64
  /-- The mask of the fields that are known, the required ones among them. -/
  known : UInt64
deriving DecidableEq, Repr

/-- A segment in which every required field is known. -/
def Segment.make (wireType : WireType) (index : UInt32) (required known : UInt64) : Segment :=
  ⟨wireType, index, required &&& presenceMask, (known ||| required) &&& presenceMask⟩

/-- The segments of a structure, in the order in which they are written. -/
abbrev Layout := List Segment

/-- The field sets of a structure, one for each segment of its layout. -/
abbrev Presence := List FieldSet

namespace Layout

/-- The presence of a new structure: exactly the required fields. -/
def fresh (layout : Layout) : Presence :=
  layout.map fun segment => FieldSet.ofBits segment.wireType segment.index segment.required

/-- The first segment with this wire type and index, and its slot. -/
def locate? (layout : Layout) (wireType : WireType) (index : UInt32) : Option (Segment × Nat) :=
  layout.zipIdx.find? fun entry => entry.1.wireType == wireType && entry.1.index == index

/-- The slot of the first segment with this wire type and index. -/
def slotOf? (layout : Layout) (wireType : WireType) (index : UInt32) : Option Nat :=
  (layout.locate? wireType index).map (·.2)

/-- Whether some segment has this wire type. -/
def hasWireType (layout : Layout) (wireType : WireType) : Bool :=
  layout.any fun segment => segment.wireType == wireType

/-- The first segment that has required fields and whose slot is not among those `seen`. -/
def firstUnseen? (layout : Layout) (seen : List Nat) : Option Segment :=
  (layout.zipIdx.find? fun entry => !seen.contains entry.2 && entry.1.required != 0).map (·.1)

end Layout

namespace Presence

/-- Whether some field of a mask is present in a slot. -/
def has (presence : Presence) (slot : Nat) (fields : UInt64) : Bool :=
  match presence[slot]? with
  | some set => set.has fields
  | none => false

/-- Makes the fields of a mask present or absent in a slot.  Nothing happens in a slot that the
layout does not have. -/
def set (presence : Presence) (slot : Nat) (fields : UInt64) (present : Bool) : Presence :=
  presence.modify slot fun set => set.set fields present

/-- Puts another field set into a slot. -/
def replace (presence : Presence) (slot : Nat) (set : FieldSet) : Presence :=
  List.set presence slot set

/-- Makes every field absent. -/
def clear (presence : Presence) : Presence := presence.map fun set => { set with bits := 0 }

/-- The field sets that are written: those that are not empty. -/
def written (presence : Presence) : List FieldSet := presence.filter fun set => !set.isEmpty

end Presence

end FieldWire
