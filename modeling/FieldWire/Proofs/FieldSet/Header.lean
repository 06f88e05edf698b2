import FieldWire.Proofs.FieldSet

/-!
# Headers of field sets

A field set can be made, changed with any mask and read, and its presence bits keep clear of the
three low bits all the while.  Wire type, continuation flag and presence therefore stand side by side
in the header: it is their sum, each of them can be taken out of it, and the whole comes back when it
is read.
-/

set_option autoImplicit false

namespace FieldWire.FieldSet

/-- The field sets that come about by making, changing and reading them. -/
inductive Reached : FieldSet → Prop where
  | empty (wireType : WireType) (index : UInt32) : Reached (empty wireType index)
  | ofBits (wireType : WireType) (index : UInt32) (bits : UInt64) :
      Reached (ofBits wireType index bits)
  | set {start : FieldSet} (reached : Reached start) (fields : UInt64) (present : Bool) :
      Reached (start.set fields present)
  | read {cursor after : Cursor} {found : FieldSet} (ran : read cursor = .ok found after) :
      Reached found

/-! ## Presence bits -/

theorem proper_empty (wireType : WireType) (index : UInt32) : (empty wireType index).Proper :=
  UInt64.zero_and

/-- A mask may have low bits of its own.  They are dropped when fields are made present, and cannot
be set before when fields are made absent. -/
theorem Proper.set {start : FieldSet} (proper : start.Proper) (fields : UInt64) (present : Bool) :
    (start.set fields present).Proper := by
  have bits : start.bits &&& presenceMask = start.bits := proper
  cases present with
  | true =>
    change (start.bits ||| fields &&& presenceMask) &&& presenceMask = _
    rw [or_and_distrib, bits, UInt64.and_assoc, UInt64.and_self]
    rfl
  | false =>
    change (start.bits &&& ~~~fields) &&& presenceMask = start.bits &&& ~~~fields
    rw [UInt64.and_assoc, UInt64.and_comm (~~~fields), ← UInt64.and_assoc, bits]

theorem proper_of_reached {set : FieldSet} (reached : Reached set) : set.Proper := by
  induction reached with
  | empty wireType index => exact proper_empty wireType index
  | ofBits wireType index bits => exact proper_ofBits wireType index bits
  | set _ fields present proper => exact proper.set fields present
  | read ran => exact (read_costs ran).1

theorem reached_of_proper {set : FieldSet} (proper : set.Proper) : Reached set := by
  rw [← ofBits_of_proper proper]
  exact .ofBits _ _ _

theorem proper_iff_mod_eight (set : FieldSet) : set.Proper ↔ set.bits.toNat % 8 = 0 := by
  have low : (set.bits &&& ~~~presenceMask).toNat = set.bits.toNat % 8 := by
    rw [UInt64.toNat_and]
    exact Nat.and_two_pow_sub_one_eq_mod set.bits.toNat 3
  rw [← low]
  constructor
  · intro proper
    rw [and_and_not_eq_zero proper]
    rfl
  · intro clear
    exact and_eq_self_of_and_not (UInt64.toNat_inj.mp clear)

theorem reached_iff (set : FieldSet) : Reached set ↔ set.bits.toNat % 8 = 0 :=
  ⟨fun reached => (proper_iff_mod_eight set).mp (proper_of_reached reached),
    fun clear => reached_of_proper ((proper_iff_mod_eight set).mpr clear)⟩

/-! ## Headers -/

/-- The parts of a header do not overlap. -/
theorem toNat_header {set : FieldSet} (proper : set.Proper) :
    set.header.toNat =
      set.bits.toNat + (if set.index = 0 then 0 else 4) + set.wireType.tag := by
  have clear := (proper_iff_mod_eight set).mp proper
  have low : (flag set.index ||| UInt64.ofNat set.wireType.tag).toNat =
      (if set.index = 0 then 0 else 4) + set.wireType.tag := by
    rw [flag]
    split <;> cases set.wireType <;> rfl
  have small : (if set.index = 0 then 0 else 4) + set.wireType.tag < 2 ^ 3 := by
    have tag := set.wireType.tag_lt_four
    split <;> omega
  have high : set.bits.toNat = 2 ^ 3 * (set.bits.toNat / 8) := by omega
  rw [header, ← flag, UInt64.or_assoc, UInt64.toNat_or, low, high,
    ← Nat.two_pow_add_eq_or_of_lt small, Nat.add_assoc]

theorem header_and_continuationFlag_eq_zero_iff {set : FieldSet} (proper : set.Proper) :
    set.header &&& continuationFlag = 0 ↔ set.index = 0 := by
  have flagged : continuationFlag ≠ 0 := by decide
  rw [header_and_continuationFlag proper, flag]
  split
  · exact iff_of_true rfl ‹_›
  · exact iff_of_false flagged ‹_›

/-! ## Present fields -/

theorem mem_presentFields_iff {set : FieldSet} (proper : set.Proper) (field : UInt64) :
    field ∈ set.presentFields ↔
      ∃ place, set.bits.toNat.testBit place = true ∧ field.toNat = 2 ^ place := by
  constructor
  · intro member
    obtain ⟨position, inside, present, rfl⟩ := mem_fieldsOf_iff.mp member
    exact ⟨firstFieldBit + position, present, toNat_fieldBit inside⟩
  · rintro ⟨place, present, power⟩
    obtain ⟨low, high⟩ := place_of_testBit proper present
    have inside : place - firstFieldBit < fieldsPerSegment := by
      rw [firstFieldBit] at low ⊢
      rw [fieldsPerSegment]
      omega
    have same : fieldBit (place - firstFieldBit) = field := by
      rw [← UInt64.toNat_inj, toNat_fieldBit inside, Nat.add_sub_cancel' low, power]
    rw [← same]
    exact fieldBit_mem_fieldsOf proper present

theorem fieldBit_lt {first second : Nat} (inside : second < fieldsPerSegment)
    (ordered : first < second) : fieldBit first < fieldBit second := by
  rw [UInt64.lt_iff_toNat_lt, toNat_fieldBit inside, toNat_fieldBit (Nat.lt_trans ordered inside)]
  exact Nat.pow_lt_pow_right (by decide) (Nat.add_lt_add_left ordered _)

theorem pairwise_fieldsOf (mask : UInt64) : (fieldsOf mask).Pairwise (· < ·) := by
  refine List.Pairwise.filter _ (List.pairwise_map.mpr ?_)
  refine List.pairwise_lt_range.imp_of_mem ?_
  intro first second _ inside ordered
  exact fieldBit_lt (List.mem_range.mp inside) ordered

/-- A field set comes about exactly if the three low bits of its presence are clear.  Its header is
then the sum of presence, continuation flag and wire type, and gives each of them back; header and
continuation are read back whatever follows, up to the end of the bytes that were announced; and its
present fields are listed in ascending order, those and no others whose bits are set. -/
theorem header_tells_apart (set : FieldSet) :
    (Reached set ↔ set.bits.toNat % 8 = 0) ∧
      (Reached set →
        (set.header.toNat =
            set.bits.toNat + (if set.index = 0 then 0 else 4) + set.wireType.tag ∧
          WireType.ofTag set.header.toNat = set.wireType ∧
          (set.header &&& continuationFlag = 0 ↔ set.index = 0) ∧
          set.header &&& presenceMask = set.bits) ∧
        (set.encode.length = set.encodedSize ∧
          ∀ tail pos limit, read ⟨set.encode ++ tail, pos, limit⟩ =
            .ok set ⟨tail, pos + set.encodedSize, limit⟩) ∧
        (∀ field, field ∈ set.presentFields ↔
          ∃ place, set.bits.toNat.testBit place = true ∧ field.toNat = 2 ^ place) ∧
        set.presentFields.Pairwise (· < ·)) := by
  refine ⟨reached_iff set, fun reached => ?_⟩
  have proper := proper_of_reached reached
  refine ⟨⟨toNat_header proper, wireType_header proper,
    header_and_continuationFlag_eq_zero_iff proper, header_and_presenceMask proper⟩,
    ⟨length_encode set, fun tail pos limit => ?_⟩, mem_presentFields_iff proper,
    pairwise_fieldsOf set.bits⟩
  rw [← length_encode set]
  exact read_takes proper limit tail pos

/-- The last segment of a wire type, read with its first and its last field, changed with masks that
have low bits. -/
theorem header_tells_apart_example :
    let found : FieldSet := ⟨.varint, 0xffffffff, 0x8000000000000008⟩
    let changed : FieldSet := (found.set 0x2f true).set 0x0b false
    (∃ after, read ⟨[0x8d, 0x80, 0x80, 0x80, 0x80, 0x80, 0x80, 0x80, 0x80, 0x01,
        0xfe, 0xff, 0xff, 0xff, 0x0f], 0, 0⟩ = .ok found after) ∧
      Reached changed ∧ changed.bits.toNat % 8 = 0 ∧ changed.encodedSize = 15 ∧
      read ⟨changed.encode ++ [0x02], 7, 0⟩ = .ok changed ⟨[0x02], 22, 0⟩ ∧
      changed.presentFields = [0x20, 0x8000000000000000] ∧
      changed.presentFields.Pairwise (· < ·) := by
  intro found changed
  have ran : read ⟨[0x8d, 0x80, 0x80, 0x80, 0x80, 0x80, 0x80, 0x80, 0x80, 0x01,
      0xfe, 0xff, 0xff, 0xff, 0x0f], 0, 0⟩ = .ok found ⟨[], 15, 0⟩ := rfl
  have reached : Reached changed := .set (.set (.read ran) 0x2f true) 0x0b false
  have size : changed.encodedSize = 15 := by decide
  obtain ⟨clear, told⟩ := header_tells_apart changed
  obtain ⟨_, ⟨_, back⟩, _, ascending⟩ := told reached
  refine ⟨⟨_, ran⟩, reached, clear.mp reached, size, ?_, by decide, ascending⟩
  rw [back, size]

end FieldWire.FieldSet
