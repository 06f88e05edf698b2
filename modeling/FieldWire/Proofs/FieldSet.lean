import FieldWire.FieldSet
import FieldWire.Proofs.Reader
import Mathlib.Data.List.Nodup
import Mathlib.Data.Nat.Bitwise

/-!
# Field sets

A field set that has presence bits only comes back from its header and continuation, and one that
was read takes no more bytes when it is written.  A structure keeps of a header only the fields it
knows, so the second fact is wanted for every smaller set of fields too.
-/

set_option autoImplicit false

namespace FieldWire

/-! ## Masks -/

theorem or_and_distrib (left right mask : UInt64) :
    (left ||| right) &&& mask = (left &&& mask) ||| (right &&& mask) := by
  apply UInt64.toNat_inj.mp
  simp only [UInt64.toNat_and, UInt64.toNat_or]
  exact Nat.and_or_distrib_right _ _ _

theorem and_or_distrib (mask left right : UInt64) :
    mask &&& (left ||| right) = (mask &&& left) ||| (mask &&& right) := by
  rw [UInt64.and_comm, or_and_distrib, UInt64.and_comm left, UInt64.and_comm right]

theorem complement_or (left right : UInt64) : ~~~(left ||| right) = ~~~left &&& ~~~right := by
  apply UInt64.toBitVec_inj.mp
  exact BitVec.not_or

theorem complement_and (left right : UInt64) : ~~~(left &&& right) = ~~~left ||| ~~~right := by
  apply UInt64.toBitVec_inj.mp
  exact BitVec.not_and

theorem and_eq_self_of_and_not {bits mask : UInt64} (outside : bits &&& ~~~mask = 0) :
    bits &&& mask = bits := by
  have split : bits &&& (mask ||| ~~~mask) = bits := by
    rw [UInt64.or_not_self, UInt64.and_neg_one]
  rw [and_or_distrib, outside, UInt64.or_zero] at split
  exact split

theorem and_and_not_eq_zero {bits mask : UInt64} (inside : bits &&& mask = bits) :
    bits &&& ~~~mask = 0 := by
  rw [← inside, UInt64.and_assoc, UInt64.and_not_self, UInt64.and_zero]

theorem toNat_and_le (bits mask : UInt64) : (bits &&& mask).toNat ≤ bits.toNat := by
  rw [UInt64.toNat_and]
  exact Nat.and_le_left

theorem toNat_and_typeMask (word : UInt64) : (word &&& typeMask).toNat = word.toNat % 4 := by
  rw [UInt64.toNat_and]
  exact Nat.and_two_pow_sub_one_eq_mod word.toNat 2

/-! ## Single fields -/

theorem testBit_of_le (mask : UInt64) {index : Nat} (outside : 64 ≤ index) :
    mask.toNat.testBit index = false :=
  Nat.testBit_lt_two_pow (Nat.lt_of_lt_of_le mask.toNat_lt (Nat.pow_le_pow_right (by decide) outside))

theorem testBit_and (bits mask : UInt64) (index : Nat) :
    (bits &&& mask).toNat.testBit index = (bits.toNat.testBit index && mask.toNat.testBit index) := by
  rw [UInt64.toNat_and, Nat.testBit_and]

theorem testBit_and_not (bits mask : UInt64) (index : Nat) :
    (bits &&& ~~~mask).toNat.testBit index =
      (bits.toNat.testBit index && !mask.toNat.testBit index) := by
  rw [testBit_and]
  by_cases inside : index < 64
  · rw [← UInt64.toNat_toBitVec (~~~mask), ← UInt64.toNat_toBitVec mask, BitVec.testBit_toNat,
      BitVec.testBit_toNat, UInt64.toBitVec_not, BitVec.getLsbD_not]
    simp [inside]
  · rw [testBit_of_le bits (Nat.le_of_not_lt inside), Bool.false_and, Bool.false_and]

@[simp]
theorem fieldsOf_zero : fieldsOf 0 = [] := rfl

theorem toNat_fieldBit {position : Nat} (inside : position < fieldsPerSegment) :
    (fieldBit position).toNat = 2 ^ (firstFieldBit + position) := by
  have small : 2 ^ (firstFieldBit + position) < 2 ^ 64 := by
    apply Nat.pow_lt_pow_right (by decide)
    rw [firstFieldBit]
    rw [fieldsPerSegment] at inside
    omega
  rw [fieldBit, UInt64.toNat_ofNat']
  exact Nat.mod_eq_of_lt small

theorem fieldBit_injective {first second : Nat} (inside : first < fieldsPerSegment)
    (alsoInside : second < fieldsPerSegment) (same : fieldBit first = fieldBit second) :
    first = second := by
  have powers := congrArg UInt64.toNat same
  rw [toNat_fieldBit inside, toNat_fieldBit alsoInside] at powers
  exact Nat.add_left_cancel (Nat.pow_right_injective (Nat.le_refl 2) powers)

theorem and_fieldBit_ne_zero {mask : UInt64} {position : Nat} (inside : position < fieldsPerSegment) :
    (mask &&& fieldBit position != 0) = mask.toNat.testBit (firstFieldBit + position) := by
  have value : (mask &&& fieldBit position).toNat =
      (mask.toNat.testBit (firstFieldBit + position)).toNat * 2 ^ (firstFieldBit + position) := by
    rw [UInt64.toNat_and, toNat_fieldBit inside]
    exact Nat.and_two_pow _ _
  rw [Bool.eq_iff_iff, bne_iff_ne, ne_eq, ← UInt64.toNat_inj, value]
  cases mask.toNat.testBit (firstFieldBit + position) <;> simp

theorem fieldsOf_eq_map (mask : UInt64) :
    fieldsOf mask = ((List.range fieldsPerSegment).filter fun position =>
      mask.toNat.testBit (firstFieldBit + position)).map fieldBit := by
  rw [fieldsOf, List.filter_map]
  congr 1
  apply List.filter_congr
  intro position member
  exact and_fieldBit_ne_zero (List.mem_range.mp member)

theorem mem_fieldsOf_iff {mask field : UInt64} :
    field ∈ fieldsOf mask ↔ ∃ position < fieldsPerSegment,
      mask.toNat.testBit (firstFieldBit + position) ∧ fieldBit position = field := by
  simp only [fieldsOf_eq_map, List.mem_map, List.mem_filter, List.mem_range, and_assoc]

theorem testBit_and_presenceMask (bits : UInt64) (position : Nat) :
    (bits &&& presenceMask).toNat.testBit (firstFieldBit + position) =
      bits.toNat.testBit (firstFieldBit + position) := by
  have low : (typeMask ||| continuationFlag).toNat < 2 ^ (firstFieldBit + position) :=
    Nat.lt_of_lt_of_le (by decide : _ < 2 ^ firstFieldBit)
      (Nat.pow_le_pow_right (by decide) (Nat.le_add_right _ _))
  rw [presenceMask, testBit_and_not, Nat.testBit_lt_two_pow low, Bool.not_false, Bool.and_true]

/-- The present fields among those of a mask. -/
theorem FieldSet.fieldsOf_bits_and (set : FieldSet) (mask : UInt64) :
    fieldsOf (set.bits &&& mask) = (fieldsOf mask).filter set.has := by
  rw [fieldsOf, fieldsOf, List.filter_filter]
  apply List.filter_congr
  intro field member
  obtain ⟨position, inside, rfl⟩ := List.mem_map.mp member
  have inside := List.mem_range.mp inside
  rw [FieldSet.has, and_fieldBit_ne_zero inside, and_fieldBit_ne_zero inside,
    and_fieldBit_ne_zero inside, testBit_and]

theorem nodup_fieldsOf (mask : UInt64) : (fieldsOf mask).Nodup := by
  refine List.Nodup.filter _ (List.Nodup.map_on ?_ List.nodup_range)
  intro first inside second alsoInside
  exact fieldBit_injective (List.mem_range.mp inside) (List.mem_range.mp alsoInside)

/-- The places of presence bits in a word. -/
theorem place_of_testBit {mask : UInt64} {index : Nat} (proper : mask &&& presenceMask = mask)
    (set : mask.toNat.testBit index = true) : firstFieldBit ≤ index ∧ index < 64 := by
  constructor
  · by_contra low
    have kept : presenceMask.toNat.testBit index = true := by
      rw [← proper, UInt64.toNat_and, Nat.testBit_and] at set
      exact (Bool.and_eq_true_iff.mp set).2
    have few : index = 0 ∨ index = 1 ∨ index = 2 := by
      rw [firstFieldBit] at low
      omega
    rcases few with rfl | rfl | rfl <;> exact absurd kept (by decide)
  · by_contra high
    rw [testBit_of_le mask (Nat.le_of_not_lt high)] at set
    cases set

/-- Every presence bit is that of a field. -/
theorem fieldBit_mem_fieldsOf {mask : UInt64} {index : Nat} (proper : mask &&& presenceMask = mask)
    (set : mask.toNat.testBit index = true) : fieldBit (index - firstFieldBit) ∈ fieldsOf mask := by
  obtain ⟨low, high⟩ := place_of_testBit proper set
  refine mem_fieldsOf_iff.mpr ⟨index - firstFieldBit, ?_, ?_, rfl⟩
  · rw [fieldsPerSegment, firstFieldBit]
    omega
  · rw [Nat.add_sub_cancel' low]
    exact set

/-- Presence bits none of which is a field are none at all. -/
theorem eq_zero_of_fieldsOf {mask : UInt64} (proper : mask &&& presenceMask = mask)
    (none : fieldsOf mask = []) : mask = 0 := by
  apply UInt64.toNat_inj.mp
  apply Nat.eq_of_testBit_eq
  intro index
  rw [show (0 : UInt64).toNat = 0 from rfl, Nat.zero_testBit]
  by_contra set
  have member := fieldBit_mem_fieldsOf proper (by simpa using set)
  rw [none] at member
  cases member

/-- In a sorted list, the entries with a property that none has after one without it. -/
theorem filter_eq_append {α : Type} {before : α → α → Prop} {entries : List α}
    (sorted : entries.Pairwise before) {some early : α → Bool}
    (ordered : ∀ first second, before first second → some first = true → early first = false →
      some second = true → early second = false) :
    entries.filter some = (entries.filter fun entry => some entry && early entry) ++
      entries.filter fun entry => some entry && !early entry := by
  induction sorted with
  | nil => rfl
  | @cons entry rest later _ ih =>
    by_cases here : some entry = true
    · by_cases first : early entry = true
      · rw [List.filter_cons_of_pos here, List.filter_cons_of_pos (by simp [here, first]),
          List.filter_cons_of_neg (by simp [first]), ih, List.cons_append]
      · have late : early entry = false := by simpa using first
        have none : (rest.filter fun entry => some entry && early entry) = [] := by
          rw [List.filter_eq_nil_iff]
          intro other member
          rw [Bool.and_eq_true_iff]
          rintro ⟨present, isEarly⟩
          rw [ordered entry other (later other member) here late present] at isEarly
          cases isEarly
        rw [none, List.nil_append] at ih
        rw [List.filter_cons_of_pos here, List.filter_cons_of_neg (by simp [late]),
          List.filter_cons_of_pos (by simp [here, late]), none, List.nil_append, ih]
    · rw [List.filter_cons_of_neg here, List.filter_cons_of_neg (by simp [here]),
        List.filter_cons_of_neg (by simp [here]), ih]

/-- Fields of a mask that all stand below the others come first. -/
theorem fieldsOf_eq_append {bits mask : UInt64}
    (below : ∀ low high, (bits &&& mask).toNat.testBit low = true →
      (bits &&& ~~~mask).toNat.testBit high = true → low < high) :
    fieldsOf bits = fieldsOf (bits &&& mask) ++ fieldsOf (bits &&& ~~~mask) := by
  simp only [fieldsOf_eq_map, testBit_and_not, testBit_and bits mask] at below ⊢
  rw [← List.map_append]
  congr 1
  apply filter_eq_append List.pairwise_lt_range
  intro first second ordered firstSet firstLate secondSet
  by_contra secondEarly
  have reversed := below (firstFieldBit + second) (firstFieldBit + first)
    (by simpa [secondSet] using secondEarly) (by simp [firstSet, firstLate])
  omega

namespace FieldSet

/-! ## Headers -/

/-- Only presence bits are set. -/
def Proper (set : FieldSet) : Prop := set.bits &&& presenceMask = set.bits

theorem proper_ofBits (wireType : WireType) (index : UInt32) (bits : UInt64) :
    (ofBits wireType index bits).Proper := by
  rw [Proper, ofBits, UInt64.and_assoc, UInt64.and_self]

theorem ofBits_of_proper {set : FieldSet} (proper : set.Proper) :
    ofBits set.wireType set.index set.bits = set := by
  rw [ofBits, proper]

theorem bits_and_of_proper {set : FieldSet} {mask : UInt64} (proper : set.Proper)
    (low : presenceMask &&& mask = 0) : set.bits &&& mask = 0 := by
  rw [← proper, UInt64.and_assoc, low, UInt64.and_zero]

/-- What is missing is required. -/
theorem missing_and (set : FieldSet) (required : UInt64) :
    set.missing required &&& required = set.missing required := by
  rw [missing, UInt64.and_comm required, UInt64.and_assoc, UInt64.and_self]

/-- The flag of a segment that has a continuation. -/
def flag (index : UInt32) : UInt64 := if index = 0 then 0 else continuationFlag

theorem header_and (set : FieldSet) (mask : UInt64) :
    set.header &&& mask = (set.bits &&& mask) ||| (flag set.index &&& mask) |||
      (UInt64.ofNat set.wireType.tag &&& mask) := by
  rw [header, ← flag, or_and_distrib, or_and_distrib]

theorem header_and_presenceMask {set : FieldSet} (proper : set.Proper) :
    set.header &&& presenceMask = set.bits := by
  have noFlag : flag set.index &&& presenceMask = 0 := by
    rw [flag]
    split <;> decide
  have noTag : UInt64.ofNat set.wireType.tag &&& presenceMask = 0 := by
    cases set.wireType <;> decide
  rw [header_and, noFlag, noTag, proper, UInt64.or_zero, UInt64.or_zero]

theorem header_and_continuationFlag {set : FieldSet} (proper : set.Proper) :
    set.header &&& continuationFlag = flag set.index := by
  have noBits := bits_and_of_proper proper (show presenceMask &&& continuationFlag = 0 by decide)
  have sameFlag : flag set.index &&& continuationFlag = flag set.index := by
    rw [flag]
    split <;> decide
  have noTag : UInt64.ofNat set.wireType.tag &&& continuationFlag = 0 := by
    cases set.wireType <;> decide
  rw [header_and, noBits, sameFlag, noTag, UInt64.zero_or, UInt64.or_zero]

theorem header_and_typeMask {set : FieldSet} (proper : set.Proper) :
    set.header &&& typeMask = UInt64.ofNat set.wireType.tag := by
  have noBits := bits_and_of_proper proper (show presenceMask &&& typeMask = 0 by decide)
  have noFlag : flag set.index &&& typeMask = 0 := by
    rw [flag]
    split <;> decide
  have sameTag : UInt64.ofNat set.wireType.tag &&& typeMask = UInt64.ofNat set.wireType.tag := by
    cases set.wireType <;> decide
  rw [header_and, noBits, noFlag, sameTag, UInt64.zero_or, UInt64.zero_or]

theorem wireType_header {set : FieldSet} (proper : set.Proper) :
    WireType.ofTag set.header.toNat = set.wireType := by
  have low := congrArg UInt64.toNat (header_and_typeMask proper)
  rw [toNat_and_typeMask] at low
  have high := WireType.ofTag_add_tag set.wireType (set.header.toNat / 4)
  have tag : (UInt64.ofNat set.wireType.tag).toNat = set.wireType.tag := by
    cases set.wireType <;> rfl
  rw [tag] at low
  rw [← low] at high
  rw [← high]
  congr 1
  omega

/-! ## Continuations -/

theorem indexAfter_ne_zero (continuation : UInt32) : indexAfter continuation ≠ 0 := by
  intro zero
  rw [indexAfter] at zero
  split at zero
  · revert zero
    decide
  · rename_i notLast
    have next := congrArg UInt32.toNat zero
    rw [UInt32.toNat_add] at next
    apply notLast
    apply UInt32.toNat_inj.mp
    have bound := continuation.toNat_lt
    have one : (1 : UInt32).toNat = 1 := rfl
    have none : (0 : UInt32).toNat = 0 := rfl
    have last : (0xffffffff : UInt32).toNat = 4294967295 := rfl
    omega

/-- An index never exceeds the successor of the continuation that named it. -/
theorem indexAfter_le (continuation : UInt32) :
    (indexAfter continuation).toNat ≤ continuation.toNat + 1 := by
  rw [indexAfter]
  split
  · rename_i last
    rw [last]
    exact Nat.le_succ _
  · rw [UInt32.toNat_add]
    exact Nat.mod_le _ _

theorem toNat_continuation (set : FieldSet) (later : set.index ≠ 0) :
    set.continuation.toNat = set.index.toNat - 1 := by
  have positive : set.index.toNat ≠ 0 := fun zero => later (UInt32.toNat_inj.mp zero)
  have one : (1 : UInt64) ≤ set.index.toUInt64 := by
    rw [UInt64.le_iff_toNat_le, UInt32.toNat_toUInt64]
    exact Nat.one_le_iff_ne_zero.mpr positive
  rw [continuation, UInt64.toNat_sub_of_le _ _ one, UInt32.toNat_toUInt64]
  rfl

theorem indexAfter_continuation {set : FieldSet} (later : set.index ≠ 0) :
    indexAfter set.continuation.toUInt32 = set.index := by
  have positive : set.index.toNat ≠ 0 := fun zero => later (UInt32.toNat_inj.mp zero)
  have bound := set.index.toNat_lt
  have number : set.continuation.toUInt32.toNat = set.index.toNat - 1 := by
    rw [UInt64.toNat_toUInt32, toNat_continuation set later]
    omega
  have notLast : set.continuation.toUInt32 ≠ 0xffffffff := by
    intro last
    rw [last] at number
    have value : (0xffffffff : UInt32).toNat = 4294967295 := rfl
    omega
  apply UInt32.toNat_inj.mp
  have one : (1 : UInt32).toNat = 1 := rfl
  rw [indexAfter, if_neg notLast, UInt32.toNat_add, number, one]
  omega

end FieldSet

/-! ## Reading field sets -/

namespace Reader

theorem word32_takes {limit : Nat} {value : UInt64} (small : value.toNat < UInt32.size) :
    Takes word32 limit (Write.word value) value.toUInt32 := by
  apply Takes.bindPure (word_takes limit value)
  rw [if_pos small]

theorem word32_eq_ok {cursor after : Cursor} {value : UInt32}
    (ran : word32 cursor = .ok value after) :
    ∃ word length, Varint.decode cursor.rest = .ok (some (word, length)) ∧
      word.toNat = value.toNat ∧ after = cursor.advance length := by
  obtain ⟨word, middle, read, checked⟩ := (bind_eq_ok_iff _ _ _ _ _).mp ran
  obtain ⟨length, decoded, rfl⟩ := word_eq_ok read
  split at checked
  · rename_i small
    obtain ⟨rfl, rfl⟩ := (pure_eq_ok_iff _ _ _ _).mp checked
    refine ⟨word, length, decoded, ?_, rfl⟩
    rw [UInt64.toNat_toUInt32, Nat.mod_eq_of_lt small]
  · exact absurd checked (throw_ne_ok _ _ _ _)

end Reader

namespace FieldSet

theorem length_encode (set : FieldSet) : set.encode.length = set.encodedSize := by
  rw [encode, encodedSize, List.length_append, Write.word, Varint.length_encode]
  split
  · rfl
  · rw [Write.word, Varint.length_encode]

theorem encodedSize_pos (set : FieldSet) : 1 ≤ set.encodedSize :=
  Nat.le_trans (Varint.size_pos set.header) (Nat.le_add_right _ _)

theorem read_takes {set : FieldSet} (proper : set.Proper) (limit : Nat) :
    Reader.Takes read limit set.encode set := by
  have whole : ofBits (WireType.ofTag set.header.toNat) set.index set.header = set := by
    rw [ofBits, wireType_header proper, header_and_presenceMask proper]
  apply Reader.Takes.bind (Reader.word_takes limit set.header)
  rw [header_and_continuationFlag proper, flag]
  by_cases first : set.index = 0
  · rw [if_pos first, if_pos first, if_pos rfl]
    rw [first] at whole
    exact Reader.Takes.bindPure (Reader.Takes.nothing limit 0) (congrArg pure whole)
  · have small : set.continuation.toNat < UInt32.size := by
      rw [toNat_continuation set first]
      exact Nat.lt_of_le_of_lt (Nat.sub_le _ _) set.index.toNat_lt
    have flagged : continuationFlag ≠ 0 := by decide
    rw [if_neg first, if_neg first, if_neg flagged]
    apply Reader.Takes.bindPure (Reader.word32_takes small)
    rw [indexAfter_continuation first, pure_bind]
    exact congrArg pure whole

theorem and_continuationFlag (word : UInt64) :
    word &&& continuationFlag = 0 ∨ word &&& continuationFlag = continuationFlag := by
  have bit : (word &&& continuationFlag).toNat = (word.toNat.testBit 2).toNat * 2 ^ 2 := by
    rw [UInt64.toNat_and]
    exact Nat.and_two_pow word.toNat 2
  cases set : word.toNat.testBit 2 with
  | false =>
    rw [set] at bit
    exact .inl (UInt64.toNat_inj.mp bit)
  | true =>
    rw [set] at bit
    exact .inr (UInt64.toNat_inj.mp bit)

theorem ofNat_tag_ofTag (word : UInt64) :
    UInt64.ofNat (WireType.ofTag word.toNat).tag = word &&& typeMask := by
  apply UInt64.toNat_inj.mp
  rw [WireType.tag_ofTag, toNat_and_typeMask, UInt64.toNat_ofNat', Nat.mod_eq_of_lt (by omega)]

/-- The header of some of the fields that a word names is that word without the other fields. -/
theorem size_header_le {index : UInt32} (word mask : UInt64)
    (sameFlag : flag index = word &&& continuationFlag) :
    Varint.size (ofBits (WireType.ofTag word.toNat) index
      ((ofBits (WireType.ofTag word.toNat) index word).bits &&& mask)).header ≤
        Varint.size word := by
  have kept : (ofBits (WireType.ofTag word.toNat) index
      ((ofBits (WireType.ofTag word.toNat) index word).bits &&& mask)).header =
        word &&& ((presenceMask &&& mask &&& presenceMask) ||| continuationFlag ||| typeMask) := by
    rw [header, ← flag]
    simp only [ofBits]
    rw [ofNat_tag_ofTag, sameFlag, and_or_distrib, and_or_distrib]
    simp only [UInt64.and_assoc]
  apply Varint.size_mono
  rw [kept]
  exact toNat_and_le _ _

/-- What was read for a field set is no shorter than what is written for it, or for any part of its
fields. -/
theorem read_costs {cursor after : Cursor} {set : FieldSet} (ran : read cursor = .ok set after) :
    set.Proper ∧ ∃ length, 1 ≤ length ∧ length ≤ cursor.rest.length ∧
      after = cursor.advance length ∧
      ∀ mask, (ofBits set.wireType set.index (set.bits &&& mask)).encodedSize ≤ length := by
  obtain ⟨word, middle, readHeader, ran⟩ := (bind_eq_ok_iff _ _ _ _ _).mp ran
  obtain ⟨length, decoded, rfl⟩ := Reader.word_eq_ok readHeader
  have inside := Varint.length_le_of_decode decoded
  have headerSize := Varint.size_le_of_decode decoded
  have positive := Varint.size_pos word
  by_cases first : word &&& continuationFlag = 0
  · rw [if_pos first] at ran
    obtain ⟨rfl, rfl⟩ := (pure_eq_ok_iff _ _ _ _).mp ran
    refine ⟨proper_ofBits _ _ _, length, by omega, inside, rfl, ?_⟩
    intro mask
    exact Nat.le_trans (size_header_le word mask first.symm) headerSize
  · rw [if_neg first] at ran
    obtain ⟨number, last, readWord, ran⟩ := (bind_eq_ok_iff _ _ _ _ _).mp ran
    obtain ⟨rfl, rfl⟩ := (pure_eq_ok_iff _ _ _ _).mp ran
    obtain ⟨continued, more, decodedMore, sameNumber, rfl⟩ := Reader.word32_eq_ok readWord
    have insideMore := Varint.length_le_of_decode decodedMore
    have continuationSize := Varint.size_le_of_decode decodedMore
    rw [Cursor.rest_advance, List.length_drop] at insideMore
    have later := indexAfter_ne_zero number
    have sameFlag : flag (indexAfter number) = word &&& continuationFlag := by
      rw [flag, if_neg later]
      exact ((and_continuationFlag word).resolve_left first).symm
    refine ⟨proper_ofBits _ _ _, length + more, by omega, by omega,
      Cursor.advance_advance _ _ _, ?_⟩
    intro mask
    have headerFits := Nat.le_trans (size_header_le word mask sameFlag) headerSize
    have continuationFits : Varint.size ((indexAfter number).toUInt64 - 1) ≤ more := by
      refine Nat.le_trans (Varint.size_mono ?_) continuationSize
      have predecessor : ((indexAfter number).toUInt64 - 1).toNat = (indexAfter number).toNat - 1 :=
        toNat_continuation (empty .list (indexAfter number)) later
      have successor := indexAfter_le number
      rw [predecessor, sameNumber]
      omega
    rw [encodedSize]
    simp only [ofBits, later, if_false]
    exact Nat.add_le_add headerFits continuationFits

/-- Some of the fields of a field set take no more bytes than all of them. -/
theorem encodedSize_and_le {set : FieldSet} (proper : set.Proper) (mask : UInt64) :
    (ofBits set.wireType set.index (set.bits &&& mask)).encodedSize ≤ set.encodedSize := by
  have taken : read ⟨set.encode ++ [], 0, 0⟩ = .ok set _ := read_takes proper 0 [] 0
  obtain ⟨_, length, _, inside, moved, smaller⟩ := read_costs taken
  rw [List.append_nil, length_encode] at inside
  exact Nat.le_trans (smaller mask) inside

end FieldSet

end FieldWire
