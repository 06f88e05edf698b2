import FieldWire.Proofs.Reader

/-!
# Shortest varints

A number has many varints, and the one that is written is the only shortest one.  Signed numbers are
written as the words under which they travel, so that this holds of them as well; the words are
numbered by shifts and an exclusive or.
-/

set_option autoImplicit false

namespace FieldWire

namespace Varint

theorem size_le (word : UInt64) : size word ≤ maxLength :=
  (scan_bounds (scan_of_decode (decode_encode_append word []))).2.2.1

/-- A varint that is no longer than it must be is the one that is written. -/
theorem take_of_groupCount {room : Nat} {bytes : Bytes} {value length : Nat}
    (scanned : scan room bytes = .ok (some (value, length))) (short : groupCount value = length) :
    bytes.take length = groups room value := by
  induction room generalizing bytes value length with
  | zero =>
    cases bytes with
    | nil => simp [scan] at scanned
    | cons byte rest =>
      rw [scan] at scanned
      split at scanned
      · cases scanned
        simp [groups]
      · cases scanned
  | succ room ih =>
    cases bytes with
    | nil => simp [scan] at scanned
    | cons byte rest =>
      rw [scan] at scanned
      split at scanned
      · rename_i small
        cases scanned
        simp [groups, small]
      · split at scanned
        · rename_i large high count inner
          cases scanned
          have byteBound := byte.toNat_lt
          have positive : 1 ≤ count := by
            have bounds := scan_bounds inner
            have counted := groupCount_pos high
            omega
          have more : ¬byte.toNat - 128 + 128 * high < 128 := by
            intro small
            rw [groupCount_of_lt small] at short
            omega
          have front : (byte.toNat - 128 + 128 * high) % 128 + 128 = byte.toNat := by omega
          have back : (byte.toNat - 128 + 128 * high) / 128 = high := by omega
          rw [groupCount_of_le (Nat.le_of_not_lt more), back, Nat.add_right_cancel_iff] at short
          rw [List.take_succ_cons, groups, if_neg more, front, back, ih inner short,
            UInt8.ofNat_toNat]
        · cases scanned
        · cases scanned

theorem size_eq_iff_of_decode {bytes : Bytes} {word : UInt64} {length : Nat}
    (decoded : decode bytes = .ok (some (word, length))) :
    size word = length ↔ bytes.take length = encode word := by
  constructor
  · intro short
    exact take_of_groupCount (scan_of_decode decoded) short
  · intro written
    have lengths := congrArg List.length written
    rw [List.length_take, Nat.min_eq_left (length_le_of_decode decoded), length_encode] at lengths
    exact lengths.symm

end Varint

/-! ## Zigzag in bits -/

namespace ZigZag

theorem sign_ofNat {magnitude : Nat} (small : magnitude < 2 ^ 63) :
    (BitVec.ofNat 64 magnitude).msb = false := by
  rw [BitVec.msb_eq_false_iff_two_mul_lt, BitVec.toNat_ofNat]
  omega

theorem shiftRight_ofNat {magnitude : Nat} (small : magnitude < 2 ^ 63) :
    BitVec.ofNat 64 magnitude >>> 63 = 0#64 := by
  apply BitVec.eq_of_toNat_eq
  rw [BitVec.toNat_ushiftRight, BitVec.toNat_ofNat, Nat.shiftRight_eq_div_pow,
    BitVec.toNat_ofNat]
  omega

/-- The word of a number is the number moved to the left, all its bits inverted if the number is
negative. -/
theorem toBitVec_ofInteger {width : Width} (number : Integer width) :
    (ofInteger number).toBitVec =
      (BitVec.ofInt 64 number.val <<< 1) ^^^ (BitVec.ofInt 64 number.val).sshiftRight 63 := by
  have travels : (ofInteger number).toBitVec.toNat = encode number.val := toNat_ofInteger number
  have bound : encode number.val < 2 ^ 64 := encode_lt number.widen.lower number.widen.upper
  apply BitVec.eq_of_toNat_eq
  rw [travels]
  generalize number.val = value at bound ⊢
  cases value with
  | ofNat magnitude =>
    rw [encode] at bound ⊢
    have small : magnitude < 2 ^ 63 := by omega
    rw [Int.ofNat_eq_natCast, BitVec.ofInt_natCast,
      BitVec.sshiftRight_eq_of_msb_false (sign_ofNat small), shiftRight_ofNat small,
      BitVec.xor_zero, BitVec.toNat_shiftLeft, BitVec.toNat_ofNat, Nat.shiftLeft_eq]
    omega
  | negSucc magnitude =>
    rw [encode] at bound ⊢
    have small : magnitude < 2 ^ 63 := by omega
    have negative : (~~~BitVec.ofNat 64 magnitude).msb = true := by
      rw [BitVec.msb_not, sign_ofNat small]
      rfl
    have inverts : ~~~(0#64) = BitVec.allOnes 64 := rfl
    rw [BitVec.ofInt_negSucc_eq_not_ofNat, BitVec.sshiftRight_eq_of_msb_true negative,
      BitVec.not_not, shiftRight_ofNat small, inverts, BitVec.xor_allOnes, BitVec.toNat_not,
      BitVec.toNat_shiftLeft, BitVec.toNat_not, BitVec.toNat_ofNat, Nat.shiftLeft_eq]
    omega

/-- The number of a word is the word moved to the right, all its bits inverted if it is odd. -/
theorem ofInt_toLong (word : UInt64) :
    BitVec.ofInt 64 (toLong word).val = (word.toBitVec >>> 1) ^^^ -(word.toBitVec &&& 1#64) := by
  have half : BitVec.ofNat 64 (word.toNat / 2) = word.toBitVec >>> 1 := by
    have bound := word.toNat_lt
    apply BitVec.eq_of_toNat_eq
    rw [BitVec.toNat_ushiftRight, BitVec.toNat_ofNat, UInt64.toNat_toBitVec,
      Nat.shiftRight_eq_div_pow]
    omega
  have low : (word.toBitVec &&& 1#64).toNat = word.toNat % 2 := by
    rw [BitVec.toNat_and, UInt64.toNat_toBitVec]
    exact Nat.and_one_is_mod _
  change BitVec.ofInt 64 (decode word.toNat) = _
  rw [decode]
  split
  · rename_i even
    have zero : word.toBitVec &&& 1#64 = 0#64 := BitVec.eq_of_toNat_eq (low.trans even)
    rw [Int.ofNat_eq_natCast, BitVec.ofInt_natCast, half, zero, BitVec.neg_zero, BitVec.xor_zero]
  · rename_i odd
    have one : word.toBitVec &&& 1#64 = 1#64 :=
      BitVec.eq_of_toNat_eq (low.trans (Nat.mod_two_ne_zero.mp odd))
    have inverts : -(1#64) = BitVec.allOnes 64 := rfl
    rw [BitVec.ofInt_negSucc_eq_not_ofNat, half, one, inverts, BitVec.xor_allOnes]

end ZigZag

namespace Reader

/-- A signed number that was read took the fewest bytes exactly if they are those that are
written. -/
theorem long_shortest {cursor after : Cursor} {number : Integer .long}
    (ran : long cursor = .ok number after) :
    ∃ length, after = cursor.advance length ∧ Write.integerSize number ≤ length ∧
      (Write.integerSize number = length ↔ cursor.rest.take length = Write.integer number) := by
  obtain ⟨word, middle, read, returned⟩ := (bind_eq_ok_iff _ _ _ _ _).mp ran
  obtain ⟨rfl, rfl⟩ := (pure_eq_ok_iff _ _ _ _).mp returned
  obtain ⟨length, decoded, rfl⟩ := word_eq_ok read
  refine ⟨length, rfl, ?_, ?_⟩
  · rw [Write.integerSize, ZigZag.ofInteger_toLong]
    exact Varint.size_le_of_decode decoded
  · rw [Write.integerSize, Write.integer, ZigZag.ofInteger_toLong]
    exact Varint.size_eq_iff_of_decode decoded

end Reader

namespace Varint

/-- Every word is read back from its varint whatever follows, and the varint has the length that is
worked out without writing it; among all varints of the word it is the only one as short as that.
Larger words have no shorter varints.  Signed numbers and words correspond one to one, by shifts and
an exclusive or, so that the same holds of signed numbers. -/
theorem written_shortest :
    (∀ word tail, decode (encode word ++ tail) = .ok (some (word, size word)) ∧
      (encode word).length = size word ∧ 1 ≤ size word ∧ size word ≤ 10) ∧
    (∀ bytes word length, decode bytes = .ok (some (word, length)) →
      size word ≤ length ∧ (size word = length ↔ bytes.take length = encode word)) ∧
    (∀ lower upper : UInt64, lower ≤ upper → size lower ≤ size upper) ∧
    (∀ number : Integer .long, ZigZag.toLong (ZigZag.ofInteger number) = number ∧
      (ZigZag.ofInteger number).toBitVec =
        (BitVec.ofInt 64 number.val <<< 1) ^^^ (BitVec.ofInt 64 number.val).sshiftRight 63) ∧
    (∀ word, ZigZag.ofInteger (ZigZag.toLong word) = word ∧
      BitVec.ofInt 64 (ZigZag.toLong word).val =
        (word.toBitVec >>> 1) ^^^ -(word.toBitVec &&& 1#64)) ∧
    (∀ (number : Integer .long) limit,
      Reader.Takes Reader.long limit (Write.integer number) number ∧
      (Write.integer number).length = Write.integerSize number ∧
      1 ≤ Write.integerSize number ∧ Write.integerSize number ≤ 10) ∧
    (∀ cursor (number : Integer .long) after, Reader.long cursor = .ok number after →
      ∃ length, after = cursor.advance length ∧ Write.integerSize number ≤ length ∧
        (Write.integerSize number = length ↔ cursor.rest.take length = Write.integer number)) := by
  refine ⟨?words, ?shortest, ?monotone, ?numbers, ?numbered, ?signed, ?shortestSigned⟩
  case words =>
    intro word tail
    exact ⟨decode_encode_append word tail, length_encode word, size_pos word, size_le word⟩
  case shortest =>
    intro bytes word length decoded
    exact ⟨size_le_of_decode decoded, size_eq_iff_of_decode decoded⟩
  case monotone =>
    intro lower upper ordered
    exact size_mono ordered
  case numbers =>
    intro number
    exact ⟨ZigZag.toLong_ofInteger number, ZigZag.toBitVec_ofInteger number⟩
  case numbered =>
    intro word
    exact ⟨ZigZag.ofInteger_toLong word, ZigZag.ofInt_toLong word⟩
  case signed =>
    intro number limit
    exact ⟨Reader.long_takes limit number, length_encode _, size_pos _, size_le _⟩
  case shortestSigned =>
    intro cursor number after ran
    exact Reader.long_shortest ran

/-- The number one in two bytes, which is a byte too many, and the least signed number in the ten
bytes that it needs. -/
theorem written_shortest_examples :
    let least : Integer .long := ⟨-9223372036854775808, by decide, by decide⟩
    (decode [0x81, 0x00] = .ok (some (1, 2)) ∧ size 1 ≠ 2) ∧
      ((0x7f : UInt64) ≤ 0x80 ∧ size 0x7f ≤ size 0x80) ∧
      Reader.long ⟨Write.integer least, 0, 0⟩ = .ok least ⟨[], 10, 0⟩ ∧
      Write.integerSize least = 10 := by
  intro least
  obtain ⟨_, shortest, monotone, _, _, signed, shortestSigned⟩ := written_shortest
  have one : decode [0x81, 0x00] = .ok (some (1, 2)) := rfl
  have ten : (Write.integer least).length = 10 := by decide
  have ran : Reader.long ⟨Write.integer least, 0, 0⟩ = .ok least ⟨[], 10, 0⟩ := by
    have taken := (signed least 0).1 [] 0
    rwa [List.append_nil, ten] at taken
  refine ⟨⟨one, fun short => ?_⟩, ⟨by decide, monotone _ _ (by decide)⟩, ran, ?_⟩
  · exact absurd ((shortest _ _ _ one).2.mp short) (by decide)
  · obtain ⟨length, moved, _, short⟩ := shortestSigned _ _ _ ran
    obtain rfl : 10 = length := by simpa [Cursor.advance] using congrArg Cursor.pos moved
    exact short.mpr (by rw [← ten, List.take_length])

end Varint

end FieldWire
