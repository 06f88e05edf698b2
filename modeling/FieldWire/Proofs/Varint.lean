import FieldWire.Varint
import Mathlib.Algebra.Order.Ring.Nat

/-!
# Varints

Reading undoes writing, whatever follows; a varint that was read does not depend on the bytes after
it; and no varint of a number is shorter than the one that is written.  Everything is first said of
`scan` and `groups`, by induction on the room that is left, and then of words.
-/

set_option autoImplicit false

namespace FieldWire.Varint

/-! ## The number of groups -/

theorem groupCount_of_lt {value : Nat} (small : value < 128) : groupCount value = 1 := by
  by_cases zero : value = 0
  · simp [groupCount, zero]
  · have bits : value.log2 < 7 := (Nat.log2_lt zero).mpr (by omega)
    simp only [groupCount, zero, if_false]
    omega

theorem log2_div {value : Nat} (large : 128 ≤ value) : value.log2 = (value / 128).log2 + 7 := by
  have smaller : value / 128 ≠ 0 := by omega
  rw [Nat.log2_eq_iff (by omega)]
  obtain ⟨lower, upper⟩ := (Nat.log2_eq_iff smaller).mp rfl
  rw [Nat.pow_add, Nat.pow_add, Nat.pow_add]
  rw [Nat.pow_add] at upper
  omega

theorem groupCount_of_le {value : Nat} (large : 128 ≤ value) :
    groupCount value = groupCount (value / 128) + 1 := by
  have nonzero : value ≠ 0 := by omega
  have smaller : value / 128 ≠ 0 := by omega
  have bits := log2_div large
  simp only [groupCount, nonzero, smaller, if_false]
  omega

theorem groupCount_pos (value : Nat) : 1 ≤ groupCount value := by
  unfold groupCount
  split
  · exact Nat.le_refl 1
  · omega

theorem groupCount_mono {lower upper : Nat} (ordered : lower ≤ upper) :
    groupCount lower ≤ groupCount upper := by
  by_cases zero : lower = 0
  · rw [zero]
    exact groupCount_pos upper
  · have nonzero : upper ≠ 0 := by omega
    have bits : lower.log2 ≤ upper.log2 := by
      rw [Nat.le_log2 nonzero]
      exact Nat.le_trans (Nat.log2_self_le zero) ordered
    simp only [groupCount, zero, nonzero, if_false]
    omega

/-! ## Groups -/

theorem groups_length (room value : Nat) (fits : value < 2 * 128 ^ room) :
    (groups room value).length = groupCount value := by
  induction room generalizing value with
  | zero =>
    rw [groupCount_of_lt (by omega)]
    rfl
  | succ room ih =>
    by_cases small : value < 128
    · rw [groups, if_pos small, groupCount_of_lt small]
      rfl
    · have smaller : value / 128 < 2 * 128 ^ room := by
        rw [Nat.div_lt_iff_lt_mul (by decide)]
        rw [Nat.pow_succ] at fits
        omega
      have large : 128 ≤ value := by omega
      rw [groups, if_neg small, List.length_cons, ih _ smaller, groupCount_of_le large]

theorem scan_groups (room value : Nat) (tail : Bytes) (fits : value < 2 * 128 ^ room) :
    scan room (groups room value ++ tail) = .ok (some (value, groupCount value)) := by
  induction room generalizing value with
  | zero =>
    have byte : (UInt8.ofNat value).toNat = value := by
      rw [UInt8.toNat_ofNat']
      omega
    rw [groups, List.singleton_append, scan, byte, if_pos (by omega), groupCount_of_lt (by omega)]
  | succ room ih =>
    by_cases small : value < 128
    · have byte : (UInt8.ofNat value).toNat = value := by
        rw [UInt8.toNat_ofNat']
        omega
      rw [groups, if_pos small, List.singleton_append, scan, byte, if_pos small,
        groupCount_of_lt small]
    · have byte : (UInt8.ofNat (value % 128 + 128)).toNat = value % 128 + 128 := by
        rw [UInt8.toNat_ofNat']
        omega
      have smaller : value / 128 < 2 * 128 ^ room := by
        rw [Nat.div_lt_iff_lt_mul (by decide)]
        rw [Nat.pow_succ] at fits
        omega
      have whole : value % 128 + 128 - 128 + 128 * (value / 128) = value := by omega
      rw [groups, if_neg small, List.cons_append, scan, byte, if_neg (by omega), ih _ smaller]
      simp only [whole, groupCount_of_le (show 128 ≤ value by omega)]

/-! ## Scanning -/

/-- What a varint that was scanned can be, and how much of the bytes it is. -/
theorem scan_bounds {room : Nat} {bytes : Bytes} {value length : Nat}
    (scanned : scan room bytes = .ok (some (value, length))) :
    value < 2 * 128 ^ room ∧ groupCount value ≤ length ∧ length ≤ room + 1 ∧
      length ≤ bytes.length := by
  induction room generalizing bytes value length with
  | zero =>
    cases bytes with
    | nil => simp [scan] at scanned
    | cons byte rest =>
      rw [scan] at scanned
      split at scanned
      · rename_i small
        simp only [Except.ok.injEq, Option.some.injEq, Prod.mk.injEq] at scanned
        obtain ⟨rfl, rfl⟩ := scanned
        rw [groupCount_of_lt (by omega), List.length_cons]
        omega
      · simp at scanned
  | succ room ih =>
    cases bytes with
    | nil => simp [scan] at scanned
    | cons byte rest =>
      rw [scan] at scanned
      split at scanned
      · rename_i small
        simp only [Except.ok.injEq, Option.some.injEq, Prod.mk.injEq] at scanned
        obtain ⟨rfl, rfl⟩ := scanned
        have positive : 1 ≤ 128 ^ room := Nat.one_le_pow _ _ (by decide)
        rw [groupCount_of_lt small, List.length_cons, Nat.pow_succ]
        omega
      · split at scanned
        · rename_i large high count inner
          simp only [Except.ok.injEq, Option.some.injEq, Prod.mk.injEq] at scanned
          obtain ⟨rfl, rfl⟩ := scanned
          obtain ⟨bound, fewest, most, inside⟩ := ih inner
          have byteBound := byte.toNat_lt
          have counted : groupCount (byte.toNat - 128 + 128 * high) ≤ groupCount high + 1 := by
            by_cases small : byte.toNat - 128 + 128 * high < 128
            · rw [groupCount_of_lt small]
              omega
            · have half : (byte.toNat - 128 + 128 * high) / 128 = high := by omega
              have large : 128 ≤ byte.toNat - 128 + 128 * high := by omega
              have same : groupCount (byte.toNat - 128 + 128 * high) = groupCount high + 1 := by
                rw [groupCount_of_le large, half]
              exact Nat.le_of_eq same
          rw [List.length_cons, Nat.pow_succ]
          omega
        · simp at scanned
        · simp at scanned

theorem scan_append {room : Nat} {bytes : Bytes} {result : Nat × Nat} (tail : Bytes)
    (scanned : scan room bytes = .ok (some result)) :
    scan room (bytes ++ tail) = .ok (some result) := by
  induction room generalizing bytes result with
  | zero =>
    cases bytes with
    | nil => simp [scan] at scanned
    | cons byte rest => simpa [scan] using scanned
  | succ room ih =>
    cases bytes with
    | nil => simp [scan] at scanned
    | cons byte rest =>
      rw [List.cons_append, scan]
      rw [scan] at scanned
      split
      · simpa [*] using scanned
      · rename_i large
        rw [if_neg large] at scanned
        split at scanned
        · rename_i high count inner
          rw [ih inner]
          exact scanned
        · simp at scanned
        · simp at scanned

theorem scan_append_error {room : Nat} {bytes : Bytes} {error : CodecError} (tail : Bytes)
    (scanned : scan room bytes = .error error) : scan room (bytes ++ tail) = .error error := by
  induction room generalizing bytes with
  | zero =>
    cases bytes with
    | nil => simp [scan] at scanned
    | cons byte rest => simpa [scan] using scanned
  | succ room ih =>
    cases bytes with
    | nil => simp [scan] at scanned
    | cons byte rest =>
      rw [List.cons_append, scan]
      rw [scan] at scanned
      split
      · simp [*] at scanned
      · rename_i large
        rw [if_neg large] at scanned
        split at scanned
        · simp at scanned
        · simp at scanned
        · rename_i cause inner
          simp only [Except.error.injEq] at scanned
          subst cause
          rw [ih inner]

/-- The bytes after a varint do not matter to it. -/
theorem scan_take {room : Nat} {bytes : Bytes} {value length : Nat}
    (scanned : scan room bytes = .ok (some (value, length))) :
    scan room (bytes.take length) = .ok (some (value, length)) := by
  induction room generalizing bytes value length with
  | zero =>
    cases bytes with
    | nil => simp [scan] at scanned
    | cons byte rest =>
      have one : length = 1 := by
        have bounds := scan_bounds scanned
        have counted := groupCount_pos value
        omega
      subst one
      simpa [scan] using scanned
  | succ room ih =>
    cases bytes with
    | nil => simp [scan] at scanned
    | cons byte rest =>
      rw [scan] at scanned
      split at scanned
      · rename_i small
        simp only [Except.ok.injEq, Option.some.injEq, Prod.mk.injEq] at scanned
        obtain ⟨rfl, rfl⟩ := scanned
        rw [List.take_succ_cons, scan, if_pos small]
      · rename_i large
        split at scanned
        · rename_i high count inner
          simp only [Except.ok.injEq, Option.some.injEq, Prod.mk.injEq] at scanned
          obtain ⟨rfl, rfl⟩ := scanned
          rw [List.take_succ_cons, scan, if_neg large, ih inner]
        · simp at scanned
        · simp at scanned

/-! ## Words -/

theorem word_fits (word : UInt64) : word.toNat < 2 * 128 ^ (maxLength - 1) := by
  have bound := word.toNat_lt
  rw [maxLength]
  omega

@[simp]
theorem length_encode (word : UInt64) : (encode word).length = size word :=
  groups_length _ _ (word_fits word)

theorem size_pos (word : UInt64) : 1 ≤ size word := groupCount_pos word.toNat

theorem size_mono {lower upper : UInt64} (ordered : lower.toNat ≤ upper.toNat) :
    size lower ≤ size upper :=
  groupCount_mono ordered

theorem decode_encode_append (word : UInt64) (tail : Bytes) :
    decode (encode word ++ tail) = .ok (some (word, size word)) := by
  rw [decode, encode, scan_groups _ _ _ (word_fits word)]
  simp only [UInt64.ofNat_toNat, size]

/-- A word that was read comes from a scan of the same number. -/
theorem scan_of_decode {bytes : Bytes} {word : UInt64} {length : Nat}
    (decoded : decode bytes = .ok (some (word, length))) :
    scan (maxLength - 1) bytes = .ok (some (word.toNat, length)) := by
  rw [decode] at decoded
  split at decoded
  · rename_i value count scanned
    simp only [Except.ok.injEq, Option.some.injEq, Prod.mk.injEq] at decoded
    obtain ⟨rfl, rfl⟩ := decoded
    have bound := (scan_bounds scanned).1
    rw [scanned, UInt64.toNat_ofNat', Nat.mod_eq_of_lt]
    rw [maxLength] at bound
    omega
  · simp at decoded
  · simp at decoded

/-- No varint of a word is shorter than the one that is written. -/
theorem size_le_of_decode {bytes : Bytes} {word : UInt64} {length : Nat}
    (decoded : decode bytes = .ok (some (word, length))) : size word ≤ length :=
  (scan_bounds (scan_of_decode decoded)).2.1

theorem length_le_of_decode {bytes : Bytes} {word : UInt64} {length : Nat}
    (decoded : decode bytes = .ok (some (word, length))) : length ≤ bytes.length :=
  (scan_bounds (scan_of_decode decoded)).2.2.2

theorem decode_append {bytes : Bytes} {result : UInt64 × Nat} (tail : Bytes)
    (decoded : decode bytes = .ok (some result)) : decode (bytes ++ tail) = .ok (some result) := by
  have scanned := scan_of_decode decoded
  rw [decode, scan_append tail scanned]
  simp only [UInt64.ofNat_toNat]

theorem decode_append_error {bytes : Bytes} {error : CodecError} (tail : Bytes)
    (decoded : decode bytes = .error error) : decode (bytes ++ tail) = .error error := by
  rw [decode] at decoded
  split at decoded
  · simp at decoded
  · simp at decoded
  · rename_i inner scanned
    rw [decode, scan_append_error tail scanned]
    exact decoded

theorem decode_take {bytes : Bytes} {word : UInt64} {length : Nat}
    (decoded : decode bytes = .ok (some (word, length))) :
    decode (bytes.take length) = .ok (some (word, length)) := by
  rw [decode, scan_take (scan_of_decode decoded)]
  simp only [UInt64.ofNat_toNat]

end FieldWire.Varint
