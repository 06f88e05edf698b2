import FieldWire.Proofs.Varint
import Mathlib.Data.Nat.Bitwise
import Mathlib.Data.Nat.Digits.Defs

/-!
# Which bytes are varints

A byte string begins with a varint of a word, or needs more bytes, or cannot be mended by any.  The
high bits decide which it is, and the tenth byte: of its seven bits a word has room for one.

The number of a varint is worked out here in two more ways.  `payload` is the plain sum of the
groups, of any size.  `collect` is the loop over words: it moves each group to its place by a shift,
and has no result if a shift goes beyond the word.
-/

set_option autoImplicit false

namespace FieldWire.Varint

/-- The high bit is set. -/
def Continues (byte : UInt8) : Prop := byte &&& 0x80 ≠ 0

instance : DecidablePred Continues := fun byte => inferInstanceAs (Decidable (byte &&& 0x80 ≠ 0))

/-- The number whose groups of seven bits, low groups first, the bytes hold. -/
def payload (bytes : Bytes) : Nat :=
  Nat.ofDigits 128 (bytes.map fun byte => (byte &&& 0x7f).toNat)

/-- A word moved to the left, if the distance is one that a word of 64 bits has. -/
def shiftLeft? (word : UInt64) (count : Nat) : Option UInt64 :=
  if count < 64 then some (word <<< UInt64.ofNat count) else none

/-- Puts the groups of a varint into a word, from group `index` on.  There is no result if a group
would have to be moved by 64 or more. -/
def collect (index : Nat) (word : UInt64) :
    Bytes → Option (Except CodecError (Option (UInt64 × Nat)))
  | [] => some (.ok none)
  | byte :: rest =>
    if index = maxLength - 1 ∧ 1 < byte.toNat then some (.error (.malformedVarint maxLength))
    else
      match shiftLeft? (byte &&& 0x7f).toUInt64 (7 * index) with
      | none => none
      | some group =>
        if byte &&& 0x80 = 0 then some (.ok (some (word ||| group, index + 1)))
        else collect (index + 1) (word ||| group) rest

/-! ## Bytes -/

theorem continues_iff (byte : UInt8) : Continues byte ↔ 128 ≤ byte.toNat := by
  have bit : (byte &&& 0x80).toNat = (byte.toNat.testBit 7).toNat * 128 := by
    rw [UInt8.toNat_and]
    exact Nat.and_two_pow byte.toNat 7
  have bound := byte.toNat_lt
  rw [Continues, ne_eq, ← UInt8.toNat_inj, bit, Nat.testBit_eq_decide_div_mod_eq]
  by_cases high : 128 ≤ byte.toNat
  · have odd : byte.toNat / 2 ^ 7 % 2 = 1 := by omega
    rw [odd]
    simp [high]
  · have even : byte.toNat / 2 ^ 7 % 2 = 0 := by omega
    rw [even]
    simp [high]

theorem not_continues_iff (byte : UInt8) : ¬Continues byte ↔ byte.toNat < 128 := by
  rw [continues_iff, Nat.not_le]

theorem toNat_low (byte : UInt8) : (byte &&& 0x7f).toNat = byte.toNat % 128 := by
  rw [UInt8.toNat_and]
  exact Nat.and_two_pow_sub_one_eq_mod byte.toNat 7

@[simp]
theorem payload_nil : payload [] = 0 := rfl

theorem payload_cons (byte : UInt8) (rest : Bytes) :
    payload (byte :: rest) = byte.toNat % 128 + 128 * payload rest := by
  rw [payload, List.map_cons, Nat.ofDigits_cons, toNat_low]
  rfl

theorem payload_append (front back : Bytes) :
    payload (front ++ back) = payload front + 128 ^ front.length * payload back := by
  rw [payload, List.map_append, Nat.ofDigits_append, List.length_map]
  rfl

/-- The last group keeps its number, since it has no high bit. -/
theorem payload_of_last {last : UInt8} (front : Bytes) (ends : ¬Continues last) :
    payload (front ++ [last]) = payload front + 128 ^ front.length * last.toNat := by
  rw [not_continues_iff] at ends
  rw [payload_append, payload_cons, payload_nil, Nat.mod_eq_of_lt ends]
  rfl

/-! ## Scanning -/

/-- What a varint with at most `room` groups before its last one can come to: it ends with a group
for which there is room, or it does not end, or the bytes end inside it. -/
inductive Outcome (room : Nat) : Bytes → Except CodecError (Option (Nat × Nat)) → Prop where
  | complete {front tail : Bytes} {last : UInt8} (few : front.length ≤ room)
      (open_ : ∀ byte ∈ front, Continues byte) (ends : ¬Continues last)
      (fits : payload (front ++ [last]) < 2 * 128 ^ room) :
      Outcome room (front ++ last :: tail)
        (.ok (some (payload (front ++ [last]), front.length + 1)))
  | malformed {front tail : Bytes} {last : UInt8} (full : front.length = room)
      (open_ : ∀ byte ∈ front, Continues byte) (large : 1 < last.toNat) :
      Outcome room (front ++ last :: tail) (.error (.malformedVarint maxLength))
  | incomplete {bytes : Bytes} (few : bytes.length ≤ room)
      (open_ : ∀ byte ∈ bytes, Continues byte) : Outcome room bytes (.ok none)

variable {room : Nat} {bytes front rest tail : Bytes} {byte last : UInt8}
  {result : Except CodecError (Option (Nat × Nat))}

@[simp]
theorem scan_nil (room : Nat) : scan room [] = .ok none := by
  cases room <;> rfl

theorem scan_of_more (more : Continues byte) :
    scan (room + 1) (byte :: rest) = (scan room rest).map
      (Option.map fun found => (byte.toNat % 128 + 128 * found.1, found.2 + 1)) := by
  rw [continues_iff] at more
  have bound := byte.toNat_lt
  have low : byte.toNat - 128 = byte.toNat % 128 := by omega
  rw [scan, if_neg (Nat.not_lt.mpr more), low]
  cases scan room rest with
  | error error => rfl
  | ok found => cases found <;> rfl

/-- In front of a last byte nothing is decided, however long it takes. -/
theorem scan_append_of_open (few : front.length ≤ room) (open_ : ∀ byte ∈ front, Continues byte) :
    scan room (front ++ rest) = (scan (room - front.length) rest).map
      (Option.map fun found =>
        (payload front + 128 ^ front.length * found.1, front.length + found.2)) := by
  induction front generalizing room with
  | nil =>
    rw [List.nil_append, List.length_nil, Nat.sub_zero]
    cases scan room rest with
    | error error => rfl
    | ok found => cases found <;> simp [Except.map]
  | cons byte front ih =>
    obtain ⟨more, open_⟩ := List.forall_mem_cons.mp open_
    cases room with
    | zero => simp at few
    | succ room =>
      rw [List.length_cons, Nat.add_le_add_iff_right] at few
      rw [List.cons_append, scan_of_more more, ih few open_, List.length_cons,
        Nat.add_sub_add_right]
      cases scan (room - front.length) rest with
      | error error => rfl
      | ok found =>
        cases found with
        | none => rfl
        | some found =>
          simp only [Except.map, Option.map_some, payload_cons, Nat.pow_succ]
          congr 3
          · ring
          · omega

theorem scan_of_last (ends : ¬Continues last) (fits : room = 0 → last.toNat ≤ 1) :
    scan room (last :: tail) = .ok (some (last.toNat, 1)) := by
  rw [not_continues_iff] at ends
  cases room with
  | zero => rw [scan, if_pos (fits rfl)]
  | succ room => rw [scan, if_pos ends]

theorem scan_of_large (large : 1 < last.toNat) :
    scan 0 (last :: tail) = .error (.malformedVarint maxLength) := by
  rw [scan, if_neg (Nat.not_le.mpr large)]

theorem scan_of_outcome (outcome : Outcome room bytes result) : scan room bytes = result := by
  cases outcome with
  | @complete front tail last few open_ ends fits =>
    have small : room - front.length = 0 → last.toNat ≤ 1 := by
      intro none
      obtain rfl : room = front.length := by omega
      rw [payload_of_last front ends] at fits
      have high : 128 ^ front.length * last.toNat < 128 ^ front.length * 2 := by omega
      exact Nat.le_of_lt_succ (Nat.lt_of_mul_lt_mul_left high)
    rw [scan_append_of_open few open_, scan_of_last ends small, payload_of_last front ends]
    rfl
  | malformed full open_ large =>
    rw [scan_append_of_open (Nat.le_of_eq full) open_, full, Nat.sub_self, scan_of_large large]
    rfl
  | incomplete few open_ =>
    rw [← List.append_nil bytes, scan_append_of_open few open_, scan_nil]
    rfl

theorem outcome_of_last (ends : ¬Continues last) (fits : room = 0 → last.toNat ≤ 1) :
    Outcome room (last :: tail) (.ok (some (last.toNat, 1))) := by
  have number : payload ([] ++ [last]) = last.toNat := by
    rw [payload_of_last [] ends]
    simp
  have small := (not_continues_iff last).mp ends
  have bound : last.toNat < 2 * 128 ^ room := by
    cases room with
    | zero => exact Nat.lt_succ_of_le (fits rfl)
    | succ room =>
      have positive : 1 ≤ 128 ^ room := Nat.one_le_pow _ _ (by decide)
      rw [Nat.pow_succ]
      omega
  have outcome : Outcome room ([] ++ last :: tail) (.ok (some (payload ([] ++ [last]), 1))) :=
    .complete (Nat.zero_le _) (by simp) ends (number ▸ bound)
  rw [number] at outcome
  exact outcome

theorem outcome_of_more (more : Continues byte) (outcome : Outcome room rest result) :
    Outcome (room + 1) (byte :: rest) (result.map
      (Option.map fun found => (byte.toNat % 128 + 128 * found.1, found.2 + 1))) := by
  cases outcome with
  | @complete front tail last few open_ ends fits =>
    have sum : payload (byte :: front ++ [last]) =
        byte.toNat % 128 + 128 * payload (front ++ [last]) := payload_cons _ _
    have whole : payload (byte :: front ++ [last]) < 2 * 128 ^ (room + 1) := by
      rw [sum, Nat.pow_succ]
      omega
    have outcome : Outcome (room + 1) ((byte :: front) ++ last :: tail)
        (.ok (some (payload (byte :: front ++ [last]), front.length + 1 + 1))) :=
      .complete (Nat.succ_le_succ few) (List.forall_mem_cons.mpr ⟨more, open_⟩) ends whole
    rw [sum] at outcome
    exact outcome
  | @malformed front tail last full open_ large =>
    have outcome : Outcome (room + 1) ((byte :: front) ++ last :: tail) _ :=
      .malformed (congrArg Nat.succ full) (List.forall_mem_cons.mpr ⟨more, open_⟩) large
    exact outcome
  | incomplete few open_ =>
    exact .incomplete (Nat.succ_le_succ few) (List.forall_mem_cons.mpr ⟨more, open_⟩)

theorem outcome_scan (room : Nat) (bytes : Bytes) : Outcome room bytes (scan room bytes) := by
  induction room generalizing bytes with
  | zero =>
    cases bytes with
    | nil => exact .incomplete (Nat.le_refl 0) (by simp)
    | cons byte rest =>
      by_cases small : byte.toNat ≤ 1
      · have ends : ¬Continues byte := (not_continues_iff byte).mpr (by omega)
        rw [scan_of_last ends fun _ => small]
        exact outcome_of_last ends fun _ => small
      · have outcome : Outcome 0 ([] ++ byte :: rest) _ :=
          .malformed rfl (by simp) (Nat.lt_of_not_le small)
        rw [scan_of_large (Nat.lt_of_not_le small)]
        exact outcome
  | succ room ih =>
    cases bytes with
    | nil => exact .incomplete (Nat.zero_le _) (by simp)
    | cons byte rest =>
      by_cases more : Continues byte
      · rw [scan_of_more more]
        exact outcome_of_more more (ih rest)
      · have notFirst : room + 1 = 0 → byte.toNat ≤ 1 := fun none => absurd none room.succ_ne_zero
        rw [scan_of_last more notFirst]
        exact outcome_of_last more notFirst

theorem scan_eq_iff : scan room bytes = result ↔ Outcome room bytes result := by
  constructor
  · rintro rfl
    exact outcome_scan room bytes
  · exact scan_of_outcome

/-! ## Words -/

theorem decode_eq_map (bytes : Bytes) :
    decode bytes = (scan (maxLength - 1) bytes).map
      (Option.map fun found => (UInt64.ofNat found.1, found.2)) := by
  rw [decode]
  cases scan (maxLength - 1) bytes with
  | error error => rfl
  | ok found => cases found <;> rfl

theorem decode_eq_some_iff_payload {word : UInt64} {length : Nat} :
    decode bytes = .ok (some (word, length)) ↔
      ∃ front last tail, bytes = front ++ last :: tail ∧ length = front.length + 1 ∧
        front.length ≤ maxLength - 1 ∧ (∀ byte ∈ front, Continues byte) ∧ ¬Continues last ∧
        payload (front ++ [last]) = word.toNat := by
  constructor
  · intro decoded
    have outcome := scan_eq_iff.mp (scan_of_decode decoded)
    generalize word.toNat = value at outcome ⊢
    cases outcome with
    | complete few open_ ends fits => exact ⟨_, _, _, rfl, rfl, few, open_, ends, rfl⟩
  · rintro ⟨front, last, tail, rfl, rfl, few, open_, ends, number⟩
    have fits : payload (front ++ [last]) < 2 * 128 ^ (maxLength - 1) := number ▸ word_fits word
    rw [decode_eq_map, scan_eq_iff.mpr (.complete few open_ ends fits), number]
    simp [Except.map]

theorem decode_eq_error_iff {error : CodecError} :
    decode bytes = .error error ↔ error = .malformedVarint maxLength ∧
      ∃ front last tail, bytes = front ++ last :: tail ∧ front.length = maxLength - 1 ∧
        (∀ byte ∈ front, Continues byte) ∧ 1 < last.toNat := by
  constructor
  · intro decoded
    have scanned : scan (maxLength - 1) bytes = .error error := by
      rw [decode_eq_map] at decoded
      cases found : scan (maxLength - 1) bytes with
      | error cause => simpa [found, Except.map] using decoded
      | ok answer => simp [found, Except.map] at decoded
    cases scan_eq_iff.mp scanned with
    | malformed full open_ large => exact ⟨rfl, _, _, _, rfl, full, open_, large⟩
  · rintro ⟨rfl, front, last, tail, rfl, full, open_, large⟩
    rw [decode_eq_map, scan_eq_iff.mpr (.malformed full open_ large)]
    rfl

theorem decode_eq_none_iff :
    decode bytes = .ok none ↔
      bytes.length ≤ maxLength - 1 ∧ ∀ byte ∈ bytes, Continues byte := by
  constructor
  · intro decoded
    have scanned : scan (maxLength - 1) bytes = .ok none := by
      rw [decode_eq_map] at decoded
      cases found : scan (maxLength - 1) bytes with
      | error cause => simp [found, Except.map] at decoded
      | ok answer =>
        cases answer with
        | none => rfl
        | some pair => simp [found, Except.map] at decoded
    have outcome := scan_eq_iff.mp scanned
    generalize answer : (.ok none : Except CodecError (Option (Nat × Nat))) = result at outcome
    cases outcome with
    | incomplete few open_ => exact ⟨few, open_⟩
    | complete _ _ _ _ => cases answer
    | malformed _ _ _ => cases answer
  · rintro ⟨few, open_⟩
    rw [decode_eq_map, scan_eq_iff.mpr (.incomplete few open_)]
    rfl

/-! ## The loop over words -/

/-- A group moved to its place stands above the groups that are there. -/
theorem toNat_or_group {index : Nat} {word : UInt64} (inside : index < maxLength)
    (below : word.toNat < 128 ^ index) (fits : byte.toNat % 128 * 128 ^ index < 2 ^ 64) :
    (word ||| (byte &&& 0x7f).toUInt64 <<< UInt64.ofNat (7 * index)).toNat =
      word.toNat + 128 ^ index * (byte.toNat % 128) := by
  rw [maxLength] at inside
  have place : (UInt64.ofNat (7 * index)).toNat % 64 = 7 * index := by
    rw [UInt64.toNat_ofNat']
    omega
  have power : 128 ^ index = 2 ^ (7 * index) := by rw [Nat.pow_mul]
  rw [power] at below fits ⊢
  rw [UInt64.toNat_or, UInt64.toNat_shiftLeft, UInt8.toNat_toUInt64, toNat_low, place,
    Nat.shiftLeft_eq, Nat.mod_eq_of_lt fits, Nat.mul_comm, Nat.or_comm,
    ← Nat.two_pow_add_eq_or_of_lt below, Nat.add_comm]

/-- A group that the loop does not refuse keeps all its bits where it is moved to. -/
theorem group_fits {index : Nat} (inside : index < maxLength)
    (last : index = maxLength - 1 → byte.toNat ≤ 1) :
    byte.toNat % 128 * 128 ^ index < 2 ^ 64 := by
  rw [maxLength] at inside last
  by_cases full : index = 9
  · have small := last full
    rw [full]
    omega
  · have low : byte.toNat % 128 ≤ 127 := Nat.le_of_lt_succ (Nat.mod_lt _ (by decide))
    have power : 128 ^ index ≤ 128 ^ 8 := Nat.pow_le_pow_right (by decide) (by omega)
    exact Nat.lt_of_le_of_lt (Nat.mul_le_mul low power) (by decide)

/-- The loop adds what scanning finds, from the place where it stands, to what it has. -/
theorem collect_eq_scan {index : Nat} {word : UInt64} (inside : index < maxLength)
    (below : word.toNat < 128 ^ index) :
    collect index word bytes = some ((scan (maxLength - 1 - index) bytes).map
      (Option.map fun found =>
        (UInt64.ofNat (word.toNat + 128 ^ index * found.1), index + found.2))) := by
  induction bytes generalizing index word with
  | nil =>
    rw [scan_nil]
    rfl
  | cons byte rest ih =>
    rw [collect]
    by_cases refused : index = maxLength - 1 ∧ 1 < byte.toNat
    · rw [if_pos refused, refused.1, Nat.sub_self, scan_of_large refused.2]
      rfl
    · have last : index = maxLength - 1 → byte.toNat ≤ 1 := fun full =>
        Nat.le_of_not_lt fun large => refused ⟨full, large⟩
      have near : 7 * index < 64 := by
        rw [maxLength] at inside
        omega
      have sum := toNat_or_group inside below (group_fits inside last)
      rw [if_neg refused, shiftLeft?, if_pos near]
      dsimp only
      by_cases more : Continues byte
      · have early : index < maxLength - 1 := by
          rw [continues_iff] at more
          omega
        have left : maxLength - 1 - index = maxLength - 1 - (index + 1) + 1 := by omega
        have bound : word.toNat + 128 ^ index * (byte.toNat % 128) < 128 ^ (index + 1) := by
          have low : byte.toNat % 128 + 1 ≤ 128 := Nat.mod_lt _ (by decide)
          have high := Nat.mul_le_mul_left (128 ^ index) low
          rw [Nat.pow_succ]
          rw [Nat.mul_add] at high
          omega
        rw [if_neg more, ih (Nat.succ_lt_succ early) (sum ▸ bound), left, scan_of_more more, sum]
        cases scan (maxLength - 1 - (index + 1)) rest with
        | error error => rfl
        | ok found =>
          cases found with
          | none => rfl
          | some found =>
            have number : word.toNat + 128 ^ index * (byte.toNat % 128) +
                128 ^ (index + 1) * found.1 =
                  word.toNat + 128 ^ index * (byte.toNat % 128 + 128 * found.1) := by ring
            have count : index + 1 + found.2 = index + (found.2 + 1) := by omega
            simp only [Except.map, Option.map_some, number, count]
      · have whole : byte.toNat % 128 = byte.toNat :=
          Nat.mod_eq_of_lt ((not_continues_iff byte).mp more)
        have first : maxLength - 1 - index = 0 → byte.toNat ≤ 1 := fun none => last (by omega)
        rw [whole] at sum
        rw [if_pos (not_not.mp more), scan_of_last more first, ← UInt64.ofNat_toNat
          (x := word ||| _), sum]
        rfl

/-- The outcome of a read is settled by the high bits of the first nine bytes and by the tenth byte.
There is a number if a byte without the high bit comes among the first ten and the groups up to it
fit a word, and it is the number of these groups; there is an error if nine bytes with the high bit
are followed by one above 1; and bytes are missing if there are at most nine, all with the high bit.
The loop over words finds the same, without ever shifting by 64, and no more bytes can change an
outcome but the last. -/
theorem decode_classifies (bytes : Bytes) :
    (∀ word length, decode bytes = .ok (some (word, length)) ↔
      ∃ front last tail, bytes = front ++ last :: tail ∧ length = front.length + 1 ∧
        length ≤ 10 ∧ (∀ byte ∈ front, Continues byte) ∧ ¬Continues last ∧
        payload (front ++ [last]) = word.toNat) ∧
    (∀ error, decode bytes = .error error ↔ error = .malformedVarint 10 ∧
      ∃ front last tail, bytes = front ++ last :: tail ∧ front.length = 9 ∧
        (∀ byte ∈ front, Continues byte) ∧ 1 < last.toNat) ∧
    (decode bytes = .ok none ↔ bytes.length ≤ 9 ∧ ∀ byte ∈ bytes, Continues byte) ∧
    collect 0 0 bytes = some (decode bytes) ∧
    ∀ tail, decode bytes ≠ .ok none → decode (bytes ++ tail) = decode bytes := by
  refine ⟨fun word length => ?number, fun error => decode_eq_error_iff, decode_eq_none_iff, ?loop,
    fun tail settled => ?stable⟩
  case number =>
    rw [decode_eq_some_iff_payload]
    constructor
    · rintro ⟨front, last, tail, split, rfl, few, rest⟩
      exact ⟨front, last, tail, split, rfl, Nat.succ_le_succ few, rest⟩
    · rintro ⟨front, last, tail, split, rfl, few, rest⟩
      exact ⟨front, last, tail, split, rfl, Nat.le_of_succ_le_succ few, rest⟩
  case loop =>
    rw [collect_eq_scan (by decide) (by decide), decode_eq_map]
    simp
  case stable =>
    cases decoded : decode bytes with
    | error error => exact decode_append_error tail decoded
    | ok found =>
      cases found with
      | none => exact absurd decoded settled
      | some found => exact decode_append tail decoded

/-- The largest word, and the same with a byte behind it; a tenth byte that is one too large; and
nine bytes of which the last says that more follow. -/
theorem decode_classifies_examples :
    decode [0xff, 0xff, 0xff, 0xff, 0xff, 0xff, 0xff, 0xff, 0xff, 0x01, 0x80] =
      .ok (some (0xffffffffffffffff, 10)) ∧
    decode [0x80, 0x80, 0x80, 0x80, 0x80, 0x80, 0x80, 0x80, 0x80, 0x02] =
      .error (.malformedVarint 10) ∧
    decode [0x80, 0x80, 0x80, 0x80, 0x80, 0x80, 0x80, 0x80, 0x80] = .ok none := by
  obtain ⟨number, _, _, _, stable⟩ := decode_classifies (List.replicate 9 0xff ++ [0x01])
  obtain ⟨_, refused, _⟩ := decode_classifies (List.replicate 9 0x80 ++ [0x02])
  obtain ⟨_, _, missing, _⟩ := decode_classifies (List.replicate 9 0x80)
  have full : ∀ byte ∈ List.replicate 9 (0xff : UInt8), Continues byte :=
    List.forall_mem_replicate.mpr (.inr (by decide))
  have empty : ∀ byte ∈ List.replicate 9 (0x80 : UInt8), Continues byte :=
    List.forall_mem_replicate.mpr (.inr (by decide))
  have largest : decode (List.replicate 9 0xff ++ [0x01]) = .ok (some (0xffffffffffffffff, 10)) :=
    (number _ _).mpr ⟨List.replicate 9 0xff, 0x01, [], rfl, rfl, by decide, full, by decide,
      by decide⟩
  refine ⟨?_, ?_, ?_⟩
  · exact (stable [0x80] (by rw [largest]; decide)).trans largest
  · exact (refused _).mpr ⟨rfl, List.replicate 9 0x80, 0x02, [], rfl, rfl, empty, by decide⟩
  · exact missing.mpr ⟨by decide, empty⟩

end FieldWire.Varint
