import FieldWire.Proofs.LengthTag
import FieldWire.Proofs.ZigZag
import FieldWire.Reader
import FieldWire.Write

/-!
# Reading single values

Two kinds of facts.  `Takes` says that a reader gives a value from some bytes, whatever follows
them; it composes along the bytes and turns every writer into a promise about its reader.  In the
other direction, a reader that succeeded has moved over some bytes that were there, and the value
that it gave takes no more of them when it is written.
-/

set_option autoImplicit false

namespace FieldWire

/-! ## Steps that succeed or fail -/

theorem bind_eq_ok_iff {ε σ α β : Type} (first : EStateM ε σ α) (next : α → EStateM ε σ β)
    (state final : σ) (result : β) :
    (first >>= next) state = .ok result final ↔
      ∃ value middle, first state = .ok value middle ∧ next value middle = .ok result final := by
  simp only [bind, EStateM.bind]
  constructor
  · intro ran
    split at ran
    · rename_i value middle firstRan
      exact ⟨value, middle, firstRan, ran⟩
    · cases ran
  · intro ran
    obtain ⟨value, middle, firstRan, nextRan⟩ := ran
    rw [firstRan]
    exact nextRan

theorem bind_eq_error_iff {ε σ α β : Type} (first : EStateM ε σ α) (next : α → EStateM ε σ β)
    (state final : σ) (error : ε) :
    (first >>= next) state = .error error final ↔ first state = .error error final ∨
      ∃ value middle, first state = .ok value middle ∧ next value middle = .error error final := by
  simp only [bind, EStateM.bind]
  cases first state with
  | ok value middle => simp
  | error reason stopped => simp

theorem bind_of_ok {ε σ α β : Type} {first : EStateM ε σ α} {next : α → EStateM ε σ β}
    {state middle : σ} {value : α} (ran : first state = .ok value middle) :
    (first >>= next) state = next value middle := by
  simp only [bind, EStateM.bind, ran]

theorem bind_of_error {ε σ α β : Type} {first : EStateM ε σ α} {next : α → EStateM ε σ β}
    {state middle : σ} {error : ε} (ran : first state = .error error middle) :
    (first >>= next) state = .error error middle := by
  simp only [bind, EStateM.bind, ran]

theorem pure_eq_ok_iff {ε σ α : Type} (value result : α) (state final : σ) :
    (pure value : EStateM ε σ α) state = .ok result final ↔ value = result ∧ state = final := by
  simp [pure, EStateM.pure]

theorem throw_ne_ok {ε σ α : Type} (error : ε) (state final : σ) (result : α) :
    (throw error : EStateM ε σ α) state ≠ .ok result final := by
  intro ran
  cases ran

/-! ## Cursors -/

namespace Cursor

theorem advance_advance (cursor : Cursor) (first second : Nat) :
    (cursor.advance first).advance second = cursor.advance (first + second) := by
  simp [advance, Nat.add_assoc]

@[simp]
theorem pos_advance (cursor : Cursor) (count : Nat) :
    (cursor.advance count).pos = cursor.pos + count := rfl

@[simp]
theorem rest_advance (cursor : Cursor) (count : Nat) :
    (cursor.advance count).rest = cursor.rest.drop count := rfl

theorem advance_injective {cursor : Cursor} {first second : Nat}
    (same : cursor.advance first = cursor.advance second) : first = second :=
  Nat.add_left_cancel (congrArg pos same)

theorem advance_append (front back : Bytes) (pos limit : Nat) :
    (Cursor.mk (front ++ back) pos limit).advance front.length =
      ⟨back, pos + front.length, limit⟩ := by
  simp [advance]

end Cursor

/-- What keeps to the default limit can be the length of a span. -/
theorem lt_of_le_default {size limit : Nat} (within : size ≤ limit)
    (default : limit ≤ defaultPayloadLimit) : size < 2 ^ 62 := by
  rw [defaultPayloadLimit] at default
  omega

/-! ## Blobs -/

namespace Write

theorem length_blob (bytes : Bytes) : (blob bytes).length = LengthTag.spanSize bytes.length := by
  rw [blob, List.length_append, Varint.length_encode]
  rfl

theorem length_le_blob (bytes : Bytes) : bytes.length ≤ (blob bytes).length := by
  rw [blob, List.length_append]
  exact Nat.le_add_left _ _

theorem length_blob_pos (bytes : Bytes) : 1 ≤ (blob bytes).length := by
  rw [length_blob, LengthTag.spanSize]
  exact Nat.le_trans (LengthTag.size_pos _ .list) (Nat.le_add_right _ _)

end Write

namespace Reader

variable {α β : Type}

/-! ## What a reader takes -/

/-- The reader gives `value` from `bytes`, whatever follows, and stops right after them. -/
def Takes (reader : Reader α) (limit : Nat) (bytes : Bytes) (value : α) : Prop :=
  ∀ (tail : Bytes) (pos : Nat),
    reader ⟨bytes ++ tail, pos, limit⟩ = .ok value ⟨tail, pos + bytes.length, limit⟩

theorem Takes.nothing (limit : Nat) (value : α) : Takes (pure value) limit [] value := by
  intro tail pos
  rfl

theorem Takes.bind {first : Reader α} {next : α → Reader β} {limit : Nat} {front back : Bytes}
    {value : α} {result : β} (taken : Takes first limit front value)
    (more : Takes (next value) limit back result) :
    Takes (first >>= next) limit (front ++ back) result := by
  intro tail pos
  rw [List.append_assoc, bind_of_ok (taken (back ++ tail) pos), more tail _, List.length_append,
    Nat.add_assoc]

/-- A last step that reads nothing. -/
theorem Takes.bindPure {first : Reader α} {next : α → Reader β} {limit : Nat} {bytes : Bytes}
    {value : α} {result : β} (taken : Takes first limit bytes value)
    (last : next value = pure result) : Takes (first >>= next) limit bytes result := by
  intro tail pos
  rw [bind_of_ok (taken tail pos), last]
  rfl

/-- Like `Takes`, when only some property of the value is told. -/
def Gives (reader : Reader α) (limit : Nat) (bytes : Bytes) (P : α → Prop) : Prop :=
  ∀ (tail : Bytes) (pos : Nat), ∃ value,
    reader ⟨bytes ++ tail, pos, limit⟩ = .ok value ⟨tail, pos + bytes.length, limit⟩ ∧ P value

/-- Like `Takes`, when only some contents of the value are told. -/
def Recovers {γ : Type} (reader : Reader α) (limit : Nat) (bytes : Bytes) (contents : α → γ)
    (expected : γ) : Prop :=
  ∀ (tail : Bytes) (pos : Nat), ∃ value,
    reader ⟨bytes ++ tail, pos, limit⟩ = .ok value ⟨tail, pos + bytes.length, limit⟩ ∧
      contents value = expected

theorem Takes.recovers {γ : Type} {reader : Reader α} {limit : Nat} {bytes : Bytes} {value : α}
    {contents : α → γ} {expected : γ} (taken : Takes reader limit bytes value)
    (same : contents value = expected) : Recovers reader limit bytes contents expected := by
  intro tail pos
  exact ⟨value, taken tail pos, same⟩

/-! ## Checks -/

theorem ensure_of_le {needed : Nat} {cursor : Cursor} (enough : needed ≤ cursor.rest.length) :
    ensure needed cursor = .ok () cursor := by
  have there : Bytes.hasAtLeast needed cursor.rest = true :=
    (Bytes.hasAtLeast_iff needed cursor.rest).mpr enough
  change (if Bytes.hasAtLeast needed cursor.rest then _ else _ : Reader Unit) cursor = _
  rw [if_pos there]
  rfl

theorem ensure_of_lt {needed : Nat} {cursor : Cursor} (short : cursor.rest.length < needed) :
    ensure needed cursor = .error (.bufferUnderrun needed cursor.rest.length) cursor := by
  have missing : ¬Bytes.hasAtLeast needed cursor.rest = true := by
    rw [Bytes.hasAtLeast_iff]
    exact Nat.not_le.mpr short
  change (if Bytes.hasAtLeast needed cursor.rest then _ else _ : Reader Unit) cursor = _
  rw [if_neg missing]
  rfl

theorem ensure_eq_ok {needed : Nat} {cursor after : Cursor} {value : Unit}
    (ran : ensure needed cursor = .ok value after) :
    needed ≤ cursor.rest.length ∧ after = cursor := by
  have ran : (if Bytes.hasAtLeast needed cursor.rest then pure ()
      else throw (.bufferUnderrun needed cursor.rest.length) : Reader Unit) cursor =
        .ok value after := ran
  split at ran
  · rename_i there
    exact ⟨(Bytes.hasAtLeast_iff needed cursor.rest).mp there, ((pure_eq_ok_iff _ _ _ _).mp ran).2.symm⟩
  · exact absurd ran (throw_ne_ok _ _ _ _)

theorem withinLimit_of_le {size : Nat} {cursor : Cursor} (small : size ≤ cursor.limit) :
    withinLimit size cursor = .ok () cursor := by
  change (if size ≤ cursor.limit then _ else _ : Reader Unit) cursor = _
  rw [if_pos small]
  rfl

theorem withinLimit_of_lt {size : Nat} {cursor : Cursor} (large : cursor.limit < size) :
    withinLimit size cursor = .error (.payloadTooLarge size cursor.limit) cursor := by
  change (if size ≤ cursor.limit then _ else _ : Reader Unit) cursor = _
  rw [if_neg (Nat.not_le_of_lt large)]
  rfl

theorem withinLimit_eq_ok {size : Nat} {cursor after : Cursor} {value : Unit}
    (ran : withinLimit size cursor = .ok value after) :
    size ≤ cursor.limit ∧ after = cursor := by
  have ran : (if size ≤ cursor.limit then pure ()
      else throw (.payloadTooLarge size cursor.limit) : Reader Unit) cursor = .ok value after := ran
  split at ran
  · rename_i small
    exact ⟨small, ((pure_eq_ok_iff _ _ _ _).mp ran).2.symm⟩
  · exact absurd ran (throw_ne_ok _ _ _ _)

theorem advance_apply (count : Nat) (cursor : Cursor) :
    advance count cursor = .ok () (cursor.advance count) := rfl

/-- Bytes that are passed over were there. -/
theorem ensure_advance_eq_ok {count : Nat} {cursor after : Cursor} {value : Unit}
    (ran : (ensure count >>= fun _ => advance count) cursor = .ok value after) :
    count ≤ cursor.rest.length ∧ after = cursor.advance count := by
  obtain ⟨_, middle, there, moved⟩ := (bind_eq_ok_iff _ _ _ _ _).mp ran
  obtain ⟨enough, rfl⟩ := ensure_eq_ok there
  cases moved
  exact ⟨enough, rfl⟩

theorem position_apply (cursor : Cursor) : position cursor = .ok cursor.pos cursor := rfl

theorem finish_eq_ok {cursor after : Cursor} {value : Unit}
    (ran : finish cursor = .ok value after) : cursor.rest = [] ∧ after = cursor := by
  obtain ⟨rest, pos, limit⟩ := cursor
  cases rest with
  | nil => exact ⟨rfl, ((pure_eq_ok_iff _ _ _ _).mp ran).2.symm⟩
  | cons byte bytes => exact absurd ran (throw_ne_ok _ _ _ _)

/-! ## Words -/

theorem word_apply (cursor : Cursor) :
    word cursor = (match Varint.decode cursor.rest with
      | .ok (some (value, length)) => do
        advance length
        return value
      | .ok none => throw (.bufferUnderrun (cursor.rest.length + 1) cursor.rest.length)
      | .error error => throw error : Reader UInt64) cursor := rfl

theorem word_of_decode {cursor : Cursor} {value : UInt64} {length : Nat}
    (decoded : Varint.decode cursor.rest = .ok (some (value, length))) :
    word cursor = .ok value (cursor.advance length) := by
  rw [word_apply, decoded]
  rfl

theorem word_eq_ok {cursor after : Cursor} {value : UInt64} (ran : word cursor = .ok value after) :
    ∃ length, Varint.decode cursor.rest = .ok (some (value, length)) ∧
      after = cursor.advance length := by
  rw [word_apply] at ran
  cases decoded : Varint.decode cursor.rest with
  | error error =>
    rw [decoded] at ran
    exact absurd ran (throw_ne_ok _ _ _ _)
  | ok found =>
    rw [decoded] at ran
    cases found with
    | none => exact absurd ran (throw_ne_ok _ _ _ _)
    | some pair =>
      obtain ⟨moved, final, stepped, returned⟩ := (bind_eq_ok_iff _ _ _ _ _).mp ran
      rw [advance_apply] at stepped
      cases stepped
      obtain ⟨rfl, rfl⟩ := (pure_eq_ok_iff _ _ _ _).mp returned
      exact ⟨pair.2, rfl, rfl⟩

theorem word_takes (limit : Nat) (value : UInt64) :
    Takes word limit (Write.word value) value := by
  intro tail pos
  have decoded := Varint.decode_encode_append value tail
  rw [word_of_decode (show Varint.decode (Cursor.mk (Write.word value ++ tail) pos limit).rest = _
    from decoded), ← Varint.length_encode value]
  exact congrArg (EStateM.Result.ok value) (Cursor.advance_append _ _ _ _)

/-! ## Numbers -/

theorem long_takes {width : Width} (limit : Nat) (value : Integer width) :
    Takes long limit (Write.integer value) value.widen :=
  Takes.bindPure (word_takes limit (ZigZag.ofInteger value))
    (congrArg pure (ZigZag.toLong_ofInteger value))

theorem integer_takes {width : Width} (limit : Nat) (value : Integer width) :
    Takes (integer width) limit (Write.integer value) value := by
  have same : Integer.ofInt? width value.widen.val = some value := Integer.ofInt?_val value
  apply Takes.bindPure (long_takes limit value)
  simp only [same]

theorem bool_takes (limit : Nat) (value : Bool) : Takes bool limit (Write.bool value) value := by
  cases value with
  | false => exact Takes.bindPure (long_takes limit (Integer.zero .long)) rfl
  | true => exact Takes.bindPure (Takes.bindPure (word_takes limit 2) rfl) rfl

/-- An integer that was read took at least the bytes that it takes when it is written. -/
theorem long_costs {cursor after : Cursor} {value : Integer .long}
    (ran : long cursor = .ok value after) :
    ∃ length, Write.integerSize value ≤ length ∧ length ≤ cursor.rest.length ∧
      after = cursor.advance length := by
  obtain ⟨word, middle, read, returned⟩ := (bind_eq_ok_iff _ _ _ _ _).mp ran
  obtain ⟨rfl, rfl⟩ := (pure_eq_ok_iff _ _ _ _).mp returned
  obtain ⟨length, decoded, rfl⟩ := word_eq_ok read
  refine ⟨length, ?_, Varint.length_le_of_decode decoded, rfl⟩
  rw [Write.integerSize, ZigZag.ofInteger_toLong]
  exact Varint.size_le_of_decode decoded

theorem integer_costs {width : Width} {cursor after : Cursor} {value : Integer width}
    (ran : integer width cursor = .ok value after) :
    ∃ length, Write.integerSize value ≤ length ∧ length ≤ cursor.rest.length ∧
      after = cursor.advance length := by
  obtain ⟨wide, middle, read, narrowed⟩ := (bind_eq_ok_iff _ _ _ _ _).mp ran
  obtain ⟨length, size, inside, rfl⟩ := long_costs read
  cases found : Integer.ofInt? width wide.val with
  | none =>
    simp only [found] at narrowed
    exact absurd narrowed (throw_ne_ok _ _ _ _)
  | some number =>
    simp only [found] at narrowed
    obtain ⟨rfl, rfl⟩ := (pure_eq_ok_iff _ _ _ _).mp narrowed
    have same : number.val = wide.val := Integer.val_of_ofInt? found
    refine ⟨length, ?_, inside, rfl⟩
    rw [Write.integerSize, ZigZag.ofInteger, same]
    exact size

theorem bool_costs {cursor after : Cursor} {value : Bool}
    (ran : bool cursor = .ok value after) :
    ∃ length, 1 ≤ length ∧ length ≤ cursor.rest.length ∧ after = cursor.advance length := by
  obtain ⟨wide, middle, read, returned⟩ := (bind_eq_ok_iff _ _ _ _ _).mp ran
  obtain ⟨rfl, rfl⟩ := (pure_eq_ok_iff _ _ _ _).mp returned
  obtain ⟨length, size, inside, rfl⟩ := long_costs read
  exact ⟨length, Nat.le_trans (Varint.size_pos _) size, inside, rfl⟩

/-! ## Length tags -/

theorem lengthTag_of_decode {cursor : Cursor} {expected : WireType} {tag : UInt64} {length : Nat}
    (decoded : Varint.decode cursor.rest = .ok (some (tag, length)))
    (same : LengthTag.scheme tag = expected) :
    lengthTag expected cursor = .ok (LengthTag.count tag) (cursor.advance length) := by
  have counted : LengthTag.decode tag expected = .ok (LengthTag.count tag) :=
    (LengthTag.decode_eq_ok_iff _ _ _).mpr ⟨same, rfl⟩
  rw [lengthTag, bind_of_ok (word_of_decode decoded), counted]
  rfl

theorem lengthTag_eq_ok {cursor after : Cursor} {expected : WireType} {number : Nat}
    (ran : lengthTag expected cursor = .ok number after) :
    ∃ tag length, Varint.decode cursor.rest = .ok (some (tag, length)) ∧
      LengthTag.scheme tag = expected ∧ LengthTag.count tag = number ∧
      after = cursor.advance length := by
  obtain ⟨tag, middle, read, checked⟩ := (bind_eq_ok_iff _ _ _ _ _).mp ran
  obtain ⟨length, decoded, rfl⟩ := word_eq_ok read
  cases counted : LengthTag.decode tag expected with
  | error error =>
    rw [counted] at checked
    exact absurd checked (throw_ne_ok _ _ _ _)
  | ok found =>
    rw [counted] at checked
    obtain ⟨rfl, rfl⟩ := (pure_eq_ok_iff _ _ _ _).mp checked
    obtain ⟨same, number⟩ := (LengthTag.decode_eq_ok_iff _ _ _).mp counted
    exact ⟨tag, length, decoded, same, number, rfl⟩

/-- What was read for a length tag is no shorter than the tag that is written. -/
theorem lengthTag_costs {cursor after : Cursor} {expected : WireType} {number : Nat}
    (ran : lengthTag expected cursor = .ok number after) :
    ∃ length, LengthTag.size number expected ≤ length ∧ length ≤ cursor.rest.length ∧
      number < 2 ^ 62 ∧ after = cursor.advance length := by
  obtain ⟨tag, length, decoded, rfl, rfl, rfl⟩ := lengthTag_eq_ok ran
  have size := Varint.size_le_of_decode decoded
  rw [← LengthTag.encode_count tag] at size
  exact ⟨length, size, Varint.length_le_of_decode decoded, LengthTag.count_lt tag, rfl⟩

theorem lengthTag_takes (limit number : Nat) (scheme : WireType) (fits : number < 2 ^ 62) :
    Takes (lengthTag scheme) limit (Write.lengthTag number scheme) number := by
  have counted := LengthTag.decode_encode number scheme fits
  apply Takes.bindPure (word_takes limit (LengthTag.encode number scheme))
  simp only [counted]

/-- A count is accepted if elements of the least width could follow it. -/
theorem count_of_le {limit number pos : Nat} {scheme : WireType} {rest : Bytes}
    (fits : number < 2 ^ 62) (within : number * scheme.minimalWidth ≤ limit)
    (there : number * scheme.minimalWidth ≤ rest.length) :
    count scheme ⟨Write.lengthTag number scheme ++ rest, pos, limit⟩ =
      .ok number ⟨rest, pos + (Write.lengthTag number scheme).length, limit⟩ := by
  have least : min (number * scheme.minimalWidth) largestSize ≤ number * scheme.minimalWidth :=
    Nat.min_le_left _ _
  rw [count, bind_of_ok (lengthTag_takes limit number scheme fits rest pos),
    bind_of_ok (withinLimit_of_le (Nat.le_trans least within)),
    bind_of_ok (ensure_of_le (Nat.le_trans least there))]
  rfl

theorem count_costs {cursor after : Cursor} {scheme : WireType} {number : Nat}
    (ran : count scheme cursor = .ok number after) :
    ∃ length, LengthTag.size number scheme ≤ length ∧ length ≤ cursor.rest.length ∧
      number < 2 ^ 62 ∧ after = cursor.advance length := by
  obtain ⟨found, middle, tagged, checked⟩ := (bind_eq_ok_iff _ _ _ _ _).mp ran
  obtain ⟨length, size, inside, bound, rfl⟩ := lengthTag_costs tagged
  obtain ⟨_, second, small, checked⟩ := (bind_eq_ok_iff _ _ _ _ _).mp checked
  obtain ⟨_, rfl⟩ := withinLimit_eq_ok small
  obtain ⟨_, third, there, returned⟩ := (bind_eq_ok_iff _ _ _ _ _).mp checked
  obtain ⟨_, rfl⟩ := ensure_eq_ok there
  obtain ⟨rfl, rfl⟩ := (pure_eq_ok_iff _ _ _ _).mp returned
  exact ⟨length, size, inside, bound, rfl⟩

/-! ## Spans -/

theorem span_takes (limit : Nat) (bytes : Bytes) : Takes (span bytes.length) limit bytes bytes := by
  intro tail pos
  have enough : bytes.length ≤ (Cursor.mk (bytes ++ tail) pos limit).rest.length := by
    simp
  rw [span, bind_of_ok (ensure_of_le enough)]
  change EStateM.Result.ok _ (Cursor.advance _ _) = _
  rw [Cursor.advance_append, List.take_left]

theorem span_eq_ok {cursor after : Cursor} {length : Nat} {bytes : Bytes}
    (ran : span length cursor = .ok bytes after) :
    length ≤ cursor.rest.length ∧ bytes = cursor.rest.take length ∧
      after = cursor.advance length := by
  obtain ⟨_, middle, checked, taken⟩ := (bind_eq_ok_iff _ _ _ _ _).mp ran
  obtain ⟨enough, rfl⟩ := ensure_eq_ok checked
  have taken : (EStateM.Result.ok (middle.rest.take length) (middle.advance length) :
      EStateM.Result CodecError Cursor Bytes) = .ok bytes after := taken
  cases taken
  exact ⟨enough, rfl, rfl⟩

theorem spanLength_takes {limit length : Nat} (within : length ≤ limit) (fits : length < 2 ^ 62) :
    Takes spanLength limit (Write.word (LengthTag.span length)) length := by
  intro tail pos
  have tagged : lengthTag .list ⟨Write.word (LengthTag.span length) ++ tail, pos, limit⟩ = _ :=
    lengthTag_takes limit length .list fits tail pos
  rw [spanLength, bind_of_ok tagged, bind_of_ok (withinLimit_of_le within)]
  rfl

theorem spanLength_eq_ok {cursor after : Cursor} {number : Nat}
    (ran : spanLength cursor = .ok number after) :
    ∃ tag length, Varint.decode cursor.rest = .ok (some (tag, length)) ∧
      LengthTag.scheme tag = .list ∧ LengthTag.count tag = number ∧ number ≤ cursor.limit ∧
      after = cursor.advance length := by
  obtain ⟨found, middle, tagged, checked⟩ := (bind_eq_ok_iff _ _ _ _ _).mp ran
  obtain ⟨tag, length, decoded, listed, rfl, rfl⟩ := lengthTag_eq_ok tagged
  obtain ⟨_, final, small, returned⟩ := (bind_eq_ok_iff _ _ _ _ _).mp checked
  obtain ⟨within, rfl⟩ := withinLimit_eq_ok small
  obtain ⟨rfl, rfl⟩ := (pure_eq_ok_iff _ _ _ _).mp returned
  exact ⟨tag, length, decoded, listed, rfl, within, rfl⟩

theorem openSpan_of_decode {cursor : Cursor} {tag : UInt64} {length : Nat}
    (decoded : Varint.decode cursor.rest = .ok (some (tag, length)))
    (listed : LengthTag.scheme tag = .list) (within : LengthTag.count tag ≤ cursor.limit)
    (there : length + LengthTag.count tag ≤ cursor.rest.length) :
    openSpan cursor = .ok (LengthTag.count tag) (cursor.advance length) := by
  have small : LengthTag.count tag ≤ (cursor.advance length).limit := within
  have bounded : spanLength cursor = .ok (LengthTag.count tag) (cursor.advance length) := by
    rw [spanLength, bind_of_ok (lengthTag_of_decode decoded listed),
      bind_of_ok (withinLimit_of_le small)]
    rfl
  have enough : LengthTag.count tag ≤ (cursor.advance length).rest.length := by
    rw [Cursor.rest_advance, List.length_drop]
    omega
  rw [openSpan, bind_of_ok bounded, bind_of_ok (ensure_of_le enough)]
  rfl

theorem openSpan_of_le {limit length pos : Nat} {rest : Bytes} (within : length ≤ limit)
    (fits : length < 2 ^ 62) (there : length ≤ rest.length) :
    openSpan ⟨Write.word (LengthTag.span length) ++ rest, pos, limit⟩ =
      .ok length ⟨rest, pos + (Write.word (LengthTag.span length)).length, limit⟩ := by
  rw [openSpan, bind_of_ok (spanLength_takes within fits rest pos),
    bind_of_ok (ensure_of_le there)]
  rfl

theorem openSpan_of_lt {limit length pos : Nat} {rest : Bytes} (within : length ≤ limit)
    (fits : length < 2 ^ 62) (short : rest.length < length) :
    openSpan ⟨Write.word (LengthTag.span length) ++ rest, pos, limit⟩ =
      .error (.bufferUnderrun length rest.length)
        ⟨rest, pos + (Write.word (LengthTag.span length)).length, limit⟩ := by
  rw [openSpan, bind_of_ok (spanLength_takes within fits rest pos),
    bind_of_error (ensure_of_lt short)]

theorem openSpan_eq_ok {cursor after : Cursor} {number : Nat}
    (ran : openSpan cursor = .ok number after) :
    ∃ tag length, Varint.decode cursor.rest = .ok (some (tag, length)) ∧
      LengthTag.scheme tag = .list ∧ LengthTag.count tag = number ∧ number ≤ cursor.limit ∧
      length + number ≤ cursor.rest.length ∧ after = cursor.advance length := by
  obtain ⟨found, middle, opened, checked⟩ := (bind_eq_ok_iff _ _ _ _ _).mp ran
  obtain ⟨tag, length, decoded, listed, rfl, within, rfl⟩ := spanLength_eq_ok opened
  obtain ⟨_, final, there, returned⟩ := (bind_eq_ok_iff _ _ _ _ _).mp checked
  obtain ⟨enough, rfl⟩ := ensure_eq_ok there
  obtain ⟨rfl, rfl⟩ := (pure_eq_ok_iff _ _ _ _).mp returned
  have inside := Varint.length_le_of_decode decoded
  rw [Cursor.rest_advance, List.length_drop] at enough
  exact ⟨tag, length, decoded, listed, rfl, within, by omega, rfl⟩

/-- An opened span is there, and its tag is no shorter than the one that is written. -/
theorem openSpan_costs {cursor after : Cursor} {number : Nat}
    (ran : openSpan cursor = .ok number after) :
    ∃ length, LengthTag.size number .list ≤ length ∧ length + number ≤ cursor.rest.length ∧
      number < 2 ^ 62 ∧ number ≤ cursor.limit ∧ after = cursor.advance length := by
  obtain ⟨tag, length, decoded, listed, rfl, within, inside, rfl⟩ := openSpan_eq_ok ran
  have size := Varint.size_le_of_decode decoded
  rw [← LengthTag.encode_count tag, listed] at size
  exact ⟨length, size, inside, LengthTag.count_lt tag, within, rfl⟩

theorem openSpan_bounds {cursor : Cursor} {tagSize number : Nat}
    (opened : openSpan cursor = .ok number (cursor.advance tagSize)) :
    LengthTag.size number .list ≤ tagSize ∧ tagSize + number ≤ cursor.rest.length ∧
      number < 2 ^ 62 ∧ number ≤ cursor.limit := by
  obtain ⟨length, sized, inside, small, within, same⟩ := openSpan_costs opened
  obtain rfl := Cursor.advance_injective same
  exact ⟨sized, inside, small, within⟩

theorem blob_takes {limit : Nat} {bytes : Bytes} (within : bytes.length ≤ limit)
    (fits : bytes.length < 2 ^ 62) : Takes blob limit (Write.blob bytes) bytes :=
  Takes.bind (spanLength_takes within fits) (span_takes limit bytes)

theorem blob_costs {cursor after : Cursor} {bytes : Bytes}
    (ran : blob cursor = .ok bytes after) :
    ∃ length, LengthTag.spanSize bytes.length ≤ length ∧ length ≤ cursor.rest.length ∧
      after = cursor.advance length := by
  obtain ⟨number, middle, opened, taken⟩ := (bind_eq_ok_iff _ _ _ _ _).mp ran
  obtain ⟨tag, length, decoded, listed, rfl, _, rfl⟩ := spanLength_eq_ok opened
  obtain ⟨enough, rfl, rfl⟩ := span_eq_ok taken
  have inside := Varint.length_le_of_decode decoded
  have size := Varint.size_le_of_decode decoded
  rw [← LengthTag.encode_count tag, listed] at size
  rw [Cursor.rest_advance, List.length_drop] at enough
  refine ⟨length + LengthTag.count tag, ?_, by omega, Cursor.advance_advance _ _ _⟩
  rw [LengthTag.spanSize, List.length_take, Cursor.rest_advance, List.length_drop,
    Nat.min_eq_left enough]
  exact Nat.add_le_add_right size _

/-- What is written as a blob fits if the whole of it keeps to the limit. -/
theorem blob_takes_of_le {limit : Nat} {bytes : Bytes} (within : (Write.blob bytes).length ≤ limit)
    (default : limit ≤ defaultPayloadLimit) : Takes blob limit (Write.blob bytes) bytes := by
  have inside : bytes.length ≤ limit := Nat.le_trans (Write.length_le_blob bytes) within
  exact blob_takes inside (lt_of_le_default inside default)

theorem text_takes_of_le {limit : Nat} {value : Text} (within : (Write.text value).length ≤ limit)
    (default : limit ≤ defaultPayloadLimit) :
    Takes text limit (Write.text value) (Text.ofWire value.bytes) :=
  Takes.bindPure (blob_takes_of_le within default) rfl

theorem text_costs {cursor after : Cursor} {value : Text}
    (ran : text cursor = .ok value after) :
    ∃ length, value.encodedSize ≤ length ∧ length ≤ cursor.rest.length ∧
      after = cursor.advance length := by
  obtain ⟨bytes, middle, taken, returned⟩ := (bind_eq_ok_iff _ _ _ _ _).mp ran
  obtain ⟨rfl, rfl⟩ := (pure_eq_ok_iff _ _ _ _).mp returned
  exact blob_costs taken

/-! ## Envelopes that stay as they are -/

theorem object_of_decode {cursor : Cursor} {tag : UInt64} {tagSize : Nat}
    (decoded : Varint.decode cursor.rest = .ok (some (tag, tagSize)))
    (listed : LengthTag.scheme tag = .list) (within : LengthTag.count tag ≤ cursor.limit)
    (there : tagSize + LengthTag.count tag ≤ cursor.rest.length) :
    object cursor = .ok (cursor.rest.take (tagSize + LengthTag.count tag))
      (cursor.advance (tagSize + LengthTag.count tag)) := by
  change ((do
    let length ← openSpan
    advance length
    let stop ← position
    return cursor.rest.take (stop - cursor.pos) : Reader Bytes) cursor) = _
  rw [bind_of_ok (openSpan_of_decode decoded listed within there),
    bind_of_ok (advance_apply _ _), bind_of_ok (position_apply _), Cursor.advance_advance,
    Cursor.pos_advance, Nat.add_sub_cancel_left]
  rfl

theorem object_takes {limit : Nat} {bytes : Bytes} (envelope : LengthTag.IsEnvelope bytes)
    (within : bytes.length ≤ limit) : Takes object limit bytes bytes := by
  intro tail pos
  obtain ⟨tag, tagSize, decoded, listed, total⟩ := envelope
  have small : LengthTag.count tag ≤ (Cursor.mk (bytes ++ tail) pos limit).limit :=
    Nat.le_trans (by omega) within
  have there : tagSize + LengthTag.count tag ≤
      (Cursor.mk (bytes ++ tail) pos limit).rest.length := by
    rw [List.length_append]
    omega
  rw [object_of_decode (Varint.decode_append tail decoded) listed small there, ← total,
    Cursor.advance_append, List.take_left]

theorem object_eq_ok {cursor after : Cursor} {bytes : Bytes}
    (ran : object cursor = .ok bytes after) :
    LengthTag.IsEnvelope bytes ∧ bytes.length ≤ cursor.rest.length ∧
      bytes = cursor.rest.take bytes.length ∧ after = cursor.advance bytes.length := by
  have ran : ((do
    let length ← openSpan
    advance length
    let stop ← position
    return cursor.rest.take (stop - cursor.pos) : Reader Bytes) cursor) = .ok bytes after := ran
  obtain ⟨number, middle, opened, moved⟩ := (bind_eq_ok_iff _ _ _ _ _).mp ran
  obtain ⟨tag, tagSize, decoded, listed, rfl, within, inside, rfl⟩ := openSpan_eq_ok opened
  rw [bind_of_ok (advance_apply _ _), bind_of_ok (position_apply _), Cursor.advance_advance,
    Cursor.pos_advance, Nat.add_sub_cancel_left] at moved
  obtain ⟨rfl, rfl⟩ := (pure_eq_ok_iff _ _ _ _).mp moved
  have length : (cursor.rest.take (tagSize + LengthTag.count tag)).length =
      tagSize + LengthTag.count tag := by
    rw [List.length_take, Nat.min_eq_left inside]
  have prefixed : Varint.decode (cursor.rest.take (tagSize + LengthTag.count tag)) =
      .ok (some (tag, tagSize)) := by
    have shorter := Varint.decode_append
      ((cursor.rest.take (tagSize + LengthTag.count tag)).drop tagSize)
      (Varint.decode_take decoded)
    rw [← shorter]
    congr 1
    rw [List.drop_take, Nat.add_sub_cancel_left, List.take_add]
  refine ⟨⟨tag, tagSize, prefixed, listed, length⟩, ?_, ?_, ?_⟩
  · rw [length]
    exact inside
  · rw [length]
  · rw [length]

end Reader

end FieldWire
