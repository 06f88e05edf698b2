import FieldWire.Proofs.FieldSet
import FieldWire.Proofs.FixedWidth
import FieldWire.Proofs.Loader
import Mathlib.Data.List.Forall2

/-!
# What readers accept

`Accepts` says of a reader which byte strings it takes: it succeeds on the buffers that begin with
one of them and stops right after it.  It fails on all others, whatever else they hold, so that it
is `Takes` in both directions.  Numbers may be spelled with more groups than they need.
-/

set_option autoImplicit false

namespace FieldWire

namespace Varint

/-- The bytes are a varint of the word, not necessarily the shortest. -/
def Spells (bytes : Bytes) (word : UInt64) : Prop :=
  decode bytes = .ok (some (word, bytes.length))

theorem Spells.length_pos {bytes : Bytes} {word : UInt64} (spelled : Spells bytes word) :
    0 < bytes.length :=
  Nat.le_trans (size_pos word) (size_le_of_decode spelled)

theorem spells_encode (word : UInt64) : Spells (encode word) word := by
  have decoded := decode_encode_append word []
  rwa [List.append_nil, ← length_encode] at decoded

theorem decode_eq_some_iff {bytes : Bytes} {word : UInt64} {length : Nat} :
    decode bytes = .ok (some (word, length)) ↔
      ∃ front tail, bytes = front ++ tail ∧ Spells front word ∧ front.length = length := by
  constructor
  · intro decoded
    have taken : (bytes.take length).length = length := by
      rw [List.length_take, Nat.min_eq_left (length_le_of_decode decoded)]
    refine ⟨bytes.take length, bytes.drop length, (List.take_append_drop _ _).symm, ?_, taken⟩
    rw [Spells, taken]
    exact decode_take decoded
  · rintro ⟨front, tail, rfl, spelled, rfl⟩
    exact decode_append tail spelled

end Varint

namespace LengthTag

/-- The bytes are a tag of wire type `list` with a count that keeps to the limit. -/
def Declares (limit : Nat) (bytes : Bytes) (number : Nat) : Prop :=
  ∃ tag, Varint.Spells bytes tag ∧ scheme tag = .list ∧ count tag = number ∧ number ≤ limit

end LengthTag

/-! ## Languages -/

namespace Language

variable {ι : Type}

/-- The bytes fall into a front of one language and a back of another. -/
def Joined (first second : Bytes → Prop) (bytes : Bytes) : Prop :=
  ∃ front back, bytes = front ++ back ∧ first front ∧ second back

/-- One value for each item, one after the other. -/
def Run (language : ι → Bytes → Prop) (items : List ι) (bytes : Bytes) : Prop :=
  ∃ values, List.Forall₂ language items values ∧ bytes = values.flatten

theorem run_nil (language : ι → Bytes → Prop) : Run language [] = (· = []) := by
  funext bytes
  apply propext
  constructor
  · rintro ⟨values, none, rfl⟩
    cases none
    rfl
  · rintro rfl
    exact ⟨[], .nil, rfl⟩

theorem run_cons (language : ι → Bytes → Prop) (item : ι) (items : List ι) :
    Run language (item :: items) = Joined (language item) (Run language items) := by
  funext bytes
  apply propext
  constructor
  · rintro ⟨values, each, rfl⟩
    obtain ⟨front, rest, first, others, rfl⟩ := List.forall₂_cons_left_iff.mp each
    exact ⟨front, rest.flatten, rfl, first, rest, others, rfl⟩
  · rintro ⟨front, _, rfl, first, values, rest, rfl⟩
    exact ⟨front :: values, .cons first rest, rfl⟩

theorem run_flatMap {language : ι → Bytes → Prop} {items : List ι} {bytes : ι → Bytes}
    (each : ∀ item ∈ items, language item (bytes item)) : Run language items (items.flatMap bytes) := by
  refine ⟨items.map bytes, ?_, List.flatMap_def⟩
  rw [List.forall₂_map_right_iff, List.forall₂_same]
  exact each

theorem run_singleton (language : ι → Bytes → Prop) (item : ι) :
    Run language [item] = language item := by
  funext bytes
  rw [run_cons, run_nil]
  apply propext
  constructor
  · rintro ⟨front, _, rfl, taken, rfl⟩
    rwa [List.append_nil]
  · intro taken
    exact ⟨bytes, [], (List.append_nil _).symm, taken, rfl⟩

end Language

/-- The bytes are one value of a wire type. -/
def WireType.IsValue (limit : Nat) : WireType → Bytes → Prop
  | .list, bytes => ∃ tag body, bytes = tag ++ body ∧ LengthTag.Declares limit tag body.length
  | .varint, bytes => ∃ word, Varint.Spells bytes word
  | .fourByte, bytes => bytes.length = 4
  | .eightByte, bytes => bytes.length = 8

theorem WireType.IsValue.length_pos {wireType : WireType} {limit : Nat} {bytes : Bytes}
    (isValue : wireType.IsValue limit bytes) : 0 < bytes.length := by
  cases wireType with
  | list =>
    obtain ⟨tag, body, rfl, _, spelled, _⟩ := isValue
    rw [List.length_append]
    exact Nat.lt_of_lt_of_le spelled.length_pos (Nat.le_add_right _ _)
  | varint =>
    obtain ⟨_, spelled⟩ := isValue
    exact spelled.length_pos
  | fourByte =>
    have four : bytes.length = 4 := isValue
    omega
  | eightByte =>
    have eight : bytes.length = 8 := isValue
    omega

theorem WireType.isValue_blob {limit : Nat} {bytes : Bytes} (within : bytes.length ≤ limit)
    (small : bytes.length < 2 ^ 62) : WireType.list.IsValue limit (Write.blob bytes) := by
  refine ⟨Varint.encode (LengthTag.span bytes.length), bytes, rfl, LengthTag.span bytes.length,
    Varint.spells_encode _, LengthTag.scheme_encode _ _, LengthTag.count_encode _ _ small, within⟩

namespace Reader

variable {α β : Type} {limit : Nat}

/-- The reader succeeds on the buffers that begin with bytes of a language, and takes them. -/
def Accepts (reader : Reader α) (limit : Nat) (language : Bytes → Prop) : Prop :=
  ∀ (rest : Bytes) (pos : Nat) (after : Cursor),
    (∃ value, reader ⟨rest, pos, limit⟩ = .ok value after) ↔
      ∃ bytes tail, rest = bytes ++ tail ∧ language bytes ∧
        after = ⟨tail, pos + bytes.length, limit⟩

theorem word_eq_ok_iff {rest : Bytes} {pos : Nat} {word : UInt64} {after : Cursor} :
    Reader.word ⟨rest, pos, limit⟩ = .ok word after ↔
      ∃ bytes tail, rest = bytes ++ tail ∧ Varint.Spells bytes word ∧
        after = ⟨tail, pos + bytes.length, limit⟩ := by
  constructor
  · intro ran
    obtain ⟨length, decoded, rfl⟩ := word_eq_ok ran
    obtain ⟨bytes, tail, same, spelled, rfl⟩ := Varint.decode_eq_some_iff.mp decoded
    obtain rfl : rest = bytes ++ tail := same
    exact ⟨bytes, tail, rfl, spelled, Cursor.advance_append _ _ _ _⟩
  · rintro ⟨bytes, tail, rfl, spelled, rfl⟩
    rw [← Cursor.advance_append]
    exact word_of_decode (Varint.decode_append tail spelled)

theorem word32_eq_ok_iff {rest : Bytes} {pos : Nat} {value : UInt32} {after : Cursor} :
    word32 ⟨rest, pos, limit⟩ = .ok value after ↔
      ∃ word bytes tail, rest = bytes ++ tail ∧ Varint.Spells bytes word ∧
        word.toNat = value.toNat ∧ after = ⟨tail, pos + bytes.length, limit⟩ := by
  constructor
  · intro ran
    obtain ⟨word, length, decoded, same, rfl⟩ := word32_eq_ok ran
    obtain ⟨bytes, tail, split, spelled, rfl⟩ := Varint.decode_eq_some_iff.mp decoded
    obtain rfl : rest = bytes ++ tail := split
    exact ⟨word, bytes, tail, rfl, spelled, same, Cursor.advance_append _ _ _ _⟩
  · rintro ⟨word, bytes, tail, rfl, spelled, same, rfl⟩
    have small : word.toNat < UInt32.size := same ▸ value.toNat_lt
    have narrowed : word.toUInt32 = value := by
      rw [← UInt32.toNat_inj, UInt64.toNat_toUInt32, Nat.mod_eq_of_lt small, same]
    rw [word32, bind_of_ok (word_eq_ok_iff.mpr ⟨bytes, tail, rfl, spelled, rfl⟩), if_pos small,
      narrowed]
    rfl

theorem openSpan_eq_ok_iff {rest : Bytes} {pos number : Nat} {after : Cursor} :
    openSpan ⟨rest, pos, limit⟩ = .ok number after ↔
      ∃ bytes tail, rest = bytes ++ tail ∧ LengthTag.Declares limit bytes number ∧
        number ≤ tail.length ∧ after = ⟨tail, pos + bytes.length, limit⟩ := by
  constructor
  · intro ran
    obtain ⟨tag, length, decoded, listed, counted, within, inside, rfl⟩ := openSpan_eq_ok ran
    obtain ⟨bytes, tail, same, spelled, rfl⟩ := Varint.decode_eq_some_iff.mp decoded
    obtain rfl : rest = bytes ++ tail := same
    have there : number ≤ tail.length := by
      simp only [List.length_append] at inside
      omega
    exact ⟨bytes, tail, rfl, ⟨tag, spelled, listed, counted, within⟩, there,
      Cursor.advance_append _ _ _ _⟩
  · rintro ⟨bytes, tail, rfl, ⟨tag, spelled, listed, rfl, within⟩, there, rfl⟩
    have inside : bytes.length + LengthTag.count tag ≤ (bytes ++ tail).length := by
      simp only [List.length_append]
      omega
    rw [← Cursor.advance_append]
    exact openSpan_of_decode (Varint.decode_append tail spelled) listed within inside

/-- A count of bytes, all of which are there. -/
theorem split_of_le {rest : Bytes} {length : Nat} (there : length ≤ rest.length) :
    ∃ front tail, rest = front ++ tail ∧ front.length = length :=
  ⟨rest.take length, rest.drop length, (List.take_append_drop _ _).symm,
    by rw [List.length_take, Nat.min_eq_left there]⟩

theorem Accepts.bind {first : Reader α} {next : α → Reader β} {front back : Bytes → Prop}
    (accepts : Accepts first limit front) (more : ∀ value, Accepts (next value) limit back) :
    Accepts (first >>= next) limit (Language.Joined front back) := by
  intro rest pos after
  constructor
  · rintro ⟨result, ran⟩
    obtain ⟨value, middle, firstRan, nextRan⟩ := (bind_eq_ok_iff _ _ _ _ _).mp ran
    obtain ⟨bytes, tail, rfl, taken, rfl⟩ := (accepts _ _ _).mp ⟨value, firstRan⟩
    obtain ⟨others, last, rfl, takenThen, rfl⟩ := (more value _ _ _).mp ⟨result, nextRan⟩
    refine ⟨bytes ++ others, last, (List.append_assoc _ _ _).symm,
      ⟨bytes, others, rfl, taken, takenThen⟩, ?_⟩
    rw [List.length_append, Nat.add_assoc]
  · rintro ⟨_, tail, rfl, ⟨bytes, others, rfl, taken, takenThen⟩, rfl⟩
    obtain ⟨value, firstRan⟩ :=
      (accepts (bytes ++ (others ++ tail)) pos _).mpr ⟨bytes, _, rfl, taken, rfl⟩
    obtain ⟨result, nextRan⟩ :=
      (more value (others ++ tail) (pos + bytes.length) _).mpr ⟨others, _, rfl, takenThen, rfl⟩
    refine ⟨result, ?_⟩
    rw [List.append_assoc, bind_of_ok firstRan, nextRan, List.length_append, Nat.add_assoc]

theorem Accepts.nothing (limit : Nat) (value : α) : Accepts (pure value) limit (· = []) := by
  intro rest pos after
  constructor
  · rintro ⟨_, ran⟩
    obtain ⟨_, rfl⟩ := (pure_eq_ok_iff _ _ _ _).mp ran
    exact ⟨[], rest, rfl, rfl, rfl⟩
  · rintro ⟨_, tail, rfl, rfl, rfl⟩
    exact ⟨value, rfl⟩

/-- A last step that reads nothing and cannot fail. -/
theorem Accepts.bindPure {first : Reader α} {next : α → Reader β} {language : Bytes → Prop}
    (accepts : Accepts first limit language)
    (last : ∀ value, ∃ result, next value = pure result) :
    Accepts (first >>= next) limit language := by
  intro rest pos after
  rw [← accepts rest pos after]
  constructor
  · rintro ⟨result, ran⟩
    obtain ⟨value, middle, firstRan, nextRan⟩ := (bind_eq_ok_iff _ _ _ _ _).mp ran
    obtain ⟨last, returned⟩ := last value
    rw [returned] at nextRan
    obtain ⟨_, rfl⟩ := (pure_eq_ok_iff _ _ _ _).mp nextRan
    exact ⟨value, firstRan⟩
  · rintro ⟨value, firstRan⟩
    obtain ⟨result, returned⟩ := last value
    refine ⟨result, ?_⟩
    rw [bind_of_ok firstRan, returned]
    rfl

theorem Accepts.takes {reader : Reader Unit} {language : Bytes → Prop} {bytes : Bytes}
    (accepts : Accepts reader limit language) (taken : language bytes) :
    Takes reader limit bytes () := by
  intro tail pos
  obtain ⟨_, ran⟩ := (accepts (bytes ++ tail) pos _).mpr ⟨bytes, tail, rfl, taken, rfl⟩
  exact ran

/-- Moving over bytes that were looked for. -/
theorem ensure_accepts {next : Unit → Reader α} {length : Nat}
    (last : ∀ cursor, ∃ value, next () cursor = .ok value (cursor.advance length)) :
    Accepts (ensure length >>= next) limit fun bytes => bytes.length = length := by
  intro rest pos after
  constructor
  · rintro ⟨value, ran⟩
    obtain ⟨_, middle, checked, moved⟩ := (bind_eq_ok_iff _ _ _ _ _).mp ran
    obtain ⟨there, rfl⟩ := ensure_eq_ok checked
    obtain ⟨front, tail, rfl, rfl⟩ := split_of_le there
    obtain ⟨found, stopped⟩ := last ⟨front ++ tail, pos, limit⟩
    rw [stopped, Cursor.advance_append] at moved
    cases moved
    exact ⟨front, tail, rfl, rfl, rfl⟩
  · rintro ⟨bytes, tail, rfl, rfl, rfl⟩
    have there : bytes.length ≤ (bytes ++ tail).length := by simp
    obtain ⟨value, stopped⟩ := last ⟨bytes ++ tail, pos, limit⟩
    refine ⟨value, ?_⟩
    rw [bind_of_ok (ensure_of_le there), stopped, Cursor.advance_append]

theorem fixed_accepts (code : FixedWidth α) :
    Accepts (fixed code) limit fun bytes => bytes.length = code.width := by
  have accepts : Accepts (span code.width) limit fun bytes => bytes.length = code.width :=
    ensure_accepts fun _ => ⟨_, rfl⟩
  exact accepts.bindPure fun _ => ⟨_, rfl⟩

/-- Moving over a span that was opened. -/
theorem openSpan_accepts {next : Nat → Reader α}
    (last : ∀ number cursor, ∃ value, next number cursor = .ok value (cursor.advance number)) :
    Accepts (openSpan >>= next) limit (WireType.list.IsValue limit) := by
  intro rest pos after
  constructor
  · rintro ⟨value, ran⟩
    obtain ⟨number, middle, opened, moved⟩ := (bind_eq_ok_iff _ _ _ _ _).mp ran
    obtain ⟨tag, tail, rfl, declares, there, rfl⟩ := openSpan_eq_ok_iff.mp opened
    obtain ⟨body, tail, rfl, rfl⟩ := split_of_le there
    obtain ⟨found, stopped⟩ := last body.length ⟨body ++ tail, pos + tag.length, limit⟩
    rw [stopped, Cursor.advance_append] at moved
    cases moved
    refine ⟨tag ++ body, tail, (List.append_assoc _ _ _).symm, ⟨tag, body, rfl, declares⟩, ?_⟩
    rw [List.length_append, Nat.add_assoc]
  · rintro ⟨_, tail, rfl, ⟨tag, body, rfl, declares⟩, rfl⟩
    have there : body.length ≤ (body ++ tail).length := by simp
    have opened : openSpan ⟨tag ++ (body ++ tail), pos, limit⟩ = .ok body.length _ :=
      openSpan_eq_ok_iff.mpr ⟨tag, body ++ tail, rfl, declares, there, rfl⟩
    obtain ⟨value, stopped⟩ := last body.length ⟨body ++ tail, pos + tag.length, limit⟩
    refine ⟨value, ?_⟩
    rw [List.append_assoc, bind_of_ok opened, stopped, Cursor.advance_append, List.length_append,
      Nat.add_assoc]

theorem object_accepts : Accepts object limit (WireType.list.IsValue limit) := by
  intro rest pos after
  exact openSpan_accepts (fun _ _ => ⟨_, rfl⟩) rest pos after

theorem blob_accepts : Accepts blob limit (WireType.list.IsValue limit) := by
  have checked : blob = openSpan >>= fun length => do
      let cursor ← get
      advance length
      return cursor.rest.take length := by
    simp only [blob, span, openSpan, bind_assoc, pure_bind]
  rw [checked]
  exact openSpan_accepts fun _ _ => ⟨_, rfl⟩

theorem skip_accepts (wireType : WireType) :
    Accepts (skip wireType) limit (wireType.IsValue limit) := by
  cases wireType with
  | list => exact openSpan_accepts fun _ _ => ⟨(), rfl⟩
  | varint =>
    refine Accepts.bindPure ?_ fun _ => ⟨(), rfl⟩
    intro rest pos after
    constructor
    · rintro ⟨word, ran⟩
      obtain ⟨bytes, tail, rfl, spelled, rfl⟩ := word_eq_ok_iff.mp ran
      exact ⟨bytes, tail, rfl, ⟨word, spelled⟩, rfl⟩
    · rintro ⟨bytes, tail, rfl, ⟨word, spelled⟩, rfl⟩
      exact ⟨word, word_eq_ok_iff.mpr ⟨bytes, tail, rfl, spelled, rfl⟩⟩
  | fourByte => exact ensure_accepts fun _ => ⟨(), rfl⟩
  | eightByte => exact ensure_accepts fun _ => ⟨(), rfl⟩

theorem forM_accepts {ι : Type} {step : ι → Reader Unit} {language : ι → Bytes → Prop}
    (accepts : ∀ item, Accepts (step item) limit (language item)) (items : List ι) :
    Accepts (items.forM step) limit (Language.Run language items) := by
  induction items with
  | nil =>
    rw [Language.run_nil]
    exact Accepts.nothing limit ()
  | cons item items ih =>
    rw [Language.run_cons]
    exact (accepts item).bind fun _ => ih

end Reader

/-! ## Loaders as readers -/

namespace Loader

variable {σ α : Type}

theorem toReader_read_bind (start : σ) (reader : Reader α) (next : α → Loader σ Unit) :
    toReader start (read reader >>= next) = reader >>= fun value => toReader start (next value) := by
  funext cursor
  cases ran : reader cursor with
  | ok value after => rw [toReader, bind_of_ok (read_of_ok ran start), bind_of_ok ran, toReader]
  | error error after => rw [toReader, bind_of_error (read_of_error ran start), bind_of_error ran]

theorem toReader_update_bind (start : σ) (change : σ → σ) (next : Unit → Loader σ Unit) :
    toReader start (update change >>= next) = toReader (change start) (next ()) := rfl

theorem toReader_update (start : σ) (change : σ → σ) :
    toReader start (update change) = pure (change start) := rfl

theorem toReader_throw_bind (start : σ) (error : CodecError) (next : α → Loader σ Unit) :
    toReader start (throw error >>= next) = throw error := rfl

theorem toReader_ite (condition : Prop) [Decidable condition] (start : σ)
    (first second : Loader σ Unit) :
    toReader start (if condition then first else second) =
      if condition then toReader start first else toReader start second := by
  split <;> rfl

end Loader

end FieldWire
