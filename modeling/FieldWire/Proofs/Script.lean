import FieldWire.Proofs.Accepts

/-!
# Scripts

A script is a run of values of any kinds, each written by itself with nothing between them.  Whoever
knows the kinds can read the values back one after the other, and may pass over any of them: passing
over a value does to the cursor what reading it does, so that every other value is read as before.

That the two agree holds on every buffer.  Passing over a value of a wire type and reading one
without asking what it means succeed together and stop at the same place, and fail together for the
same reason.
-/

set_option autoImplicit false

namespace FieldWire

/-! ## Raw values -/

/-- What a value is when only its wire type is known. -/
def WireType.Raw : WireType → Type
  | .list => Bytes
  | .varint => UInt64
  | .fourByte => Binary32
  | .eightByte => Binary64

namespace Reader

variable {limit : Nat}

/-- Reads a value of which only the wire type is known. -/
def raw : (wireType : WireType) → Reader wireType.Raw
  | .list => blob
  | .varint => word
  | .fourByte => binary32
  | .eightByte => binary64

/-- Passing over some bytes is taking them and leaving them aside. -/
theorem discard_span (length : Nat) :
    (span length >>= fun _ => pure ()) = ensure length >>= fun _ => advance length := by
  simp only [span, bind_assoc, pure_bind]
  rfl

theorem discard_fixed {α : Type} (code : FixedWidth α) :
    (fixed code >>= fun _ => pure ()) = ensure code.width >>= fun _ => advance code.width := by
  simp only [fixed, bind_assoc, pure_bind, discard_span]

theorem skip_eq_raw (wireType : WireType) :
    skip wireType = raw wireType >>= fun _ => pure () := by
  cases wireType with
  | list =>
    change (openSpan >>= advance) = blob >>= fun _ => pure ()
    simp only [blob, openSpan, bind_assoc, pure_bind, discard_span]
  | varint => rfl
  | fourByte => exact (discard_fixed .binary32).symm
  | eightByte => exact (discard_fixed .binary64).symm

/-- What is an object on the wire is read as it stands, in whatever way its tag is written. -/
theorem object_takes_of_isValue {bytes : Bytes} (isValue : WireType.list.IsValue limit bytes) :
    Takes object limit bytes bytes := by
  intro tail pos
  obtain ⟨found, ran⟩ := (object_accepts (bytes ++ tail) pos _).mpr ⟨bytes, tail, rfl, isValue, rfl⟩
  obtain ⟨_, _, same, moved⟩ := object_eq_ok ran
  have length : bytes.length = found.length := Nat.add_left_cancel (congrArg Cursor.pos moved)
  rw [← length] at same
  rw [ran, same]
  exact congrArg (EStateM.Result.ok · _) List.take_left

theorem string_takes {string : String} (within : (Text.utf8 string).length ≤ limit)
    (small : (Text.utf8 string).length < 2 ^ 62) :
    Takes Reader.string limit (Write.string string) string := by
  have converted : (Text.ofWire (Text.utf8 string)).read = .ok string := Text.read_eq_ok_iff.mpr rfl
  have text : Takes text limit (Write.string string) (Text.ofWire (Text.utf8 string)) :=
    Takes.bindPure (blob_takes within small) rfl
  refine Takes.bindPure text ?_
  rw [converted]

end Reader

namespace Script

/-! ## Values of all kinds -/

/-- How a value is written. -/
inductive Kind where
  | word
  | long
  | bool
  | binary32
  | binary64
  | blob
  | string
  | text
  /-- An encoded object, which is written as it stands. -/
  | object
deriving DecidableEq

namespace Kind

/-- The values of a kind. -/
def Value : Kind → Type
  | word => UInt64
  | long => Integer .long
  | bool => Bool
  | binary32 => Binary32
  | binary64 => Binary64
  | blob => Bytes
  | string => String
  | text => Text
  | object => Bytes

def wireType : Kind → WireType
  | word | long | bool => .varint
  | binary32 => .fourByte
  | binary64 => .eightByte
  | blob | string | text | object => .list

def write : (kind : Kind) → kind.Value → Bytes
  | word, value => Write.word value
  | long, value => Write.integer value
  | bool, value => Write.bool value
  | binary32, value => Binary32.encode value
  | binary64, value => Binary64.encode value
  | blob, bytes => Write.blob bytes
  | string, value => Write.string value
  | text, value => Write.text value
  | object, bytes => bytes

def read : (kind : Kind) → Reader kind.Value
  | word => Reader.word
  | long => Reader.long
  | bool => Reader.bool
  | binary32 => Reader.binary32
  | binary64 => Reader.binary64
  | blob => Reader.blob
  | string => Reader.string
  | text => Reader.text
  | object => Reader.object

/-- Spans keep to the limit, and to the 62 bits that a tag has for their length.  An object is one
span with a tag in front. -/
def Fits (limit : Nat) : (kind : Kind) → kind.Value → Prop
  | blob, (bytes : Bytes) => bytes.length ≤ limit ∧ bytes.length < 2 ^ 62
  | string, value => (Text.utf8 value).length ≤ limit ∧ (Text.utf8 value).length < 2 ^ 62
  | text, (value : Text) => value.length ≤ limit ∧ value.length < 2 ^ 62
  | object, bytes => WireType.list.IsValue limit bytes
  | word, _ | long, _ | bool, _ | binary32, _ | binary64, _ => True

/-- The value as it comes back.  A text has not been converted then. -/
def received : (kind : Kind) → kind.Value → kind.Value
  | text, (value : Text) => Text.ofWire value.bytes
  | _, value => value

variable {limit : Nat}

theorem read_takes (kind : Kind) {value : kind.Value} (fits : kind.Fits limit value) :
    Reader.Takes kind.read limit (kind.write value) (kind.received value) := by
  cases kind with
  | word => exact Reader.word_takes limit value
  | long => exact Reader.long_takes limit value
  | bool => exact Reader.bool_takes limit value
  | binary32 => exact Reader.fixed_takes .binary32 limit value
  | binary64 => exact Reader.fixed_takes .binary64 limit value
  | blob => exact Reader.blob_takes fits.1 fits.2
  | string => exact Reader.string_takes fits.1 fits.2
  | text => exact Reader.Takes.bindPure (Reader.blob_takes fits.1 fits.2) rfl
  | object => exact Reader.object_takes_of_isValue fits

theorem isValue_write (kind : Kind) {value : kind.Value} (fits : kind.Fits limit value) :
    kind.wireType.IsValue limit (kind.write value) := by
  cases kind with
  | word => exact ⟨_, Varint.spells_encode _⟩
  | long => exact ⟨_, Varint.spells_encode _⟩
  | bool => exact ⟨_, Varint.spells_encode _⟩
  | binary32 => exact FixedWidth.binary32.length_encode _
  | binary64 => exact FixedWidth.binary64.length_encode _
  | blob => exact WireType.isValue_blob fits.1 fits.2
  | string => exact WireType.isValue_blob fits.1 fits.2
  | text => exact WireType.isValue_blob fits.1 fits.2
  | object => exact fits

end Kind

/-- A value with its kind. -/
structure Item where
  kind : Kind
  value : kind.Value

namespace Item

def write (item : Item) : Bytes := item.kind.write item.value

def Fits (limit : Nat) (item : Item) : Prop := item.kind.Fits limit item.value

def received (item : Item) : Item := ⟨item.kind, item.kind.received item.value⟩

/-- Texts are the same if their bytes are; anything else is the same if it is equal, numbers bit for
bit. -/
inductive Same : Item → Item → Prop where
  | refl (item : Item) : Same item item
  | text {left right : Text} (bytes : left.bytes = right.bytes) :
      Same ⟨.text, left⟩ ⟨.text, right⟩

theorem same_received (item : Item) : Same item item.received := by
  obtain ⟨kind, value⟩ := item
  cases kind with
  | text => exact .text rfl
  | word | long | bool | binary32 | binary64 | blob | string | object => exact .refl _

end Item

/-! ## Reading a script -/

/-- Reads a value, or passes over it. -/
def Kind.take (kind : Kind) (passed : Bool) : Reader (Option Item) :=
  if passed then do
    Reader.skip kind.wireType
    return none
  else do return some ⟨kind, ← kind.read⟩

/-- Reads some of the values of a script and passes over the others. -/
def takeAll : List (Kind × Bool) → Reader (List (Option Item))
  | [] => return []
  | (kind, passed) :: steps => do
    let item ← kind.take passed
    let items ← takeAll steps
    return item :: items

/-- What is left of an item in the answer. -/
def Item.unless (item : Item) (passed : Bool) : Option Item := if passed then none else some item

variable {limit : Nat}

theorem Kind.take_takes (kind : Kind) {value : kind.Value} (fits : kind.Fits limit value)
    (passed : Bool) :
    Reader.Takes (kind.take passed) limit (kind.write value)
      (Item.unless ⟨kind, kind.received value⟩ passed) := by
  cases passed with
  | true =>
    have skipped := (Reader.skip_accepts kind.wireType).takes (kind.isValue_write fits)
    exact Reader.Takes.bindPure skipped rfl
  | false => exact Reader.Takes.bindPure (kind.read_takes fits) rfl

theorem takeAll_takes {items : List Item} (fits : ∀ item ∈ items, item.Fits limit)
    {plan : List Bool} (planned : plan.length = items.length) :
    Reader.Takes (takeAll ((items.map Item.kind).zip plan)) limit (items.flatMap Item.write)
      (List.zipWith Item.unless (items.map Item.received) plan) := by
  induction items generalizing plan with
  | nil => exact Reader.Takes.nothing limit []
  | cons item items ih =>
    obtain ⟨passed, plan, rfl⟩ := List.exists_cons_of_length_eq_add_one planned
    have first := item.kind.take_takes (fits item List.mem_cons_self) passed
    have rest := ih (fun other member => fits other (List.mem_cons_of_mem _ member))
      (Nat.succ.inj planned)
    exact first.bind (rest.bindPure rfl)

/-- A script is read back as it was written, up to its end, and what is passed over on the way makes
no difference to the rest.  On every buffer, passing over a value of a wire type succeeds exactly if
reading a raw value succeeds, with the same cursor, and fails with the same error. -/
theorem reads_what_was_written :
    (∀ limit (items : List Item), (∀ item ∈ items, item.Fits limit) →
      ∃ received, List.Forall₂ Item.Same items received ∧
        ∀ plan : List Bool, plan.length = items.length →
          takeAll ((items.map Item.kind).zip plan)
              (Cursor.ofBytes (items.flatMap Item.write) limit) =
            .ok (List.zipWith Item.unless received plan)
              ⟨[], (items.flatMap Item.write).length, limit⟩) ∧
    ∀ wireType cursor after,
      (Reader.skip wireType cursor = .ok () after ↔
        ∃ value, Reader.raw wireType cursor = .ok value after) ∧
      ∀ error, Reader.skip wireType cursor = .error error after ↔
        Reader.raw wireType cursor = .error error after := by
  refine ⟨?script, ?skip⟩
  case script =>
    intro limit items fits
    refine ⟨items.map Item.received, ?_, fun plan planned => ?_⟩
    · rw [List.forall₂_map_right_iff, List.forall₂_same]
      exact fun item _ => item.same_received
    · have taken := takeAll_takes fits planned [] 0
      rwa [List.append_nil, Nat.zero_add] at taken
  case skip =>
    intro wireType cursor after
    rw [Reader.skip_eq_raw]
    refine ⟨⟨?_, ?_⟩, fun error => ⟨?_, ?_⟩⟩
    · intro skipped
      obtain ⟨value, middle, read, returned⟩ := (bind_eq_ok_iff _ _ _ _ _).mp skipped
      obtain ⟨_, rfl⟩ := (pure_eq_ok_iff _ _ _ _).mp returned
      exact ⟨value, read⟩
    · rintro ⟨value, read⟩
      rw [bind_of_ok read]
      rfl
    · intro skipped
      rcases (bind_eq_error_iff _ _ _ _ _).mp skipped with failed | ⟨_, _, _, returned⟩
      · exact failed
      · cases returned
    · intro failed
      exact bind_of_error failed

/-- A value of every kind, a text that is no string and an object with a tag that is too long among
them, of which a number and two spans are passed over. -/
theorem reads_what_was_written_example :
    let least : Integer .long := ⟨-9223372036854775808, by decide, by decide⟩
    let items : List Item := [⟨.word, (300 : UInt64)⟩, ⟨.long, least⟩, ⟨.bool, true⟩,
      ⟨.binary32, ⟨0x7fc00001⟩⟩, ⟨.binary64, ⟨0x8000000000000000⟩⟩, ⟨.blob, ([1, 2] : Bytes)⟩,
      ⟨.string, "a"⟩, ⟨.text, Text.ofWire [0xff]⟩, ⟨.object, ([0x84, 0x00, 0x07] : Bytes)⟩]
    let plan : List Bool := [false, true, false, false, false, true, false, false, true]
    (∀ item ∈ items, item.Fits 2) ∧ plan.length = items.length ∧
      ∃ received, List.Forall₂ Item.Same items received ∧
        takeAll ((items.map Item.kind).zip plan)
            (Cursor.ofBytes (items.flatMap Item.write) 2) =
          .ok (List.zipWith Item.unless received plan) ⟨[], 35, 2⟩ := by
  intro least items plan
  have object : WireType.list.IsValue 2 [0x84, 0x00, 0x07] :=
    ⟨[0x84, 0x00], [0x07], rfl, 4, rfl, rfl, rfl, by decide⟩
  have fits : ∀ item ∈ items, item.Fits 2 := by
    simp only [items, List.forall_mem_cons]
    exact ⟨trivial, trivial, trivial, trivial, trivial, ⟨by decide, by decide⟩,
      ⟨by decide, by decide⟩, ⟨by decide, by decide⟩, object, by simp⟩
  obtain ⟨script, _⟩ := reads_what_was_written
  obtain ⟨received, same, back⟩ := script 2 items fits
  have length : (items.flatMap Item.write).length = 35 := by decide
  refine ⟨fits, rfl, received, same, ?_⟩
  rw [back plan rfl, length]

end Script

end FieldWire
