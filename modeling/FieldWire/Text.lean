import FieldWire.Varint
import FieldWire.LengthTag

/-!
# Texts

A text read from the wire is kept as it stands and is not checked; whether it is UTF-8 is asked when
a string is wanted.  A text remembers whether it has been converted, and that is all that tells a
text made from a string from one read from the wire: two texts are the same when their bytes are.
-/

set_option autoImplicit false

namespace FieldWire

/-- A string field. -/
structure Text where
  /-- What stands on the wire. -/
  bytes : Bytes
  /-- Whether the bytes are known to be a string, because they came from one or gave one. -/
  converted : Bool
deriving DecidableEq, Repr

namespace Text

/-- A text read from the wire. -/
def ofWire (bytes : Bytes) : Text := ⟨bytes, false⟩

/-- The UTF-8 bytes of a string. -/
def utf8 (string : String) : Bytes := string.toByteArray.data.toList

/-- A text made from a string. -/
def ofString (string : String) : Text := ⟨utf8 string, true⟩

/-- The empty text. -/
def empty : Text := ⟨[], true⟩

/-- The string whose UTF-8 bytes are the given ones. -/
def decode? (bytes : Bytes) : Option String := String.fromUTF8? ⟨bytes.toArray⟩

/-- The string, if the bytes are UTF-8. -/
def string? (text : Text) : Option String := decode? text.bytes

/-- The string, or the error of a text that is none. -/
def read (text : Text) : Except CodecError String :=
  match text.string? with
  | some string => .ok string
  | none => .error .invalidUtf8

/-- The text after its string was asked for: a successful conversion is remembered. -/
def touch (text : Text) : Text := ⟨text.bytes, text.converted || text.string?.isSome⟩

/-- Whether the text still waits for its first conversion. -/
def isRaw (text : Text) : Bool := !text.converted

/-- The number of bytes. -/
def length (text : Text) : Nat := text.bytes.length

/-- Whether there are no bytes. -/
def isEmpty (text : Text) : Bool := text.bytes.isEmpty

/-- The bytes that the text takes on the wire, its length tag included. -/
def encodedSize (text : Text) : Nat := LengthTag.spanSize text.length

/-- Whether two texts have the same bytes. -/
def same (left right : Text) : Bool := left.bytes == right.bytes

theorem same_iff (left right : Text) : left.same right = true ↔ left.bytes = right.bytes := by
  simp [same]

theorem decode?_utf8 (string : String) : decode? (utf8 string) = some string := by
  have whole : (⟨(utf8 string).toArray⟩ : ByteArray) = string.toByteArray := by
    simp [utf8]
  simp [decode?, whole, String.fromUTF8?, string.isValidUTF8, String.fromUTF8]

theorem utf8_injective : Function.Injective utf8 := by
  intro left right same
  have decoded := decode?_utf8 left
  rw [same, decode?_utf8] at decoded
  exact (Option.some.inj decoded).symm

theorem utf8_of_decode? {bytes : Bytes} {string : String} (decoded : decode? bytes = some string) :
    utf8 string = bytes := by
  rw [decode?, String.fromUTF8?] at decoded
  split at decoded
  · cases decoded
    simp [utf8, String.fromUTF8]
  · cases decoded

theorem read_eq_ok_iff {text : Text} {string : String} :
    text.read = .ok string ↔ utf8 string = text.bytes := by
  rw [read, string?]
  constructor
  · intro decoded
    split at decoded
    · cases decoded
      exact utf8_of_decode? ‹_›
    · cases decoded
  · intro same
    rw [← same, decode?_utf8]

end Text

end FieldWire
