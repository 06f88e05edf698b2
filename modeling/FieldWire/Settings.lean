import FieldWire.Cursor
import FieldWire.Settings.Json

/-!
# Settings

The limit for decoding and the settings for splitting a stream, each with its defaults, and how they
are read from JSON.  An object may leave out any field and may have others, which mean nothing; a
field may not come twice.  An array gives the fields in their order and may stop early.
-/

set_option autoImplicit false

namespace FieldWire

/-- The limit for decoding. -/
structure CodecSettings where
  /-- The largest envelope, span or collection that is read. -/
  maxPayloadSize : Nat := defaultPayloadLimit
deriving DecidableEq, Repr

/-- The settings for splitting the first message off a stream. -/
structure StreamSettings where
  /-- Whether the first message is put together from its chunks; if not, the first chunk is taken
  for it. -/
  bufferInitialMessage : Bool := true
  /-- The largest first message that is put together: 16 mebibytes. -/
  maxInitialMessageSize : Nat := 16777216
  /-- The number of events that may be sent before any are asked for. -/
  initialCredit : Nat := 16
deriving DecidableEq, Repr

namespace Settings

/-- A field of some settings: its name, and how a value is stored in it. -/
structure Field (σ : Type) where
  /-- The name. -/
  name : String
  /-- Stores a value, if it is of the right kind. -/
  store : Json → σ → Option σ

/-- A field that holds a 64-bit size. -/
def sizeField {σ : Type} (name : String) (put : Nat → σ → σ) : Field σ where
  name := name
  store value settings :=
    match value with
    | .number (some size) => if size < UInt64.size then some (put size settings) else none
    | _ => none

/-- A field that holds a truth value. -/
def boolField {σ : Type} (name : String) (put : Bool → σ → σ) : Field σ where
  name := name
  store value settings :=
    match value with
    | .bool flag => some (put flag settings)
    | _ => none

/-- Stores the members of an object.  `seen` are the names of the fields stored before. -/
def storeMembers {σ : Type} (fields : List (Field σ)) (seen : List String) :
    List (Option String × Json) → σ → Option σ
  | [], settings => some settings
  | (none, _) :: _, _ => none
  | (some key, value) :: rest, settings =>
    match fields.find? fun field => field.name == key with
    | none => storeMembers fields seen rest settings
    | some field =>
      if seen.contains key then none
      else do storeMembers fields (key :: seen) rest (← field.store value settings)

/-- Stores the items of an array in the fields in their order. -/
def storeItems {σ : Type} : List (Field σ) → List Json → σ → Option σ
  | _, [], settings => some settings
  | [], _ :: _, _ => none
  | field :: fields, item :: items, settings => do
    storeItems fields items (← field.store item settings)

/-- The settings that a JSON text stands for; what it leaves out is as in `defaults`. -/
def read? {σ : Type} (fields : List (Field σ)) (defaults : σ) (text : String) : Option σ := do
  match ← Json.ofString? text with
  | .object members => storeMembers fields [] members defaults
  | .array items => storeItems fields items defaults
  | _ => none

end Settings

/-- Reads the limit for decoding from JSON. -/
def CodecSettings.ofJson? (text : String) : Option CodecSettings :=
  Settings.read?
    [Settings.sizeField "max_payload_size" fun size settings =>
      { settings with maxPayloadSize := size }]
    {} text

/-- Reads the settings for splitting a stream from JSON. -/
def StreamSettings.ofJson? (text : String) : Option StreamSettings :=
  Settings.read?
    [Settings.boolField "buffer_initial_message" fun flag settings =>
        { settings with bufferInitialMessage := flag },
      Settings.sizeField "max_initial_message_size" fun size settings =>
        { settings with maxInitialMessageSize := size },
      Settings.sizeField "initial_credit" fun size settings =>
        { settings with initialCredit := size }]
    {} text

end FieldWire
