import FieldWire.Schema
import FieldWire.Text.Quoted

/-!
# Diagnostic texts

How objects are shown to a person who looks for a mistake: sequences in brackets, dictionaries in
braces, texts in quotes, and a deferred object that has not been decoded by the number of its bytes.
Floating-point numbers, records and the messages other than optional payloads have no such text.
-/

set_option autoImplicit false

namespace FieldWire

/-- The given texts with a comma and a blank between them. -/
def commaSeparated (texts : List String) : String := String.intercalate ", " texts

/-- The text of a deferred object, given that of its object. -/
def Deferred.describe? {σ : Type} (describe : σ → Option String) : Deferred σ → Option String
  | .raw bytes => some s!"Lazy(<{bytes.length} raw bytes>)"
  | .decoded _ object => (describe object).map fun text => "Lazy(" ++ text ++ ")"
  | .owned object => (describe object).map fun text => "Lazy(" ++ text ++ ")"

/-- The text of an optional payload, given that of its object.  It shows the payload last set or
read. -/
def Optional.describe? {σ : Type} (describe : σ → Option String) (wrapper : Optional σ) :
    Option String :=
  let inside (item : String) : String := "OptionalObject \x7b item: " ++ item ++ " \x7d"
  match wrapper.fields.item with
  | some item => (item.describe? describe).map fun text => inside ("Some(" ++ text ++ ")")
  | none => some (inside "None")

mutual

/-- The text of an object. -/
def Schema.describe? : (schema : Schema) → schema.Carrier → Option String
  | .sequence element, (sequence : Sequence element.Carrier) => do
    let texts ← sequence.items.mapM element.describe?
    return "[" ++ commaSeparated texts ++ "]"
  | .dictionary element, (dictionary : Dictionary element.Carrier) => do
    let texts ← dictionary.entries.mapM fun entry => do
      let value ← element.describe? entry.2
      return Text.Quoted.render entry.1 ++ ": " ++ value
    return "\x7b" ++ commaSeparated texts ++ "\x7d"
  | .optional item, (wrapper : Optional item.Carrier) => wrapper.describe? item.describe?
  | .frameworkError, _ => none
  | .errorEnvelope, _ => none
  | .signedChunk, _ => none
  | .record _, _ => none
  | .tree, _ => none

/-- The text of an element. -/
def ElementKind.describe? : (kind : ElementKind) → kind.Carrier → Option String
  | .bool, (value : Bool) => some (if value then "true" else "false")
  | .integer _, (value : Integer _) => some (toString value.val)
  | .text, (value : Text) => some (Text.Quoted.render value)
  | .float, _ => none
  | .double, _ => none
  | .object schema, value => schema.describe? value

end

end FieldWire
