import FieldWire.Record.Catalog
import FieldWire.Schema

/-!
# Names of schemas

How a schema is written: `int_list`, `string_map`, `framework_error`, a table of the catalogue such
as `sample`, and `list<…>`, `map<…>` and `optional<…>` around the name of another schema.
-/

set_option autoImplicit false

namespace FieldWire

/-- The kind of plain elements with a name. -/
def ElementKind.plain? (name : String) : Option ElementKind :=
  match name with
  | "bool" => some .bool
  | "byte" => some (.integer .byte)
  | "short" => some (.integer .short)
  | "int" => some (.integer .int)
  | "long" => some (.integer .long)
  | "float" => some .float
  | "double" => some .double
  | "string" => some .text
  | _ => none

namespace Schema

/-- The collection of plain elements with a name. -/
def plainCollection? (name : String) : Option Schema :=
  match name.splitOn "_" with
  | [element, "list"] => (ElementKind.plain? element).map .sequence
  | [element, "map"] => (ElementKind.plain? element).map .dictionary
  | _ => none

/-- The schema with a name that does not contain another. -/
def simple? (name : String) : Option Schema :=
  match name with
  | "framework_error" => some .frameworkError
  | "error_envelope" => some .errorEnvelope
  | "signed_chunk" => some .signedChunk
  | "sample" => some (.record Record.Catalog.sample)
  | "reading" => some (.record Record.Catalog.reading)
  | "wide" => some (.record Record.Catalog.wide)
  | "bare" => some (.record Record.Catalog.bare)
  | "tree" => some .tree
  | _ => plainCollection? name

/-- What stands between an opening word and the bracket that closes it. -/
def inside? (opening : String) (name : List Char) : Option (List Char) :=
  let word := opening.toList
  if word.isPrefixOf name && name.getLast? == some '>' then
    some ((name.drop word.length).dropLast)
  else none

/-- The schema with a name, nested no deeper than `fuel`. -/
def ofChars? : Nat → List Char → Option Schema
  | 0, _ => none
  | fuel + 1, name =>
    match inside? "list<" name, inside? "map<" name, inside? "optional<" name with
    | some element, _, _ => (ofChars? fuel element).map (.sequence <| .object ·)
    | none, some element, _ => (ofChars? fuel element).map (.dictionary <| .object ·)
    | none, none, some item => (ofChars? fuel item).map .optional
    | none, none, none => simple? (String.ofList name)

/-- The schema with a name. -/
def ofName? (name : String) : Option Schema := ofChars? (name.length + 1) name.toList

end Schema

/-- The kind of elements with a name: that of plain elements, or the name of a schema. -/
def ElementKind.ofName? (name : String) : Option ElementKind :=
  ElementKind.plain? name <|> (Schema.ofName? name).map .object

end FieldWire
