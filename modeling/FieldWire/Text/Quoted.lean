import FieldWire.Text
import FieldWire.Text.Hidden

/-!
# Quoted texts

How a text is shown in diagnostics: between double quotes, with a backslash before a quote or a
backslash, short forms for the usual controls, and the code point in braces for every other
character that does not show.  Bytes that are no string are listed as numbers.
-/

set_option autoImplicit false

namespace FieldWire.Text.Quoted

/-- One character inside the quotes. -/
def escape (c : Char) : List Char :=
  if c = '"' then ['\\', '"']
  else if c = '\\' then ['\\', '\\']
  else if c = '\n' then ['\\', 'n']
  else if c = '\t' then ['\\', 't']
  else if c = '\r' then ['\\', 'r']
  else if c = '\x00' then ['\\', '0']
  else if Hidden.isHidden c then
    '\\' :: 'u' :: '\x7b' :: (Nat.toDigits 16 c.toNat ++ ['\x7d'])
  else [c]

/-- A string between quotes. -/
def quote (string : String) : String :=
  String.ofList ('"' :: (string.toList.flatMap escape ++ ['"']))

/-- A text as diagnostics show it. -/
def render (text : Text) : String :=
  match text.string? with
  | some string => quote string
  | none =>
    "Text([" ++ String.intercalate ", " (text.bytes.map fun byte => toString byte.toNat) ++ "])"

end FieldWire.Text.Quoted
