import FieldWire.Bytes

/-!
# Hexadecimal texts

Bytes and words as hexadecimal digits, two for a byte, in lower case.
-/

set_option autoImplicit false

namespace FieldWire.Hex

/-- The digit of a number below 16. -/
def digit (value : Nat) : Char :=
  if value < 10 then Char.ofNat (48 + value) else Char.ofNat (87 + value)

/-- The value of a digit. -/
def value? (c : Char) : Option Nat :=
  if '0' ≤ c ∧ c ≤ '9' then some (c.toNat - 48)
  else if 'a' ≤ c ∧ c ≤ 'f' then some (c.toNat - 87)
  else none

/-- The digits of some bytes. -/
def digits (bytes : Bytes) : List Char :=
  bytes.flatMap fun byte => [digit (byte.toNat / 16), digit (byte.toNat % 16)]

/-- The bytes of some digits, of which there must be an even number. -/
def bytes? : List Char → Option Bytes
  | [] => some []
  | [_] => none
  | high :: low :: rest => do
    let byte := UInt8.ofNat ((← value? high) * 16 + (← value? low))
    return byte :: (← bytes? rest)

/-- The text of some bytes. -/
def encode (bytes : Bytes) : String := String.ofList (digits bytes)

/-- The bytes of a text. -/
def decode? (text : String) : Option Bytes := bytes? text.toList

end FieldWire.Hex
