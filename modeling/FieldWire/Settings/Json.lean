/-!
# JSON texts

A strict reader of JSON.  It keeps what settings need to know about a value: of a number, the
natural number that it is if it has no sign, point or exponent; of a string, its characters, unless
escapes in it stand for half of a surrogate pair.
-/

set_option autoImplicit false

namespace FieldWire.Settings

/-- A JSON value. -/
inductive Json where
  | null
  | bool (value : Bool)
  /-- A number, and its value if it is written as a natural number. -/
  | number (natural? : Option Nat)
  /-- A string, and its characters if they are proper. -/
  | string (string? : Option String)
  | array (items : List Json)
  | object (members : List (Option String × Json))

namespace Json

/-- The characters that may stand between tokens. -/
def isBlank (c : Char) : Bool := c = ' ' || c = '\n' || c = '\t' || c = '\r'

/-- What is left after the blanks at the front. -/
def skipBlanks (chars : List Char) : List Char := chars.dropWhile isBlank

/-- The value of a hexadecimal digit. -/
def hexDigit? (c : Char) : Option Nat :=
  if '0' ≤ c ∧ c ≤ '9' then some (c.toNat - 48)
  else if 'a' ≤ c ∧ c ≤ 'f' then some (c.toNat - 87)
  else if 'A' ≤ c ∧ c ≤ 'F' then some (c.toNat - 55)
  else none

/-- The value of four hexadecimal digits. -/
def hexUnit? (a b c d : Char) : Option Nat := do
  return ((← hexDigit? a) * 16 + (← hexDigit? b)) * 256 + (← hexDigit? c) * 16 + (← hexDigit? d)

/-- The character that a short escape stands for. -/
def shortEscape? (c : Char) : Option Char :=
  match c with
  | '"' => some '"'
  | '\\' => some '\\'
  | '/' => some '/'
  | 'b' => some '\x08'
  | 'f' => some '\x0c'
  | 'n' => some '\n'
  | 'r' => some '\r'
  | 't' => some '\t'
  | _ => none

/-- The numbers of the characters of a string up to its closing quote, and what follows.  An escape
with four digits gives one number, even if that is half of a surrogate pair. -/
def units? : List Char → Option (List Nat × List Char)
  | [] => none
  | '"' :: rest => some ([], rest)
  | '\\' :: 'u' :: a :: b :: c :: d :: rest => do
    let unit ← hexUnit? a b c d
    let (units, rest) ← units? rest
    return (unit :: units, rest)
  | '\\' :: c :: rest => do
    let escaped ← shortEscape? c
    let (units, rest) ← units? rest
    return (escaped.toNat :: units, rest)
  | c :: rest => do
    if c = '\\' ∨ c.toNat < 0x20 then none
    else
      let (units, rest) ← units? rest
      return (c.toNat :: units, rest)

/-- The characters of a string.  Halves of surrogate pairs must come as pairs. -/
def characters? : List Nat → Option (List Char)
  | [] => some []
  | [unit] => if 0xd800 ≤ unit ∧ unit < 0xe000 then none else some [Char.ofNat unit]
  | unit :: next :: rest =>
    if 0xd800 ≤ unit ∧ unit < 0xdc00 then
      if 0xdc00 ≤ next ∧ next < 0xe000 then
        (characters? rest).map
          (Char.ofNat (0x10000 + (unit - 0xd800) * 0x400 + (next - 0xdc00)) :: ·)
      else none
    else if 0xdc00 ≤ unit ∧ unit < 0xe000 then none
    else (characters? (next :: rest)).map (Char.ofNat unit :: ·)

/-- A string after its opening quote, and what follows. -/
def string? (chars : List Char) : Option (Option String × List Char) := do
  let (units, rest) ← units? chars
  return ((characters? units).map String.ofList, rest)

/-- One digit or more, and what follows. -/
def digits? (chars : List Char) : Option (List Char × List Char) :=
  match chars.span Char.isDigit with
  | ([], _) => none
  | (digits, rest) => some (digits, rest)

/-- The number that decimal digits make. -/
def valueOf (digits : List Char) : Nat :=
  digits.foldl (fun value digit => value * 10 + (digit.toNat - 48)) 0

/-- The digits before the point: a zero, or digits of which the first is none. -/
def whole? (chars : List Char) : Option (Nat × List Char) :=
  match chars with
  | '0' :: rest =>
    match rest with
    | c :: _ => if c.isDigit then none else some (0, rest)
    | [] => some (0, rest)
  | _ => (digits? chars).map fun (digits, rest) => (valueOf digits, rest)

/-- The point and the digits after it, if there is a point.  The answer says whether there was. -/
def fraction? (chars : List Char) : Option (Bool × List Char) :=
  match chars with
  | '.' :: rest => (digits? rest).map fun (_, rest) => (true, rest)
  | _ => some (false, chars)

/-- The exponent, if there is one.  The answer says whether there was. -/
def exponent? (chars : List Char) : Option (Bool × List Char) :=
  match chars with
  | c :: rest =>
    if c = 'e' ∨ c = 'E' then
      let unsigned := match rest with
        | '+' :: rest => rest
        | '-' :: rest => rest
        | _ => rest
      (digits? unsigned).map fun (_, rest) => (true, rest)
    else some (false, chars)
  | [] => some (false, chars)

/-- A number, and what follows. -/
def number? (chars : List Char) : Option (Json × List Char) := do
  let (signed, unsigned) := match chars with
    | '-' :: rest => (true, rest)
    | _ => (false, chars)
  let (value, rest) ← whole? unsigned
  let (pointed, rest) ← fraction? rest
  let (scaled, rest) ← exponent? rest
  return (.number (if signed || pointed || scaled then none else some value), rest)

mutual

/-- A value, and what follows.  Every step down takes a character, so that the number of characters
is fuel enough. -/
def value? : Nat → List Char → Option (Json × List Char)
  | 0, _ => none
  | fuel + 1, chars =>
    match skipBlanks chars with
    | '\x7b' :: rest =>
      match skipBlanks rest with
      | '\x7d' :: rest => some (.object [], rest)
      | rest => (members? fuel rest).map fun (members, rest) => (.object members, rest)
    | '[' :: rest =>
      match skipBlanks rest with
      | ']' :: rest => some (.array [], rest)
      | rest => (items? fuel rest).map fun (items, rest) => (.array items, rest)
    | '"' :: rest => (string? rest).map fun (content, rest) => (.string content, rest)
    | 'n' :: 'u' :: 'l' :: 'l' :: rest => some (.null, rest)
    | 't' :: 'r' :: 'u' :: 'e' :: rest => some (.bool true, rest)
    | 'f' :: 'a' :: 'l' :: 's' :: 'e' :: rest => some (.bool false, rest)
    | rest => number? rest

/-- One member or more up to the closing brace, and what follows. -/
def members? : Nat → List Char → Option (List (Option String × Json) × List Char)
  | 0, _ => none
  | fuel + 1, chars => do
    match skipBlanks chars with
    | '"' :: rest =>
      let (key, rest) ← string? rest
      match skipBlanks rest with
      | ':' :: rest =>
        let (value, rest) ← value? fuel rest
        match skipBlanks rest with
        | ',' :: rest =>
          let (members, rest) ← members? fuel rest
          some ((key, value) :: members, rest)
        | '\x7d' :: rest => some ([(key, value)], rest)
        | _ => none
      | _ => none
    | _ => none

/-- One item or more up to the closing bracket, and what follows. -/
def items? : Nat → List Char → Option (List Json × List Char)
  | 0, _ => none
  | fuel + 1, chars => do
    let (value, rest) ← value? fuel chars
    match skipBlanks rest with
    | ',' :: rest =>
      let (items, rest) ← items? fuel rest
      some (value :: items, rest)
    | ']' :: rest => some ([value], rest)
    | _ => none

end

/-- The value that a whole text stands for. -/
def ofString? (text : String) : Option Json := do
  let chars := text.toList
  let (value, rest) ← value? (chars.length + 1) chars
  if (skipBlanks rest).isEmpty then some value else none

end Json

end FieldWire.Settings
