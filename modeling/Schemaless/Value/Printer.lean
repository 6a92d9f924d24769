import Schemaless.Value.Basic

/-!
# Written values

Values are written as JSON without blanks. A text escapes the quote, the backslash and the control
characters; every other character stands for itself. `asciiOnly` turns such a text into one of
ASCII characters, writing each UTF-16 unit from `0x7f` on as `\u` and four digits.
-/

namespace Schemaless

namespace Value

/-- A number below `2 ^ 16` as four lower-case hexadecimal digits. -/
def hex4 (n : Nat) : List Char :=
  let ds := Nat.toDigits 16 n
  List.replicate (4 - ds.length) '0' ++ ds

/-- A UTF-16 unit as an escape. -/
def unitEscape (n : Nat) : List Char := '\\' :: 'u' :: hex4 n

/-- One character of a text. -/
def escapedChar (c : Char) : List Char :=
  if c = '"' then ['\\', '"']
  else if c = '\\' then ['\\', '\\']
  else if c = '\n' then ['\\', 'n']
  else if c = '\r' then ['\\', 'r']
  else if c = '\t' then ['\\', 't']
  else if c = Char.ofNat 8 then ['\\', 'b']
  else if c = Char.ofNat 12 then ['\\', 'f']
  else if c.toNat < 0x20 then unitEscape c.toNat
  else [c]

/-- A text between double quotes. -/
def writtenText (s : String) : List Char := '"' :: (s.toList.flatMap escapedChar ++ ['"'])

/-- The brace that opens an object. -/
def openBrace : Char := Char.ofNat 0x7B

/-- The brace that closes an object. -/
def closeBrace : Char := Char.ofNat 0x7D

mutual

/-- The characters of a written value. -/
def written : Value → List Char
  | .null => ['n', 'u', 'l', 'l']
  | .bool true => ['t', 'r', 'u', 'e']
  | .bool false => ['f', 'a', 'l', 's', 'e']
  | .num n => n.render
  | .str s => writtenText s
  | .arr [] => ['[', ']']
  | .arr (v :: rest) => '[' :: (written v ++ writtenItems rest)
  | .obj [] => [openBrace, closeBrace]
  | .obj (f :: rest) => openBrace :: (writtenField f ++ writtenFields rest)
termination_by structural v => v

/-- The items after the first, and the bracket that ends the list. -/
def writtenItems : List Value → List Char
  | [] => [']']
  | v :: rest => ',' :: (written v ++ writtenItems rest)

/-- The fields after the first, and the brace that ends the object. -/
def writtenFields : List (String × Value) → List Char
  | [] => [closeBrace]
  | f :: rest => ',' :: (writtenField f ++ writtenFields rest)

/-- One field. -/
def writtenField : String × Value → List Char
  | (name, v) => writtenText name ++ ':' :: written v

end

/-- The text of a value. -/
def render (v : Value) : String := String.ofList v.written

/-- The UTF-16 units of a character. -/
def units16 (c : Char) : List Nat :=
  let n := c.toNat
  if n < 0x10000 then [n] else [0xD800 + (n - 0x10000) / 0x400, 0xDC00 + (n - 0x10000) % 0x400]

/-- Replaces the characters from `0x7f` on by escapes. -/
def asciiOnly (s : String) : String :=
  String.ofList (s.toList.flatMap fun c =>
    if c.toNat < 0x7F then [c] else (units16 c).flatMap unitEscape)

/-- The text of a value in ASCII characters. -/
def renderAscii (v : Value) : String := asciiOnly v.render

end Value

end Schemaless
