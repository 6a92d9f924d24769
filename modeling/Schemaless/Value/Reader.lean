import Schemaless.Value.Printer
import Schemaless.Text.Reader

/-!
# Reading values

`Value.parse?` reads JSON. Names of an object may repeat, the last one counts; lists and objects
nest less than 128 deep. A number without point and exponent that fits 64 bits, signed or unsigned,
is whole. Any other is read in two roundings: its leading digits are gathered while they fit 64
bits, the number they make is rounded to binary64, and the power of ten that is left is applied to
it as a binary64 multiplication or division.
-/

namespace Schemaless

namespace Value

/-! ## Numbers -/

/-- The product or quotient of two magnitudes, rounded. -/
def scaled (place : Nat) (power : Nat) (divide : Bool) : Nat :=
  let (n, d) := magnitudeAt place
  let (n', d') := magnitudeAt (nearestPlace (Decimal.power power) 1)
  if divide then nearestPlace (n * d') (d * n') else nearestPlace (n * n') (d * d')

/-- `digits · 10 ^ exponent` in two roundings, in steps of at most `10 ^ 308`. -/
def twiceRounded (digits : Nat) (exponent : Int) : Nat :=
  let start := nearestPlace digits 1
  if digits = 0 then 0
  else if 308 < exponent then beyondFinite
  else if 0 ≤ exponent then scaled start exponent.toNat false
  else if -308 ≤ exponent then scaled start (-exponent).toNat true
  else if -616 ≤ exponent then scaled (scaled start 308 true) (-exponent - 308).toNat true
  else 0

/-- Whether one more digit keeps a number below `2 ^ 64`. -/
def fits64 (n : Nat) (c : Char) : Bool := 10 * n + digitValue c < 0x10000000000000000

/-- Gathers whole digits while they fit 64 bits, counting the ones that are left out. -/
def gatherWhole (n : Nat) : List Char → Nat × Nat
  | [] => (n, 0)
  | c :: r => if fits64 n c then gatherWhole (10 * n + digitValue c) r else (n, (c :: r).length)

/-- Gathers digits after the point while they fit 64 bits, counting the ones taken. -/
def gatherFraction (n taken : Nat) : List Char → Nat × Nat
  | [] => (n, taken)
  | c :: r =>
    if fits64 n c then gatherFraction (10 * n + digitValue c) (taken + 1) r else (n, taken)

/-- The number of a numeral in its three parts; `none` if it is beyond the finite numbers. -/
def numberOf? (minus : Bool) (whole : List Char) (fraction : Option (List Char))
    (exponent : Option Int) : Option Number :=
  let n := ofDigits whole
  match fraction, exponent with
  | none, none =>
    if minus then
      if n = 0 then some (.float ⟨true, 0, by decide⟩)
      else if fitsInt64 (-n) then some (.int (-n))
      else
        let (digits, left) := gatherWhole 0 whole
        (Binary64.ofPlace? true (twiceRounded digits left)).map .float
    else if n < 0x10000000000000000 then some (.int n)
    else
      let (digits, left) := gatherWhole 0 whole
      (Binary64.ofPlace? false (twiceRounded digits left)).map .float
  | _, _ =>
    let (digits, left) := gatherWhole 0 whole
    let (digits, taken) := gatherFraction digits 0 (fraction.getD [])
    let e : Int := left - taken + exponent.getD 0
    (Binary64.ofPlace? minus (twiceRounded digits e)).map .float

/-- The part of a numeral after its point, if there is a point. -/
def fractionPart? : List Char → Option (Option (List Char) × List Char)
  | '.' :: r =>
    let (ds, rest) := spanDigits r
    if ds.isEmpty then none else some (some ds, rest)
  | r => some (none, r)

/-- The exponent of a numeral, if it has one. -/
def exponentAfter? : List Char → Option (Option Int × List Char)
  | [] => some (none, [])
  | c :: r =>
    if c = 'e' ∨ c = 'E' then
      let (minus, r) := spanSign r
      let (ds, rest) := spanDigits r
      if ds.isEmpty then none
      else some (some (if minus then -(ofDigits ds : Int) else ofDigits ds), rest)
    else some (none, c :: r)

/-- The whole digits of a numeral: no zero stands in front of another digit. -/
def wholePart? (cs : List Char) : Option (List Char × List Char) :=
  match spanDigits cs with
  | ([], _) => none
  | ('0' :: _ :: _, _) => none
  | parts => some parts

/-- Reads a number, unless the text starts otherwise. -/
def number? (cs : List Char) : Option (Value × List Char) := do
  let (minus, r) := match cs with
    | '-' :: r => (true, r)
    | r => (false, r)
  let (whole, r) ← wholePart? r
  let (fraction, r) ← fractionPart? r
  let (exponent, r) ← exponentAfter? r
  let n ← numberOf? minus whole fraction exponent
  return (.num n, r)

/-! ## Texts -/

/-- The value of a hexadecimal digit. -/
def hexValue? (c : Char) : Option Nat :=
  if c.isDigit then some (c.toNat - '0'.toNat)
  else if 'a' ≤ c ∧ c ≤ 'f' then some (c.toNat - 'a'.toNat + 10)
  else if 'A' ≤ c ∧ c ≤ 'F' then some (c.toNat - 'A'.toNat + 10)
  else none

/-- The number that four hexadecimal digits write. -/
def unit? (a b c d : Char) : Option Nat := do
  return ((← hexValue? a) * 16 + (← hexValue? b)) * 256 + (← hexValue? c) * 16 + (← hexValue? d)

/-- The character that a letter after a backslash stands for. -/
def escaped? (c : Char) : Option Char :=
  match c with
  | '"' => some '"'
  | '\\' => some '\\'
  | '/' => some '/'
  | 'b' => some (Char.ofNat 8)
  | 'f' => some (Char.ofNat 12)
  | 'n' => some '\n'
  | 'r' => some '\r'
  | 't' => some '\t'
  | _ => none

/-- Whether a UTF-16 unit is half of a surrogate pair. -/
def isSurrogate (n : Nat) : Bool := 0xD800 ≤ n && n ≤ 0xDFFF

/-- The character of a surrogate pair. -/
def paired? (hi lo : Nat) : Option Char :=
  if 0xD800 ≤ hi ∧ hi ≤ 0xDBFF ∧ 0xDC00 ≤ lo ∧ lo ≤ 0xDFFF then
    some (Char.ofNat (0x10000 + (hi - 0xD800) * 0x400 + (lo - 0xDC00)))
  else none

/-- Reads a text after its opening quote. A pair of surrogate escapes is one character, a lone
surrogate none. -/
def text? : List Char → Option (List Char × List Char)
  | [] => none
  | '"' :: r => some ([], r)
  | '\\' :: 'u' :: a :: b :: c :: d :: r =>
    match unit? a b c d with
    | none => none
    | some n =>
      if isSurrogate n then
        match r with
        | '\\' :: 'u' :: e :: f :: g :: h :: r => do
          let lo ← unit? e f g h
          let x ← paired? n lo
          Text.prepend x (text? r)
        | _ => none
      else Text.prepend (Char.ofNat n) (text? r)
  | '\\' :: c :: r =>
    match escaped? c with
    | none => none
    | some x => Text.prepend x (text? r)
  | c :: r =>
    if c.toNat < 0x20 ∨ c = '\\' then none else Text.prepend c (text? r)
termination_by structural cs => cs

/-! ## Lists and objects -/

/-- A blank between the parts of a written value. -/
def isGap (c : Char) : Bool := c == ' ' || c == '\t' || c == '\n' || c == '\r'

/-- Drops the blanks in front. -/
def skipGap (cs : List Char) : List Char := cs.dropWhile isGap

/-- Reads the items of a list or the fields of an object up to the closing character. -/
def items {α : Type} (item : Text.Reader α) (close : Char) (limit : Nat) : Text.Reader (List α) :=
  Text.listing item skipGap close false limit

/-- Reads a name in quotes and the colon after it. -/
def fieldName? : Text.Reader String
  | '"' :: r => do
    let (name, r) ← text? r
    match skipGap r with
    | ':' :: r => some (String.ofList name, r)
    | _ => none
  | _ => none

/-- Reads a field: its name and its value. -/
def fieldOf? (value : Text.Reader Value) : Text.Reader (String × Value) := fun cs => do
  let (name, r) ← fieldName? cs
  let (v, rest) ← value r
  return ((name, v), rest)

/-- Reads a value of at most `depth` levels of lists and objects, each of at most `limit` items. -/
def parseValue? (limit depth : Nat) (cs : List Char) : Option (Value × List Char) :=
  match skipGap cs with
  | '"' :: r => (text? r).map fun (s, rest) => (.str (String.ofList s), rest)
  | 'n' :: 'u' :: 'l' :: 'l' :: r => some (.null, r)
  | 't' :: 'r' :: 'u' :: 'e' :: r => some (.bool true, r)
  | 'f' :: 'a' :: 'l' :: 's' :: 'e' :: r => some (.bool false, r)
  | '[' :: r =>
    match depth with
    | 0 => none
    | depth + 1 =>
      match skipGap r with
      | ']' :: rest => some (.arr [], rest)
      | r => (items (parseValue? limit depth) ']' limit r).map fun (vs, rest) => (.arr vs, rest)
  | c :: r =>
    if c = openBrace then
      match depth with
      | 0 => none
      | depth + 1 =>
        let r := skipGap r
        if r.head? = some closeBrace then some (.obj [], r.drop 1)
        else
          (items (fieldOf? (parseValue? limit depth)) closeBrace limit r).map fun (fields, rest) =>
            (.obj (fields.foldl (fun m f => insertEntry f.1 f.2 m) []), rest)
    else number? (c :: r)
  | [] => none

/-- The depth to which lists and objects may nest. -/
def levels : Nat := 127

/-- Reads a whole text. -/
def parse? (s : String) : Option Value :=
  let cs := s.toList
  match parseValue? cs.length levels cs with
  | some (v, rest) => if (skipGap rest).isEmpty then some v else none
  | none => none

end Value

end Schemaless
