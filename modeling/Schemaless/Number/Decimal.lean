import Schemaless.Number.Binary64

/-!
# Decimal numerals

A decimal numeral is a sign, a whole number of digits and a power of ten. `Decimal.toBinary64?`
rounds it once, to the nearest binary64 number, a tie going to the even place.
-/

namespace Schemaless

/-- The number `±digits · 10 ^ exponent`. -/
structure Decimal where
  negative : Bool
  digits : Nat
  exponent : Int
deriving DecidableEq

/-- The value of a decimal digit. -/
def digitValue (c : Char) : Nat := c.toNat - '0'.toNat

/-- The number that a list of decimal digits writes. -/
def ofDigits (cs : List Char) : Nat := cs.foldl (fun n c => 10 * n + digitValue c) 0

/-- The decimal digits of a number, most significant first. -/
def toDigits (n : Nat) : List Char := Nat.toDigits 10 n

/-- Splits the leading decimal digits off. -/
def spanDigits (cs : List Char) : List Char × List Char :=
  (cs.takeWhile Char.isDigit, cs.dropWhile Char.isDigit)

/-- A sign, if one stands in front: whether it is a minus, and the rest. -/
def spanSign : List Char → Bool × List Char
  | '-' :: r => (true, r)
  | '+' :: r => (false, r)
  | r => (false, r)

namespace Decimal

/-- The `k`-th power of ten. -/
def power (k : Nat) : Nat := Nat.pow 10 k

/-- The place nearest to `digits · 10 ^ exponent`. Numerals far outside the range of the format are
decided by their length alone. -/
def place (digits : Nat) (exponent : Int) : Nat :=
  if digits = 0 then 0
  else
    let length : Int := (toDigits digits).length
    if 310 < length + exponent then beyondFinite
    else if length + exponent < -330 then 0
    else if 0 ≤ exponent then nearestPlace (digits * power exponent.toNat) 1
    else nearestPlace digits (power (-exponent).toNat)

/-- The nearest binary64 number; `none` beyond the largest finite one. -/
def toBinary64? (d : Decimal) : Option Binary64 :=
  Binary64.ofPlace? d.negative (place d.digits d.exponent)

/-- The exponent part `e±digits` at the end of a numeral; zero where there is none. -/
def exponentPart? : List Char → Option Int
  | [] => some 0
  | e :: r =>
    if e = 'e' ∨ e = 'E' then
      let (minus, r) := spanSign r
      let (ds, rest) := spanDigits r
      if ds.isEmpty || !rest.isEmpty then none
      else some (if minus then -(ofDigits ds : Int) else ofDigits ds)
    else none

/-- Reads a numeral: an optional sign, digits with an optional point among or around them, and an
optional exponent. -/
def parse? (cs : List Char) : Option Decimal :=
  let (minus, cs) := spanSign cs
  let (whole, cs) := spanDigits cs
  let (fraction, cs) :=
    match cs with
    | '.' :: r => spanDigits r
    | _ => ([], cs)
  if whole.isEmpty && fraction.isEmpty then none
  else
    (exponentPart? cs).map fun e => ⟨minus, ofDigits (whole ++ fraction), e - fraction.length⟩

end Decimal

/-- Whether a whole number fits 64 bits with a sign. -/
def fitsInt64 (n : Int) : Bool := -0x8000000000000000 ≤ n && n < 0x8000000000000000

/-- Reads a whole number: an optional sign and digits. -/
def parseWhole? (cs : List Char) : Option Int :=
  let (minus, cs) := spanSign cs
  if cs.isEmpty || !cs.all Char.isDigit then none
  else some (if minus then -(ofDigits cs : Int) else ofDigits cs)

end Schemaless
