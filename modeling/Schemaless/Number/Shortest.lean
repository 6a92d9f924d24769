import Schemaless.Number.Decimal

/-!
# Shortest decimals

A binary64 number is written with the fewest digits that read back as the same number, and of
those with the digits nearest to it. For one digit, two digits and so on the two neighbours of the
number on the decimal grid of that length are tried; the first length with a neighbour that reads
back wins.
-/

namespace Schemaless.Shortest

/-- Whether `10 ^ k ≤ num / den`. -/
def powerAtMost (k : Int) (num den : Nat) : Bool :=
  if 0 ≤ k then den * Decimal.power k.toNat ≤ num else den ≤ num * Decimal.power (-k).toNat

/-- `⌊log₁₀ (num / den)⌋` for positive `num` and `den`. -/
def floorLog10 (num den : Nat) : Int :=
  let t := (floorLog2 num den * 30103).fdiv 100000
  if powerAtMost (t + 1) num den then t + 1 else if powerAtMost t num den then t else t - 1

/-- The digits nearest to the magnitude at `place` among its two neighbours on the grid of steps
`10 ^ k` that read back as `place`. -/
def onGrid? (place : Nat) (k : Int) : Option Nat :=
  let (num, den) := magnitudeAt place
  let n := if 0 ≤ k then num else num * Decimal.power (-k).toNat
  let d := if 0 ≤ k then den * Decimal.power k.toNat else den
  let low := n / d
  let below := Decimal.place low k == place
  let above := Decimal.place (low + 1) k == place
  if below && above then
    let r := n % d
    if 2 * r < d || (2 * r == d && low % 2 == 0) then some low else some (low + 1)
  else if below then some low
  else if above then some (low + 1)
  else none

/-- Drops trailing zeros, counting them. -/
def dropZeros (digits : Nat) (k : Int) : Nat → Nat × Int
  | 0 => (digits, k)
  | fuel + 1 =>
    if digits ≠ 0 ∧ digits % 10 = 0 then dropZeros (digits / 10) (k + 1) fuel else (digits, k)

/-- The digits and the exponent of the last digit of the shortest decimal of a magnitude. Seventeen
digits always suffice. -/
def ofPlace (place : Nat) : Nat × Int :=
  if place = 0 then (0, 0)
  else
    let (num, den) := magnitudeAt place
    let e := floorLog10 num den
    let found := (List.range 17).findSome? fun (n : Nat) =>
      (onGrid? place (e - n)).map fun digits => (digits, e - n)
    let (digits, k) := found.getD (0, 0)
    dropZeros digits k 17

/-- Where positional writing ends: a number is written positionally while the decimal exponent of
its first digit lies between the two bounds. -/
structure Style where
  lowest : Int
  highest : Int

/-- Writes `±digits · 10 ^ k`: positionally with at least one digit on both sides of the point, or
as `d.ddde±n` with a point only in front of further digits. -/
def write (style : Style) (negative : Bool) (digits : Nat) (k : Int) : List Char :=
  let ds := toDigits digits
  let e := k + (ds.length - 1 : Nat)
  let sign := if negative then ['-'] else []
  let body :=
    if digits = 0 then ['0', '.', '0']
    else if style.lowest ≤ e ∧ e ≤ style.highest then
      if e < 0 then '0' :: '.' :: (List.replicate (-e - 1).toNat '0' ++ ds)
      else if 0 ≤ k then ds ++ List.replicate k.toNat '0' ++ ['.', '0']
      else ds.take (e + 1).toNat ++ '.' :: ds.drop (e + 1).toNat
    else
      let power := 'e' :: (if e < 0 then '-' else '+') :: toDigits e.natAbs
      match ds with
      | [] => power
      | [d] => d :: power
      | d :: rest => d :: '.' :: rest ++ power
  sign ++ body

end Schemaless.Shortest
