/-!
# Finite binary64 numbers

A finite binary64 number is a sign and a magnitude: its place, from zero upwards, among the
magnitudes that the format has. Places are consecutive, so the order of numbers is the order of
their signed places (`Binary64.rank`), and rounding finds a place (`nearestPlace`): the number of
grid steps nearest to a quotient, a tie going to the even place. All of it is exact arithmetic on
natural numbers.
-/

namespace Schemaless

/-- The number of places between two powers of two. -/
def placesPerDoubling : Nat := 1 <<< 52

/-- The first place beyond the finite magnitudes. -/
def beyondFinite : Nat := 2047 <<< 52

/-- A finite binary64 number. -/
structure Binary64 where
  negative : Bool
  /-- The place of the magnitude among all magnitudes of the format. -/
  place : Nat
  finite : place < beyondFinite := by decide
deriving DecidableEq

/-- `⌊log₂ (num / den)⌋` for positive `num` and `den`. -/
def floorLog2 (num den : Nat) : Int :=
  let e : Int := num.log2 - den.log2
  if 0 ≤ e then
    if den <<< e.toNat ≤ num then e else e - 1
  else
    if den ≤ num <<< (-e).toNat then e else e - 1

/-- The whole number nearest to `num / den`, a tie going to the even one. -/
def roundEven (num den : Nat) : Nat :=
  let q := num / den
  let r := num % den
  if 2 * r < den then q else if den < 2 * r then q + 1 else q + q % 2

/-- The place nearest to `num / den`: the quotient is counted in steps of the grid that its size
calls for, and every doubling below it has taken its places. -/
def nearestPlace (num den : Nat) : Nat :=
  if num = 0 then 0
  else
    let e := max (floorLog2 num den) (-1022)
    let shift := 52 - e
    let steps :=
      if 0 ≤ shift then roundEven (num <<< shift.toNat) den
      else roundEven num (den <<< (-shift).toNat)
    (e + 1022).toNat * placesPerDoubling + steps

/-- The magnitude at a place, as numerator and denominator. -/
def magnitudeAt (place : Nat) : Nat × Nat :=
  let e := place / placesPerDoubling
  let f := place % placesPerDoubling
  if e = 0 then (f, 1 <<< 1074)
  else if e < 1075 then (placesPerDoubling + f, 1 <<< (1075 - e))
  else ((placesPerDoubling + f) <<< (e - 1075), 1)

namespace Binary64

/-- The number at a signed place, if it is finite. -/
def ofPlace? (negative : Bool) (place : Nat) : Option Binary64 :=
  if h : place < beyondFinite then some ⟨negative, place, h⟩ else none

/-- The signed place: the order of numbers is the order of their ranks, and both zeros have rank
zero. -/
def rank (x : Binary64) : Int := if x.negative then -x.place else x.place

end Binary64

example : nearestPlace 1 1 = 1023 * placesPerDoubling := by decide
example : nearestPlace 9007199254740993 1 = nearestPlace 9007199254740992 1 := by decide
example : nearestPlace 1 (2 ^ 1075) = 0 ∧ nearestPlace 3 (2 ^ 1075) = 2 := by decide +kernel
example : nearestPlace (2 ^ 1024 - 2 ^ 970) 1 = beyondFinite := by decide +kernel

end Schemaless
