import Schemaless.Number.Shortest

/-!
# Numbers of a document

A number is whole or a finite binary64 number, and the two are told apart: `2` is not `2.0`. The
store, however, compares numbers after rounding both to binary64 (`Number.rank`), so there `2`
equals `2.0`.
-/

namespace Schemaless

/-- A number of a document. -/
inductive Number where
  | int (n : Int)
  | float (x : Binary64)
deriving DecidableEq

namespace Number

/-- The signed place of the nearest binary64 number. -/
def rank : Number → Int
  | .int n => if n < 0 then -nearestPlace n.natAbs 1 else nearestPlace n.natAbs 1
  | .float x => x.rank

/-- Equality that tells whole numbers from others. -/
def same : Number → Number → Bool
  | .int a, .int b => a == b
  | .float a, .float b => a.rank == b.rank
  | _, _ => false

/-- Positional writing reaches from `0.00001` to sixteen digits before the point. -/
def style : Shortest.Style := ⟨-5, 15⟩

/-- The text of a number. -/
def render : Number → List Char
  | .int n => if n < 0 then '-' :: toDigits n.natAbs else toDigits n.natAbs
  | .float x =>
    let (digits, k) := Shortest.ofPlace x.place
    Shortest.write style x.negative digits k

theorem same_refl (a : Number) : a.same a = true := by cases a <;> simp [same]

theorem same_symm (a b : Number) : a.same b = b.same a := by
  cases a <;> cases b <;> simp [same, Bool.beq_comm]

theorem same_trans {a b c : Number} (h : a.same b = true) (h' : b.same c = true) :
    a.same c = true := by
  cases a <;> cases b <;> cases c <;> simp_all [same]

theorem rank_eq_of_same {a b : Number} (h : a.same b = true) : a.rank = b.rank := by
  cases a <;> cases b <;> simp_all [same, rank]

end Number

end Schemaless
