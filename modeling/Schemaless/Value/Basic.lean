import Schemaless.Number.Basic
import Schemaless.SortedMap.Basic

/-!
# Values

A value is what a field of a document holds: null, a truth value, a number, a text, a list or an
object. Two notions of equality go with it. `Value.same` is strict: whole numbers differ from
others all the way down. `Value.equal` is the store's: two numbers are compared as binary64, all
else strictly (`equal_of_same`). `Value.compare` orders two truth values, two numbers or two texts;
other pairs have no order.
-/

namespace Schemaless

/-- A value of a document. The fields of an object stand in the order of their names. -/
inductive Value where
  | null
  | bool (b : Bool)
  | num (n : Number)
  | str (s : String)
  | arr (items : List Value)
  | obj (fields : List (String × Value))

instance : Inhabited Value := ⟨.null⟩

namespace Value

/-! ## Equality -/

mutual

/-- Strict equality: lists and objects agree item by item, numbers are of one sort. -/
def same : Value → Value → Bool
  | .null, .null => true
  | .bool a, .bool b => a == b
  | .num a, .num b => a.same b
  | .str a, .str b => a == b
  | .arr a, .arr b => sameItems a b
  | .obj a, .obj b => sameFields a b
  | _, _ => false
termination_by structural v => v

/-- Strict equality of lists. -/
def sameItems : List Value → List Value → Bool
  | [], [] => true
  | a :: as, b :: bs => same a b && sameItems as bs
  | _, _ => false

/-- Strict equality of the fields of two objects. -/
def sameFields : List (String × Value) → List (String × Value) → Bool
  | [], [] => true
  | a :: as, b :: bs => sameField a b && sameFields as bs
  | _, _ => false

/-- Strict equality of two fields. -/
def sameField : String × Value → String × Value → Bool
  | (m, a), (n, b) => m == n && same a b

end

/-- The store's equality: two numbers are equal when they round to the same binary64 number. -/
def equal : Value → Value → Bool
  | .num a, .num b => a.rank == b.rank
  | a, b => same a b

/-! ## Order -/

/-- The order of two truth values, two numbers or two texts; `none` for any other pair. -/
def compare : Value → Value → Option Ordering
  | .bool a, .bool b => some (Ord.compare a b)
  | .num a, .num b => some (Ord.compare a.rank b.rank)
  | .str a, .str b => some (if a < b then .lt else if a = b then .eq else .gt)
  | _, _ => none

/-! ## Kinds -/

/-- The kind of a value. -/
inductive Kind where
  | null
  | bool
  | int
  | float
  | string
  | array
  | object
deriving DecidableEq

/-- The name of a kind. -/
def Kind.name : Kind → String
  | .null => "null"
  | .bool => "bool"
  | .int => "int"
  | .float => "float"
  | .string => "string"
  | .array => "array"
  | .object => "object"

/-- The kind of a value; the two sorts of numbers are two kinds. -/
def kind : Value → Kind
  | .null => .null
  | .bool _ => .bool
  | .num (.int _) => .int
  | .num (.float _) => .float
  | .str _ => .string
  | .arr _ => .array
  | .obj _ => .object

/-- The whole number `n`. -/
def ofInt (n : Int) : Value := .num (.int n)

/-! ## Small laws -/

mutual

theorem same_refl : (v : Value) → same v v = true
  | .null => rfl
  | .bool _ => by simp [same]
  | .num n => by simp [same, Number.same_refl]
  | .str _ => by simp [same]
  | .arr items => by rw [same]; exact sameItems_refl items
  | .obj fields => by rw [same]; exact sameFields_refl fields

theorem sameItems_refl : (l : List Value) → sameItems l l = true
  | [] => rfl
  | v :: l => by simp [sameItems, same_refl v, sameItems_refl l]

theorem sameFields_refl : (l : List (String × Value)) → sameFields l l = true
  | [] => rfl
  | f :: l => by simp [sameFields, sameField_refl f, sameFields_refl l]

theorem sameField_refl : (f : String × Value) → sameField f f = true
  | (_, v) => by simp [sameField, same_refl v]

end

theorem equal_refl (v : Value) : v.equal v = true := by
  cases v <;> simp [equal, same_refl]

theorem equal_of_same {a b : Value} (h : same a b = true) : a.equal b = true := by
  cases a <;> cases b <;> simp_all [equal, same]
  exact Number.rank_eq_of_same h

end Value

end Schemaless
