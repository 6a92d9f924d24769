import Mathlib.Logic.ExistsUnique
import Schemaless.Proofs.Binding.Condition
import Schemaless.Proofs.Value.Equality

/-!
# Order of values

Equality and order of values are written apart, and here they are shown to be one thing
(`Value.compare_coherent`). Two truth values, two numbers (by rank) or two texts are `Comparable`, and
each of the three sorts is ordered by a lawful comparison; so the laws are proved once for any such
comparison (`compare_eq_then`) and read off each sort. What an operator asks of a field that is there
is `Operator.stands`, and the range operators only read `Value.compare`.
-/

namespace Schemaless

namespace Value

variable {a b c : Value} {o p : Ordering}

/-! ## Comparable pairs -/

/-- Two values of one ordered sort. -/
inductive Comparable : Value → Value → Prop
  | bools (a b : Bool) : Comparable (.bool a) (.bool b)
  | nums (a b : Number) : Comparable (.num a) (.num b)
  | strs (a b : String) : Comparable (.str a) (.str b)

theorem compare_strs (a b : String) : compare (.str a) (.str b) = some (Ord.compare a b) := rfl

theorem compare_isSome_iff : (a.compare b).isSome = true ↔ Comparable a b := by
  refine ⟨fun h => ?_, ?_⟩
  · cases a with
    | bool x => cases b with
      | bool y => exact .bools x y
      | _ => cases h
    | num x => cases b with
      | num y => exact .nums x y
      | _ => cases h
    | str x => cases b with
      | str y => exact .strs x y
      | _ => cases h
    | _ => cases b <;> cases h
  · rintro (_ | _ | _) <;> rfl

theorem compare_eq_none (h : ¬ Comparable a b) : a.compare b = none :=
  Option.not_isSome_iff_eq_none.mp fun hsome => h (compare_isSome_iff.mp hsome)

/-! ## Equality and order -/

/-- Two comparable values stand level exactly when they are equal. -/
theorem compare_eq_iff (h : Comparable a b) : a.compare b = some .eq ↔ a.equal b = true := by
  cases h with
  | bools x y =>
    change some (Ord.compare x y) = some .eq ↔ (x == y) = true
    rw [Option.some_inj, Std.LawfulEqOrd.compare_eq_iff_eq, beq_iff_eq]
  | nums x y =>
    change some (Ord.compare x.rank y.rank) = some .eq ↔ (x.rank == y.rank) = true
    rw [Option.some_inj, Std.LawfulEqOrd.compare_eq_iff_eq, beq_iff_eq]
  | strs x y =>
    change some (Ord.compare x y) = some .eq ↔ (x == y) = true
    rw [Option.some_inj, Std.LawfulEqOrd.compare_eq_iff_eq, beq_iff_eq]

/-- The order is turned when its two sides change places. -/
theorem compare_swap (a b : Value) : b.compare a = (a.compare b).map Ordering.swap := by
  by_cases h : Comparable a b
  · cases h with
    | bools x y => exact congrArg some Std.OrientedOrd.eq_swap
    | nums x y => exact congrArg some Std.OrientedOrd.eq_swap
    | strs x y =>
      rw [compare_strs, compare_strs]
      exact congrArg some Std.OrientedOrd.eq_swap
  · rw [compare_eq_none h, compare_eq_none]
    · rfl
    · rintro (_ | _ | _)
      · exact h (.bools _ _)
      · exact h (.nums _ _)
      · exact h (.strs _ _)

/-- Two steps of a lawful comparison that do not go opposite ways make one, in the direction of the
first that is not level. -/
theorem compare_eq_then {α : Type} [Ord α] [Std.TransOrd α] [Std.LawfulEqOrd α] {x y z : α}
    (h : Ord.compare x y = .eq ∨ Ord.compare x y ≠ (Ord.compare y z).swap) :
    Ord.compare x z = (Ord.compare x y).then (Ord.compare y z) := by
  cases hxy : Ord.compare x y with
  | eq => rw [Std.LawfulEqOrd.eq_of_compare hxy, Ordering.eq_then]
  | lt => cases hyz : Ord.compare y z with
    | lt => exact Std.TransCmp.lt_trans hxy hyz
    | eq => rw [← Std.LawfulEqOrd.eq_of_compare hyz, hxy]; rfl
    | gt => rw [hxy, hyz] at h; simp at h
  | gt => cases hyz : Ord.compare y z with
    | lt => rw [hxy, hyz] at h; simp at h
    | eq => rw [← Std.LawfulEqOrd.eq_of_compare hyz, hxy]; rfl
    | gt => exact Std.TransCmp.gt_trans hxy hyz

theorem compare_trans (h : a.compare b = some o) (h' : b.compare c = some p)
    (hway : o = .eq ∨ o ≠ p.swap) : a.compare c = some (o.then p) := by
  have hab : Comparable a b := compare_isSome_iff.mp (by rw [h]; rfl)
  have hbc : Comparable b c := compare_isSome_iff.mp (by rw [h']; rfl)
  cases hab with
  | bools x y => cases hbc with
    | bools _ z => cases h; cases h'; exact congrArg some (compare_eq_then hway)
  | nums x y => cases hbc with
    | nums _ z => cases h; cases h'; exact congrArg some (compare_eq_then hway)
  | strs x y => cases hbc with
    | strs _ z =>
      cases h; cases h'
      rw [compare_strs]
      exact congrArg some (compare_eq_then hway)

end Value

/-! ## What operators ask -/

namespace Operator

variable {a b : Value} {answer : Ordering} {o : Operator}

/-- Whether the condition that an operator makes of the value `b` holds of a field with value `a`. -/
def stands (o : Operator) (a b : Value) : Bool := Predicate.conditionHolds (some a) (o.build b)

/-- The operators that ask for an order. -/
def ranges : List Operator := [less, lessEqual, greater, greaterEqual]

/-- The operators of which one stands between any two comparable values. -/
def trichotomy : List Operator := [less, equal, greater]

/-- The answers with which an operator is content when the field is compared with its operand. -/
def asks : Operator → Ordering → Bool
  | less, answer => answer == .lt
  | lessEqual, answer => answer != .gt
  | greater, answer => answer == .gt
  | greaterEqual, answer => answer != .lt
  | _, answer => answer == .eq

/-- The operator that stands where the comparison has this answer. -/
def ofAnswer : Ordering → Operator
  | .lt => less
  | .eq => equal
  | .gt => greater

theorem stands_equal (a b : Value) : equal.stands a b = a.equal b := by
  rw [stands, conditionHolds_build]
  rfl

theorem stands_of_mem_ranges (h : o ∈ ranges) (a b : Value) :
    o.stands a b = (a.compare b).any o.asks := by
  rw [stands, conditionHolds_build]
  simp only [ranges, List.mem_cons, List.not_mem_nil, or_false] at h
  rcases h with rfl | rfl | rfl | rfl <;> rfl

theorem stands_equal_of_compare (h : a.compare b = some answer) :
    equal.stands a b = equal.asks answer := by
  have hcomparable : Value.Comparable a b := Value.compare_isSome_iff.mp (by rw [h]; rfl)
  rw [stands_equal, Bool.eq_iff_iff, ← Value.compare_eq_iff hcomparable, h, Option.some_inj]
  exact beq_iff_eq.symm

/-- Between two values in one order, a range operator or equality stands as the answer of their
comparison has it. -/
theorem stands_of_compare (h : a.compare b = some answer) (ho : o ∈ equal :: ranges) :
    o.stands a b = o.asks answer := by
  rcases List.mem_cons.mp ho with rfl | ho
  · exact stands_equal_of_compare h
  · rw [stands_of_mem_ranges ho, h, Option.any_some]

theorem asks_iff_of_mem_trichotomy (ho : o ∈ trichotomy) :
    o.asks answer = true ↔ o = ofAnswer answer := by
  simp only [trichotomy, List.mem_cons, List.not_mem_nil, or_false] at ho
  rcases ho with rfl | rfl | rfl <;> cases answer <;> decide

theorem mem_ranges_of_mem_trichotomy (ho : o ∈ trichotomy) : o ∈ equal :: ranges := by
  simp only [trichotomy, List.mem_cons, List.not_mem_nil, or_false] at ho
  rcases ho with rfl | rfl | rfl <;> decide

/-- Of the three operators exactly one stands between two comparable values. -/
theorem existsUnique_stands (h : Value.Comparable a b) :
    ∃! o, o ∈ trichotomy ∧ o.stands a b = true := by
  obtain ⟨answer, hanswer⟩ := Option.isSome_iff_exists.mp (Value.compare_isSome_iff.mpr h)
  have hmem : ofAnswer answer ∈ trichotomy := by cases answer <;> decide
  refine ⟨ofAnswer answer, ⟨hmem, ?_⟩, ?_⟩
  · rw [stands_of_compare hanswer (mem_ranges_of_mem_trichotomy hmem),
      asks_iff_of_mem_trichotomy hmem]
  · rintro o ⟨ho, hstands⟩
    rwa [stands_of_compare hanswer (mem_ranges_of_mem_trichotomy ho),
      asks_iff_of_mem_trichotomy ho] at hstands

/-- A lax operator stands where the strict one or equality does. -/
theorem stands_lax_iff (h : Value.Comparable a b) :
    (lessEqual.stands a b = true ↔ less.stands a b = true ∨ equal.stands a b = true) ∧
      (greaterEqual.stands a b = true ↔ greater.stands a b = true ∨ equal.stands a b = true) := by
  obtain ⟨answer, hanswer⟩ := Option.isSome_iff_exists.mp (Value.compare_isSome_iff.mpr h)
  rw [stands_of_compare hanswer (by decide), stands_of_compare hanswer (by decide),
    stands_of_compare hanswer (by decide), stands_of_compare hanswer (by decide),
    stands_of_compare hanswer (by decide)]
  cases answer <;> decide

end Operator

namespace Value

open Operator in
/-- Equality of values is an equivalence. The order is there exactly for two truth values, two
numbers or two texts; it is level exactly where they are equal, turns with its sides, and goes on over
two steps that do not go opposite ways. So of `<`, `=` and `>` exactly one stands between two
comparable values, `<=` and `>=` are what they are said to be, and between two others no range
operator stands. -/
theorem compare_coherent :
    Equivalence (fun a b : Value => a.equal b = true) ∧
      (∀ a b : Value, (a.compare b).isSome = true ↔ Comparable a b) ∧
      (∀ a b : Value, Comparable a b → (a.compare b = some .eq ↔ a.equal b = true)) ∧
      (∀ a b : Value, b.compare a = (a.compare b).map Ordering.swap) ∧
      (∀ (a b c : Value) (o p : Ordering), a.compare b = some o → b.compare c = some p →
        (o = .eq ∨ o ≠ p.swap) → a.compare c = some (o.then p)) ∧
      (∀ a b : Value, Comparable a b →
        (∃! o, o ∈ trichotomy ∧ o.stands a b = true) ∧
        (lessEqual.stands a b = true ↔
          less.stands a b = true ∨ Operator.equal.stands a b = true) ∧
        (greaterEqual.stands a b = true ↔
          greater.stands a b = true ∨ Operator.equal.stands a b = true)) ∧
      ∀ a b : Value, ¬ Comparable a b → ∀ o ∈ ranges, o.stands a b = false := by
  refine ⟨⟨equal_refl, equal_symm, equal_trans⟩, fun _ _ => compare_isSome_iff,
    fun _ _ => compare_eq_iff, compare_swap, fun _ _ _ _ _ => compare_trans,
    fun a b h => ⟨existsUnique_stands h, stands_lax_iff h⟩, ?_⟩
  intro a b h o ho
  rw [stands_of_mem_ranges ho, compare_eq_none h, Option.any_none]

/-- Two whole numbers beyond the reach of binary64 are level, so what stands below the one stands
below the other; a number and a text are in no order. -/
theorem compare_coherent_beyond_binary64 :
    (ofInt 2).compare (ofInt 9007199254740993) = some .lt ∧
      ¬ Comparable (ofInt 2) (.str "2") ∧
      Operator.lessEqual.stands (ofInt 2) (.str "2") = false := by
  obtain ⟨-, hcomparable, -, -, htrans, -, hother⟩ := compare_coherent
  have hnone : ¬ Comparable (ofInt 2) (.str "2") := fun h => by
    have := (hcomparable _ _).mpr h
    cases this
  exact ⟨htrans (ofInt 2) (ofInt 9007199254740992) (ofInt 9007199254740993) .lt .eq
    (by decide +kernel) (by decide +kernel) (.inr (by decide)), hnone,
    hother _ _ hnone _ (by decide)⟩

end Value

end Schemaless
