import Schemaless.Store.Modification

/-!
# Predicates of one condition

A condition becomes a predicate with one entry: its field, and the set of one operator
(`holds_single_build`). Under the table's key column the entry moves to the native key
(`resolveKey_single`), so the condition `key = v` asks for the document whose native key equals `v`
(`keyedPredicate_of_equal`).
-/

namespace Schemaless

open Sql

/-! ## One entry -/

@[simp] theorem get?_single (name n : String) (condition : Value) :
    (Predicate.single name condition).get? n = if n = name then some condition else none := by
  rw [Predicate.single, SortedMap.get?_insert, SortedMap.get?_empty]

theorem holds_single_entry (name : String) (condition : Value) (d : Document) :
    (Predicate.single name condition).holds d = Predicate.entryHolds d (name, condition) := by
  have h : (Predicate.single name condition).entries = [(name, condition)] := rfl
  rw [Predicate.holds, h, Predicate.entriesHold_singleton]

theorem holds_single {name : String} (hand : name ≠ andName) (hor : name ≠ orName)
    (condition : Value) (d : Document) :
    (Predicate.single name condition).holds d =
      Predicate.conditionHolds (d.get? name) condition := by
  rw [holds_single_entry, Predicate.entryHolds, if_neg hand, if_neg hor]

theorem conditionHolds_build (field : Option Value) (o : Operator) (v : Value) :
    Predicate.conditionHolds field (o.build v) =
      Predicate.operatorHolds field (o.name, o.operand v) := by
  have h : Predicate.isOperatorSet [(o.name, o.operand v)] = true := by
    cases o <;> simp [Predicate.isOperatorSet, Operator.name]
  rw [Operator.build, Predicate.conditionHolds, if_pos h, List.all_cons, List.all_nil, Bool.and_true]

theorem holds_single_build {name : String} (hand : name ≠ andName) (hor : name ≠ orName)
    (o : Operator) (v : Value) (d : Document) :
    (Predicate.single name (o.build v)).holds d =
      Predicate.operatorHolds (d.get? name) (o.name, o.operand v) := by
  rw [holds_single hand hor, conditionHolds_build]

/-! ## The key -/

theorem resolveKey_single {c : Config} {table column : String}
    (h : column = nativeKey ∨ column = c.keyOf table) (condition : Value) :
    resolveKey c table true (Predicate.single column condition) =
      Predicate.single nativeKey condition := by
  by_cases hnative : column = nativeKey
  · subst hnative
    rw [resolveKey, if_pos (by simp [SortedMap.contains])]
  · have hkey : column = c.keyOf table := h.resolve_left hnative
    rw [resolveKey, if_neg (by simp [SortedMap.contains, Ne.symm hnative]), ← hkey]
    refine SortedMap.ext_get? fun n => ?_
    simp only [get?_single, if_true, SortedMap.get?_insert, SortedMap.get?_erase]
    split
    · rfl
    · split <;> rfl

/-- The text of an operator writes it. -/
theorem resolve_text (o : Operator) : Operator.resolve o.text false = .ok o := by
  rw [Operator.resolve, Operator.parse, Operator.ofText?_text]
  rfl

/-- The operator of a membership condition. -/
def Operator.membership (inverse : Bool) : Operator := if inverse then notIn else isIn

theorem resolve_membership (inverse : Bool) :
    Operator.resolve "IN" inverse = .ok (Operator.membership inverse) := by
  have hoperator : Operator.ofText? "IN".toList = some .isIn := Operator.ofText?_text .isIn
  rw [Operator.resolve, Operator.parse, hoperator]
  cases inverse <;> rfl

/-- The condition that a column equals an operand. -/
def equalCondition (column operand : String) : Sql.Condition :=
  { left := column, operator := Operator.equal.text, right := operand }

/-- A condition asks of its field what its operator builds of the value of its expression. -/
theorem bindCondition_eq {c : Sql.Condition} {o : Operator}
    (hresolve : Operator.resolve c.operator c.inverse = .ok o) :
    bindCondition c =
      (fun v => Predicate.single c.field (o.build v)) <$> bindExpression o.isMembership c.expression := by
  rw [bindCondition, hresolve, Effect.ofExcept_ok, pure_bind, map_eq_pure_bind]

/-- A condition whose column holds no placeholder asks for the value of its other side. -/
theorem bindCondition_of_resolve {left right operator : String} {inverse : Bool} {o : Operator}
    (hmark : hasPlaceholder left = false) (hresolve : Operator.resolve operator inverse = .ok o) :
    bindCondition { left, operator, right, inverse } =
      (fun v => Predicate.single (Text.trim left) (o.build v)) <$>
        bindExpression o.isMembership right := by
  have hfield : ({ left, operator, right, inverse } : Sql.Condition).field = Text.trim left := by
    simp [Condition.field, Condition.isSwapped, hmark]
  have hexpression : ({ left, operator, right, inverse } : Sql.Condition).expression = right := by
    simp [Condition.expression, Condition.isSwapped, hmark]
  rw [bindCondition_eq (c := { left, operator, right, inverse }) hresolve, hfield, hexpression]

theorem bindCondition_equalCondition {column : String} (hmark : hasPlaceholder column = false)
    (operand : String) :
    bindCondition (equalCondition column operand) =
      (fun v => Predicate.single (Text.trim column) (Operator.equal.build v)) <$>
        bindExpression false operand :=
  bindCondition_of_resolve hmark (resolve_text .equal)

/-- Where the criteria are that the key equals an operand, a document has to have the value of the
operand as its native key. -/
theorem keyedPredicate_of_equal {c : Config} {t : Statement} {column operand : String}
    (hitems : t.criteria.items = [.condition (equalCondition column operand)])
    (hcolumn : column = nativeKey ∨ column = c.keyOf t.table)
    (hmark : hasPlaceholder column = false) (htrim : Text.trim column = column) :
    keyedPredicate c t =
      (fun v => Predicate.single nativeKey (Operator.equal.build v)) <$>
        bindExpression false operand := by
  have hbind : bindCriteria t.criteria = bindCondition (equalCondition column operand) := by
    rw [bindCriteria, hitems]
    rfl
  rw [keyedPredicate, hbind, bindCondition_equalCondition hmark, htrim]
  simp only [map_eq_pure_bind, bind_assoc, pure_bind, resolveKey_single hcolumn]

end Schemaless
