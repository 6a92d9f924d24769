import Schemaless.Binding.Expression
import Schemaless.Binding.Operator
import Schemaless.Document.Matching

/-!
# From criteria to predicates

The criteria of a statement become a predicate. A condition becomes an operator on a field: the
field is the operand without placeholders, the other operand is bound. A group of several items
becomes a conjunction or a disjunction, a group of one is that one, and an empty group is the
predicate without entries. The values of columns are bound in the same way, from left to right.
-/

namespace Schemaless

open Sql

/-- The predicate with a single entry. -/
def Predicate.single (name : String) (condition : Value) : Predicate :=
  SortedMap.empty.insert name condition

/-- The name under which the items of a group are joined: a disjunction if the operator is `OR`,
whatever its blanks and its case, and a conjunction otherwise. -/
def connective (logical : Option String) : String :=
  match logical with
  | some text =>
    if equalsIgnoringCase (Text.trimmed text.toList) "or".toList then orName else andName
  | none => andName

/-- Whether a condition compares the right operand with the left one. -/
def Sql.Condition.isSwapped (c : Condition) : Bool := hasPlaceholder c.left

/-- The field of a condition. -/
def Sql.Condition.field (c : Condition) : String :=
  Text.trim (if c.isSwapped then c.right else c.left)

/-- The operand of a condition that has a value. -/
def Sql.Condition.expression (c : Condition) : String := if c.isSwapped then c.left else c.right

/-- The predicate of a condition. -/
def bindCondition (c : Condition) : Binding Predicate := do
  let o ← Effect.ofExcept (Operator.resolve c.operator c.inverse)
  let v ← bindExpression o.isMembership c.expression
  pure (Predicate.single c.field (o.build v))

mutual

/-- The predicate of a node of the criteria tree. -/
def bindCriterion : Criterion → Binding Predicate
  | .condition c => bindCondition c
  | .group logical items => bindGroup logical items
termination_by structural c => c

/-- The predicate of a group. -/
def bindGroup (logical : Option String) : List Criterion → Binding Predicate
  | [] => pure SortedMap.empty
  | first :: rest =>
    match rest with
    | [] => bindCriterion first
    | _ :: _ => do
      let p ← bindCriterion first
      let ps ← bindItems rest
      pure (Predicate.single (connective logical) (.arr (.obj p.entries :: ps)))

/-- The predicates of the items of a group. -/
def bindItems : List Criterion → Binding (List Value)
  | [] => pure []
  | first :: rest => do
    let p ← bindCriterion first
    let ps ← bindItems rest
    pure (.obj p.entries :: ps)

end

/-- The predicate of a statement's criteria. -/
def bindCriteria (c : Criteria) : Binding Predicate := bindGroup c.logical c.items

/-- The values of columns laid into a record, from left to right. -/
def bindColumns : List Column → Document → Binding Document
  | [], record => pure record
  | c :: rest, record => do
    let v ← match c.expression with
      | some text => bindExpression false text
      | none => pure .null
    bindColumns rest (record.insert c.name v)

/-- The record of the values that a statement assigns; a column without expression is null. -/
def bindRecord (s : Statement) : Binding Document := bindColumns s.columns SortedMap.empty

end Schemaless
