/-!
# Statements

A statement modifies or reads one table. Its operands stay texts, such as `?`, `'abc'`, `12` or
`?, ?`; they get their values only when the statement runs with its parameters. The criteria of a
statement form a tree: conditions, and groups joined by a logical operator.
-/

namespace Schemaless.Sql

/-- What a statement does. -/
inductive StatementKind where
  | insert
  | update
  | delete
  | select
deriving DecidableEq

/-- The keyword of a kind of statement. -/
def StatementKind.name : StatementKind → String
  | insert => "INSERT"
  | update => "UPDATE"
  | delete => "DELETE"
  | select => "SELECT"

/-- A column: read under its own name or a label, or assigned the value of an expression. -/
structure Column where
  name : String
  label : Option String := none
  expression : Option String := none
deriving DecidableEq

/-- The name under which a column appears in a row. -/
def Column.output (c : Column) : String := c.label.getD c.name

/-- A comparison of two operands. -/
structure Condition where
  left : String
  operator : String
  right : String
  inverse : Bool := false
deriving DecidableEq

/-- The condition with `NOT` in front. -/
def Condition.negated (c : Condition) : Condition := { c with inverse := !c.inverse }

/-- A node of the criteria tree. -/
inductive Criterion where
  | condition (c : Condition)
  | group (logical : Option String) (items : List Criterion)

instance : Inhabited Criterion := ⟨.group none []⟩

/-- Criteria: some criterions and the operator that joins them. -/
structure Criteria where
  logical : Option String := none
  items : List Criterion := []

/-- Criteria as a node of larger criteria; a single item needs no group. -/
def Criteria.toCriterion (c : Criteria) : Criterion :=
  match c.items with
  | [single] => single
  | items => .group c.logical items

/-- A statement on one table. -/
structure Statement where
  kind : StatementKind
  table : String
  columns : List Column := []
  criteria : Criteria := {}
  placeholders : Nat := 0

/-- The names of a row's columns, in the order of the statement. -/
def Statement.outputs (s : Statement) : List String := s.columns.map (·.output)

end Schemaless.Sql
