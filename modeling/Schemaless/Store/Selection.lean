import Schemaless.Store.Modification

/-!
# Reading statements

A `SELECT` answers with one row for each document that its criteria select. A row has the columns of
the statement under their output names, null where the document lacks the field; a source field
gives its value to the first column that asks for it. `SELECT *` shows documents as they are. Rows
are handed out one by one, and whoever receives them may stop or fail.
-/

namespace Schemaless

open Sql

/-- A row: its columns in declared order, and the values under their names. -/
structure Row where
  columns : List String
  values : Document

namespace Row

/-- The value of the first column, null in a row without columns. -/
def first (r : Row) : Value := (r.columns.head?.bind r.values.get?).getD .null

/-- The whole number of 64 bits under a name. -/
def integer? (r : Row) (name : String) : Option Int :=
  match r.values.get? name with
  | some (.num (.int n)) => if fitsInt64 n then some n else none
  | _ => none

/-- The text under a name. -/
def text? (r : Row) (name : String) : Option String :=
  match r.values.get? name with
  | some (.str s) => some s
  | _ => none

/-- Lays the values of columns into a row, taking each field out of the document. -/
def project : List Column → Document → Document → Document
  | [], _, values => values
  | c :: rest, d, values =>
    project rest (d.erase c.name) (values.insert c.output ((d.get? c.name).getD .null))

/-- The row of a document. -/
def ofDocument (s : Statement) (d : Document) : Row :=
  match s.columns with
  | [] => ⟨d.names, d⟩
  | columns => ⟨s.outputs, project columns d SortedMap.empty⟩

end Row

/-- The rows of a reading statement. -/
def select (c : Config) (s : Statement) (parameters : List Value) (store : Store) :
    Except Failure (List Row) :=
  if s.kind ≠ .select then .error (.parse (.notSelect s.table s.kind))
  else
    match ((keyedPredicate c s).on { parameters }).1 with
    | .error e => .error e
    | .ok p =>
      let filter := if p.isEmpty then none else some p
      .ok ((store.find (s.place c) filter).map (Row.ofDocument s))

/-- What a receiver of rows says to a row. -/
inductive Reply where
  | more
  | enough
  | fail (cause : Failure)

/-- A receiver of rows, which knows the number of each row, the first being 1. -/
abbrev Receiver : Type := Nat → Row → Reply

/-- The rows that were handed out, and why their receiver failed, if it did. -/
structure Delivery where
  rows : List Row
  failure : Option Failure := none

/-- Hands out rows until the receiver stops or fails; the row at which it does counts as handed
out. -/
def deliver (receiver : Receiver) (number : Nat) : List Row → Delivery
  | [] => { rows := [] }
  | r :: rest =>
    match receiver number r with
    | .enough => { rows := [r] }
    | .fail cause => { rows := [r], failure := some cause }
    | .more =>
      let d := deliver receiver (number + 1) rest
      { d with rows := r :: d.rows }

/-- A receiver that takes every row. -/
def Receiver.all : Receiver := fun _ _ => .more

/-- A receiver that takes one row. -/
def Receiver.one : Receiver := fun _ _ => .enough

end Schemaless
