import Schemaless.Binding.Criteria
import Schemaless.Store.Operations

/-!
# Modifying statements

An `INSERT`, `UPDATE` or `DELETE` run against a store. Values and criteria are bound with one cursor
over the parameters, values first; then the logical key is turned into the native key; then the
store is changed. An `UPDATE` changes the first document that its criteria select, keeping the
fields that it does not assign. A `DELETE` without criteria drops the collection.
-/

namespace Schemaless

open Sql

/-- The place of a statement's table. -/
def Sql.Statement.place (c : Config) (s : Statement) : Place := ⟨c.database, s.table⟩

/-- The predicate of a statement's criteria, with the logical key moved to the native key. -/
def keyedPredicate (c : Config) (s : Statement) : Binding Predicate := do
  let p ← bindCriteria s.criteria
  pure (resolveKey c s.table true p)

/-- The record and the predicate of a statement, bound in this order. -/
def recordAndPredicate (c : Config) (s : Statement) : Binding (Document × Predicate) := do
  let record ← bindRecord s
  let p ← keyedPredicate c s
  pure (record, p)

/-- Runs a binding on fresh parameters. -/
def bound {α : Type} (parameters : List Value) (b : Binding α) : StoreM α :=
  Effect.ofExcept (b.on { parameters }).1

/-- Inserts the record of a statement. -/
def runInsert (c : Config) (s : Statement) (parameters : List Value) : StoreM Nat := do
  let record ← bound parameters (bindRecord s)
  (Store.insert (s.place c) (resolveKey c s.table false record)).onTable s.table
  pure 1

/-- Lays the record of a statement over the first document that its criteria select. -/
def runUpdate (c : Config) (s : Statement) (parameters : List Value) : StoreM Nat := do
  let (record, p) ← bound parameters (recordAndPredicate c s)
  let store ← get
  let new := match (store.find (s.place c) (some p)).head? with
    | some old => Document.overlay old record
    | none => record
  (Store.replace (s.place c) p new).onTable s.table

/-- Removes the documents that the criteria of a statement select. -/
def runDelete (c : Config) (s : Statement) (parameters : List Value) : StoreM Nat := do
  if s.criteria.items.isEmpty then
    let store ← get
    let count := store.count (s.place c)
    if count = 0 then pure 0
    else
      (Store.drop (s.place c)).onTable s.table
      pure count
  else
    let p ← bound parameters (keyedPredicate c s)
    (Store.remove (s.place c) p).onTable s.table

/-- Runs a modifying statement; the number of documents it affected. -/
def modify (c : Config) (s : Statement) (parameters : List Value) : StoreM Nat :=
  match s.kind with
  | .insert => runInsert c s parameters
  | .update => runUpdate c s parameters
  | .delete => runDelete c s parameters
  | .select => throw (.parse (.notModification s.table))

end Schemaless
