import Schemaless.Store.Modification
import Schemaless.Proofs.Store.Operations

/-!
# Modifying statements as equations

What a modifying statement answers and what it leaves, as one equation in the outcome of its binding
and the store it starts from. Binding never touches the store, so a statement that does not bind
leaves it as it was; a statement that binds is one operation of the store, its failure named after
the table.
-/

namespace Schemaless

open Sql

variable (c : Config) (t : Statement) (parameters : List Value) (s : Store)

theorem on_bound {α : Type} (b : Binding α) :
    (bound parameters b).on s = ((b.on { parameters }).1, s) := rfl

theorem on_runInsert :
    (runInsert c t parameters).on s =
      match ((bindRecord t).on { parameters }).1 with
      | .error e => (.error e, s)
      | .ok record =>
        match (Store.insert (t.place c) (resolveKey c t.table false record)).on s with
        | (.ok (), s') => (.ok 1, s')
        | (.error e, s') => (.error (.store t.table e), s') := by
  rw [runInsert, Effect.on_bind, on_bound]
  cases ((bindRecord t).on { parameters }).1 with
  | error e => rfl
  | ok record =>
    simp only [Effect.on_bind, Store.on_onTable]
    rcases (Store.insert (t.place c) (resolveKey c t.table false record)).on s with ⟨_ | _, s'⟩ <;> rfl

/-- The document that an update lays its values over is the first one that the predicate selects. -/
theorem on_runUpdate :
    (runUpdate c t parameters).on s =
      match ((recordAndPredicate c t).on { parameters }).1 with
      | .error e => (.error e, s)
      | .ok (record, p) =>
        ((Store.replace (t.place c) p
          (match (s.documentsAt (t.place c)).find? p.holds with
            | some old => Document.overlay old record
            | none => record)).onTable t.table).on s := by
  rw [runUpdate, Effect.on_bind, on_bound]
  cases ((recordAndPredicate c t).on { parameters }).1 with
  | error e => rfl
  | ok values =>
    have hfirst : (s.find (t.place c) (some values.2)).head? =
        (s.documentsAt (t.place c)).find? values.2.holds := List.head?_filter ..
    show _ = ((Store.replace (t.place c) values.2 _).onTable t.table).on s
    rw [← hfirst]
    rfl

theorem on_runDelete :
    (runDelete c t parameters).on s =
      if t.criteria.items.isEmpty then
        if s.count (t.place c) = 0 then (.ok 0, s)
        else
          match (Store.drop (t.place c)).on s with
          | (.ok (), s') => (.ok (s.count (t.place c)), s')
          | (.error e, s') => (.error (.store t.table e), s')
      else
        match ((keyedPredicate c t).on { parameters }).1 with
        | .error e => (.error e, s)
        | .ok p => ((Store.remove (t.place c) p).onTable t.table).on s := by
  simp only [runDelete]
  split
  · simp only [Effect.on_bind, Effect.on_get]
    split
    · rfl
    · simp only [Effect.on_bind, Store.on_onTable]
      rcases (Store.drop (t.place c)).on s with ⟨_ | _, s'⟩ <;> rfl
  · rw [Effect.on_bind, on_bound]
    cases ((keyedPredicate c t).on { parameters }).1 <;> rfl

end Schemaless
