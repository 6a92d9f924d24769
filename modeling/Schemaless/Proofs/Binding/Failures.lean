import Schemaless.Proofs.Binding.Operands
import Schemaless.Proofs.Effect
import Schemaless.Store.Modification

/-!
# How a binding fails

A binding misses a parameter, meets a literal without a value, or does not know an operator. It fails in
no other way (`Binding.FailsItself`), so whatever else a statement fails with comes from the store.
-/

namespace Schemaless

open Sql

/-- The failure is one of the binding's own. -/
def Failure.OfBinding : Failure → Prop
  | .binding _ _ => True
  | .coercion _ => True
  | .unsupportedOperator _ => True
  | _ => False

namespace Binding

variable {α β : Type} {m : Binding α} {f : α → Binding β}

/-- The binding fails with failures of its own alone. -/
def FailsItself (m : Binding α) : Prop :=
  Effect.Ensures (fun _ => True) (fun _ e => e.OfBinding) m

theorem FailsItself.bind (hm : m.FailsItself) (hf : ∀ a, (f a).FailsItself) :
    (m >>= f).FailsItself := Effect.Ensures.bind hm hf

theorem failsItself_pure (a : α) : FailsItself (pure a) := Effect.ensures_pure a

theorem FailsItself.map (hm : m.FailsItself) (g : α → β) : (g <$> m).FailsItself :=
  Effect.Ensures.map hm g

theorem failsItself_next : FailsItself next := by
  intro cursor _
  refine ⟨trivial, fun e he => ?_⟩
  change (next cursor).1 = .error e at he
  unfold next at he
  split at he <;> cases he
  exact trivial

theorem failsItself_take (n : Nat) : FailsItself (take n) := by
  induction n with
  | zero => exact failsItself_pure []
  | succ n ih => exact failsItself_next.bind fun v => ih.bind fun vs => failsItself_pure (v :: vs)

theorem failsItself_bindExpression (membership : Bool) (text : String) :
    FailsItself (bindExpression membership text) := by
  have hliteral (r : Except CoercionFault Value) :
      FailsItself (Effect.ofExcept (r.mapError .coercion)) := by
    refine Effect.ensures_ofExcept fun e he _ => ?_
    cases r <;> cases he
    exact trivial
  unfold bindExpression
  split
  · exact hliteral _
  · exact failsItself_next.bind fun v => failsItself_pure (filled text v)
  · exact (failsItself_take _).bind fun vs => failsItself_pure (Value.arr vs)

theorem failsItself_bindCondition (c : Condition) : FailsItself (bindCondition c) := by
  have hresolve : FailsItself (Effect.ofExcept (Operator.resolve c.operator c.inverse)) := by
    refine Effect.ensures_ofExcept fun e he _ => ?_
    unfold Operator.resolve Operator.parse at he
    cases hoperator : Operator.ofText? c.operator.toList with
    | none =>
      rw [hoperator] at he
      cases he
      exact trivial
    | some o =>
      rw [hoperator] at he
      cases hinverse : c.inverse <;> rw [hinverse] at he <;> cases o <;> cases he <;> exact trivial
  exact hresolve.bind fun o => (failsItself_bindExpression _ _).bind fun v => failsItself_pure _

mutual

theorem failsItself_bindCriterion : (c : Criterion) → FailsItself (bindCriterion c)
  | .condition c => failsItself_bindCondition c
  | .group logical [] => failsItself_pure SortedMap.empty
  | .group logical [single] => failsItself_bindCriterion single
  | .group logical (first :: second :: rest) => by
    rw [bindCriterion, bindGroup_of_two]
    exact (failsItself_bindItems (first :: second :: rest)).map _

theorem failsItself_bindItems : (items : List Criterion) → FailsItself (bindItems items)
  | [] => failsItself_pure []
  | first :: rest =>
    (failsItself_bindCriterion first).bind fun p =>
      (failsItself_bindItems rest).bind fun ps => failsItself_pure (.obj p.entries :: ps)

end

theorem failsItself_keyedPredicate (c : Config) (t : Statement) : FailsItself (keyedPredicate c t) :=
  (failsItself_bindCriterion (.group t.criteria.logical t.criteria.items)).bind fun p =>
    failsItself_pure (resolveKey c t.table true p)

theorem failsItself_bindRecord (t : Statement) : FailsItself (bindRecord t) := by
  have hcolumns (columns : List Column) (record : Document) :
      FailsItself (bindColumns columns record) := by
    induction columns generalizing record with
    | nil => exact failsItself_pure record
    | cons c columns ih =>
      rw [bindColumns]
      cases c.expression with
      | none => exact (failsItself_pure Value.null).bind fun v => ih _
      | some text => exact (failsItself_bindExpression false text).bind fun v => ih _
  exact hcolumns t.columns SortedMap.empty

theorem failsItself_recordAndPredicate (c : Config) (t : Statement) :
    FailsItself (recordAndPredicate c t) :=
  (failsItself_bindRecord t).bind fun record =>
    (failsItself_keyedPredicate c t).bind fun p => failsItself_pure (record, p)

/-- What is bound from the first parameter on fails with a failure of the binding's own. -/
theorem FailsItself.on (h : m.FailsItself) {ps : List Value} {e : Failure}
    (he : (m.on { parameters := ps }).1 = .error e) : e.OfBinding :=
  (h { parameters := ps } trivial).2 e he

end Binding

end Schemaless
