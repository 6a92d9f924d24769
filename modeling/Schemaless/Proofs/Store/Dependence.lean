import Schemaless.Proofs.Binding.Operands
import Schemaless.Proofs.Store.Modification
import Schemaless.Store.Selection

/-!
# What a statement depends on

A statement as the grammar derives it binds its values and its criteria in full before it touches the
store (`Statement.Formed`), though an insertion has no criteria to bind and a selection no values. So
its record and its predicate settle what it does: statements that bind the same, for the same table and
the same columns, do the same (`on_modify_congr`, `select_congr`), and where binding fails there is
that failure and nothing else (`on_modify_of_error`, `select_of_error`).
-/

namespace Schemaless

open Sql

/-- Operands stand where the kind of the statement has them: an insertion is without criteria, and what
is selected or deleted is given no values. -/
structure Sql.Statement.Formed (s : Statement) : Prop where
  insertion : s.kind = .insert → s.criteria.items = []
  selection : s.kind = .select ∨ s.kind = .delete → ∀ c ∈ s.columns, c.expression = none

theorem expression_of_listed {ts : List Token} {columns : List Column}
    (h : Grammar.Listed Grammar.Shown ts columns) : ∀ c ∈ columns, c.expression = none := by
  have hshown {us : List Token} {c : Column} (hc : Grammar.Shown us c) : c.expression = none := by
    cases hc <;> rfl
  induction h with
  | one hc =>
    intro d hd
    rw [List.mem_singleton.1 hd]
    exact hshown hc
  | more hc _ ih =>
    intro d hd
    rcases List.mem_cons.1 hd with rfl | hd
    · exact hshown hc
    · exact ih d hd

theorem formed_of_body {ts : List Token} {s : Statement} (h : Grammar.Body ts s) : s.Formed := by
  cases h with
  | selectAll => exact ⟨nofun, fun _ => by simp⟩
  | select _ hcolumns => exact ⟨nofun, fun _ => expression_of_listed hcolumns⟩
  | insert => exact ⟨fun _ => rfl, fun h => by simp at h⟩
  | update => exact ⟨nofun, fun h => by simp at h⟩
  | delete => exact ⟨nofun, fun _ => by simp⟩

/-! ## Binding in full -/

section

variable {c : Config} {s t : Statement} {ps qs : List Value}

theorem bindColumns_of_none {columns : List Column} (h : ∀ c ∈ columns, c.expression = none)
    (record : Document) : ∃ result, bindColumns columns record = pure result := by
  induction columns generalizing record with
  | nil => exact ⟨record, rfl⟩
  | cons c columns ih =>
    obtain ⟨result, hresult⟩ := ih (fun d hd => h d (by simp [hd])) (record.insert c.name .null)
    refine ⟨result, ?_⟩
    rw [bindColumns, h c (by simp)]
    exact hresult

theorem bindCriteria_of_nil {criteria : Criteria} (h : criteria.items = []) :
    bindCriteria criteria = pure SortedMap.empty := by
  rw [bindCriteria, h]
  rfl

theorem on_recordAndPredicate (cursor : Cursor) :
    ((recordAndPredicate c s).on cursor).1 =
      ((bindStatement s).on cursor).1.map fun v => (v.1, resolveKey c s.table true v.2) := by
  have hkeyed : recordAndPredicate c s =
      (fun v => (v.1, resolveKey c s.table true v.2)) <$> bindStatement s := by
    simp only [recordAndPredicate, keyedPredicate, bindStatement, map_eq_pure_bind, bind_assoc,
      pure_bind]
  rw [hkeyed, Effect.on_map]

/-- The record of a statement without criteria is bound as if it were bound alone. -/
theorem on_bindRecord_of_insertion (h : s.criteria.items = []) (cursor : Cursor) :
    ((bindRecord s).on cursor).1 = ((bindStatement s).on cursor).1.map Prod.fst := by
  have hboth : bindStatement s = (fun record => (record, SortedMap.empty)) <$> bindRecord s := by
    rw [bindStatement, bindCriteria_of_nil h, map_eq_pure_bind]
    rfl
  rw [hboth, Effect.on_map]
  cases ((bindRecord s).on cursor).1 <;> rfl

/-- The predicate of a statement without values is bound as if it were bound alone. -/
theorem on_keyedPredicate_of_selection (h : ∀ c ∈ s.columns, c.expression = none)
    (cursor : Cursor) :
    ((keyedPredicate c s).on cursor).1 =
      ((bindStatement s).on cursor).1.map fun v => resolveKey c s.table true v.2 := by
  obtain ⟨record, hrecord⟩ := bindColumns_of_none h SortedMap.empty
  have hboth : bindStatement s = (fun p => (record, p)) <$> bindCriteria s.criteria := by
    rw [bindStatement, bindRecord, hrecord, pure_bind, map_eq_pure_bind]
  rw [keyedPredicate, hboth, Effect.on_map, ← map_eq_pure_bind, Effect.on_map]
  cases ((bindCriteria s.criteria).on cursor).1 <;> rfl

/-! ## The same values -/

/-- Two statements of one kind for one table, with criteria or without, which show the same columns. -/
structure Sql.Statement.Alike (s t : Statement) : Prop where
  kind : t.kind = s.kind
  table : t.table = s.table
  criteria : t.criteria.items.isEmpty = s.criteria.items.isEmpty
  columns : s.kind = .select → t.columns = s.columns

theorem on_modify_congr (hs : s.Formed) (ht : t.Formed) (h : s.Alike t)
    (hvalues : ((bindStatement t).on { parameters := qs }).1 =
      ((bindStatement s).on { parameters := ps }).1) (store : Store) :
    (modify c t qs).on store = (modify c s ps).on store := by
  have hplace : t.place c = s.place c := by rw [Statement.place, Statement.place, h.table]
  rw [modify, modify, h.kind]
  cases hkind : s.kind with
  | insert =>
    have hrecord : ((bindRecord t).on { parameters := qs }).1 =
        ((bindRecord s).on { parameters := ps }).1 := by
      rw [on_bindRecord_of_insertion (hs.insertion hkind),
        on_bindRecord_of_insertion (ht.insertion (h.kind.trans hkind)), hvalues]
    show (runInsert c t qs).on store = (runInsert c s ps).on store
    rw [on_runInsert, on_runInsert, hrecord, hplace, h.table]
  | update =>
    show (runUpdate c t qs).on store = (runUpdate c s ps).on store
    rw [on_runUpdate, on_runUpdate, on_recordAndPredicate, on_recordAndPredicate, hvalues, hplace,
      h.table]
  | delete =>
    have hpredicate : ((keyedPredicate c t).on { parameters := qs }).1 =
        ((keyedPredicate c s).on { parameters := ps }).1 := by
      rw [on_keyedPredicate_of_selection (hs.selection (.inr hkind)),
        on_keyedPredicate_of_selection (ht.selection (.inr (h.kind.trans hkind))), hvalues, h.table]
    show (runDelete c t qs).on store = (runDelete c s ps).on store
    rw [on_runDelete, on_runDelete, hpredicate, hplace, h.table, h.criteria]
  | select => rw [h.table]

theorem select_congr (hs : s.Formed) (ht : t.Formed) (h : s.Alike t)
    (hvalues : ((bindStatement t).on { parameters := qs }).1 =
      ((bindStatement s).on { parameters := ps }).1) (store : Store) :
    select c t qs store = select c s ps store := by
  have hplace : t.place c = s.place c := by rw [Statement.place, Statement.place, h.table]
  rw [select, select, h.kind, h.table, hplace]
  by_cases hkind : s.kind = .select
  · have hrow : Row.ofDocument t = Row.ofDocument s := by
      funext d
      unfold Row.ofDocument Statement.outputs
      rw [h.columns hkind]
    rw [on_keyedPredicate_of_selection (hs.selection (.inl hkind)),
      on_keyedPredicate_of_selection (ht.selection (.inl (h.kind.trans hkind))), hvalues, hrow,
      h.table]
  · rw [if_pos hkind, if_pos hkind]

/-! ## Values that cannot be bound -/

/-- A modifying statement that cannot be bound fails so, and the store is as it was. -/
theorem on_modify_of_error {e : Failure} (hs : s.Formed) (hkind : s.kind ≠ .select)
    (h : ((bindStatement s).on { parameters := ps }).1 = .error e) (store : Store) :
    (modify c s ps).on store = (.error e, store) := by
  rw [modify]
  cases hk : s.kind with
  | insert =>
    show (runInsert c s ps).on store = _
    rw [on_runInsert, on_bindRecord_of_insertion (hs.insertion hk), h]
    rfl
  | update =>
    show (runUpdate c s ps).on store = _
    rw [on_runUpdate, on_recordAndPredicate, h]
    rfl
  | delete =>
    show (runDelete c s ps).on store = _
    have hpredicate := on_keyedPredicate_of_selection (c := c) (hs.selection (.inr hk))
      { parameters := ps }
    rw [h] at hpredicate
    have hitems : ¬s.criteria.items.isEmpty = true := by
      intro hitems
      rw [keyedPredicate, bindCriteria_of_nil (List.isEmpty_iff.1 hitems)] at hpredicate
      cases hpredicate
    rw [on_runDelete, if_neg hitems, hpredicate]
    rfl
  | select => exact absurd hk hkind

theorem select_of_error {e : Failure} (hs : s.Formed) (hkind : s.kind = .select)
    (h : ((bindStatement s).on { parameters := ps }).1 = .error e) (store : Store) :
    select c s ps store = .error e := by
  rw [select, if_neg (by simp [hkind]), on_keyedPredicate_of_selection (hs.selection (.inl hkind)), h]
  rfl

end

end Schemaless
