import Schemaless.Proofs.Entries
import Schemaless.Proofs.Store.Dependence
import Schemaless.Proofs.Store.Operations

/-!
# What a predicate selects

A statement uses the predicate of its criteria only to ask the documents of its table one by one. The
predicate without entries holds of all documents, so that a `SELECT` reads the whole collection there
makes no difference (`select_eq`). Two predicates that answer alike on the documents of a table therefore
select the same rows, and a replacement or a removal by the one is a replacement or a removal by the
other (`Store.on_replace_congr`, `Store.on_remove_congr`).
-/

namespace Schemaless

open Sql

namespace Predicate

theorem entriesHold_eq_all (d : Document) (entries : List (String × Value)) :
    entriesHold d entries = entries.all (entryHolds d) := by
  induction entries with
  | nil => rfl
  | cons e rest ih => rw [entriesHold, ih, List.all_cons]

/-- A predicate holds when each of its entries does, in whatever order they stand. -/
theorem holds_iff {p : Predicate} {d : Document} :
    p.holds d = true ↔ ∀ name v, p.get? name = some v → entryHolds d (name, v) = true := by
  rw [holds, entriesHold_eq_all, List.all_eq_true]
  constructor
  · intro h name v hget
    exact h (name, v) ((Ascending.lookup_eq_some_iff p.ascending).1 hget)
  · intro h e he
    exact h e.1 e.2 ((Ascending.lookup_eq_some_iff p.ascending).2 he)

theorem holds_of_isEmpty {p : Predicate} (h : p.isEmpty = true) (d : Document) : p.holds d = true := by
  refine holds_iff.2 fun name v hget => ?_
  rw [SortedMap.get?_of_isEmpty h] at hget
  cases hget

end Predicate

/-! ## Reading -/

theorem Store.find_of_predicate (s : Store) (place : Place) (p : Predicate) :
    s.find place (if p.isEmpty then none else some p) = (s.documentsAt place).filter p.holds := by
  by_cases hp : p.isEmpty = true
  · rw [if_pos hp, List.filter_eq_self.2 fun d _ => Predicate.holds_of_isEmpty hp d]
    rfl
  · rw [if_neg hp]
    rfl

/-- The rows of a `SELECT` are those of the documents that its predicate holds of. -/
theorem select_eq {c : Config} {t : Statement} (hkind : t.kind = .select) (parameters : List Value)
    (s : Store) :
    select c t parameters s =
      ((keyedPredicate c t).on { parameters }).1.map fun p =>
        ((s.documentsAt (t.place c)).filter p.holds).map (Row.ofDocument t) := by
  rw [select, if_neg (by simp [hkind])]
  cases ((keyedPredicate c t).on { parameters }).1 with
  | error e => rfl
  | ok p => simp only [Except.map, Store.find_of_predicate]

/-! ## Predicates that answer alike -/

namespace Store

variable {place : Place} {s : Store} {p q : Predicate}

theorem find?_congr_of_mem {α : Type} {l : List α} {f g : α → Bool} (h : ∀ a ∈ l, f a = g a) :
    l.find? f = l.find? g := by
  rw [← List.head?_filter, ← List.head?_filter, List.filter_congr h]

theorem replaceFirst_congr {α : Type} {l : List α} {f g : α → Bool} (h : ∀ a ∈ l, f a = g a)
    (item : α) : replaceFirst f item l = replaceFirst g item l := by
  induction l with
  | nil => rfl
  | cons a rest ih =>
    rw [replaceFirst, replaceFirst, h a (by simp), ih fun b hb => h b (by simp [hb])]

theorem on_replace_congr (h : ∀ d ∈ s.documentsAt place, p.holds d = q.holds d) (new : Document) :
    (replace place p new).on s = (replace place q new).on s := by
  rw [on_replace, on_replace, find?_congr_of_mem h]
  simp only [replaceFirst_congr h]

theorem on_remove_congr (h : ∀ d ∈ s.documentsAt place, p.holds d = q.holds d) :
    (remove place p).on s = (remove place q).on s := by
  rw [on_remove, on_remove]
  rw [documentsAt, Catalog.documents] at h
  cases hat : Catalog.collection? s.catalog place with
  | none => rfl
  | some ds =>
    rw [hat, Option.getD_some] at h
    have hkept : (ds.filter fun d => !p.holds d) = ds.filter fun d => !q.holds d :=
      List.filter_congr fun d hd => by rw [h d hd]
    simp only [hkept]

end Store

/-! ## Configurations that read alike -/

section

variable {c c' : Config} {t : Statement} {s : Store}

/-- The two configurations use one database, and whatever predicate they resolve for a table, the results
answer alike on the documents that are there. -/
structure Config.ReadsAlike (c c' : Config) (table : String) (s : Store) : Prop where
  database : c'.database = c.database
  holds : ∀ p, ∀ d ∈ s.documentsAt ⟨c.database, table⟩,
    Predicate.holds (resolveKey c' table true p) d = Predicate.holds (resolveKey c table true p) d

theorem on_keyedPredicate (c : Config) (t : Statement) (cursor : Cursor) :
    (keyedPredicate c t).on cursor =
      (((bindCriteria t.criteria).on cursor).1.map (resolveKey c t.table true),
        ((bindCriteria t.criteria).on cursor).2) := by
  rw [keyedPredicate, ← map_eq_pure_bind, Effect.on_map]

theorem Config.ReadsAlike.select_eq (h : c.ReadsAlike c' t.table s) (hkind : t.kind = .select)
    (parameters : List Value) : select c' t parameters s = select c t parameters s := by
  have hplace : t.place c' = t.place c := by rw [Statement.place, Statement.place, h.database]
  rw [Schemaless.select_eq hkind, Schemaless.select_eq hkind, on_keyedPredicate, on_keyedPredicate,
    hplace]
  cases ((bindCriteria t.criteria).on { parameters }).1 with
  | error e => rfl
  | ok p =>
    have hfilter := List.filter_congr (h.holds p)
    simp only [Except.map, Statement.place, hfilter]

theorem Config.ReadsAlike.on_modify (h : c.ReadsAlike c' t.table s) (hkind : t.kind ≠ .insert)
    (parameters : List Value) : (modify c' t parameters).on s = (modify c t parameters).on s := by
  have hplace : t.place c' = t.place c := by rw [Statement.place, Statement.place, h.database]
  rw [modify, modify]
  cases hk : t.kind with
  | insert => exact absurd hk hkind
  | select => rfl
  | update =>
    show (runUpdate c' t parameters).on s = (runUpdate c t parameters).on s
    rw [on_runUpdate, on_runUpdate, on_recordAndPredicate, on_recordAndPredicate, hplace]
    cases ((bindStatement t).on { parameters }).1 with
    | error e => rfl
    | ok values =>
      have hagree := h.holds values.2
      have hfind := Store.find?_congr_of_mem hagree
      simp only [Except.map, Statement.place, hfind]
      rw [Store.on_onTable, Store.on_onTable, Store.on_replace_congr hagree]
  | delete =>
    show (runDelete c' t parameters).on s = (runDelete c t parameters).on s
    rw [on_runDelete, on_runDelete, on_keyedPredicate, on_keyedPredicate, hplace]
    cases ((bindCriteria t.criteria).on { parameters }).1 with
    | error e => rfl
    | ok p =>
      have hagree := h.holds p
      simp only [Except.map, Statement.place]
      rw [Store.on_onTable, Store.on_onTable, Store.on_remove_congr hagree]

end

end Schemaless
