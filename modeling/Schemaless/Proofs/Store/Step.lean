import Schemaless.Store.Modification
import Schemaless.Proofs.Effect
import Schemaless.Proofs.Store.Operations
import Mathlib.Logic.Relation

/-!
# The changes that work on a store makes

Whatever is done to a store, it changes by a few kinds of steps: a key is generated, a document is
appended under a key that is new to its collection, a document is replaced by one with an equal key,
documents are removed, a collection is dropped. `Store.Step` says so once, with what is known at each
step, and every operation and every modifying statement leads from a store to another by such steps,
however it ends (`moves_insertAll`, `moves_modify`). What a step keeps, all work on a store keeps.
-/

namespace Schemaless

namespace Store

/-- One change to a store. None is made to a read-only store. -/
inductive Step (s : Store) : Store → Prop where
  /-- A key is generated. -/
  | spend (hw : s.readOnly = false) : Step s { s with nextKey := s.nextKey + 1 }
  /-- A document is appended under a key that no document there has. -/
  | append (hw : s.readOnly = false) (p : Place) {key : Value} {d : Document}
      (hkey : d.get? nativeKey = some key) (hnew : (s.documentsAt p).any (hasKey key) = false) :
      Step s { s with catalog := s.catalog.put p (s.documentsAt p ++ [d]) }
  /-- A document is replaced by one with an equal key. -/
  | replace (hw : s.readOnly = false) (p : Place) {before after : Collection}
      {old new : Document} {key : Value} (hat : s.documentsAt p = before ++ old :: after)
      (hkey : new.get? nativeKey = some key)
      (hsame : key.equal ((old.get? nativeKey).getD .null) = true) :
      Step s { s with catalog := s.catalog.put p (before ++ new :: after) }
  /-- Documents are removed from a collection. -/
  | remove (hw : s.readOnly = false) (p : Place) (kept : Document → Bool) :
      Step s { s with catalog := s.catalog.put p ((s.documentsAt p).filter kept) }
  /-- A collection is dropped. -/
  | drop (hw : s.readOnly = false) (p : Place) : Step s { s with catalog := s.catalog.drop p }

/-- Any number of changes. -/
abbrev Steps : Store → Store → Prop := Relation.ReflTransGen Step

/-- Changes are to the databases and to the number of the next key. -/
theorem rest_of_steps {s t : Store} (h : Steps s t) :
    t = { s with catalog := t.catalog, nextKey := t.nextKey } := by
  induction h with
  | refl => rfl
  | tail _ hlast ih =>
    rw [ih] at hlast
    cases hlast <;> rfl

variable (p : Place)

/-! ## Operations -/

theorem steps_append {s : Store} (hw : s.readOnly = false) {key : Value} {d : Document}
    (hkey : d.get? nativeKey = some key) : Steps s ((append p key d).on s).2 := by
  rw [on_append]
  cases hnew : (s.documentsAt p).any (hasKey key) with
  | true => exact .refl
  | false => exact .single (.append hw p hkey hnew)

theorem moves_insert (d : Document) : (insert p d).Moves Steps := by
  intro s
  rw [on_insert]
  split
  · exact .refl
  · next hro =>
    have hw : s.readOnly = false := by simpa using hro
    cases hkey : d.get? nativeKey with
    | some key => exact steps_append p hw hkey
    | none =>
      -- the generated key is spent even if the insertion is refused
      have hkey' : (d.insert nativeKey (.str (keyText s.nextKey))).get? nativeKey =
          some (.str (keyText s.nextKey)) := by rw [SortedMap.get?_insert, if_pos rfl]
      exact .head (.spend hw) (steps_append (s := { s with nextKey := s.nextKey + 1 }) p hw hkey')

theorem moves_insertAll (ds : List Document) : (insertAll p ds).Moves Steps := by
  induction ds with
  | nil => exact Effect.moves_pure _
  | cons d rest ih => exact (moves_insert p d).bind fun _ => ih

theorem moves_replace (filter : Predicate) (d : Document) :
    (replace p filter d).Moves Steps := by
  intro s
  rw [on_replace]
  split
  · exact .refl
  · next hro =>
    have hw : s.readOnly = false := by simpa using hro
    cases hfind : (s.documentsAt p).find? filter.holds with
    | none => exact .refl
    | some old =>
      cases hnew : successor p old d with
      | error e => simp only [hnew]; exact .refl
      | ok new =>
        obtain ⟨before, after, hat, -, hreplace⟩ := replaceFirst_of_find? hfind
        obtain ⟨key, hkey, hsame⟩ := key_of_successor p hnew
        simp only [hnew, hreplace]
        exact .single (.replace hw p hat hkey hsame)

theorem moves_remove (filter : Predicate) : (remove p filter).Moves Steps := by
  intro s
  rw [on_remove]
  split
  · exact .refl
  · next hro =>
    have hw : s.readOnly = false := by simpa using hro
    cases hat : Catalog.collection? s.catalog p with
    | none => exact .refl
    | some ds =>
      have hds : s.documentsAt p = ds := by rw [documentsAt, Catalog.documents, hat]; rfl
      have hstep := Step.remove hw p fun d => !filter.holds d
      rw [hds] at hstep
      exact .single hstep

theorem moves_drop : (drop p).Moves Steps := by
  intro s
  rw [on_drop]
  split
  · exact .refl
  · next hro =>
    have hw : s.readOnly = false := by simpa using hro
    cases Catalog.collection? s.catalog p with
    | none => exact .refl
    | some _ => exact .single (.drop hw p)

end Store

/-! ## Statements -/

variable {α : Type} {R : Store → Store → Prop}

theorem moves_onTable {m : StoreM α} (h : m.Moves R) (table : String) :
    (m.onTable table).Moves R := by
  intro s
  rw [Store.on_onTable]
  exact h s

theorem moves_bound [Std.Refl R] (parameters : List Value) (b : Binding α) :
    (bound parameters b).Moves R := Effect.moves_ofExcept _

theorem moves_modify (c : Config) (t : Sql.Statement) (parameters : List Value) :
    (modify c t parameters).Moves Store.Steps := by
  unfold modify
  cases t.kind with
  | insert =>
    refine (moves_bound _ _).bind fun record => ?_
    exact (moves_onTable (Store.moves_insert _ _) _).bind fun _ => Effect.moves_pure _
  | update =>
    refine (moves_bound _ _).bind fun (record, p) => ?_
    exact Effect.moves_get.bind fun s => moves_onTable (Store.moves_replace _ _ _) _
  | delete =>
    simp only [runDelete]
    split
    · refine Effect.moves_get.bind fun s => ?_
      split
      · exact Effect.moves_pure _
      · exact (moves_onTable (Store.moves_drop _) _).bind fun _ => Effect.moves_pure _
    · exact (moves_bound _ _).bind fun p => moves_onTable (Store.moves_remove _ _) _
  | select => exact Effect.moves_throw _

end Schemaless
