import Schemaless.Store.Operations
import Mathlib.Data.List.Basic

/-!
# Operations as equations

What each operation of a store answers and what it leaves, as one equation in the store it starts
from. A read-only store answers with its refusal and stays (`on_checkWritable_bind`); past that, an
insertion spends a key if the document has none (`on_insert`), a replacement puts the successor in
the place of the first document selected (`on_replace`, `replaceFirst_of_find?`), and a removal keeps
what is not selected (`on_remove`).
-/

namespace Schemaless.Store

variable {α : Type} (p : Place) (s : Store)

/-- A read-only store refuses all that would come after the check. -/
theorem on_checkWritable_bind (f : Unit → StoreM α) :
    (checkWritable p >>= f).on s =
      if s.readOnly then (.error (.internal (.readOnly p.collection)), s) else (f ()).on s := by
  have h : (checkWritable p).on s =
      if s.readOnly then (.error (.internal (.readOnly p.collection)), s) else (.ok (), s) := rfl
  rw [Effect.on_bind, h]
  cases s.readOnly <;> rfl

theorem on_append (key : Value) (d : Document) :
    (append p key d).on s =
      if (s.documentsAt p).any (hasKey key) then (.error (.duplicateKey p.collection key), s)
      else (.ok (), { s with catalog := s.catalog.put p (s.documentsAt p ++ [d]) }) := rfl

theorem on_insert (d : Document) :
    (insert p d).on s =
      if s.readOnly then (.error (.internal (.readOnly p.collection)), s)
      else
        match d.get? nativeKey with
        | some key => (append p key d).on s
        | none =>
          let key := Value.str (keyText s.nextKey)
          (append p key (d.insert nativeKey key)).on { s with nextKey := s.nextKey + 1 } := by
  rw [insert, on_checkWritable_bind]
  congr 1
  rw [Effect.on_bind]
  cases h : d.get? nativeKey <;> simp [Effect.on, withKey, h]

theorem on_replace (filter : Predicate) (d : Document) :
    (replace p filter d).on s =
      if s.readOnly then (.error (.internal (.readOnly p.collection)), s)
      else
        match (s.documentsAt p).find? filter.holds with
        | none => (.ok 0, s)
        | some old =>
          match successor p old d with
          | .error e => (.error e, s)
          | .ok new =>
            let documents := replaceFirst filter.holds new (s.documentsAt p)
            (.ok 1, { s with catalog := s.catalog.put p documents }) := by
  rw [replace, on_checkWritable_bind]
  congr 1
  simp only [Effect.on_bind, Effect.on_get]
  rw [← documentsAt]
  cases (s.documentsAt p).find? filter.holds with
  | none => rfl
  | some old =>
    simp only [Effect.on_bind, Effect.on_ofExcept]
    cases successor p old d <;> rfl

theorem on_remove (filter : Predicate) :
    (remove p filter).on s =
      if s.readOnly then (.error (.internal (.readOnly p.collection)), s)
      else
        match Catalog.collection? s.catalog p with
        | none => (.ok 0, s)
        | some documents =>
          let kept := documents.filter fun d => !filter.holds d
          (.ok (documents.length - kept.length), { s with catalog := s.catalog.put p kept }) := by
  rw [remove, on_checkWritable_bind]
  congr 1
  simp only [Effect.on_bind, Effect.on_get]
  cases Catalog.collection? s.catalog p <;> rfl

theorem on_drop :
    (drop p).on s =
      if s.readOnly then (.error (.internal (.readOnly p.collection)), s)
      else
        match Catalog.collection? s.catalog p with
        | none => (.error (.collectionNotFound p.collection), s)
        | some _ => (.ok (), { s with catalog := s.catalog.drop p }) := by
  rw [drop, on_checkWritable_bind]
  congr 1
  simp only [Effect.on_bind, Effect.on_get]
  cases Catalog.collection? s.catalog p <;> rfl

theorem on_onTable (table : String) (m : StoreM α) :
    (m.onTable table).on s = ((m.on s).1.mapError (.store table), (m.on s).2) := rfl

theorem onTable_eq_ok {table : String} {m : StoreM α} {a : α} {s s' : Store} :
    (m.onTable table).on s = (.ok a, s') ↔ m.on s = (.ok a, s') := by
  rw [on_onTable]
  rcases m.on s with ⟨_ | b, t⟩ <;> simp [Except.mapError]

/-- A removal counts the documents selected. -/
theorem affected_of_remove {p : Place} {filter : Predicate} {s s' : Store} {n : Nat}
    (h : (remove p filter).on s = (.ok n, s')) :
    n = ((s.documentsAt p).filter filter.holds).length := by
  rw [on_remove] at h
  split at h
  · cases h
  · rw [documentsAt, Catalog.documents]
    cases hat : Catalog.collection? s.catalog p with
    | none =>
      rw [hat] at h
      cases h
      rfl
    | some ds =>
      rw [hat] at h
      cases h
      have hsplit := List.length_eq_length_filter_add (l := ds) filter.holds
      rw [Option.getD_some]
      omega

theorem affected_of_replace {p : Place} {filter : Predicate} {d : Document} {s s' : Store} {n : Nat}
    (h : (replace p filter d).on s = (.ok n, s')) : n ≤ 1 := by
  rw [on_replace] at h
  split at h
  · cases h
  · split at h
    · cases h
      omega
    · split at h
      · cases h
      · cases h
        omega

/-! ## Replacing one document -/

theorem replaceFirst_append {α : Type} {test : α → Bool} {before : List α}
    (h : ∀ x ∈ before, test x = false) (old new : α) (after : List α) (hold : test old = true) :
    replaceFirst test new (before ++ old :: after) = before ++ new :: after := by
  induction before with
  | nil => simp [replaceFirst, hold]
  | cons x rest ih =>
    rw [List.cons_append, replaceFirst, h x (by simp), ih fun y hy => h y (by simp [hy])]
    rfl

/-- The first selected item stands between items that are not selected and the rest, and it is the one
replaced. -/
theorem replaceFirst_of_find? {α : Type} {test : α → Bool} {l : List α} {old : α}
    (h : l.find? test = some old) :
    ∃ before after, l = before ++ old :: after ∧ (∀ x ∈ before, test x = false) ∧
      ∀ new, replaceFirst test new l = before ++ new :: after := by
  obtain ⟨hold, before, after, rfl, hbefore⟩ := List.find?_eq_some_iff_append.1 h
  have hnot : ∀ x ∈ before, test x = false := fun x hx => by simpa using hbefore x hx
  exact ⟨before, after, rfl, hnot, fun new => replaceFirst_append hnot old new after hold⟩

/-- A successor has a key equal to that of the document it replaces. -/
theorem key_of_successor {old d new : Document} (h : successor p old d = .ok new) :
    ∃ key, new.get? nativeKey = some key ∧
      key.equal ((old.get? nativeKey).getD .null) = true := by
  cases hk : d.get? nativeKey with
  | none =>
    simp only [successor, hk] at h
    cases h
    exact ⟨_, by rw [SortedMap.get?_insert, if_pos rfl], Value.equal_refl _⟩
  | some k =>
    simp only [successor, hk] at h
    split at h
    · next hkey =>
      cases h
      exact ⟨k, hk, hkey⟩
    · cases h

end Schemaless.Store
