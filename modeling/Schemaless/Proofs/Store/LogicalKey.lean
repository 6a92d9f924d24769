import Schemaless.Proofs.Store.Selection
import Schemaless.Proofs.Store.Update

/-!
# The key column beside the native key

The predicate of a statement has its entry on the table's key column moved to the native key. For a
document whose key column and native key are both missing, or hold equal values (`Document.KeysAgree`),
that makes no difference: no condition tells equal values apart (`conditionHolds_congr`), and only the
entry that moves is read against another field (`holds_resolveKey`). A table of such documents is read as
if its key column were an ordinary one (`readsAlike_of_keysAgree`).
-/

namespace Schemaless

open Sql

/-! ## Conditions on equal values -/

namespace Value

variable {a b : Value}

theorem equal_congr (h : a.equal b = true) (v : Value) : a.equal v = b.equal v := by
  rw [Bool.eq_iff_iff]
  exact ⟨equal_trans (equal_symm h), equal_trans h⟩

theorem compare_congr (h : a.equal b = true) (v : Value) : a.compare v = b.compare v := by
  rcases equal_iff.1 h with ⟨x, y, rfl, rfl, hrank⟩ | hsame
  · cases v with
    | num z => rw [compare, compare, hrank]
    | _ => rfl
  · cases a with
    | num x =>
      obtain ⟨y, rfl, hrank⟩ := eq_num_of_same hsame
      cases v with
      | num z => rw [compare, compare, hrank]
      | _ => rfl
    | null | arr _ | obj _ => cases b <;> first | rfl | simp [same] at hsame
    | bool x =>
      cases b with
      | bool y => rw [show x = y by simpa [same] using hsame]
      | _ => simp [same] at hsame
    | str x =>
      cases b with
      | str y => rw [show x = y by simpa [same] using hsame]
      | _ => simp [same] at hsame

end Value

/-- Two fields that are both missing, or hold equal values. -/
abbrev FieldsAgree (f g : Option Value) : Prop := Option.Rel (fun a b => a.equal b = true) f g

namespace Predicate

variable {f g : Option Value}

theorem listed_congr {a b : Value} (h : a.equal b = true) (list : Value) :
    listed list a = listed list b := by
  cases list with
  | arr items =>
    have hitem : (fun v => a.equal v) = fun v => b.equal v := funext (Value.equal_congr h)
    simp only [listed, hitem]
  | _ => simp only [listed, Value.equal_congr h]

theorem fieldEquals_congr (h : FieldsAgree f g) (v : Value) : fieldEquals f v = fieldEquals g v := by
  cases h with
  | none => rfl
  | some h => simp only [fieldEquals, Option.any_some, Value.equal_congr h]

theorem fieldOrdered_congr (h : FieldsAgree f g) (v : Value) (ask : Ordering → Bool) :
    fieldOrdered f v ask = fieldOrdered g v ask := by
  cases h with
  | none => rfl
  | some h => simp only [fieldOrdered, Option.bind_some, Value.compare_congr h]

theorem any_listed_congr (h : FieldsAgree f g) (list : Value) :
    f.any (listed list) = g.any (listed list) := by
  cases h with
  | none => rfl
  | some h => simp only [Option.any_some, listed_congr h]

theorem operatorHolds_congr (h : FieldsAgree f g) (e : String × Value) :
    operatorHolds f e = operatorHolds g e := by
  unfold operatorHolds
  split <;>
    simp only [fieldEquals_congr h, fieldOrdered_congr h, any_listed_congr h]

/-- No condition tells two fields with equal values apart. -/
theorem conditionHolds_congr (h : FieldsAgree f g) (condition : Value) :
    conditionHolds f condition = conditionHolds g condition := by
  have hoperators : operatorHolds f = operatorHolds g := funext (operatorHolds_congr h)
  cases condition with
  | obj operators => simp only [conditionHolds, hoperators, fieldEquals_congr h]
  | _ => simp only [conditionHolds, fieldEquals_congr h]

end Predicate

/-! ## Moving an entry to the native key -/

/-- The document has neither the column nor a native key, or equal values under both. -/
def Document.KeysAgree (column : String) (d : Document) : Prop :=
  FieldsAgree (d.get? column) (d.get? nativeKey)

theorem resolveKey_of_missing {d : Document} (h : d.get? nativeKey = none) (c : Config)
    (table : String) (replace : Bool) :
    resolveKey c table replace d =
      match d.get? (c.keyOf table) with
      | none => d
      | some v => (if replace then d.erase (c.keyOf table) else d).insert nativeKey v := by
  unfold resolveKey
  exact if_neg (by simp [SortedMap.contains, h])

theorem get?_resolveKey {c : Config} {table : String} {p : Predicate} {v : Value}
    (hnative : p.get? nativeKey = none) (hkey : p.get? (c.keyOf table) = some v) (name : String) :
    (resolveKey c table true p).get? name =
      if name = nativeKey then some v else if name = c.keyOf table then none else p.get? name := by
  rw [resolveKey_of_missing hnative, hkey]
  simp only [if_true, SortedMap.get?_insert, SortedMap.get?_erase]

/-- Where the key column and the native key agree, a predicate answers alike before and after its key is
resolved. -/
theorem holds_resolveKey {c : Config} {table : String} {d : Document}
    (hand : c.keyOf table ≠ andName) (hor : c.keyOf table ≠ orName) (hd : d.KeysAgree (c.keyOf table))
    (p : Predicate) : Predicate.holds (resolveKey c table true p) d = p.holds d := by
  by_cases hnative : p.contains nativeKey = true
  · rw [resolveKey, if_pos hnative]
  · have hmissing : p.get? nativeKey = none := by simpa [SortedMap.contains] using hnative
    cases hkey : p.get? (c.keyOf table) with
    | none => rw [resolveKey_of_missing hmissing, hkey]
    | some v =>
      have hget := get?_resolveKey hmissing hkey
      -- the entry that moves asks the same of either field
      have hmoved : Predicate.entryHolds d (nativeKey, v) =
          Predicate.entryHolds d (c.keyOf table, v) := by
        rw [Predicate.entryHolds, Predicate.entryHolds, if_neg (by decide), if_neg (by decide),
          if_neg hand, if_neg hor, Predicate.conditionHolds_congr hd v]
      rw [Bool.eq_iff_iff, Predicate.holds_iff, Predicate.holds_iff]
      constructor
      · intro h name w hw
        by_cases hname : name = c.keyOf table
        · subst hname
          obtain rfl := Option.some.inj (hw.symm.trans hkey)
          rw [← hmoved]
          exact h nativeKey w (by rw [hget, if_pos rfl])
        · have hnot : name ≠ nativeKey := by
            rintro rfl
            rw [hmissing] at hw
            cases hw
          exact h name w (by rw [hget, if_neg hnot, if_neg hname, hw])
      · intro h name w hw
        rw [hget] at hw
        by_cases hname : name = nativeKey
        · rw [if_pos hname] at hw
          obtain rfl := Option.some.inj hw
          rw [hname, hmoved]
          exact h _ _ hkey
        · rw [if_neg hname] at hw
          split at hw
          · cases hw
          · exact h name w hw

/-! ## The key column as an ordinary column -/

theorem keyOf_setTableKey {column : String} (h : column ≠ "") (c : Config) (table : String) :
    (c.setTableKey table column).keyOf table = column := by
  simp [Config.keyOf, Config.tableKey?, Config.setTableKey, SortedMap.get?_insert, Option.filter, h]

/-- Where the native key is the key column, nothing is moved. -/
theorem resolveKey_of_native {c : Config} {table : String} (h : c.keyOf table = nativeKey)
    (p : Predicate) : resolveKey c table true p = p := by
  by_cases hnative : p.contains nativeKey = true
  · rw [resolveKey, if_pos hnative]
  · have hmissing : p.get? nativeKey = none := by simpa [SortedMap.contains] using hnative
    rw [resolveKey_of_missing hmissing, h, hmissing]

/-- A table whose documents have agreeing keys is read as if the native key were its key column, so that
its key column is one like any other. -/
theorem readsAlike_of_keysAgree {c : Config} {table : String} {s : Store}
    (hand : c.keyOf table ≠ andName) (hor : c.keyOf table ≠ orName)
    (hkeys : ∀ d ∈ s.documentsAt ⟨c.database, table⟩, d.KeysAgree (c.keyOf table)) :
    c.ReadsAlike (c.setTableKey table nativeKey) table s where
  database := rfl
  holds p d hd := by
    have hnative : (c.setTableKey table nativeKey).keyOf table = nativeKey :=
      keyOf_setTableKey (by decide) c table
    rw [resolveKey_of_native hnative, holds_resolveKey hand hor (hkeys d hd)]

end Schemaless
