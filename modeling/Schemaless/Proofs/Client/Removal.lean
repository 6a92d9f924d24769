import Schemaless.Proofs.Client.Rows
import Schemaless.Proofs.Store.Combination

/-!
# What is deleted is what would be read

A `DELETE` and a `SELECT *` bind the same predicate, and from there on one path reads the documents that
it selects, one removes them from the collection, and one, without criteria, counts the collection and
drops it. All three select the same documents (`select_eq`, `on_modify_delete`), so a `DELETE` takes away
the rows that the `SELECT` shows, and nothing else (`delete_agrees_with_select`).
-/

namespace Schemaless

open Sql

/-! ## The removal -/

namespace Store

theorem OnlyAt.drop (p : Place) (s : Store) :
    OnlyAt p s { s with catalog := s.catalog.drop p } :=
  ⟨fun q hq => by rw [Catalog.collection?_drop, if_neg hq], rfl⟩

theorem onlyAt_of_remove {p : Place} {filter : Predicate} {s s' : Store} {n : Nat}
    (h : (remove p filter).on s = (.ok n, s')) : OnlyAt p s s' := by
  rw [on_remove] at h
  split at h
  · cases h
  · split at h
    · cases h
      exact .refl p s
    · cases h
      exact .put p s _

/-- The documents of a place that pass a test are gone; all else is as it was. -/
structure Removed (p : Place) (test : Document → Bool) (s s' : Store) : Prop where
  left : s'.documentsAt p = (s.documentsAt p).filter fun d => !test d
  only : OnlyAt p s s'

/-- A collection with documents is dropped, and there is nothing to drop where there are none. -/
structure Dropped (p : Place) (s s' : Store) : Prop where
  gone : s.documentsAt p ≠ [] → s'.catalog.collection? p = none
  same : s.documentsAt p = [] → s' = s

theorem Dropped.removed {p : Place} {s s' : Store} {test : Document → Bool} (h : Dropped p s s')
    (honly : OnlyAt p s s') (htest : ∀ d, test d = true) : Removed p test s s' := by
  refine ⟨?_, honly⟩
  have hnone : ((s.documentsAt p).filter fun d => !test d) = [] := by
    rw [List.filter_eq_nil_iff]
    intro d _
    simp [htest d]
  rw [hnone]
  by_cases hempty : s.documentsAt p = []
  · rw [h.same hempty, hempty]
  · rw [documentsAt, Catalog.documents, h.gone hempty]
    rfl

/-- A collection disappears if and only if it has documents that are dropped. -/
theorem Dropped.disappears_iff {p : Place} {s s' : Store} (h : Dropped p s s') :
    (s.catalog.collection? p ≠ none ∧ s'.catalog.collection? p = none) ↔ s.documentsAt p ≠ [] := by
  constructor
  · rintro ⟨hthere, hgone⟩ hempty
    rw [h.same hempty] at hgone
    exact hthere hgone
  · intro hne
    have hthere := collection?_of_ne_nil hne
    exact ⟨by rw [hthere]; simp, h.gone hne⟩

end Store

section

variable {c : Config} {t : Statement} {parameters : List Value} {s : Store}

theorem keyedPredicate_of_nil (hitems : t.criteria.items = []) (cursor : Cursor) :
    (keyedPredicate c t).on cursor = (.ok (resolveKey c t.table true SortedMap.empty), cursor) := by
  rw [on_keyedPredicate, bindCriteria_of_nil hitems]
  rfl

theorem isEmpty_resolveKey_empty (table : String) :
    (resolveKey c table true SortedMap.empty).isEmpty = true := by
  rw [resolveKey_of_missing (SortedMap.get?_empty _), SortedMap.get?_empty]
  rfl

/-- Without criteria, a `DELETE` counts the collection and drops it. -/
theorem on_modify_delete_all (hkind : t.kind = .delete) (hw : s.readOnly = false)
    (hitems : t.criteria.items = []) (c : Config) (parameters : List Value) :
    ∃ s', (modify c t parameters).on s = (.ok (s.documentsAt (t.place c)).length, s') ∧
      Store.Dropped (t.place c) s s' ∧ Store.OnlyAt (t.place c) s s' := by
  rw [modify, hkind]
  show ∃ s', (runDelete c t parameters).on s = _ ∧ _
  rw [on_runDelete, if_pos (by rw [hitems]; rfl)]
  by_cases hempty : s.documentsAt (t.place c) = []
  · have hcount : s.count (t.place c) = 0 := by rw [Store.count, hempty]; rfl
    rw [if_pos hcount, hempty]
    exact ⟨s, rfl, ⟨fun hne => absurd hempty hne, fun _ => rfl⟩, .refl _ s⟩
  · have hcount : s.count (t.place c) ≠ 0 := fun hzero => hempty (List.length_eq_zero_iff.1 hzero)
    have hdrop : (Store.drop (t.place c)).on s =
        (.ok (), { s with catalog := s.catalog.drop (t.place c) }) := by
      rw [Store.on_drop, hw, collection?_of_ne_nil hempty]
      rfl
    rw [if_neg hcount, hdrop]
    refine ⟨_, rfl, ⟨fun _ => ?_, fun h => absurd h hempty⟩, .drop _ s⟩
    show Catalog.collection? (Catalog.drop s.catalog (t.place c)) (t.place c) = none
    rw [Catalog.collection?_drop, if_pos rfl]

/-- With criteria, a `DELETE` removes what they select. -/
theorem on_modify_delete_some {p : Predicate} (hkind : t.kind = .delete) (hw : s.readOnly = false)
    (hitems : t.criteria.items ≠ [])
    (hp : ((keyedPredicate c t).on { parameters }).1 = .ok p) :
    ∃ s', (modify c t parameters).on s =
        (.ok ((s.documentsAt (t.place c)).filter p.holds).length, s') ∧
      Store.Removed (t.place c) p.holds s s' := by
  obtain ⟨s', hremove, hleft⟩ := Store.on_remove_of_writable (p := t.place c) hw p
  refine ⟨s', ?_, hleft, Store.onlyAt_of_remove hremove⟩
  rw [modify, hkind]
  show (runDelete c t parameters).on s = _
  rw [on_runDelete, if_neg (by simpa using hitems), hp]
  exact Store.onTable_eq_ok.2 hremove

/-- A `DELETE` counts and removes the documents that its predicate selects. -/
theorem on_modify_delete {p : Predicate} (hkind : t.kind = .delete) (hw : s.readOnly = false)
    (hp : ((keyedPredicate c t).on { parameters }).1 = .ok p) :
    ∃ s', (modify c t parameters).on s =
        (.ok ((s.documentsAt (t.place c)).filter p.holds).length, s') ∧
      Store.Removed (t.place c) p.holds s s' ∧
      (t.criteria.items = [] → Store.Dropped (t.place c) s s') := by
  by_cases hitems : t.criteria.items = []
  · have hall : ∀ d, p.holds d = true := by
      rw [keyedPredicate_of_nil hitems] at hp
      cases hp
      exact Predicate.holds_of_isEmpty (isEmpty_resolveKey_empty t.table)
    obtain ⟨s', hrun, hdropped, honly⟩ :=
      on_modify_delete_all hkind hw hitems c parameters
    refine ⟨s', ?_, hdropped.removed honly hall, fun _ => hdropped⟩
    rw [hrun, List.filter_eq_self.2 fun d _ => hall d]
  · obtain ⟨s', hrun, hremoved⟩ := on_modify_delete_some hkind hw hitems hp
    exact ⟨s', hrun, hremoved, fun h => absurd h hitems⟩

theorem on_modify_delete_of_error {e : Failure} (hkind : t.kind = .delete)
    (hp : ((keyedPredicate c t).on { parameters }).1 = .error e) :
    (modify c t parameters).on s = (.error e, s) := by
  have hitems : t.criteria.items ≠ [] := by
    intro hitems
    rw [keyedPredicate_of_nil hitems] at hp
    cases hp
  rw [modify, hkind]
  show (runDelete c t parameters).on s = _
  rw [on_runDelete, if_neg (by simpa using hitems), hp]

end

/-! ## The client -/

open ClientM in
/-- A client that selects nothing answers with no rows. -/
theorem Client.exists_query_of_none_selected {c : Client} {sql table : String} {criteria : Criteria}
    {n : Nat} {parameters : List Value} {session : Session} {pool : Pool} {p : Predicate}
    (hparse : c.parser sql = .ok (rowsOf .select table criteria n))
    (hacquire : acquire.on c = (.ok session, { c with pool }))
    (hp : ((keyedPredicate c.config (rowsOf .delete table criteria n)).on { parameters }).1 = .ok p)
    (hnone : (c.store.documentsAt (c.placeOf table)).filter p.holds = []) :
    ∃ c', (query sql parameters Receiver.all).on c = (.ok { rows := [] }, c') := by
  refine ⟨Client.release { c with pool } session, ?_⟩
  rw [on_query_rowsOf hparse hacquire hp, hnone]
  rfl

open Client ClientM in
/-- `DELETE` and `SELECT *` of one table and one `WHERE`, or none, fail together, or the `DELETE`
removes the documents that the `SELECT` shows, counts them, and leaves all else as it was. Afterwards
there is nothing to show. Without criteria a collection disappears, unless it was empty. -/
theorem delete_agrees_with_select {c : Client} (hw : c.store.readOnly = false)
    (hparser : c.parser = Statement.parse) (rest : String) (parameters : List Value) :
    (∃ e c', (query ("SELECT * FROM " ++ rest) parameters Receiver.all).on c = (.error e, c') ∧
        (execute ("DELETE FROM " ++ rest) parameters).on c = (.error e, c') ∧
        c'.store = c.store) ∨
      ∃ table criteria n test c₁ c₂,
        Statement.parse ("DELETE FROM " ++ rest) = .ok (rowsOf .delete table criteria n) ∧
        (query ("SELECT * FROM " ++ rest) parameters Receiver.all).on c =
          (.ok { rows := ((c.store.documentsAt (c.placeOf table)).filter test).map Row.whole }, c₁) ∧
        c₁.store = c.store ∧
        (execute ("DELETE FROM " ++ rest) parameters).on c =
          (.ok ((c.store.documentsAt (c.placeOf table)).filter test).length, c₂) ∧
        Store.Removed (c.placeOf table) test c.store c₂.store ∧
        (criteria.items = [] →
          (c.store.catalog.collection? (c.placeOf table) ≠ none ∧
              c₂.store.catalog.collection? (c.placeOf table) = none ↔
            c.store.documentsAt (c.placeOf table) ≠ [])) ∧
        (c.connect = .ok () ∨ 0 < c.config.maxPoolSize →
          ∃ c₃, (query ("SELECT * FROM " ++ rest) parameters Receiver.all).on c₂ =
            (.ok { rows := [] }, c₃)) := by
  rcases parse_rowsOf rest with ⟨e, hread, hdelete⟩ | ⟨table, criteria, n, hread, hdelete⟩
  · rw [← hparser] at hread hdelete
    exact .inl ⟨.parse e, c, on_parse_bind_of_error hread _, on_parse_bind_of_error hdelete _, rfl⟩
  have hparse := hdelete
  rw [← hparser] at hread hdelete
  obtain ⟨r, pool, hacquire⟩ := on_acquire c
  cases r with
  | error e =>
    refine .inl ⟨e, { c with pool }, ?_, ?_, rfl⟩
    · rw [on_query hread, on_withSession, hacquire]
    · rw [on_execute hdelete, on_withSession, hacquire]
  | ok session =>
    have hexecute := on_execute_of_acquire hdelete hacquire parameters
    cases hp : ((keyedPredicate c.config (rowsOf .delete table criteria n)).on { parameters }).1 with
    | error e =>
      refine .inl ⟨e, Client.release { c with pool } session, ?_, ?_, rfl⟩
      · rw [on_query hread, on_withSession_of_acquire hacquire, on_deliverRows_rowsOf]
        dsimp only
        rw [hp]
        rfl
      · rw [hexecute, on_modify_delete_of_error rfl hp]
    | ok p =>
      obtain ⟨s', hrun, hremoved, hdropped⟩ := on_modify_delete (s := c.store) rfl hw hp
      have hexecute' : (execute ("DELETE FROM " ++ rest) parameters).on c =
          (.ok ((c.store.documentsAt (c.placeOf table)).filter p.holds).length,
            Client.release { c with pool, store := s' } session) := by
        rw [hexecute, hrun]
        rfl
      refine .inr ⟨table, criteria, n, p.holds, _, _, hparse, on_query_rowsOf hread hacquire hp, rfl,
        hexecute', hremoved, fun hitems => (hdropped hitems).disappears_iff, fun hsession => ?_⟩
      obtain ⟨next, pool', hagain⟩ := acquire_release_of_onlyAt hremoved.only pool session hsession
      have hnone : (s'.documentsAt (c.placeOf table)).filter p.holds = [] := by
        have hleft : s'.documentsAt (c.placeOf table) = _ := hremoved.left
        rw [hleft, List.filter_filter, List.filter_eq_nil_iff]
        intro d _
        cases p.holds d <;> simp
      exact exists_query_of_none_selected (c := Client.release { c with pool, store := s' } session)
        hread hagain hp hnone

open Client in
/-- Of the two users, the one with the number 1. -/
theorem delete_agrees_with_select_twoUsers :
    localClient.store.readOnly = false ∧ localClient.parser = Statement.parse ∧
      ∃ c₁ c₂,
        (query ("SELECT * FROM " ++ rowsText "users" (askText "id")) [.ofInt 1] Receiver.all).on
            localClient =
          (.ok { rows := ((twoUsers.documentsAt ⟨"mydb", "users"⟩).take 1).map Row.whole }, c₁) ∧
        (execute ("DELETE FROM " ++ rowsText "users" (askText "id")) [.ofInt 1]).on localClient =
          (.ok 1, c₂) ∧
        (c₂.store.documentsAt ⟨"mydb", "users"⟩).length = 1 := by
  have hparse : localClient.parser ("SELECT * FROM " ++ rowsText "users" (askText "id")) =
      .ok (rowsOf .select "users" (keyCriteria "id") 1) := parse_selectFrom_askText "users" "id"
  obtain ⟨c, hquery⟩ : ∃ c,
      (query ("SELECT * FROM " ++ rowsText "users" (askText "id")) [.ofInt 1] Receiver.all).on
          localClient =
        (.ok { rows := ((twoUsers.documentsAt ⟨"mydb", "users"⟩).take 1).map Row.whole }, c) := by
    rw [on_query hparse]
    exact ⟨_, rfl⟩
  refine ⟨rfl, rfl, c, ?_⟩
  rcases delete_agrees_with_select (c := localClient) rfl rfl (rowsText "users" (askText "id"))
      [.ofInt 1] with
    ⟨e, c', hfails, -⟩ | ⟨table, criteria, n, test, c₁, c₂, hdelete, hread, -, hrun, hremoved, -⟩
  · rw [hfails] at hquery
    cases hquery
  · rw [parse_deleteFrom_askText] at hdelete
    cases hdelete
    have htwo : (twoUsers.documentsAt ⟨"mydb", "users"⟩).length = 2 := rfl
    have hselected : ((twoUsers.documentsAt ⟨"mydb", "users"⟩).filter test).length = 1 := by
      have hrows := congrArg (fun r : Except Failure Delivery × Client =>
        r.1.toOption.map fun d => d.rows.length) (hread.symm.trans hquery)
      simp only [Except.toOption, Option.map_some, List.length_map, List.length_take, htwo] at hrows
      exact Option.some.inj hrows
    have hsplit := List.length_eq_length_filter_add (l := twoUsers.documentsAt ⟨"mydb", "users"⟩) test
    have hleft : c₂.store.documentsAt ⟨"mydb", "users"⟩ = _ := hremoved.left
    refine ⟨c₂, hquery, ?_, ?_⟩
    · rw [hrun]
      exact congrArg (fun n => (Except.ok n, c₂)) hselected
    · rw [hleft]
      show ((twoUsers.documentsAt ⟨"mydb", "users"⟩).filter fun d => !test d).length = 1
      omega

end Schemaless
