import Schemaless.Proofs.Entries
import Schemaless.Proofs.Store.Catalog
import Schemaless.Proofs.Store.Keys
import Schemaless.Proofs.Store.Modification

/-!
# What an update keeps

An `UPDATE` reads a document, lays its values over it and puts the result back. The read and the write
agree on the document, the first one that the criteria select, so nothing else changes in the store
(`Store.SameElsewhere`), and of the document itself only the assigned fields do (`get?_overlay`). The
last of several values for a field counts (`assigned`), and the key can only become an equal one
(`modify_update`).
-/

namespace Schemaless

open Sql

/-! ## Laying documents over one another -/

theorem Document.get?_overlay (old new : Document) (name : String) :
    (Document.overlay old new).get? name = (new.get? name).or (old.get? name) := by
  have hfold (entries : List (String × Value)) (m : Document) :
      (entries.foldl (fun d f => d.insertNew f.1 f.2) m).get? name =
        (m.get? name).or (entries.lookup name) := by
    induction entries generalizing m with
    | nil => simp
    | cons e rest ih =>
      rw [List.foldl_cons, ih, SortedMap.get?_insertNew, lookup_entry_cons]
      split
      · cases m.get? name <;> rfl
      · rfl
  exact hfold old.entries new

/-! ## The values of columns -/

/-- The value that a column is assigned. -/
def Sql.Column.value (c : Column) : Binding Value :=
  match c.expression with
  | some text => bindExpression false text
  | none => pure .null

/-- What columns assign to a field; the last of several values counts. -/
def assigned (columns : List Column) (values : List Value) (name : String) : Option Value :=
  ((columns.map fun c => c.name).zip values).reverse.lookup name

theorem bindColumns_cons (c : Column) (columns : List Column) (record : Document) :
    bindColumns (c :: columns) record =
      c.value >>= fun v => bindColumns columns (record.insert c.name v) := by
  rw [bindColumns, Column.value]
  cases c.expression <;> rfl

theorem bindColumns_eq (columns : List Column) (record : Document) :
    bindColumns columns record =
      (fun values => ((columns.map fun c => c.name).zip values).foldl
        (fun d f => d.insert f.1 f.2) record) <$> columns.mapM Column.value := by
  induction columns generalizing record with
  | nil => rfl
  | cons c rest ih =>
    rw [bindColumns_cons, List.mapM_cons]
    simp only [ih, map_eq_pure_bind, bind_assoc, pure_bind, List.map_cons, List.zip_cons_cons,
      List.foldl_cons]

/-- The record of a statement holds what its columns assign. -/
theorem assigned_of_bindRecord {t : Statement} {cursor after : Cursor} {record : Document}
    (h : (bindRecord t).on cursor = (.ok record, after)) :
    ∃ values, (t.columns.mapM Column.value).on cursor = (.ok values, after) ∧
      ∀ name, record.get? name = assigned t.columns values name := by
  rw [bindRecord, bindColumns_eq, Effect.map_eq_ok] at h
  obtain ⟨values, hvalues, rfl⟩ := h
  refine ⟨values, hvalues, fun name => ?_⟩
  rw [SortedMap.get?_foldl_insert, SortedMap.get?_empty, Option.or_none, assigned]

/-! ## The document that an update puts back -/

namespace Store

variable {p : Place} {d record : Document} {key : Value}

theorem successor_overlay (hkey : d.get? nativeKey = some key)
    (hkeeps : ∀ k, record.get? nativeKey = some k → k.equal key = true) :
    successor p d (Document.overlay d record) = .ok (Document.overlay d record) := by
  cases hrecord : record.get? nativeKey with
  | none => simp [successor, Document.get?_overlay, hkey, hrecord, Value.equal_refl]
  | some k => simp [successor, Document.get?_overlay, hkey, hrecord, hkeeps k hrecord]

theorem successor_overlay_of_ne (hkey : d.get? nativeKey = some key) {k : Value}
    (hrecord : record.get? nativeKey = some k) (hne : k.equal key = false) :
    successor p d (Document.overlay d record) =
      .error (.internal (.keyChanged nativeKey p.collection key k)) := by
  simp [successor, Document.get?_overlay, hkey, hrecord, hne]

/-- `t` is `s` but for the documents of one collection. -/
structure SameElsewhere (p : Place) (s t : Store) : Prop where
  collections : ∀ q, q ≠ p → t.catalog.collection? q = s.catalog.collection? q
  databases : ∀ name, (t.catalog.get? name).isSome = (s.catalog.get? name).isSome
  rest : t = { s with catalog := t.catalog }

/-- Where a collection has documents, there is a collection. -/
theorem collection?_of_documentsAt {s : Store} {before rest : Collection}
    (hat : s.documentsAt p = before ++ d :: rest) :
    s.catalog.collection? p = some (before ++ d :: rest) := by
  rw [documentsAt, Catalog.documents] at hat
  cases hget : s.catalog.collection? p with
  | none => rw [hget] at hat; simp at hat
  | some ds => rw [hget] at hat; exact congrArg some hat

theorem sameElsewhere_put {s : Store} {ds : Collection} (hat : s.catalog.collection? p = some ds)
    (new : Collection) : SameElsewhere p s { s with catalog := s.catalog.put p new } where
  collections q hq := by rw [Catalog.collection?_put, if_neg hq]
  databases name := by
    have hdatabase : (s.catalog.get? p.database).isSome := by
      rw [Catalog.collection?] at hat
      cases hget : s.catalog.get? p.database with
      | none => rw [hget] at hat; cases hat
      | some database => rfl
    rw [Catalog.get?_put]
    split
    · next hname => rw [hname, hdatabase]; rfl
    · rfl
  rest := rfl

end Store

/-! ## Updates -/

section

variable {c : Config} {t : Statement} {parameters : List Value} {s : Store} {record : Document}
  {p : Predicate} {after : Cursor}

theorem on_modify_of_none (hw : s.readOnly = false) (hkind : t.kind = .update)
    (hbind : (recordAndPredicate c t).on { parameters } = (.ok (record, p), after))
    (hnone : ∀ d ∈ s.documentsAt (t.place c), p.holds d = false) :
    (modify c t parameters).on s = (.ok 0, s) := by
  have hfind : (s.documentsAt (t.place c)).find? p.holds = none :=
    List.find?_eq_none.2 fun d hd => by simp [hnone d hd]
  rw [modify, hkind]
  simp [on_runUpdate, hbind, hfind, Store.on_onTable, Store.on_replace, hw, Except.mapError]

/-- An update of the document that is selected first is a replacement of it. -/
theorem on_modify_of_first (hw : s.readOnly = false) (hkind : t.kind = .update)
    (hbind : (recordAndPredicate c t).on { parameters } = (.ok (record, p), after))
    {before rest : Collection} {d : Document} (hat : s.documentsAt (t.place c) = before ++ d :: rest)
    (hbefore : ∀ x ∈ before, p.holds x = false) (hd : p.holds d = true) :
    (modify c t parameters).on s =
      match Store.successor (t.place c) d (Document.overlay d record) with
      | .error e => (.error (.store t.table e), s)
      | .ok new =>
        (.ok 1, { s with catalog := s.catalog.put (t.place c) (before ++ new :: rest) }) := by
  have hfind : (s.documentsAt (t.place c)).find? p.holds = some d :=
    List.find?_eq_some_iff_append.2 ⟨hd, before, rest, hat, fun x hx => by simp [hbefore x hx]⟩
  have hreplace (new : Document) :
      Store.replaceFirst p.holds new (s.documentsAt (t.place c)) = before ++ new :: rest := by
    rw [hat, Store.replaceFirst_append hbefore d new rest hd]
  rw [modify, hkind]
  simp only [on_runUpdate, hbind]
  rw [Store.on_onTable, Store.on_replace, if_neg (by simp [hw])]
  simp only [hfind, hreplace]
  cases Store.successor (t.place c) d (Document.overlay d record) <;> rfl

/-- An update loses nothing. Where no document is selected, nothing happens. The first document selected
keeps its place and its fields but for the assigned ones, and everything else in the store stays; a
key that is not equal to its own is refused and changes nothing. -/
theorem modify_update (hs : s.Reachable) (hw : s.readOnly = false) (hkind : t.kind = .update)
    (hbind : (recordAndPredicate c t).on { parameters } = (.ok (record, p), after)) :
    ∃ values cursor, (t.columns.mapM Column.value).on { parameters } = (.ok values, cursor) ∧
      (keyedPredicate c t).on cursor = (.ok p, after) ∧
      ((∀ d ∈ s.documentsAt (t.place c), p.holds d = false) →
        (modify c t parameters).on s = (.ok 0, s)) ∧
      ∀ before d rest, s.documentsAt (t.place c) = before ++ d :: rest →
        (∀ x ∈ before, p.holds x = false) → p.holds d = true →
          ∃ key, d.get? nativeKey = some key ∧
            (∀ k, assigned t.columns values nativeKey = some k → k.equal key = false →
              ∃ cause, (modify c t parameters).on s = (.error (.store t.table cause), s)) ∧
            ((∀ k, assigned t.columns values nativeKey = some k → k.equal key = true) →
              ∃ new s', (modify c t parameters).on s = (.ok 1, s') ∧
                (∀ name, new.get? name = (assigned t.columns values name).or (d.get? name)) ∧
                s'.catalog.collection? (t.place c) = some (before ++ new :: rest) ∧
                Store.SameElsewhere (t.place c) s s') := by
  obtain ⟨_, cursor, hrecord, hrest⟩ := Effect.bind_eq_ok.1 hbind
  obtain ⟨_, _, hpredicate, hpair⟩ := Effect.bind_eq_ok.1 hrest
  cases hpair
  obtain ⟨values, hvalues, hassigned⟩ := assigned_of_bindRecord hrecord
  refine ⟨values, cursor, hvalues, hpredicate, on_modify_of_none hw hkind hbind, ?_⟩
  intro before d rest hat hbefore hd
  have hrun := on_modify_of_first hw hkind hbind hat hbefore hd
  -- a stored document has a key, and a record without one takes it over
  obtain ⟨key, hkey⟩ := (hs.sound.wellKeyed (t.place c)).keyed d (by simp [hat])
  refine ⟨key, hkey, ?_, ?_⟩
  · intro k hk hne
    rw [← hassigned] at hk
    rw [Store.successor_overlay_of_ne hkey hk hne] at hrun
    exact ⟨_, hrun⟩
  · intro hkeeps
    rw [Store.successor_overlay hkey fun k hk => hkeeps k (by rwa [← hassigned])] at hrun
    have hcollection : s.catalog.collection? (t.place c) = some (before ++ d :: rest) :=
      Store.collection?_of_documentsAt hat
    refine ⟨Document.overlay d record, _, hrun, fun name => ?_, ?_,
      Store.sameElsewhere_put hcollection _⟩
    · rw [Document.get?_overlay, hassigned]
    · rw [Catalog.collection?_put, if_pos rfl]

end

/-- `UPDATE users SET name = ?, age = 36, name = 'Countess' WHERE id = ?`. -/
def renameUser : Statement :=
  { kind := .update, table := "users",
    columns := [{ name := "name", expression := some "?" }, { name := "age", expression := some "36" },
      { name := "name", expression := some "'Countess'" }],
    criteria := { items := [.condition (equalCondition "id" "?")] }, placeholders := 2 }

theorem modify_update_renameUser :
    twoUsers.Reachable ∧ twoUsers.readOnly = false ∧ ∃ record p after,
      (recordAndPredicate Workspace.local.client.config renameUser).on
          { parameters := [.str "Lady", .ofInt 1] } = (.ok (record, p), after) ∧
        ∃ d rest, twoUsers.documentsAt ⟨"mydb", "users"⟩ = d :: rest ∧ p.holds d = true ∧
          ∃ new s', (modify Workspace.local.client.config renameUser [.str "Lady", .ofInt 1]).on
              twoUsers = (.ok 1, s') ∧
            new.get? nativeKey = some (.num (.int 1)) ∧ new.get? "name" = some (.str "Countess") ∧
            s'.catalog.collection? ⟨"mydb", "users"⟩ = some (new :: rest) ∧
            Store.SameElsewhere ⟨"mydb", "users"⟩ twoUsers s' := by
  obtain ⟨record, p, after, hbind, d, rest, hat, hd, hid⟩ : ∃ record p after,
      (recordAndPredicate Workspace.local.client.config renameUser).on
          { parameters := [.str "Lady", .ofInt 1] } = (.ok (record, p), after) ∧
        ∃ d rest, twoUsers.documentsAt ⟨"mydb", "users"⟩ = d :: rest ∧ p.holds d = true ∧
          d.get? nativeKey = some (.num (.int 1)) := ⟨_, _, _, rfl, _, _, rfl, rfl, rfl⟩
  refine ⟨reachable_twoUsers, rfl, record, p, after, hbind, d, rest, hat, hd, ?_⟩
  obtain ⟨values, cursor, hvalues, -, -, hfirst⟩ :=
    modify_update reachable_twoUsers rfl rfl hbind
  have hlist : (renameUser.columns.mapM Column.value).on { parameters := [.str "Lady", .ofInt 1] } =
      (.ok [.str "Lady", .num (.int 36), .str "Countess"],
        { parameters := [.str "Lady", .ofInt 1], position := 1 }) := rfl
  rw [hlist] at hvalues
  cases hvalues
  obtain ⟨key, -, -, hok⟩ := hfirst [] d rest hat (by simp) hd
  obtain ⟨new, s', hrun, hnew, hcollection, hsame⟩ := hok fun k hk => by cases hk
  refine ⟨new, s', hrun, ?_, ?_, hcollection, hsame⟩
  · rw [hnew, hid]
    rfl
  · rw [hnew]
    rfl

end Schemaless
