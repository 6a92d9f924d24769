import Schemaless.Proofs.Store.LogicalKey

/-!
# Assigning the key column

An `UPDATE` that assigns the key column of a table, and not the native key, moves nothing: the key is
resolved in its predicate and not in its record, and the store guards the native key only, which the
record does not name. So the native key of the document updated stays (`modify_update_cases`), and its
two keys stay together if and only if the value assigned equals it; only then does the key column still
find the document (`update_of_key_column`).
-/

namespace Schemaless

open Sql

/-! ## The fields of a record -/

/-- The fields of a record are the names of the columns. -/
theorem isSome_get?_of_bindColumns {columns : List Column} {record result : Document}
    {cursor after : Cursor} (h : (bindColumns columns record).on cursor = (.ok result, after))
    (name : String) :
    (result.get? name).isSome = true ↔
      (∃ column ∈ columns, column.name = name) ∨ (record.get? name).isSome = true := by
  induction columns generalizing record cursor with
  | nil =>
    cases h
    simp
  | cons column columns ih =>
    rw [bindColumns_cons] at h
    obtain ⟨v, middle, -, hrest⟩ := Effect.bind_eq_ok.1 h
    rw [ih hrest, SortedMap.get?_insert]
    by_cases hname : name = column.name
    · simp [hname]
    · simp [hname, Ne.symm hname]

section

variable {c : Config} {t : Statement} {parameters : List Value} {s : Store}

theorem get?_of_bindRecord_of_mem {record : Document} {cursor after : Cursor} {column : Column}
    (hcolumn : column ∈ t.columns) (h : (bindRecord t).on cursor = (.ok record, after)) :
    ∃ v, record.get? column.name = some v :=
  Option.isSome_iff_exists.1 ((isSome_get?_of_bindColumns h _).2 (.inl ⟨column, hcolumn, rfl⟩))

theorem get?_of_bindRecord_of_not_mem {record : Document} {cursor after : Cursor} {name : String}
    (hname : ∀ column ∈ t.columns, column.name ≠ name)
    (h : (bindRecord t).on cursor = (.ok record, after)) : record.get? name = none := by
  refine Option.not_isSome_iff_eq_none.1 fun hsome => ?_
  rcases (isSome_get?_of_bindColumns h name).1 hsome with ⟨column, hcolumn, heq⟩ | hempty
  · exact hname column hcolumn heq
  · cases hempty

/-! ## Updates that leave the native key alone -/

theorem recordAndPredicate_eq_ok {cursor after : Cursor} {record : Document} {p : Predicate}
    (h : (recordAndPredicate c t).on cursor = (.ok (record, p), after)) :
    ∃ middle, (bindRecord t).on cursor = (.ok record, middle) ∧
      (keyedPredicate c t).on middle = (.ok p, after) := by
  obtain ⟨_, middle, hrecord, hrest⟩ := Effect.bind_eq_ok.1 h
  obtain ⟨_, _, hpredicate, hpair⟩ := Effect.bind_eq_ok.1 hrest
  cases hpair
  exact ⟨middle, hrecord, hpredicate⟩

/-- An update that leaves the native key alone fails and changes nothing, or selects nothing, or lays its
record over the first document selected. -/
theorem modify_update_cases (parameters : List Value) (hkind : t.kind = .update)
    (hguarded : ∀ column ∈ t.columns, column.name ≠ nativeKey)
    (hkeyed : ∀ d ∈ s.documentsAt (t.place c), ∃ key, d.get? nativeKey = some key) :
    (∃ e, (modify c t parameters).on s = (.error e, s)) ∨
      ∃ record p after,
        (recordAndPredicate c t).on { parameters } = (.ok (record, p), after) ∧
        ((∀ d ∈ s.documentsAt (t.place c), p.holds d = false) ∧
            (modify c t parameters).on s = (.ok 0, s) ∨
          ∃ before d rest, s.documentsAt (t.place c) = before ++ d :: rest ∧
            (∀ x ∈ before, p.holds x = false) ∧ p.holds d = true ∧
            (modify c t parameters).on s =
              (.ok 1, { s with
                catalog := s.catalog.put (t.place c)
                  (before ++ Document.overlay d record :: rest) })) := by
  rcases hbind : (recordAndPredicate c t).on { parameters } with ⟨e | ⟨record, p⟩, after⟩
  · left
    refine ⟨e, ?_⟩
    rw [modify, hkind]
    simp only [on_runUpdate, hbind]
  · by_cases hw : s.readOnly = true
    · left
      rw [modify, hkind]
      simp only [on_runUpdate, hbind, Store.on_onTable, Store.on_replace, if_pos hw]
      exact ⟨_, rfl⟩
    · rw [Bool.not_eq_true] at hw
      refine .inr ⟨record, p, after, rfl, ?_⟩
      cases hfind : (s.documentsAt (t.place c)).find? p.holds with
      | none =>
        have hnone : ∀ d ∈ s.documentsAt (t.place c), p.holds d = false := by
          simpa using List.find?_eq_none.1 hfind
        exact .inl ⟨hnone, on_modify_of_none hw hkind hbind hnone⟩
      | some d =>
        right
        obtain ⟨before, rest, hat, hbefore, -⟩ := Store.replaceFirst_of_find? hfind
        have hd : p.holds d = true := List.find?_some hfind
        obtain ⟨key, hkey⟩ := hkeyed d (by simp [hat])
        obtain ⟨_, hrecord, -⟩ := recordAndPredicate_eq_ok hbind
        have hnative := get?_of_bindRecord_of_not_mem hguarded hrecord
        have hrun := on_modify_of_first hw hkind hbind hat hbefore hd
        rw [Store.successor_overlay hkey (by simp [hnative])] at hrun
        exact ⟨before, d, rest, hat, hbefore, hd, hrun⟩

/-! ## Both keys -/

/-- The document has both keys, and they are equal. -/
def Document.KeyedBy (column : String) (d : Document) : Prop :=
  ∃ v key, d.get? column = some v ∧ d.get? nativeKey = some key ∧ v.equal key = true

/-- Under the key column a value is looked for among the native keys. -/
theorem holds_resolveKey_equal (c : Config) (table : String) (v : Value) (d : Document) :
    Predicate.holds
        (resolveKey c table true (Predicate.single (c.keyOf table) (Operator.equal.build v))) d =
      Store.hasKey v d := by
  rw [resolveKey_single (.inr rfl), holds_single_build (by decide) (by decide)]
  rfl

/-- Documents with keys stay documents with keys under a replacement if and only if the new one has
keys. -/
theorem keyedBy_replaced_iff {column : String} {before rest : Collection} {d new : Document}
    (h : ∀ x ∈ before ++ d :: rest, x.KeyedBy column) :
    (∀ x ∈ before ++ new :: rest, x.KeyedBy column) ↔ new.KeyedBy column := by
  constructor
  · intro hall
    exact hall new (by simp)
  · intro hnew x hx
    rcases List.mem_append.1 hx with hx | hx
    · exact h x (by simp [hx])
    · rcases List.mem_cons.1 hx with rfl | hx
      · exact hnew
      · exact h x (by simp [hx])

theorem keyedBy_overlay_iff {column : String} {d record : Document} {key v : Value}
    (hkey : d.get? nativeKey = some key) (hguarded : record.get? nativeKey = none)
    (hv : record.get? column = some v) :
    (Document.overlay d record).KeyedBy column ↔ Store.hasKey v d = true := by
  have hcolumn : (Document.overlay d record).get? column = some v := by
    rw [Document.get?_overlay, hv]
    rfl
  have hnative : (Document.overlay d record).get? nativeKey = some key := by
    rw [Document.get?_overlay, hguarded, hkey]
    rfl
  rw [Document.KeyedBy, hcolumn, hnative, Store.hasKey, hkey, Option.any_some]
  constructor
  · rintro ⟨_, _, ⟨⟩, ⟨⟩, hequal⟩
    exact Value.equal_symm hequal
  · intro hequal
    exact ⟨v, key, rfl, rfl, Value.equal_symm hequal⟩

/-- An update that assigns the key column of a table with keys fails and changes nothing, or selects
nothing, or lays its record over the first document selected. Then the keys are equal afterwards if and
only if the value assigned equals the native key of that document, and only then does the key column find
the document under its new value. -/
theorem update_of_key_column (hkind : t.kind = .update)
    (hassigned : ∃ column ∈ t.columns, column.name = c.keyOf t.table)
    (hguarded : ∀ column ∈ t.columns, column.name ≠ nativeKey)
    (hkeyed : ∀ d ∈ s.documentsAt (t.place c), d.KeyedBy (c.keyOf t.table)) :
    (∃ e, (modify c t parameters).on s = (.error e, s)) ∨
      ∃ record p after v,
        (recordAndPredicate c t).on { parameters } = (.ok (record, p), after) ∧
        record.get? (c.keyOf t.table) = some v ∧
        ((∀ d ∈ s.documentsAt (t.place c), p.holds d = false) ∧
            (modify c t parameters).on s = (.ok 0, s) ∨
          ∃ before d rest s', s.documentsAt (t.place c) = before ++ d :: rest ∧
            (∀ x ∈ before, p.holds x = false) ∧ p.holds d = true ∧
            (modify c t parameters).on s = (.ok 1, s') ∧
            s'.documentsAt (t.place c) = before ++ Document.overlay d record :: rest ∧
            ((∀ x ∈ s'.documentsAt (t.place c), x.KeyedBy (c.keyOf t.table)) ↔
              Store.hasKey v d = true) ∧
            Predicate.holds
                (resolveKey c t.table true
                  (Predicate.single (c.keyOf t.table) (Operator.equal.build v)))
                (Document.overlay d record) = Store.hasKey v d) := by
  have hkeys : ∀ d ∈ s.documentsAt (t.place c), ∃ key, d.get? nativeKey = some key := by
    intro d hd
    obtain ⟨-, key, -, hkey, -⟩ := hkeyed d hd
    exact ⟨key, hkey⟩
  rcases modify_update_cases parameters hkind hguarded hkeys with herror | ⟨record, p, after, hbind, hrun⟩
  · exact .inl herror
  · right
    obtain ⟨_, hrecord, -⟩ := recordAndPredicate_eq_ok hbind
    obtain ⟨column, hcolumn, hname⟩ := hassigned
    obtain ⟨v, hv⟩ := get?_of_bindRecord_of_mem hcolumn hrecord
    rw [hname] at hv
    have hnone := get?_of_bindRecord_of_not_mem hguarded hrecord
    refine ⟨record, p, after, v, hbind, hv, ?_⟩
    rcases hrun with hnot | ⟨before, d, rest, hat, hbefore, hd, hrun⟩
    · exact .inl hnot
    · right
      obtain ⟨key, hkey⟩ := hkeys d (by simp [hat])
      rw [hat] at hkeyed
      have hoverlay := keyedBy_overlay_iff hkey hnone hv
      have hafter : Store.documentsAt { s with
          catalog := s.catalog.put (t.place c) (before ++ Document.overlay d record :: rest) }
            (t.place c) = before ++ Document.overlay d record :: rest := by
        rw [Store.documentsAt, Catalog.documents_put, if_pos rfl]
      refine ⟨before, d, rest, _, hat, hbefore, hd, hrun, hafter, ?_, ?_⟩
      · rw [hafter, keyedBy_replaced_iff hkeyed, hoverlay]
      · rw [holds_resolveKey_equal, Store.hasKey, Document.get?_overlay, hnone]
        rfl

end

/-- `UPDATE users SET id = ? WHERE id = ?`. -/
def moveUser : Statement :=
  { kind := .update, table := "users", columns := [{ name := "id", expression := some "?" }],
    criteria := { items := [.condition (equalCondition "id" "?")] }, placeholders := 2 }

theorem keyedBy_twoUsers : ∀ d ∈ twoUsers.documentsAt ⟨"mydb", "users"⟩, d.KeyedBy "id" := by
  obtain ⟨ada, grace, hat, hada, hgrace⟩ : ∃ ada grace,
      twoUsers.documentsAt ⟨"mydb", "users"⟩ = [ada, grace] ∧ ada.KeyedBy "id" ∧
        grace.KeyedBy "id" :=
    ⟨_, _, rfl, ⟨_, _, rfl, rfl, Value.equal_refl _⟩, ⟨_, _, rfl, rfl, Value.equal_refl _⟩⟩
  rw [hat]
  simp [hada, hgrace]

theorem update_of_key_column_moveUser :
    moveUser.kind = .update ∧ (∃ column ∈ moveUser.columns, column.name = "id") ∧
      (∀ column ∈ moveUser.columns, column.name ≠ nativeKey) ∧
      (∀ d ∈ twoUsers.documentsAt ⟨"mydb", "users"⟩, d.KeyedBy "id") ∧
      ∃ s', (modify Workspace.local.client.config moveUser [.ofInt 1, .ofInt 1]).on twoUsers =
          (.ok 1, s') ∧
        ∀ d ∈ s'.documentsAt ⟨"mydb", "users"⟩, d.KeyedBy "id" := by
  have hassigned : ∃ column ∈ moveUser.columns, column.name = "id" := by simp [moveUser]
  have hguarded : ∀ column ∈ moveUser.columns, column.name ≠ nativeKey := by decide
  refine ⟨rfl, hassigned, hguarded, keyedBy_twoUsers, ?_⟩
  have hone : ((modify Workspace.local.client.config moveUser [.ofInt 1, .ofInt 1]).on
      twoUsers).1.toOption = some 1 := rfl
  have hcases : (∃ e, (modify Workspace.local.client.config moveUser [.ofInt 1, .ofInt 1]).on
      twoUsers = (.error e, twoUsers)) ∨ _ :=
    update_of_key_column rfl hassigned hguarded keyedBy_twoUsers
  rcases hcases with ⟨e, herror⟩ | ⟨record, p, after, v, hbind, hv, ⟨-, hzero⟩ | hmoved⟩
  · rw [herror] at hone
    cases hone
  · rw [hzero] at hone
    cases hone
  · obtain ⟨before, d, rest, s', hat, hbefore, hd, hrun, -, hkeys, -⟩ := hmoved
    have hbound : (recordAndPredicate Workspace.local.client.config moveUser).on
        { parameters := [.ofInt 1, .ofInt 1] } =
          (.ok (SortedMap.empty.insert "id" (.ofInt 1),
            resolveKey Workspace.local.client.config "users" true
              (Predicate.single "id" (Operator.equal.build (.ofInt 1)))),
            { parameters := [.ofInt 1, .ofInt 1], position := 2 }) := rfl
    rw [hbound] at hbind
    cases hbind
    cases hv
    -- the predicate asks for the native key that is assigned
    refine ⟨s', hrun, hkeys.2 ?_⟩
    rwa [← holds_resolveKey_equal Workspace.local.client.config "users"]

/-- A new value of the key column takes the document away from its key. -/
theorem update_separates_key :
    ¬∀ (c : Config) (t : Statement) (parameters : List Value) (s : Store),
      s.Reachable → t.kind = .update → c.keyOf t.table ≠ nativeKey →
      (∃ column ∈ t.columns, column.name = c.keyOf t.table) →
      (∀ column ∈ t.columns, column.name ≠ nativeKey) →
      (∀ d ∈ s.documentsAt (t.place c), d.KeyedBy (c.keyOf t.table)) →
      (∃ e, (modify c t parameters).on s = (.error e, s)) ∨
        ∀ d ∈ ((modify c t parameters).on s).2.documentsAt (t.place c),
          d.KeyedBy (c.keyOf t.table) := by
  intro h
  have hassigned : ∃ column ∈ moveUser.columns, column.name = "id" := by simp [moveUser]
  rcases h Workspace.local.client.config moveUser [.ofInt 3, .ofInt 1] twoUsers reachable_twoUsers rfl
      (by decide) hassigned (by decide) keyedBy_twoUsers with ⟨e, herror⟩ | hkeyed
  · have hone : ((modify Workspace.local.client.config moveUser [.ofInt 3, .ofInt 1]).on
        twoUsers).1.toOption = some 1 := rfl
    rw [herror] at hone
    cases hone
  · obtain ⟨ada, grace, hat, hid, hnative⟩ : ∃ ada grace,
        ((modify Workspace.local.client.config moveUser [.ofInt 3, .ofInt 1]).on
          twoUsers).2.documentsAt (moveUser.place Workspace.local.client.config) = [ada, grace] ∧
        ada.get? "id" = some (.ofInt 3) ∧ ada.get? nativeKey = some (.ofInt 1) :=
      ⟨_, _, rfl, rfl, rfl⟩
    obtain ⟨v, key, hv, hkey, hequal⟩ := hkeyed ada (by rw [hat]; simp)
    obtain rfl := Option.some.inj (hid.symm.trans hv)
    obtain rfl := Option.some.inj (hnative.symm.trans hkey)
    have hdiffer : (Value.ofInt 3).equal (.ofInt 1) = false := by decide +kernel
    rw [hequal] at hdiffer
    cases hdiffer

end Schemaless
