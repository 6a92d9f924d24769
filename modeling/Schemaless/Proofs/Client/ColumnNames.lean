import Schemaless.Proofs.Binding.Meaning
import Schemaless.Proofs.Client.Removal

/-!
# Which field a condition on a column asks for

An insertion writes its column under the name that was given, and a `SELECT` of the column shows it under
that name. A condition on the column may ask for another field: a `?` in the name makes the name a value,
blanks at its ends are cut off, and the key column stands for the native key (`Config.fieldAsked`). The
names of the connectives ask for no field at all. So what was inserted is found where its column equals
its value, and not where it differs, if the name leads back to the field that was written
(`Config.AsksItself`), and only then (`column_is_data_iff`).
-/

namespace Schemaless

open Sql Grammar

/-! ## Texts -/

/-- The criteria that a column does not equal a parameter. -/
def differText (column : String) : String := quotedIdentifier column ++ " != ?"

/-- The text that shows a column of a table. -/
def showText (table column : String) : String :=
  "SELECT " ++ quotedIdentifier column ++ " FROM " ++ quotedIdentifier table

/-- Shows a column of a table. -/
def showStatement (table column : String) : Statement :=
  { kind := .select, table, columns := [{ name := column }] }

/-- A column compared with a parameter. -/
def parameterCondition (o : Operator) (column : String) : Sql.Condition :=
  { left := column, operator := o.text, right := "?" }

/-- The criteria that a column compares with a parameter. -/
def parameterCriteria (o : Operator) (column : String) : Criteria :=
  { logical := some "AND", items := [.condition (parameterCondition o column)] }

theorem spells_differText (column : String) :
    Spells (differText column).toList
      [.identifier column, .mark .notEqual, .mark .placeholder] := by
  have htext : (differText column).toList =
      (quotedIdentifier column).toList ++ (' ' :: (['!', '='] ++ [' ', '?'])) := by
    simp [differText]
  have hmark : Spells ['!', '='] [.mark .notEqual] := by
    refine spells_of_scan ⟨by decide, by decide, by decide⟩ fun z _ => ?_
    rw [scan_of_mark rfl (startsWord_of_offRanges rfl) rfl]
    rfl
  rw [htext]
  refine Spells.spacedName ?_ column
  exact hmark.append (spells_nil.mark (by decide)).space (setOff_space _)

theorem parse_selectFrom_differText (table column : String) :
    Statement.parse ("SELECT * FROM " ++ rowsText table (differText column)) =
      .ok (rowsOf .select table (parameterCriteria .notEqual column) 1) := by
  have hcondition : Grammar.Condition [.identifier column, .mark .notEqual, .mark .placeholder]
      (parameterCondition .notEqual column) :=
    .comparison (.name (name_identifier column)) (by decide) .placeholder
  exact parse_selectFrom_rowsText (spells_differText column) (.one (.one (.condition hcondition)))
    table

theorem spells_showText (table column : String) :
    Spells (showText table column).toList
      [.keyword .SELECT, .identifier column, .keyword .FROM, .identifier table] := by
  have htext : (showText table column).toList =
      "SELECT".toList ++ (' ' :: ((quotedIdentifier column).toList ++
        (' ' :: ("FROM".toList ++ (' ' :: (quotedIdentifier table).toList))))) := by
    simp [showText]
  rw [htext]
  refine Spells.spacedKeyword ?_ (by simp [Keyword.table])
  refine Spells.spacedName ?_ column
  exact (spells_quotedIdentifier table).spacedKeyword (by simp [Keyword.table])

theorem parse_showText (table column : String) :
    Statement.parse (showText table column) = .ok (showStatement table column) := by
  have hcolumns : Listed Shown [.identifier column] [{ name := column }] :=
    .one (.plain (name_identifier column))
  have hbody := Body.select table hcolumns .absent
  exact parse_of_spells (spells_showText table column) (.mk hbody .bare)

/-! ## The field -/

/-- The field that a condition on a column asks for. -/
def Config.fieldAsked (c : Config) (table column : String) : String :=
  let name := if hasPlaceholder column then "?" else Text.trim column
  if name = c.keyOf table then nativeKey else name

/-- A condition on a column asks for what an insertion writes under it: for the column, or for the native
key if the column is the key column. -/
def Config.AsksItself (c : Config) (table column : String) : Prop :=
  (c.fieldAsked table column = column ∨
      column = c.keyOf table ∧ c.fieldAsked table column = nativeKey) ∧
    c.fieldAsked table column ≠ andName ∧ c.fieldAsked table column ≠ orName

instance (c : Config) (table column : String) : Decidable (c.AsksItself table column) :=
  inferInstanceAs (Decidable ((_ ∨ _ ∧ _) ∧ _ ∧ _))

/-- What a condition on a column compares its field with. -/
def valueAsked (column : String) : String := if hasPlaceholder column then column else "?"

theorem keyedPredicate_of_parameterCondition {c : Config} {t : Statement} {column : String}
    {o : Operator} (hitems : t.criteria.items = [.condition (parameterCondition o column)]) :
    keyedPredicate c t =
      (fun v => Predicate.single (c.fieldAsked t.table column) (o.build v)) <$>
        bindExpression o.isMembership (valueAsked column) := by
  have hfield : (parameterCondition o column).field =
      if hasPlaceholder column then "?" else Text.trim column := by
    have htrim : Text.trim "?" = "?" := by decide
    rw [Condition.field, Condition.isSwapped, parameterCondition]
    split
    · rw [htrim]
    · rfl
  have hbind : bindCriteria t.criteria = bindCondition (parameterCondition o column) := by
    rw [bindCriteria, hitems]
    rfl
  rw [keyedPredicate, hbind, bindCondition_eq (c := parameterCondition o column) (resolve_text o), hfield]
  simp only [map_eq_pure_bind, bind_assoc, pure_bind, resolveKey_single_eq]
  rfl

/-- A column that asks for itself is compared with the parameter. -/
theorem Config.AsksItself.valueAsked_eq {c : Config} {table column : String}
    (h : c.AsksItself table column) : valueAsked column = "?" := by
  rw [valueAsked]
  split
  · next hmark =>
    have hnative : nativeKey ≠ "?" := by decide
    have hunmarked : hasPlaceholder nativeKey = false := by decide
    have hasked := h.1
    rw [fieldAsked, if_pos hmark] at hasked
    split at hasked
    · next hkey =>
      rcases hasked with rfl | ⟨rfl, -⟩
      · rw [hunmarked] at hmark
        cases hmark
      · exact hkey.symm
    · rcases hasked with hcolumn | ⟨-, heq⟩
      · exact hcolumn.symm
      · exact absurd heq.symm hnative
  · rfl

/-- A document equals a value and does not differ from it where a field that is no connective has it. -/
theorem tells_apart_iff (name : String) (w : Value) (d : Document) :
    (Predicate.single name (Operator.equal.build w)).holds d = true ∧
        (Predicate.single name (Operator.notEqual.build w)).holds d = false ↔
      (name ≠ andName ∧ name ≠ orName) ∧ ((d.get? name).any fun f => f.equal w) = true := by
  by_cases hand : name = andName
  · -- no list of predicates, and so a conjunction of none
    have hdiffers : (Predicate.single name (Operator.notEqual.build w)).holds d = true := by
      rw [holds_single_entry, Predicate.entryHolds, if_pos hand]
      rfl
    rw [hdiffers]
    simp [hand]
  · by_cases hor : name = orName
    · have hequals : (Predicate.single name (Operator.equal.build w)).holds d = false := by
        rw [holds_single_entry, Predicate.entryHolds, if_neg hand, if_pos hor]
        rfl
      rw [hequals]
      simp [hor]
    · rw [holds_single_build hand hor, holds_single_build hand hor, Operator.operatorHolds_operand,
        Operator.operatorHolds_operand]
      simp [Operator.compares, hand, hor]

/-- Null is put in the place of a placeholder as it is. -/
theorem eq_null_of_valueAsked {column : String} {v : Value}
    (h : ((bindExpression false (valueAsked column)).on { parameters := [.null] }).1 = .ok v) :
    v = .null := by
  generalize htext : valueAsked column = text at h
  have hcount : 0 < placeholderCount text := by
    have hmark : hasPlaceholder text = true := by
      rw [← htext, valueAsked]
      split
      · assumption
      · decide
    exact List.count_pos_iff.2 (by simpa [hasPlaceholder] using hmark)
  obtain ⟨vs, after, -, hsplit, hvs, -⟩ | ⟨e, cursor, hrun, -⟩ :=
    (Binding.spends_bindExpression false text).on [.null]
  · have hone : placeholderCount text = 1 := by
      have hlength := congrArg List.length hsplit
      rw [List.length_append, List.length_singleton] at hlength
      omega
    rw [bindExpression, hone] at h
    exact (Except.ok.inj h).symm
  · rw [hrun] at h
    cases h

/-! ## The document -/

/-- The document that an insertion of one column makes, in a store whose next key has this number. -/
def soleDocument (c : Config) (table column : String) (v : Value) (nextKey : Nat) : Document :=
  (SortedMap.ofList [(column, v)]).insert nativeKey
    (if column = c.keyOf table ∨ column = nativeKey then v else .str (Store.keyText nextKey))

section

variable {c : Config} {table column : String}

theorem get?_ofList_single (column : String) (v : Value) (name : String) :
    (SortedMap.ofList [(column, v)]).get? name = if name = column then some v else none :=
  get?_single column name v

theorem get?_soleDocument (v : Value) (n : Nat) (name : String) :
    (soleDocument c table column v n).get? name =
      if name = nativeKey then
        some (if column = c.keyOf table ∨ column = nativeKey then v else .str (Store.keyText n))
      else if name = column then some v else none := by
  rw [soleDocument, SortedMap.get?_insert, get?_ofList_single]

theorem get?_soleDocument_column (v : Value) (n : Nat) :
    (soleDocument c table column v n).get? column = some v := by
  rw [get?_soleDocument, if_pos rfl]
  split
  · next hnative => rw [if_pos (.inr hnative)]
  · rfl

/-- Where a column asks for itself, the value that was written is what is asked for. -/
theorem get?_soleDocument_fieldAsked (h : c.AsksItself table column) (v : Value) (n : Nat) :
    (soleDocument c table column v n).get? (c.fieldAsked table column) = some v := by
  rcases h.1 with hcolumn | ⟨hkey, hnative⟩
  · rw [hcolumn, get?_soleDocument_column]
  · rw [hnative, get?_soleDocument, if_pos rfl, if_pos (.inl hkey)]

/-- A null is asked for only under the column that it was written to, or under its key. -/
theorem fieldAsked_of_null {n : Nat}
    (h : (((soleDocument c table column .null n).get? (c.fieldAsked table column)).any fun f =>
      f.equal .null) = true) :
    c.fieldAsked table column = column ∨
      column = c.keyOf table ∧ c.fieldAsked table column = nativeKey := by
  rw [get?_soleDocument] at h
  split at h
  · next hnative =>
    split at h
    · next hkeyed =>
      rcases hkeyed with hkey | hcolumn
      · exact .inr ⟨hkey, hnative⟩
      · exact .inl (hnative.trans hcolumn.symm)
    · -- a generated key is a text
      cases h
  · split at h
    · next hcolumn => exact .inl hcolumn
    · cases h

theorem resolveKey_ofList_single (v : Value) :
    resolveKey c table false (SortedMap.ofList [(column, v)]) =
      if column = c.keyOf table ∨ column = nativeKey then
        (SortedMap.ofList [(column, v)]).insert nativeKey v
      else SortedMap.ofList [(column, v)] := by
  by_cases hcolumn : column = c.keyOf table
  · rw [if_pos (.inl hcolumn)]
    apply resolveKey_of_get?
    · rw [get?_ofList_single, if_pos hcolumn.symm]
    · intro hne
      rw [get?_ofList_single, if_neg fun h => hne (hcolumn ▸ h.symm)]
  · by_cases hnative : column = nativeKey
    · subst hnative
      rw [if_pos (.inr rfl), resolveKey, if_pos (by simp [SortedMap.contains, get?_ofList_single])]
      refine SortedMap.ext_get? fun name => ?_
      rw [SortedMap.get?_insert, get?_ofList_single]
      split <;> rfl
    · rw [if_neg (not_or.2 ⟨hcolumn, hnative⟩), resolveKey_of_missing, get?_ofList_single,
        if_neg (Ne.symm hcolumn)]
      rw [get?_ofList_single, if_neg (Ne.symm hnative)]

end

section

variable {p : Place} {s : Store} {d : Document}

theorem Store.on_insert_of_get? (hw : s.readOnly = false) (hempty : s.documentsAt p = []) {key : Value}
    (hkey : d.get? nativeKey = some key) :
    (insert p d).on s = (.ok (), { s with catalog := s.catalog.put p [d] }) := by
  rw [on_insert, if_neg (by simp [hw])]
  simp only [hkey, on_append]
  rw [hempty]
  rfl

theorem Store.on_insert_of_missing (hw : s.readOnly = false) (hempty : s.documentsAt p = [])
    (hkey : d.get? nativeKey = none) :
    (insert p d).on s = (.ok (), { s with
      catalog := s.catalog.put p [d.insert nativeKey (.str (keyText s.nextKey))],
      nextKey := s.nextKey + 1 }) := by
  have hempty' : documentsAt { s with nextKey := s.nextKey + 1 } p = [] := hempty
  rw [on_insert, if_neg (by simp [hw])]
  simp only [hkey, on_append]
  rw [hempty']
  rfl

end

/-- An insertion of one column into a table without documents. -/
theorem on_modify_insert_column {c : Config} {table : String} {s : Store} (hw : s.readOnly = false)
    (hempty : s.documentsAt ⟨c.database, table⟩ = []) (column : String) (v : Value) :
    ∃ n, (modify c (insertStatement table [column]) [v]).on s =
      (.ok 1, { s with
        catalog := s.catalog.put ⟨c.database, table⟩ [soleDocument c table column v s.nextKey],
        nextKey := n }) := by
  obtain ⟨n, hinsert⟩ : ∃ n, (Store.insert ⟨c.database, table⟩
      (resolveKey c table false (SortedMap.ofList [(column, v)]))).on s =
        (.ok (), { s with
          catalog := s.catalog.put ⟨c.database, table⟩ [soleDocument c table column v s.nextKey],
          nextKey := n }) := by
    rw [resolveKey_ofList_single, soleDocument]
    by_cases hkeyed : column = c.keyOf table ∨ column = nativeKey
    · have hkey : ((SortedMap.ofList [(column, v)]).insert nativeKey v).get? nativeKey = some v := by
        rw [SortedMap.get?_insert, if_pos rfl]
      rw [if_pos hkeyed, if_pos hkeyed, Store.on_insert_of_get? hw hempty hkey]
      exact ⟨s.nextKey, rfl⟩
    · have hkey : (SortedMap.ofList [(column, v)]).get? nativeKey = none := by
        rw [get?_ofList_single, if_neg fun h => hkeyed (.inr h.symm)]
      rw [if_neg hkeyed, if_neg hkeyed, Store.on_insert_of_missing hw hempty hkey]
      exact ⟨s.nextKey + 1, rfl⟩
  have hbound : ((bindRecord (insertStatement table [column])).on { parameters := [v] }).1 =
      .ok (SortedMap.ofList [(column, v)]) :=
    congrArg Prod.fst ((yields_bindRecord_ofList [(column, v)] rfl).on [])
  refine ⟨n, ?_⟩
  show (runInsert c _ _).on s = _
  rw [on_runInsert, hbound]
  dsimp only [Statement.place, insertStatement]
  rw [hinsert]

/-! ## The client -/

/-- A client that reads the language and may write has one document in a table. -/
structure Client.HasSole (c : Client) (table : String) (d : Document) : Prop where
  parser : c.parser = Statement.parse
  writable : c.store.readOnly = false
  connects : c.connect = .ok ()
  documents : c.store.documentsAt (c.placeOf table) = [d]

open Client in
/-- The one document of a table is found where the column equals the value. Where it does not, nothing is
found, and nothing removed. -/
structure Client.AnswersBy (c : Client) (table column : String) (v : Value) (d : Document) : Prop where
  equal : ∃ c', (query ("SELECT * FROM " ++ rowsText table (askText column)) [v] Receiver.all).on c =
    (.ok { rows := [Row.whole d] }, c')
  different : ∃ c', (query ("SELECT * FROM " ++ rowsText table (differText column)) [v]
    Receiver.all).on c = (.ok { rows := [] }, c')
  kept : ∃ c', (execute ("DELETE FROM " ++ rowsText table (differText column)) [v]).on c =
    (.ok 0, c') ∧ c'.store.documentsAt (c.placeOf table) = [d]

namespace Client

open ClientM

variable {c : Client} {table column sql : String} {d : Document}

/-! ### Inserting and showing -/

theorem exists_execute_insertText (hparser : c.parser = Statement.parse)
    (hw : c.store.readOnly = false) (hconnect : c.connect = .ok ())
    (hempty : c.store.documentsAt (c.placeOf table) = []) (column : String) (v : Value) :
    ∃ c₁, (execute (insertText table [column]) [v]).on c = (.ok 1, c₁) ∧ c₁.config = c.config ∧
      c₁.HasSole table (soleDocument c.config table column v c.store.nextKey) := by
  have hparse : c.parser (insertText table [column]) = .ok (insertStatement table [column]) := by
    rw [hparser, parse_insertText]
  obtain ⟨session, pool, hacquire⟩ := acquire_of_connect hconnect
  obtain ⟨n, hrun⟩ := on_modify_insert_column hw hempty column v
  have hexecute := on_execute_of_acquire hparse hacquire [v]
  rw [hrun] at hexecute
  exact ⟨_, hexecute, rfl, hparser, hw, hconnect, documentsAt_put _ _ _⟩

theorem HasSole.exists_query_showText (h : c.HasSole table d) {v : Value}
    (hv : d.get? column = some v) :
    ∃ c', (query (showText table column) [] Receiver.all).on c =
      (.ok { rows := [⟨[column], SortedMap.ofList [(column, v)]⟩] }, c') := by
  obtain ⟨session, pool, hacquire⟩ := acquire_of_connect h.connects
  have hparse : c.parser (showText table column) = .ok (showStatement table column) := by
    rw [h.parser, parse_showText]
  have hp : ((keyedPredicate c.config (showStatement table column)).on { parameters := [] }).1 =
      .ok (resolveKey c.config table true SortedMap.empty) := by
    rw [keyedPredicate_of_nil rfl]
    rfl
  have hall : ∀ d ∈ c.store.documentsAt (c.placeOf table),
      Predicate.holds (resolveKey c.config table true SortedMap.empty) d = true :=
    fun d _ => Predicate.holds_of_isEmpty (isEmpty_resolveKey_empty table) d
  have hplace : (showStatement table column).place c.config = c.placeOf table := rfl
  have hrow : Row.ofDocument (showStatement table column) d =
      ⟨[column], SortedMap.ofList [(column, (d.get? column).getD .null)]⟩ := rfl
  refine ⟨Client.release { c with pool } session, ?_⟩
  rw [on_query_of_acquire hparse hacquire rfl, hp, hplace]
  simp only [Except.map]
  rw [List.filter_eq_self.2 hall, h.documents, List.map_singleton, hrow, hv]
  rfl

/-! ### Asking -/

theorem keyedPredicate_rowsOf (c : Config) (table column : String) {o : Operator}
    (hmember : o.isMembership = false) (v : Value) :
    ((keyedPredicate c (rowsOf .delete table (parameterCriteria o column) 1)).on
        { parameters := [v] }).1 =
      ((bindExpression false (valueAsked column)).on { parameters := [v] }).1.map fun w =>
        Predicate.single (c.fieldAsked table column) (o.build w) := by
  have hitems : (rowsOf .delete table (parameterCriteria o column) 1).criteria.items =
      [.condition (parameterCondition o column)] := rfl
  rw [keyedPredicate_of_parameterCondition hitems, Effect.on_map, hmember]
  rfl

section

variable {criteria : Criteria} {n : Nat} {parameters : List Value} {p : Predicate}
  (h : c.HasSole table d)
  (hp : ((keyedPredicate c.config (rowsOf .delete table criteria n)).on { parameters }).1 = .ok p)

include h hp

theorem HasSole.exists_query (hparse : c.parser sql = .ok (rowsOf .select table criteria n)) :
    ∃ c', (query sql parameters Receiver.all).on c =
      (.ok { rows := if p.holds d then [Row.whole d] else [] }, c') := by
  obtain ⟨session, pool, hacquire⟩ := acquire_of_connect h.connects
  refine ⟨Client.release { c with pool } session, ?_⟩
  rw [on_query_rowsOf hparse hacquire hp, h.documents, List.filter_singleton]
  cases p.holds d <;> rfl

theorem HasSole.exists_execute (hparse : c.parser sql = .ok (rowsOf .delete table criteria n))
    (hitems : criteria.items ≠ []) :
    ∃ c', (execute sql parameters).on c = (.ok (if p.holds d then 1 else 0), c') ∧
      c'.store.documentsAt (c.placeOf table) = if p.holds d then [] else [d] := by
  obtain ⟨session, pool, hacquire⟩ := acquire_of_connect h.connects
  obtain ⟨s', hrun, hremoved⟩ :=
    on_modify_delete_some (t := rowsOf .delete table criteria n) rfl h.writable hitems hp
  have hplace : (rowsOf .delete table criteria n).place c.config = c.placeOf table := rfl
  have hleft := hremoved.left
  rw [hplace, h.documents, List.filter_singleton] at hrun hleft
  refine ⟨Client.release { c with pool, store := s' } session, ?_, ?_⟩
  · rw [on_execute_of_acquire hparse hacquire, hrun]
    cases p.holds d <;> rfl
  · show s'.documentsAt (c.placeOf table) = _
    rw [hleft]
    cases p.holds d <;> rfl

end

theorem HasSole.exists_query_of_error (h : c.HasSole table d) {criteria : Criteria} {n : Nat}
    {parameters : List Value} {e : Failure}
    (hp : ((keyedPredicate c.config (rowsOf .delete table criteria n)).on { parameters }).1 = .error e)
    (hparse : c.parser sql = .ok (rowsOf .select table criteria n)) :
    ∃ c', (query sql parameters Receiver.all).on c = (.error e, c') := by
  obtain ⟨session, pool, hacquire⟩ := acquire_of_connect h.connects
  have hfails : ((keyedPredicate c.config (rowsOf .select table criteria n)).on { parameters }).1 =
      .error e := hp
  refine ⟨Client.release { c with pool } session, ?_⟩
  rw [on_query_of_acquire hparse hacquire rfl, hfails]
  rfl

/-- The one document of a table answers by a column if the field that a condition on the column asks for is
no connective and has the value that is asked for. -/
theorem HasSole.answersBy_iff (h : c.HasSole table d) (column : String) (v : Value) :
    c.AnswersBy table column v d ↔
      ∃ w, ((bindExpression false (valueAsked column)).on { parameters := [v] }).1 = .ok w ∧
        (c.config.fieldAsked table column ≠ andName ∧ c.config.fieldAsked table column ≠ orName) ∧
        ((d.get? (c.config.fieldAsked table column)).any fun f => f.equal w) = true := by
  have hequal : c.parser ("SELECT * FROM " ++ rowsText table (askText column)) =
      .ok (rowsOf .select table (parameterCriteria .equal column) 1) := by
    rw [h.parser]
    exact parse_selectFrom_askText table column
  have hdiffer : c.parser ("SELECT * FROM " ++ rowsText table (differText column)) =
      .ok (rowsOf .select table (parameterCriteria .notEqual column) 1) := by
    rw [h.parser, parse_selectFrom_differText]
  have hdelete : c.parser ("DELETE FROM " ++ rowsText table (differText column)) =
      .ok (rowsOf .delete table (parameterCriteria .notEqual column) 1) := by
    rw [h.parser]
    exact parse_deleteFrom_of_selectFrom (parse_selectFrom_differText table column)
  have hp := keyedPredicate_rowsOf c.config table column (o := .equal) rfl v
  have hq := keyedPredicate_rowsOf c.config table column (o := .notEqual) rfl v
  cases hvalue : ((bindExpression false (valueAsked column)).on { parameters := [v] }).1 with
  | error e =>
    rw [hvalue] at hp
    obtain ⟨c₁, hfails⟩ := h.exists_query_of_error hp hequal
    constructor
    · rintro ⟨⟨c', hfinds⟩, -, -⟩
      rw [hfails] at hfinds
      cases hfinds
    · rintro ⟨w, hw, -⟩
      cases hw
  | ok w =>
    rw [hvalue] at hp hq
    obtain ⟨c₁, hfinds⟩ := h.exists_query hp hequal
    obtain ⟨c₂, hdiffers⟩ := h.exists_query hq hdiffer
    obtain ⟨c₃, hremoves, hleft⟩ := h.exists_execute hq hdelete (by simp [parameterCriteria])
    have hiff := tells_apart_iff (c.config.fieldAsked table column) w d
    constructor
    · rintro ⟨⟨c₁', hfinds'⟩, ⟨c₂', hdiffers'⟩, -⟩
      refine ⟨w, rfl, hiff.1 ⟨?_, ?_⟩⟩
      · rw [hfinds] at hfinds'
        by_contra hnot
        simp [hnot] at hfinds'
      · rw [hdiffers] at hdiffers'
        by_contra hnot
        simp [hnot] at hdiffers'
    · rintro ⟨_, ⟨⟩, htells⟩
      obtain ⟨hholds, hnot⟩ := hiff.2 htells
      simp only [hholds, hnot] at hfinds hdiffers hremoves hleft
      exact ⟨⟨c₁, hfinds⟩, ⟨c₂, hdiffers⟩, ⟨c₃, hremoves, hleft⟩⟩

end Client

/-! ## All names -/

open Client in
/-- What is inserted under one column of a table without documents is written, and shown, under the name
of that column, whatever the name and the value are. It is found where the column equals the value, and
not where it does not, for every value if and only if the column asks for itself. -/
theorem column_is_data_iff {c : Client} {table : String} (hparser : c.parser = Statement.parse)
    (hw : c.store.readOnly = false) (hconnect : c.connect = .ok ())
    (hempty : c.store.documentsAt (c.placeOf table) = []) (column : String) :
    (∀ v, ∃ d c₁ c₂, (execute (insertText table [column]) [v]).on c = (.ok 1, c₁) ∧
        c₁.store.documentsAt (c.placeOf table) = [d] ∧ d.get? column = some v ∧
        (query (showText table column) [] Receiver.all).on c₁ =
          (.ok { rows := [⟨[column], SortedMap.ofList [(column, v)]⟩] }, c₂)) ∧
      ((∀ v, ∃ d c₁, (execute (insertText table [column]) [v]).on c = (.ok 1, c₁) ∧
          c₁.store.documentsAt (c.placeOf table) = [d] ∧ c₁.AnswersBy table column v d) ↔
        c.config.AsksItself table column) := by
  have hinsert (v : Value) := exists_execute_insertText hparser hw hconnect hempty column v
  have hplace {c₁ : Client} (hconfig : c₁.config = c.config) : c₁.placeOf table = c.placeOf table := by
    rw [placeOf, hconfig]
    rfl
  refine ⟨fun v => ?_, fun hall => ?_, fun h v => ?_⟩
  · obtain ⟨c₁, hrun, hconfig, hsole⟩ := hinsert v
    have hv : (soleDocument c.config table column v c.store.nextKey).get? column = some v :=
      get?_soleDocument_column v c.store.nextKey
    obtain ⟨c₂, hshown⟩ := hsole.exists_query_showText hv
    exact ⟨_, c₁, c₂, hrun, hplace hconfig ▸ hsole.documents, hv, hshown⟩
  · -- whatever the name is, null is not taken for a generated key
    obtain ⟨c₁, hrun, hconfig, hsole⟩ := hinsert .null
    obtain ⟨d, c₁', hrun', hd, hanswers⟩ := hall .null
    obtain rfl : c₁ = c₁' := (Prod.mk.inj (hrun.symm.trans hrun')).2
    rw [← hplace hconfig, hsole.documents] at hd
    obtain rfl := List.singleton_inj.1 hd
    obtain ⟨w, hvalue, hfield, hany⟩ := (hsole.answersBy_iff column .null).1 hanswers
    rw [hconfig] at hfield hany
    obtain rfl := eq_null_of_valueAsked hvalue
    exact ⟨fieldAsked_of_null hany, hfield⟩
  · obtain ⟨c₁, hrun, hconfig, hsole⟩ := hinsert v
    refine ⟨_, c₁, hrun, hplace hconfig ▸ hsole.documents, (hsole.answersBy_iff column v).2 ⟨v, ?_, ?_, ?_⟩⟩
    · rw [h.valueAsked_eq]
      exact congrArg Prod.fst ((Binding.yields_parameter false v).on [])
    · rw [hconfig]
      exact h.2
    · rw [hconfig, get?_soleDocument_fieldAsked h]
      exact Value.equal_refl v

open Client in
/-- A question mark asks for itself, and a connective does not. -/
theorem column_is_data_iff_notes :
    localClient.parser = Statement.parse ∧ localClient.store.readOnly = false ∧
      localClient.connect = .ok () ∧ localClient.store.documentsAt (localClient.placeOf "notes") = [] ∧
      (∀ v, ∃ d c₁, (execute (insertText "notes" ["?"]) [v]).on localClient = (.ok 1, c₁) ∧
        c₁.store.documentsAt (localClient.placeOf "notes") = [d] ∧ c₁.AnswersBy "notes" "?" v d) ∧
      ¬∀ v, ∃ d c₁, (execute (insertText "notes" ["$and"]) [v]).on localClient = (.ok 1, c₁) ∧
        c₁.store.documentsAt (localClient.placeOf "notes") = [d] ∧
        c₁.AnswersBy "notes" "$and" v d := by
  have hasks : localClient.config.AsksItself "notes" "?" := by decide +kernel
  have hnot : ¬localClient.config.AsksItself "notes" "$and" := by decide +kernel
  refine ⟨rfl, rfl, rfl, rfl, ?_, fun hall => hnot ?_⟩
  · exact (column_is_data_iff (c := localClient) rfl rfl rfl rfl "?").2.2 hasks
  · exact (column_is_data_iff (c := localClient) rfl rfl rfl rfl "$and").2.1 hall

open Client in
/-- With a blank in front of the name of its column, a document is missed by a query for its value, and
removed as one that differs. -/
theorem column_with_blank_is_missed :
    ∃ c₁ c₂ c₃, (execute (insertText "notes" [" x"]) [.ofInt 1]).on localClient = (.ok 1, c₁) ∧
      (query ("SELECT * FROM " ++ rowsText "notes" (askText " x")) [.ofInt 1] Receiver.all).on c₁ =
        (.ok { rows := [] }, c₂) ∧
      (execute ("DELETE FROM " ++ rowsText "notes" (differText " x")) [.ofInt 1]).on c₁ =
        (.ok 1, c₃) ∧
      c₃.store.documentsAt ⟨"mydb", "notes"⟩ = [] := by
  have hempty : localClient.store.documentsAt (localClient.placeOf "notes") = [] := rfl
  obtain ⟨c₁, hrun, hconfig, hsole⟩ :=
    exists_execute_insertText (c := localClient) rfl rfl rfl hempty " x" (.ofInt 1)
  have hplace : c₁.placeOf "notes" = ⟨"mydb", "notes"⟩ := by
    rw [placeOf, hconfig]
    rfl
  -- both ask for the field without the blank, which the document lacks
  have hp : ((keyedPredicate c₁.config (rowsOf .delete "notes" (parameterCriteria .equal " x") 1)).on
      { parameters := [.ofInt 1] }).1 = .ok (Predicate.single "x" (Operator.equal.build (.ofInt 1))) := by
    rw [keyedPredicate_rowsOf _ _ _ rfl, hconfig]
    rfl
  have hq : ((keyedPredicate c₁.config (rowsOf .delete "notes" (parameterCriteria .notEqual " x") 1)).on
      { parameters := [.ofInt 1] }).1 =
        .ok (Predicate.single "x" (Operator.notEqual.build (.ofInt 1))) := by
    rw [keyedPredicate_rowsOf _ _ _ rfl, hconfig]
    rfl
  obtain ⟨c₂, hfinds⟩ := hsole.exists_query hp
    (hsole.parser ▸ parse_selectFrom_askText "notes" " x")
  obtain ⟨c₃, hremoves, hleft⟩ := hsole.exists_execute hq
    (hsole.parser ▸ parse_deleteFrom_of_selectFrom (parse_selectFrom_differText "notes" " x"))
    (by simp [parameterCriteria])
  rw [hplace] at hleft
  exact ⟨c₁, c₂, c₃, hrun, hfinds, hremoves, hleft⟩

end Schemaless
