import Schemaless.Proofs.Binding.Parameters
import Schemaless.Proofs.Client.Atomicity
import Schemaless.Proofs.Client.Naming
import Schemaless.Proofs.Store.Upsert

/-!
# Records are written by upserts

The statements that a client runs to write a record find the document of its key, lay the record over
it or append it: one `upsert` of the collection (`on_persistRecord`). All records are therefore
written by folding `upsert` over them, and writing them again changes nothing (`persist_upserts`).
-/

namespace Schemaless

open Sql

/-! ## A record as parameters -/

theorem yields_parameterColumns {names : List String} {values : List Value}
    (h : names.length = values.length) :
    Binding.Yields ((names.map parameterColumn).mapM Column.value) values values := by
  induction names generalizing values with
  | nil =>
    cases values with
    | nil => exact Binding.yields_pure []
    | cons v vs => cases h
  | cons name names ih =>
    cases values with
    | nil => cases h
    | cons v vs =>
      rw [List.map_cons, List.mapM_cons]
      have hfirst : Binding.Yields (parameterColumn name).value [v] v :=
        Binding.yields_parameter false v
      have hrest := (ih (Nat.succ.inj h)).bind
        (f := fun vs => pure (v :: vs)) (Binding.yields_pure (v :: vs))
      rw [List.append_nil] at hrest
      exact hfirst.bind (f := fun v => _ >>= fun vs => pure (v :: vs)) hrest

/-- Columns, with as many values as parameters, are bound to the record of their entries. -/
theorem yields_bindRecord_ofList {t : Statement} (fields : List (String × Value))
    (hcolumns : t.columns = (fields.map fun f => f.1).map parameterColumn) :
    Binding.Yields (bindRecord t) (fields.map fun f => f.2) (SortedMap.ofList fields) := by
  have hlength : (fields.map fun f => f.1).length = (fields.map fun f => f.2).length := by simp
  have hnames : (t.columns.map fun c => c.name) = fields.map fun f => f.1 := by
    rw [hcolumns, List.map_map]
    exact List.map_id _
  have hzip : (fields.map fun f => f.1).zip (fields.map fun f => f.2) = fields := by
    rw [List.zip_map']
    exact List.map_id _
  have hvalues := (yields_parameterColumns hlength).map fun values =>
    ((fields.map fun f => f.1).zip values).foldl (fun d f => d.insert f.1 f.2) SortedMap.empty
  rw [hzip] at hvalues
  rw [bindRecord, bindColumns_eq, hnames, hcolumns]
  exact hvalues

/-- The columns of a record, with its values as parameters, are bound to the record. -/
theorem yields_bindRecord {t : Statement} (record : Document)
    (hcolumns : t.columns = record.names.map parameterColumn) :
    Binding.Yields (bindRecord t) (record.entries.map fun e => e.2) record := by
  have hbound := yields_bindRecord_ofList (t := t) record.entries hcolumns
  rwa [record.ofList_entries] at hbound

/-- Asking for the key selects the documents that have it. -/
def keyPredicate (key : Value) : Predicate :=
  Predicate.single nativeKey (Operator.equal.build key)

theorem holds_keyPredicate (key : Value) : (keyPredicate key).holds = Store.hasKey key := by
  funext d
  exact holds_single_build (by decide) (by decide) .equal key d

section

variable {c : Config} {t : Statement}

theorem yields_keyedPredicate (hcriteria : t.criteria = keyCriteria (c.keyOf t.table))
    (hmark : hasPlaceholder (c.keyOf t.table) = false)
    (htrim : Text.trim (c.keyOf t.table) = c.keyOf t.table) (key : Value) :
    Binding.Yields (keyedPredicate c t) [key] (keyPredicate key) := by
  have hitems : t.criteria.items = [.condition (equalCondition (c.keyOf t.table) "?")] := by
    rw [hcriteria]
    rfl
  rw [keyedPredicate_of_equal hitems (.inr rfl) hmark htrim]
  exact (Binding.yields_parameter false key).map _

theorem yields_recordAndPredicate (record : Document) (key : Value)
    (hcolumns : t.columns = record.names.map parameterColumn)
    (hcriteria : t.criteria = keyCriteria (c.keyOf t.table))
    (hmark : hasPlaceholder (c.keyOf t.table) = false)
    (htrim : Text.trim (c.keyOf t.table) = c.keyOf t.table) :
    Binding.Yields (recordAndPredicate c t) ((record.entries.map fun e => e.2) ++ [key])
      (record, keyPredicate key) := by
  have hpredicate := (yields_keyedPredicate hcriteria hmark htrim key).bind
    (f := fun p => pure (record, p)) (Binding.yields_pure _)
  exact (yields_bindRecord record hcolumns).bind
    (f := fun record => keyedPredicate c t >>= fun p => pure (record, p)) hpredicate

end

/-- The rows of a statement with criteria. -/
theorem select_of_isEmpty_eq_false {c : Config} {t : Statement} {parameters : List Value}
    {s : Store} {p : Predicate} {after : Cursor} (hkind : t.kind = .select)
    (hp : (keyedPredicate c t).on { parameters } = (.ok p, after)) (hempty : p.isEmpty = false) :
    select c t parameters s =
      .ok (((s.documentsAt (t.place c)).filter p.holds).map (Row.ofDocument t)) := by
  rw [select, if_neg (by simp [hkind]), hp]
  simp only [hempty]
  rfl

/-- An inserted record gets its key as native key, or has it already. -/
theorem resolveKey_of_get? {c : Config} {table : String} {record : Document} {key : Value}
    (hkey : record.get? (c.keyOf table) = some key)
    (hnative : c.keyOf table ≠ nativeKey → record.get? nativeKey = none) :
    resolveKey c table false record = record.insert nativeKey key := by
  by_cases hname : c.keyOf table = nativeKey
  · rw [hname] at hkey
    rw [resolveKey, if_pos (by rw [SortedMap.contains, hkey]; rfl)]
    refine SortedMap.ext_get? fun name => ?_
    rw [SortedMap.get?_insert]
    split
    · next hsame => rw [hsame, hkey]
    · rfl
  · rw [resolveKey, if_neg (by simp [SortedMap.contains, hnative hname])]
    simp only [hkey]
    rfl

/-- An insertion of parameters appends their record under its key, unless a document has that key. -/
theorem on_modify_insert {c : Config} {table : String} {s : Store} {fields : List (String × Value)}
    {key : Value} (hw : s.readOnly = false)
    (hkey : (SortedMap.ofList fields).get? (c.keyOf table) = some key)
    (hnative : c.keyOf table ≠ nativeKey → (SortedMap.ofList fields).get? nativeKey = none) :
    (modify c (insertStatement table (fields.map fun f => f.1)) (fields.map fun f => f.2)).on s =
      if (s.documentsAt ⟨c.database, table⟩).any (Store.hasKey key) then
        (.error (.store table (.duplicateKey table key)), s)
      else (.ok 1, { s with
        catalog := s.catalog.put ⟨c.database, table⟩ (s.documentsAt ⟨c.database, table⟩ ++
          [(SortedMap.ofList fields).insert nativeKey key]) }) := by
  have hbound := (yields_bindRecord_ofList (t := insertStatement table (fields.map fun f => f.1))
    fields rfl).on []
  rw [List.append_nil] at hbound
  have hinsert : (Store.insert ⟨c.database, table⟩
      (resolveKey c table false (SortedMap.ofList fields))).on s =
      (Store.append ⟨c.database, table⟩ key ((SortedMap.ofList fields).insert nativeKey key)).on s := by
    rw [resolveKey_of_get? hkey hnative, Store.on_insert, hw]
    simp only [SortedMap.get?_insert, if_true]
    rfl
  show (runInsert c _ _).on s = _
  rw [on_runInsert, hbound]
  dsimp only [Statement.place, insertStatement]
  rw [hinsert, Store.on_append]
  cases (s.documentsAt ⟨c.database, table⟩).any (Store.hasKey key) <;> rfl

theorem names_ne_nil {m : SortedMap Value} (h : m.isEmpty = false) :
    ∃ name names, m.names = name :: names := by
  cases hentries : m.entries with
  | nil => simp [SortedMap.isEmpty, hentries] at h
  | cons e rest => exact ⟨e.1, rest.map (·.1), by rw [SortedMap.names, hentries]; rfl⟩

/-- A receiver of one row learns whether there is a document. -/
theorem isEmpty_deliver_one (f : Document → Row) (ds : Collection) (selected : Document → Bool) :
    (!((deliver Receiver.one 1 ((ds.filter selected).map f)).rows).isEmpty) = ds.any selected := by
  induction ds with
  | nil => rfl
  | cons d ds ih =>
    rw [List.filter_cons, List.any_cons]
    cases hd : selected d with
    | true => rfl
    | false => simpa [hd] using ih

/-! ## One record -/

namespace Client

open ClientM

variable {c : Client} {table : String}

/-- The client writes records into a table as it should: it reads its own statements, its store may be
written, and the key column is one name. -/
structure Persists (c : Client) (table : String) : Prop where
  parser : c.parser = Statement.parse
  writable : c.store.readOnly = false
  sound : c.store.Sound
  unmarked : hasPlaceholder (c.config.keyOf table) = false
  trimmed : Text.trim (c.config.keyOf table) = c.config.keyOf table

/-- The collection of a table. -/
def placeOf (c : Client) (table : String) : Place := ⟨c.config.database, table⟩

variable {record : Document}

theorem on_keyExists (h : c.Persists table) (key : Value) :
    (keyExists table (c.config.keyOf table) key).on c =
      (.ok ((c.store.documentsAt (c.placeOf table)).any (Store.hasKey key)), c) := by
  have hparse : c.parser (lookupText table (c.config.keyOf table)) =
      .ok (lookupStatement table (c.config.keyOf table)) := by
    rw [h.parser, parse_lookupText]
  have hpredicate := (yields_keyedPredicate (c := c.config)
    (t := lookupStatement table (c.config.keyOf table)) rfl h.unmarked h.trimmed key).on []
  rw [List.append_nil] at hpredicate
  have hquery := on_queryHeld hparse [key] Receiver.one
  rw [select_of_isEmpty_eq_false rfl hpredicate (SortedMap.isEmpty_insert _ _ _),
    holds_keyPredicate] at hquery
  rw [keyExists, Effect.on_bind, hquery]
  exact congrArg (fun found => (Except.ok found, c)) (isEmpty_deliver_one _ _ _)

theorem on_insertRecord (h : c.Persists table) (hrecord : record.HasKeyUnder (c.config.keyOf table))
    (hnone : (c.store.documentsAt (c.placeOf table)).any
      (Store.hasKey (record.keyUnder (c.config.keyOf table))) = false) :
    (insertRecord table record).on c =
      (.ok { inserted := 1 }, { c with store := { c.store with
        catalog := c.store.catalog.put (c.placeOf table) (c.store.documentsAt (c.placeOf table) ++
          [record.insert nativeKey (record.keyUnder (c.config.keyOf table))]) } }) := by
  have hnonempty : record.isEmpty = false := by
    have hget := hrecord.get?_keyColumn
    rw [Bool.eq_false_iff]
    intro hempty
    rw [SortedMap.get?_of_isEmpty hempty] at hget
    cases hget
  obtain ⟨name, names, hnames⟩ := names_ne_nil hnonempty
  have hparse : c.parser (insertText table record.names) =
      .ok (insertStatement table record.names) := by
    rw [h.parser, hnames, parse_insertText]
  have hmodify : (modify c.config (insertStatement table record.names)
      (record.entries.map fun f => f.2)).on c.store =
        if (c.store.documentsAt (c.placeOf table)).any
          (Store.hasKey (record.keyUnder (c.config.keyOf table))) then _ else _ :=
    on_modify_insert h.writable (by rw [record.ofList_entries]; exact hrecord.get?_keyColumn)
      (by rw [record.ofList_entries]; exact hrecord.native)
  rw [record.ofList_entries] at hmodify
  rw [hnone] at hmodify
  rw [on_insertRecord_of_parse hparse, hmodify]
  rfl

theorem on_updateRecord (h : c.Persists table) (hrecord : record.HasKeyUnder (c.config.keyOf table))
    {before rest : Collection} {d : Document}
    (hat : c.store.documentsAt (c.placeOf table) = before ++ d :: rest)
    (hd : Store.hasKey (record.keyUnder (c.config.keyOf table)) d = true)
    (hbefore : ∀ x ∈ before, Store.hasKey (record.keyUnder (c.config.keyOf table)) x = false)
    (hnonempty : (record.erase (c.config.keyOf table)).isEmpty = false) :
    (updateRecord table (c.config.keyOf table) (record.keyUnder (c.config.keyOf table)) record).on c =
      (.ok { updated := 1 }, { c with store := { c.store with
        catalog := c.store.catalog.put (c.placeOf table)
          (before ++ Document.overlay d (record.erase (c.config.keyOf table)) :: rest) } }) := by
  obtain ⟨name, names, hnames⟩ := names_ne_nil hnonempty
  have hparse : c.parser (updateText table (c.config.keyOf table)
      (record.erase (c.config.keyOf table)).names) =
        .ok (updateStatement table (c.config.keyOf table)
          (record.erase (c.config.keyOf table)).names) := by
    rw [h.parser, hnames, parse_updateText]
  have hbind := (yields_recordAndPredicate (c := c.config)
    (t := updateStatement table (c.config.keyOf table) (record.erase (c.config.keyOf table)).names)
    (record.erase (c.config.keyOf table)) (record.keyUnder (c.config.keyOf table)) rfl rfl
    h.unmarked h.trimmed).on []
  rw [List.append_nil] at hbind
  obtain ⟨key, hkey⟩ := (h.sound.wellKeyed (c.placeOf table)).keyed d (by simp [hat])
  have hmodify := on_modify_of_first h.writable rfl hbind hat
    (by rwa [holds_keyPredicate]) (by rwa [holds_keyPredicate])
  have hsuccessor : Store.successor (c.placeOf table) d
      (Document.overlay d (record.erase (c.config.keyOf table))) =
        .ok (Document.overlay d (record.erase (c.config.keyOf table))) := by
    refine Store.successor_overlay hkey fun k hk => ?_
    rw [hrecord.get?_erase_nativeKey] at hk
    cases hk
  have hplace : (updateStatement table (c.config.keyOf table)
      (record.erase (c.config.keyOf table)).names).place c.config = c.placeOf table := rfl
  rw [hplace, hsuccessor] at hmodify
  rw [updateRecord, if_neg (by simp [hnonempty]), Effect.on_bind, on_executeHeld hparse, hmodify]
  rfl

theorem recordKey?_of_hasKeyUnder {keyColumn : String} (h : record.HasKeyUnder keyColumn) :
    recordKey? keyColumn record = some (record.keyUnder keyColumn) := by
  obtain ⟨key, hkey, hnull⟩ := h.key
  have hunder : record.keyUnder keyColumn = key := by rw [Document.keyUnder, hkey]; rfl
  rw [recordKey?, hkey, hunder]
  cases key with
  | null => exact absurd rfl hnull
  | bool _ | num _ | str _ | arr _ | obj _ => rfl

/-- Writing a record is one upsert of the table's collection. -/
theorem on_persistRecord (h : c.Persists table) {r : Value}
    (hvalue : Document.ofValue? r = some record)
    (hrecord : record.HasKeyUnder (c.config.keyOf table)) :
    ∃ t s, (persistRecord table (c.config.keyOf table) r).on c = (.ok t, { c with store := s }) ∧
      (∀ tally, upsert (c.config.keyOf table) (c.store.documentsAt (c.placeOf table), tally) record =
        (s.documentsAt (c.placeOf table), tally.add t)) ∧
      Store.OnlyAt (c.placeOf table) c.store s := by
  have hrun : (persistRecord table (c.config.keyOf table) r).on c =
      ((if (c.store.documentsAt (c.placeOf table)).any
          (Store.hasKey (record.keyUnder (c.config.keyOf table)))
        then updateRecord table (c.config.keyOf table) (record.keyUnder (c.config.keyOf table)) record
        else insertRecord table record).on c) := by
    simp only [persistRecord, hvalue, recordKey?_of_hasKeyUnder hrecord]
    rw [Effect.on_bind, on_keyExists h]
  rw [hrun]
  by_cases hany : (c.store.documentsAt (c.placeOf table)).any
      (Store.hasKey (record.keyUnder (c.config.keyOf table))) = true
  · rw [if_pos hany]
    by_cases hempty : (record.erase (c.config.keyOf table)).isEmpty = true
    · -- a record of nothing but its key leaves the document as it is
      refine ⟨{ updated := 1 }, c.store, ?_, fun tally => ?_, .refl _ _⟩
      · rw [updateRecord, if_pos hempty]
        rfl
      · have hsame : written (c.config.keyOf table) record = id := by
          funext d
          refine SortedMap.ext_get? fun name => ?_
          rw [get?_written, writtenValue?, SortedMap.get?_of_isEmpty hempty, ite_self, Option.none_or]
          rfl
        rw [upsert, if_pos hany, hsame, List.map_id]
    · have hfound : ∃ d, (c.store.documentsAt (c.placeOf table)).find?
          (Store.hasKey (record.keyUnder (c.config.keyOf table))) = some d := by
        rw [← Option.isSome_iff_exists, List.find?_isSome]
        exact List.any_eq_true.1 hany
      obtain ⟨d, hfind⟩ := hfound
      obtain ⟨hd, before, rest, hat, hbefore⟩ := List.find?_eq_some_iff_append.1 hfind
      have hnot : ∀ x ∈ before, Store.hasKey (record.keyUnder (c.config.keyOf table)) x = false :=
        fun x hx => by simpa using hbefore x hx
      have hkeyed := h.sound.wellKeyed (c.placeOf table)
      rw [hat] at hkeyed
      refine ⟨_, _, on_updateRecord h hrecord hat hd hnot (by simpa using hempty), fun tally => ?_,
        .put _ _ _⟩
      rw [documentsAt_put, upsert, if_pos hany, hat, hkeyed.map_written hd hnot]
  · have hnone := Bool.eq_false_iff.2 hany
    rw [if_neg hany]
    refine ⟨_, _, on_insertRecord h hrecord hnone, fun tally => ?_, .put _ _ _⟩
    rw [documentsAt_put, upsert, if_neg hany]

/-! ## All records -/

theorem Persists.after (h : c.Persists table) {s : Store}
    (honly : Store.OnlyAt (c.placeOf table) c.store s) (hsound : s.Sound) :
    Persists { c with store := s } table := by
  refine ⟨h.parser, ?_, hsound, h.unmarked, h.trimmed⟩
  show s.readOnly = false
  rw [honly.rest]
  exact h.writable

theorem on_persistRecords (h : c.Persists table) {records : List Value} {docs : List Document}
    (hvalues : records.map Document.ofValue? = docs.map some)
    (hdocs : ∀ d ∈ docs, d.HasKeyUnder (c.config.keyOf table)) (tally : Tally) :
    ∃ s t, (persistRecords table (c.config.keyOf table) records tally).on c =
        (.ok t, { c with store := s }) ∧
      docs.foldl (upsert (c.config.keyOf table)) (c.store.documentsAt (c.placeOf table), tally) =
        (s.documentsAt (c.placeOf table), t) ∧
      Store.OnlyAt (c.placeOf table) c.store s ∧ s.Sound := by
  induction records generalizing docs c tally with
  | nil =>
    cases docs with
    | nil => exact ⟨c.store, tally, rfl, rfl, .refl _ _, h.sound⟩
    | cons d docs => cases hvalues
  | cons r records ih =>
    cases docs with
    | nil => cases hvalues
    | cons d docs =>
      obtain ⟨hvalue, hvalues⟩ := List.cons.inj hvalues
      obtain ⟨t, s, hrun, hupsert, honly⟩ := on_persistRecord h hvalue (hdocs d (by simp))
      have hsteps : Store.Steps c.store s := by
        have hmoves := moves_persistRecord moves_modifyStore table (c.config.keyOf table) r c
        rwa [hrun] at hmoves
      have hsound := Store.keeps_of_steps (fun _ _ => Store.Sound.step) hsteps h.sound
      obtain ⟨s', t', hrest, hfold, honly', hsound'⟩ := ih (h.after honly hsound) hvalues
        (fun d hd => hdocs d (by simp [hd])) (tally.add t)
      refine ⟨s', t', ?_, ?_, honly.trans honly', hsound'⟩
      · rw [on_persistRecords_cons_of_ok hrun, hrest]
      · rw [List.foldl_cons, hupsert]
        exact hfold

/-- A client that can connect gets a session. -/
theorem acquire_of_connect (hconnect : c.connect = .ok ()) :
    ∃ session pool, acquire.on c = (.ok session, { c with pool }) := by
  change ∃ session pool, acquire c = (.ok session, { c with pool })
  unfold acquire
  rw [hconnect]
  cases c.pool.take? with
  | some taken => exact ⟨_, _, rfl⟩
  | none => exact ⟨_, _, rfl⟩

/-- What a session is given to is the client with another pool, and so is what it leaves. -/
theorem on_withSession_of_acquire {α : Type} {session : Session} {pool : Pool}
    (h : acquire.on c = (.ok session, { c with pool })) (work : ClientM α) :
    (withSession work).on c =
      ((work.on { c with pool }).1, (work.on { c with pool }).2.release session) := by
  rw [on_withSession, h]

/-- The work with a session leaves its mark on the pool only. -/
theorem on_withSession_of_connect {α : Type} (hconnect : c.connect = .ok ()) (work : ClientM α) :
    ∃ before after, (withSession work).on c =
      ((work.on { c with pool := before }).1,
        { (work.on { c with pool := before }).2 with pool := after }) := by
  obtain ⟨session, before, hacquire⟩ := acquire_of_connect hconnect
  exact ⟨before, _, on_withSession_of_acquire hacquire work⟩

theorem on_persist_of_connect (h : c.Persists table) (hconnect : c.connect = .ok ())
    {records : List Value} {docs : List Document}
    (hvalues : records.map Document.ofValue? = docs.map some)
    (hdocs : ∀ d ∈ docs, d.HasKeyUnder (c.config.keyOf table)) :
    ∃ s t pool, (persist table records).on c = (.ok t, { c with store := s, pool }) ∧
      docs.foldl (upsert (c.config.keyOf table)) (c.store.documentsAt (c.placeOf table), {}) =
        (s.documentsAt (c.placeOf table), t) ∧
      Store.OnlyAt (c.placeOf table) c.store s ∧ s.Sound ∧ (records = [] → s = c.store) := by
  obtain ⟨before, pool, hsession⟩ := on_withSession_of_connect hconnect
    (persistRecords table (c.config.keyOf table) records {})
  have hbefore : Persists { c with pool := before } table :=
    ⟨h.parser, h.writable, h.sound, h.unmarked, h.trimmed⟩
  obtain ⟨s, t, hrun, hfold, honly, hsound⟩ := on_persistRecords hbefore hvalues hdocs {}
  refine ⟨s, t, pool, ?_, hfold, honly, hsound, ?_⟩
  · change (persistRecords table (c.config.keyOf table) records {}).on { c with pool := before } = _
      at hrun
    rw [on_persist, hsession, hrun]
  · rintro rfl
    cases hrun
    rfl

end Client

/-! ## Writing twice -/

open Client in
/-- Writing records is folding an upsert over them, whatever their fields are named: it lays the fields of
a record, but for the key column, over the document of its key. Doing it again changes nothing. -/
theorem persist_upserts {c : Client} {table : String} {records : List Value} {docs : List Document}
    (hs : c.store.Reachable) (hw : c.store.readOnly = false) (hconnect : c.connect = .ok ())
    (hparser : c.parser = Statement.parse) (hmark : hasPlaceholder (c.config.keyOf table) = false)
    (htrim : Text.trim (c.config.keyOf table) = c.config.keyOf table)
    (hvalues : records.map Document.ofValue? = docs.map some)
    (hdocs : ∀ d ∈ docs, d.HasKeyUnder (c.config.keyOf table)) :
    ∃ tally c', (persist table records).on c = (.ok tally, c') ∧
      tally.inserted + tally.updated = records.length ∧
      (c'.store.documentsAt ⟨c.config.database, table⟩, tally) =
        docs.foldl (upsert (c.config.keyOf table))
          (c.store.documentsAt ⟨c.config.database, table⟩, {}) ∧
      (∀ record d, LaidOver (c.config.keyOf table) record d (written (c.config.keyOf table) record d)) ∧
      Store.OnlyAt ⟨c.config.database, table⟩ c.store c'.store ∧
      ∃ c'', (persist table records).on c' =
          (.ok { inserted := 0, updated := records.length }, c'') ∧
        c''.store = c'.store := by
  have h : c.Persists table := ⟨hparser, hw, hs.sound, hmark, htrim⟩
  have hlength : records.length = docs.length := by
    simpa using congrArg List.length hvalues
  obtain ⟨s, tally, pool, hrun, hfold, honly, hsound, -⟩ :=
    on_persist_of_connect h hconnect hvalues hdocs
  have hafter : Persists { c with store := s, pool } table := by
    have h' := h.after honly hsound
    exact ⟨h'.parser, h'.writable, h'.sound, h'.unmarked, h'.trimmed⟩
  have hconnect' : Client.connect { c with store := s, pool } = .ok () := by
    rw [← hconnect, connect, connect, honly.rest]
    rfl
  obtain ⟨s', tally', pool', hrun', hfold', honly', hsound', hnil⟩ :=
    on_persist_of_connect hafter hconnect' hvalues hdocs
  have htally := inserted_add_updated_foldl_upsert (c.config.keyOf table) docs
    (c.store.documentsAt (c.placeOf table)) {}
  have htwice := foldl_upsert_twice hdocs (c.store.documentsAt (c.placeOf table)) {}
  have hsettled : Settled (c.config.keyOf table) docs _ :=
    settled_foldl_upsert (settled_nil _ (c.store.documentsAt (c.placeOf table))) hdocs {}
  rw [hfold] at htally htwice hsettled
  change docs.foldl (upsert (c.config.keyOf table)) (s.documentsAt (c.placeOf table), {}) =
    (s'.documentsAt (c.placeOf table), tally') at hfold'
  obtain ⟨hdocuments, rfl⟩ := Prod.mk.inj (hfold'.symm.trans htwice)
  have hsame : s' = s := by
    cases docs with
    | nil => exact hnil (List.length_eq_zero_iff.1 hlength)
    | cons d rest =>
      refine honly'.eq hsound hsound' ?_
      have hpresent := hsettled.present d (by simp)
      have hne : s.documentsAt (c.placeOf table) ≠ [] := by
        intro hempty
        rw [hempty] at hpresent
        cases hpresent
      have hcollection := collection?_of_ne_nil hne
      have hcollection' := collection?_of_ne_nil (s := s') (by rwa [hdocuments])
      show s'.catalog.collection? (c.placeOf table) = s.catalog.collection? (c.placeOf table)
      rw [hcollection, hcollection', hdocuments]
  rw [← hlength] at hrun'
  refine ⟨tally, _, hrun, ?_, hfold.symm, laidOver_written _, honly, _, hrun', hsame⟩
  rw [hlength]
  simpa using htally

/-- A record of the first user with a field of a strange name, and two of a third user. -/
def sampleRecords : List Value :=
  [.obj [("id", .ofInt 1), ("na\x60me; --?", .str "Lady")],
    .obj [("id", .ofInt 3), ("select", .str "?")], .obj [("id", .ofInt 3)]]

theorem persist_upserts_sampleRecords :
    localClient.store.Reachable ∧ localClient.connect = .ok () ∧
      sampleRecords.map Document.ofValue? =
        (sampleRecords.filterMap Document.ofValue?).map some ∧
      (∀ d ∈ sampleRecords.filterMap Document.ofValue?, d.HasKeyUnder "id") ∧
      ∃ c', (Client.persist "users" sampleRecords).on localClient =
          (.ok { inserted := 1, updated := 2 }, c') ∧
        (c'.store.documentsAt ⟨"mydb", "users"⟩).length = 3 ∧
        ∃ c'', (Client.persist "users" sampleRecords).on c' =
            (.ok { inserted := 0, updated := 3 }, c'') ∧ c''.store = c'.store := by
  have hconnect : localClient.connect = .ok () := rfl
  have hvalues : sampleRecords.map Document.ofValue? =
      (sampleRecords.filterMap Document.ofValue?).map some := rfl
  have hdocs : ∀ d ∈ sampleRecords.filterMap Document.ofValue?, d.HasKeyUnder "id" := by
    have hlist : sampleRecords.filterMap Document.ofValue? =
      [SortedMap.ofList [("id", .ofInt 1), ("na\x60me; --?", .str "Lady")],
        SortedMap.ofList [("id", .ofInt 3), ("select", .str "?")],
        SortedMap.ofList [("id", .ofInt 3)]] := rfl
    rw [hlist]
    intro d hd
    simp only [List.mem_cons, List.not_mem_nil, or_false] at hd
    rcases hd with rfl | rfl | rfl
    · exact ⟨⟨.ofInt 1, rfl, nofun⟩, fun _ => rfl⟩
    · exact ⟨⟨.ofInt 3, rfl, nofun⟩, fun _ => rfl⟩
    · exact ⟨⟨.ofInt 3, rfl, nofun⟩, fun _ => rfl⟩
  have hmark : hasPlaceholder (localClient.config.keyOf "users") = false := by decide
  have htrim : Text.trim (localClient.config.keyOf "users") = localClient.config.keyOf "users" := by
    decide
  obtain ⟨tally, c', hrun, -, hfold, -, -, hagain⟩ :=
    persist_upserts (c := localClient) reachable_twoUsers rfl hconnect rfl hmark htrim hvalues hdocs
  obtain ⟨hdocuments, rfl⟩ := Prod.mk.inj hfold
  have htally : ((sampleRecords.filterMap Document.ofValue?).foldl (upsert "id")
      (twoUsers.documentsAt ⟨"mydb", "users"⟩, {})).2 = { inserted := 1, updated := 2 } := by
    decide
  have hcount : ((sampleRecords.filterMap Document.ofValue?).foldl (upsert "id")
      (twoUsers.documentsAt ⟨"mydb", "users"⟩, {})).1.length = 3 := by
    decide
  refine ⟨reachable_twoUsers, hconnect, hvalues, hdocs, c', ?_, ?_, hagain⟩
  · rw [hrun]
    exact congrArg (fun tally => (Except.ok tally, c')) htally
  · exact (congrArg List.length hdocuments).trans hcount

end Schemaless
