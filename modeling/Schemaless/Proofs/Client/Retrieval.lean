import Schemaless.Proofs.Client.Rows

/-!
# What is inserted is read by its key

An `INSERT` of parameters appends their record, with the value of the key column copied to the native
key, unless a document of the table has that key (`on_modify_insert`). A `SELECT *` by the key column asks
for the native key, so it finds the documents that have the key (`on_query_by_key`), and in a store that is
reached there is one at most (`filter_hasKey_of_mem`). So a record that was inserted comes back with the
values that were given, whatever they are and whatever its fields are named, and where an insertion is
refused the document in its way comes back (`inserted_record_is_read`).
-/

namespace Schemaless

open Sql

/-! ## Records of distinct fields -/

/-- A record with the value of its key column as native key has its own fields and no others. -/
theorem get?_insert_nativeKey {fields : List (String × Value)} {keyColumn : String} {key : Value}
    (hdistinct : (fields.map fun f => f.1).Nodup)
    (hkey : (SortedMap.ofList fields).get? keyColumn = some key)
    (hnative : keyColumn ≠ nativeKey → (SortedMap.ofList fields).get? nativeKey = none)
    (name : String) (v : Value) :
    ((SortedMap.ofList fields).insert nativeKey key).get? name = some v ↔
      (name, v) ∈ fields ∨ name = nativeKey ∧ v = key := by
  rw [SortedMap.get?_insert, ← SortedMap.get?_ofList hdistinct]
  by_cases hname : name = nativeKey
  · subst hname
    rw [if_pos rfl]
    constructor
    · intro h
      exact .inr ⟨rfl, (Option.some.inj h).symm⟩
    · rintro (hv | ⟨-, rfl⟩)
      · by_cases hcolumn : keyColumn = nativeKey
        · rw [hcolumn, hv] at hkey
          exact hkey.symm
        · rw [hnative hcolumn] at hv
          cases hv
      · rfl
  · simp [hname]

/-! ## Reading by the key -/

theorem filter_hasKey_of_mem {ds : Collection} {d : Document} {key : Value} (h : ds.WellKeyed)
    (hd : d ∈ ds) (hkey : Store.hasKey key d = true) : ds.filter (Store.hasKey key) = [d] := by
  have hsame : ds.filter (Store.hasKey key) =
      ds.filter fun x => Predicate.fieldEquals (x.get? nativeKey) key := by
    refine List.filter_congr fun x hx => ?_
    obtain ⟨k, hk⟩ := h.keyed x hx
    rw [Store.hasKey, hk]
    rfl
  have hone : (ds.filter (Store.hasKey key)).length ≤ 1 := by
    rw [hsame]
    exact h.length_filter_le_one key
  have hmem : d ∈ ds.filter (Store.hasKey key) := List.mem_filter.2 ⟨hd, hkey⟩
  cases hfound : ds.filter (Store.hasKey key) with
  | nil => simp [hfound] at hmem
  | cons x rest =>
    rw [hfound] at hmem hone
    obtain rfl : rest = [] := by
      apply List.eq_nil_of_length_eq_zero
      simp only [List.length_cons] at hone
      omega
    rw [List.mem_singleton.1 hmem]

namespace Client

open ClientM

variable {c : Client} {table insert read : String} {session : Session} {pool : Pool}

/-- Asking for the key column finds the documents with the key. -/
theorem on_query_by_key
    (hparse : c.parser read = .ok (rowsOf .select table (keyCriteria (c.config.keyOf table)) 1))
    (hacquire : acquire.on c = (.ok session, { c with pool }))
    (hmark : hasPlaceholder (c.config.keyOf table) = false)
    (htrim : Text.trim (c.config.keyOf table) = c.config.keyOf table) (key : Value) :
    (query read [key] Receiver.all).on c =
      (.ok { rows := ((c.store.documentsAt (c.placeOf table)).filter (Store.hasKey key)).map Row.whole },
        Client.release { c with pool } session) := by
  have hpredicate := (yields_keyedPredicate (c := c.config)
    (t := rowsOf .delete table (keyCriteria (c.config.keyOf table)) 1) rfl hmark htrim key).on []
  rw [List.append_nil] at hpredicate
  rw [on_query_rowsOf hparse hacquire (congrArg Prod.fst hpredicate), holds_keyPredicate]

/-- So it does after work on the table that left these documents. -/
theorem query_by_key_after {s : Store}
    (hparse : c.parser read = .ok (rowsOf .select table (keyCriteria (c.config.keyOf table)) 1))
    (hconnect : c.connect = .ok ()) (honly : Store.OnlyAt (c.placeOf table) c.store s)
    (hmark : hasPlaceholder (c.config.keyOf table) = false)
    (htrim : Text.trim (c.config.keyOf table) = c.config.keyOf table) (key : Value) (pool : Pool)
    (session : Session) :
    ∃ c₂, (query read [key] Receiver.all).on (Client.release { c with pool, store := s } session) =
      (.ok { rows := ((s.documentsAt (c.placeOf table)).filter (Store.hasKey key)).map Row.whole },
        c₂) := by
  obtain ⟨next, pool', hagain⟩ := acquire_release_of_onlyAt honly pool session (.inl hconnect)
  exact ⟨_, on_query_by_key (c := Client.release { c with pool, store := s } session) hparse hagain hmark
    htrim key⟩

end Client

/-! ## Inserting and reading -/

open Client ClientM in
/-- Where no document of the table has the key, an `INSERT` of distinct columns succeeds. It appends one
document, which holds the values that were given and the key as its native key, and a `SELECT *` by the
key column reads it. Where a document has the key, the `INSERT` is refused for that, and that document is
read. The texts may be any that are parsed like the two that are written out. -/
theorem inserted_record_is_read {c : Client} {table insert read : String}
    {fields : List (String × Value)} {key : Value} (hs : c.store.Reachable)
    (hw : c.store.readOnly = false) (hconnect : c.connect = .ok ())
    (hparser : c.parser = Statement.parse)
    (hmark : hasPlaceholder (c.config.keyOf table) = false)
    (htrim : Text.trim (c.config.keyOf table) = c.config.keyOf table)
    (hdistinct : (fields.map fun f => f.1).Nodup) (hkey : (c.config.keyOf table, key) ∈ fields)
    (hnative : c.config.keyOf table ≠ nativeKey → nativeKey ∉ fields.map fun f => f.1)
    (hinsert : Statement.parse insert =
      Statement.parse (insertText table (fields.map fun f => f.1)))
    (hread : Statement.parse read =
      Statement.parse ("SELECT * FROM " ++ rowsText table (askText (c.config.keyOf table)))) :
    ((∀ d ∈ c.store.documentsAt (c.placeOf table), Store.hasKey key d = false) →
      ∃ d c₁ c₂, (execute insert (fields.map fun f => f.2)).on c = (.ok 1, c₁) ∧
        c₁.store.documentsAt (c.placeOf table) = c.store.documentsAt (c.placeOf table) ++ [d] ∧
        Store.OnlyAt (c.placeOf table) c.store c₁.store ∧
        (∀ name v, d.get? name = some v ↔ (name, v) ∈ fields ∨ name = nativeKey ∧ v = key) ∧
        (query read [key] Receiver.all).on c₁ = (.ok { rows := [Row.whole d] }, c₂)) ∧
      ∀ old ∈ c.store.documentsAt (c.placeOf table), Store.hasKey key old = true →
        ∃ c₁ c₂, (execute insert (fields.map fun f => f.2)).on c =
            (.error (.store table (.duplicateKey table key)), c₁) ∧
          c₁.store = c.store ∧
          (query read [key] Receiver.all).on c₁ = (.ok { rows := [Row.whole old] }, c₂) := by
  have hget := (SortedMap.get?_ofList hdistinct).2 hkey
  have hnone : c.config.keyOf table ≠ nativeKey →
      (SortedMap.ofList fields).get? nativeKey = none := by
    intro hne
    rw [Option.eq_none_iff_forall_ne_some]
    intro v hv
    have hmem := (SortedMap.get?_ofList hdistinct).1 hv
    exact hnative hne (List.mem_map_of_mem hmem)
  have hparse : c.parser insert = .ok (insertStatement table (fields.map fun f => f.1)) := by
    cases fields with
    | nil => cases hkey
    | cons f rest => rw [hparser, hinsert, List.map_cons, parse_insertText]
  have hparse' : c.parser read = .ok (rowsOf .select table (keyCriteria (c.config.keyOf table)) 1) := by
    rw [hparser, hread, parse_selectFrom_askText]
  obtain ⟨session, pool, hacquire⟩ := acquire_of_connect hconnect
  have hexecute := on_execute_of_acquire hparse hacquire (fields.map fun f => f.2)
  have hrun : (modify c.config (insertStatement table (fields.map fun f => f.1))
      (fields.map fun f => f.2)).on c.store =
      if (c.store.documentsAt (c.placeOf table)).any (Store.hasKey key) then _ else _ :=
    on_modify_insert hw hget hnone
  constructor
  · intro hnew
    have hany : (c.store.documentsAt (c.placeOf table)).any (Store.hasKey key) = false := by
      simpa using hnew
    rw [hrun, hany] at hexecute
    have honly := Store.OnlyAt.put (c.placeOf table) c.store
      (c.store.documentsAt (c.placeOf table) ++ [(SortedMap.ofList fields).insert nativeKey key])
    obtain ⟨c₂, hfound⟩ := query_by_key_after hparse' hconnect honly hmark htrim key pool session
    have hself : Store.hasKey key ((SortedMap.ofList fields).insert nativeKey key) = true := by
      rw [hasKey_insert, Value.equal_refl]
    have hothers : (c.store.documentsAt (c.placeOf table)).filter (Store.hasKey key) = [] := by
      rw [List.filter_eq_nil_iff]
      intro d hd
      simp [hnew d hd]
    rw [documentsAt_put, List.filter_append, hothers, List.filter_singleton, hself] at hfound
    refine ⟨(SortedMap.ofList fields).insert nativeKey key, _, c₂, hexecute, documentsAt_put _ _ _,
      honly, get?_insert_nativeKey hdistinct hget hnone, hfound⟩
  · intro old hold hhas
    have hany : (c.store.documentsAt (c.placeOf table)).any (Store.hasKey key) = true :=
      List.any_eq_true.2 ⟨old, hold, hhas⟩
    rw [hrun, hany] at hexecute
    have hsame := Store.OnlyAt.refl (c.placeOf table) c.store
    obtain ⟨c₂, hfound⟩ := query_by_key_after hparse' hconnect hsame hmark htrim key pool session
    rw [filter_hasKey_of_mem (hs.sound.wellKeyed _) hold hhas] at hfound
    exact ⟨_, c₂, hexecute, rfl, hfound⟩

/-- A third user whose fields look like operators and placeholders, and one with the number of the
first. -/
def thirdUser (key : Int) : List (String × Value) :=
  [("na\x60me", .obj [("$ne", .arr [.null, .str "?"])]), ("id", .ofInt key)]

open Client in
theorem inserted_record_is_read_twoUsers :
    localClient.store.Reachable ∧ localClient.connect = .ok () ∧
      (∃ d c₁ c₂,
        (execute (insertText "users" ["na\x60me", "id"])
          [.obj [("$ne", .arr [.null, .str "?"])], .ofInt 3]).on localClient = (.ok 1, c₁) ∧
        d.get? nativeKey = some (.ofInt 3) ∧
        (query ("SELECT * FROM " ++ rowsText "users" (askText "id")) [.ofInt 3] Receiver.all).on c₁ =
          (.ok { rows := [Row.whole d] }, c₂)) ∧
      ∃ old c₁ c₂, old ∈ twoUsers.documentsAt ⟨"mydb", "users"⟩ ∧
        (execute (insertText "users" ["na\x60me", "id"])
          [.obj [("$ne", .arr [.null, .str "?"])], .ofInt 1]).on localClient =
            (.error (.store "users" (.duplicateKey "users" (.ofInt 1))), c₁) ∧
        (query ("SELECT * FROM " ++ rowsText "users" (askText "id")) [.ofInt 1] Receiver.all).on c₁ =
          (.ok { rows := [Row.whole old] }, c₂) := by
  have hmark : hasPlaceholder (localClient.config.keyOf "users") = false := by decide
  have htrim : Text.trim (localClient.config.keyOf "users") = localClient.config.keyOf "users" := by
    decide
  have hnames (key : Int) : ((thirdUser key).map fun f => f.1) = ["na\x60me", "id"] := rfl
  have hdistinct (key : Int) : ((thirdUser key).map fun f => f.1).Nodup := by
    rw [hnames]
    decide
  have hkey (key : Int) : (localClient.config.keyOf "users", .ofInt key) ∈ thirdUser key := by
    show ("id", Value.ofInt key) ∈ thirdUser key
    simp [thirdUser]
  have hnative (key : Int) : localClient.config.keyOf "users" ≠ nativeKey →
      nativeKey ∉ (thirdUser key).map fun f => f.1 := by
    rw [hnames]
    decide
  have hread (key : Int) := inserted_record_is_read (c := localClient) reachable_twoUsers rfl rfl rfl
    hmark htrim (hdistinct key) (hkey key) (hnative key) rfl rfl
  refine ⟨reachable_twoUsers, rfl, ?_, ?_⟩
  · obtain ⟨d, c₁, c₂, hinsert, -, -, hget, hquery⟩ := (hread 3).1 (by decide)
    exact ⟨d, c₁, c₂, hinsert, (hget _ _).2 (.inr ⟨rfl, rfl⟩), hquery⟩
  · obtain ⟨old, hold, hhas⟩ : ∃ old ∈ twoUsers.documentsAt ⟨"mydb", "users"⟩,
        Store.hasKey (.ofInt 1) old = true := ⟨_, List.mem_cons_self, by decide⟩
    obtain ⟨c₁, c₂, hinsert, -, hquery⟩ := (hread 1).2 old hold hhas
    exact ⟨old, c₁, c₂, hold, hinsert, hquery⟩

end Schemaless
