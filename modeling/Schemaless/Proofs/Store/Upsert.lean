import Schemaless.Client.Upsert
import Schemaless.Proofs.Store.Keys
import Schemaless.Proofs.Store.Update

/-!
# Writing records under their keys

To write a record under its key is one operation on a collection (`upsert`): where a document has the
key, the record's fields are laid over it, and where none has, the record is appended. Records are
written by folding it over them.

Writing the same records once more changes nothing. A later record may undo what an earlier one with
the same key wrote, so no single record has to be written already; but a document that all the records
were written over in turn is the same after they are written over it again (`Settled`).
-/

namespace Schemaless

/-! ## One record -/

/-- The key that a record brings. -/
def Document.keyUnder (keyColumn : String) (record : Document) : Value :=
  (record.get? keyColumn).getD .null

/-- A record that has a key, and no native key unless that is its key. -/
structure Document.HasKeyUnder (keyColumn : String) (record : Document) : Prop where
  key : ∃ key, record.get? keyColumn = some key ∧ key ≠ .null
  native : keyColumn ≠ nativeKey → record.get? nativeKey = none

/-- The document after a record was written: where it has the record's key, the fields of the record but
the key column are set in it, one after the other. -/
def written (keyColumn : String) (record d : Document) : Document :=
  if Store.hasKey (record.keyUnder keyColumn) d then
    (record.erase keyColumn).entries.foldl (fun d f => d.insert f.1 f.2) d
  else d

/-- What becomes of a document when a record is written: under the record's key, a field that the record
has, but for the key column, is as in the record, and every other field is as it was; under another key
all fields are. -/
def LaidOver (keyColumn : String) (record d after : Document) : Prop :=
  ∀ name, after.get? name =
    if Store.hasKey (record.keyUnder keyColumn) d = true ∧ name ≠ keyColumn then
      (record.get? name).or (d.get? name)
    else d.get? name

/-- Writes a record into a collection, and counts it. -/
def upsert (keyColumn : String) (state : Collection × Tally) (record : Document) :
    Collection × Tally :=
  let key := record.keyUnder keyColumn
  if state.1.any (Store.hasKey key) then
    (state.1.map (written keyColumn record), state.2.add { updated := 1 })
  else (state.1 ++ [record.insert nativeKey key], state.2.add { inserted := 1 })

variable {keyColumn : String} {record d : Document} {records before : List Document}
  {ds : Collection} {tally : Tally} {key v : Value}

namespace Document.HasKeyUnder

variable (h : record.HasKeyUnder keyColumn)

include h

theorem get?_keyColumn : record.get? keyColumn = some (record.keyUnder keyColumn) := by
  obtain ⟨key, hkey, -⟩ := h.key
  rw [keyUnder, hkey]
  rfl

theorem get?_erase_nativeKey : (record.erase keyColumn).get? nativeKey = none := by
  rw [SortedMap.get?_erase]
  split
  · rfl
  · next hne => exact h.native (Ne.symm hne)

theorem hasKey_written (v : Value) (d : Document) :
    Store.hasKey v (written keyColumn record d) = Store.hasKey v d := by
  rw [written]
  split
  · rw [Store.hasKey, SortedMap.get?_foldl_insert_entries, h.get?_erase_nativeKey, Option.none_or,
      ← Store.hasKey]
  · rfl

end Document.HasKeyUnder

theorem hasKey_insert (record : Document) (key v : Value) :
    Store.hasKey v (record.insert nativeKey key) = key.equal v := by
  rw [Store.hasKey, SortedMap.get?_insert, if_pos rfl]
  rfl

/-- Documents with equal keys have the same keys. -/
theorem hasKey_trans (hd : Store.hasKey key d = true) (hv : key.equal v = true) :
    Store.hasKey v d = true := by
  rw [Store.hasKey] at hd ⊢
  cases hget : d.get? nativeKey with
  | none => rw [hget] at hd; cases hd
  | some k =>
    rw [hget] at hd
    exact Value.equal_trans hd hv

/-! ## The tally -/

theorem inserted_add_updated_foldl_upsert (keyColumn : String) (records : List Document)
    (ds : Collection) (tally : Tally) :
    (records.foldl (upsert keyColumn) (ds, tally)).2.inserted +
        (records.foldl (upsert keyColumn) (ds, tally)).2.updated =
      tally.inserted + tally.updated + records.length := by
  induction records generalizing ds tally with
  | nil => rfl
  | cons record rest ih =>
    rw [List.foldl_cons, upsert]
    split
    · rw [ih]
      simp only [Tally.add, List.length_cons]
      omega
    · rw [ih]
      simp only [Tally.add, List.length_cons]
      omega

/-! ## All records over one document -/

/-- The document after some records were written. -/
def overwritten (keyColumn : String) (records : List Document) (d : Document) : Document :=
  records.foldl (fun d record => written keyColumn record d) d

/-- The value that a record writes to a field of a document. -/
def writtenValue? (keyColumn : String) (record d : Document) (name : String) : Option Value :=
  if Store.hasKey (record.keyUnder keyColumn) d then (record.erase keyColumn).get? name else none

/-- The value that the last record to write a field of a document writes. -/
def lastValue? (keyColumn : String) (d : Document) (name : String) : List Document → Option Value
  | [] => none
  | record :: rest => (lastValue? keyColumn d name rest).or (writtenValue? keyColumn record d name)

theorem get?_written (record d : Document) (name : String) :
    (written keyColumn record d).get? name =
      (writtenValue? keyColumn record d name).or (d.get? name) := by
  rw [written, writtenValue?]
  split
  · exact SortedMap.get?_foldl_insert_entries d (record.erase keyColumn) name
  · rfl

theorem laidOver_written (keyColumn : String) (record d : Document) :
    LaidOver keyColumn record d (written keyColumn record d) := by
  intro name
  rw [get?_written, writtenValue?, SortedMap.get?_erase]
  by_cases hkey : Store.hasKey (record.keyUnder keyColumn) d = true
  · by_cases hname : name = keyColumn
    · rw [if_pos hkey, if_pos hname, if_neg fun h => h.2 hname, Option.none_or]
    · rw [if_pos hkey, if_neg hname, if_pos ⟨hkey, hname⟩]
  · rw [if_neg hkey, if_neg fun h => hkey h.1, Option.none_or]

theorem overwritten_cons (record : Document) (rest : List Document) (d : Document) :
    overwritten keyColumn (record :: rest) d =
      overwritten keyColumn rest (written keyColumn record d) := rfl

theorem overwritten_concat (records : List Document) (record d : Document) :
    overwritten keyColumn (records ++ [record]) d =
      written keyColumn record (overwritten keyColumn records d) := by
  rw [overwritten, List.foldl_append]
  rfl

theorem hasKey_overwritten (h : ∀ record ∈ records, record.HasKeyUnder keyColumn) (v : Value)
    (d : Document) : Store.hasKey v (overwritten keyColumn records d) = Store.hasKey v d := by
  induction records generalizing d with
  | nil => rfl
  | cons record rest ih =>
    rw [overwritten_cons, ih fun r hr => h r (by simp [hr])]
    exact (h record (by simp)).hasKey_written v d

/-- What is written depends on the key of a document only. -/
theorem lastValue?_congr {d e : Document} (h : ∀ v, Store.hasKey v d = Store.hasKey v e)
    (name : String) (records : List Document) :
    lastValue? keyColumn d name records = lastValue? keyColumn e name records := by
  induction records with
  | nil => rfl
  | cons record rest ih => rw [lastValue?, lastValue?, ih, writtenValue?, writtenValue?, h]

theorem get?_overwritten (h : ∀ record ∈ records, record.HasKeyUnder keyColumn) (d : Document)
    (name : String) :
    (overwritten keyColumn records d).get? name =
      (lastValue? keyColumn d name records).or (d.get? name) := by
  induction records generalizing d with
  | nil => rfl
  | cons record rest ih =>
    have hkeys (v : Value) := (h record (by simp)).hasKey_written v d
    rw [overwritten_cons, ih fun r hr => h r (by simp [hr]), lastValue?_congr hkeys, get?_written,
      lastValue?, Option.or_assoc]

/-! ## Writing twice -/

/-- Every record has a document with its key, and no document changes when the records are written
over it. -/
structure Settled (keyColumn : String) (records : List Document) (ds : Collection) : Prop where
  present : ∀ record ∈ records, ds.any (Store.hasKey (record.keyUnder keyColumn)) = true
  fixed : ∀ d ∈ ds, overwritten keyColumn records d = d

theorem settled_nil (keyColumn : String) (ds : Collection) : Settled keyColumn [] ds :=
  ⟨by simp, fun _ _ => rfl⟩

/-- A document that the records before left as it is, is left as it is after one more was written. -/
theorem overwritten_written (h : ∀ r ∈ before ++ [record], r.HasKeyUnder keyColumn)
    (hd : overwritten keyColumn before d = d) :
    overwritten keyColumn (before ++ [record]) (written keyColumn record d) =
      written keyColumn record d := by
  have hrecord := h record (by simp)
  have hbefore : ∀ r ∈ before, r.HasKeyUnder keyColumn := fun r hr => h r (by simp [hr])
  have hkeys (v : Value) := hrecord.hasKey_written v d
  refine SortedMap.ext_get? fun name => ?_
  -- the record writes the same field values again, and below them stands what `d` has
  have hold := congrArg (SortedMap.get? · name) hd
  simp only [get?_overwritten hbefore] at hold
  have hsame : writtenValue? keyColumn record
      (overwritten keyColumn before (written keyColumn record d)) name =
        writtenValue? keyColumn record d name := by
    rw [writtenValue?, writtenValue?, hasKey_overwritten hbefore, hkeys]
  rw [overwritten_concat, get?_written, hsame, get?_overwritten hbefore, lastValue?_congr hkeys,
    get?_written]
  cases writtenValue? keyColumn record d name with
  | some v => rfl
  | none => simpa using hold

/-- No record with another key changes a document. -/
theorem overwritten_of_hasKey_eq_false
    (h : ∀ r ∈ records, Store.hasKey (r.keyUnder keyColumn) d = false) :
    overwritten keyColumn records d = d := by
  induction records with
  | nil => rfl
  | cons record rest ih =>
    have hsame : written keyColumn record d = d := by
      rw [written, if_neg (by simp [h record (by simp)])]
    rw [overwritten_cons, hsame]
    exact ih fun r hr => h r (by simp [hr])

/-- A record that is appended has its fields already. -/
theorem written_insert (hrecord : record.HasKeyUnder keyColumn) :
    written keyColumn record (record.insert nativeKey (record.keyUnder keyColumn)) =
      record.insert nativeKey (record.keyUnder keyColumn) := by
  refine SortedMap.ext_get? fun name => ?_
  rw [get?_written, writtenValue?, hasKey_insert, if_pos (Value.equal_refl _)]
  by_cases hname : name = nativeKey
  · rw [hname, hrecord.get?_erase_nativeKey, Option.none_or]
  · rw [SortedMap.get?_insert, if_neg hname, SortedMap.get?_erase]
    split
    · rfl
    · cases record.get? name <;> rfl

theorem settled_upsert (h : Settled keyColumn before ds)
    (hrecords : ∀ r ∈ before ++ [record], r.HasKeyUnder keyColumn) (tally : Tally) :
    Settled keyColumn (before ++ [record]) (upsert keyColumn (ds, tally) record).1 := by
  have hrecord := hrecords record (by simp)
  rw [upsert]
  by_cases hany : ds.any (Store.hasKey (record.keyUnder keyColumn)) = true
  · rw [if_pos hany]
    refine ⟨fun r hr => ?_, fun d hd => ?_⟩
    · have hr' : ds.any (Store.hasKey (r.keyUnder keyColumn)) = true := by
        rcases List.mem_append.1 hr with hr | hr
        · exact h.present r hr
        · rwa [List.mem_singleton.1 hr]
      rw [List.any_map]
      simpa [Function.comp_def, hrecord.hasKey_written] using hr'
    · obtain ⟨e, he, rfl⟩ := List.mem_map.1 hd
      exact overwritten_written hrecords (h.fixed e he)
  · have hnone : ∀ d ∈ ds, Store.hasKey (record.keyUnder keyColumn) d = false := by
      intro d hd
      exact Bool.eq_false_iff.2 fun hkey => hany (List.any_eq_true.2 ⟨d, hd, hkey⟩)
    rw [if_neg hany]
    refine ⟨fun r hr => ?_, fun d hd => ?_⟩
    · rcases List.mem_append.1 hr with hr | hr
      · rw [List.any_append, h.present r hr, Bool.true_or]
      · simp [List.mem_singleton.1 hr, hasKey_insert, Value.equal_refl]
    · rcases List.mem_append.1 hd with hd | hd
      · rw [overwritten_concat, h.fixed d hd, written, if_neg (by simp [hnone d hd])]
      · rw [List.mem_singleton] at hd
        subst hd
        -- a record before with this key would have had its document found
        have hbefore : ∀ r ∈ before, Store.hasKey (r.keyUnder keyColumn)
            (record.insert nativeKey (record.keyUnder keyColumn)) = false := by
          intro r hr
          rw [hasKey_insert, Bool.eq_false_iff]
          intro hequal
          obtain ⟨e, he, hkey⟩ := List.any_eq_true.1 (h.present r hr)
          have htrans := hasKey_trans hkey (Value.equal_symm hequal)
          rw [hnone e he] at htrans
          cases htrans
        rw [overwritten_concat, overwritten_of_hasKey_eq_false hbefore, written_insert hrecord]

theorem settled_foldl_upsert (h : Settled keyColumn before ds)
    (hrecords : ∀ r ∈ before ++ records, r.HasKeyUnder keyColumn) (tally : Tally) :
    Settled keyColumn (before ++ records) (records.foldl (upsert keyColumn) (ds, tally)).1 := by
  induction records generalizing before ds tally with
  | nil => simpa using h
  | cons record rest ih =>
    have hsplit : before ++ record :: rest = before ++ [record] ++ rest := by simp
    rw [hsplit] at hrecords ⊢
    exact ih (settled_upsert h (fun r hr => hrecords r (List.mem_append_left _ hr)) tally) hrecords _

theorem foldl_upsert_of_present (hrecords : ∀ r ∈ records, r.HasKeyUnder keyColumn)
    (hpresent : ∀ r ∈ records, ds.any (Store.hasKey (r.keyUnder keyColumn)) = true) (tally : Tally) :
    records.foldl (upsert keyColumn) (ds, tally) =
      (ds.map (overwritten keyColumn records), tally.add { updated := records.length }) := by
  induction records generalizing ds tally with
  | nil =>
    have hid : overwritten keyColumn [] = id := rfl
    simp [hid, Tally.add]
  | cons record rest ih =>
    have hrecord := hrecords record (by simp)
    rw [List.foldl_cons, upsert, if_pos (hpresent record (by simp)), ih, List.map_map]
    · have hcount : (tally.add { updated := 1 }).add { updated := rest.length } =
          tally.add { updated := (record :: rest).length } := by
        simp only [Tally.add, List.length_cons, Nat.add_assoc, Nat.add_comm rest.length]
      rw [hcount]
      rfl
    · exact fun r hr => hrecords r (by simp [hr])
    · intro r hr
      rw [List.any_map]
      simpa [Function.comp_def, hrecord.hasKey_written] using hpresent r (by simp [hr])

/-- Records that were written are all updates the next time, and nothing changes. -/
theorem foldl_upsert_twice (hrecords : ∀ r ∈ records, r.HasKeyUnder keyColumn) (ds : Collection)
    (tally : Tally) :
    let after := (records.foldl (upsert keyColumn) (ds, tally)).1
    records.foldl (upsert keyColumn) (after, {}) = (after, { updated := records.length }) := by
  intro after
  have hsettled : Settled keyColumn records after :=
    settled_foldl_upsert (settled_nil keyColumn ds) hrecords tally
  have hsame : after.map (overwritten keyColumn records) = after := by
    rw [List.map_congr_left hsettled.fixed, List.map_id']
  rw [foldl_upsert_of_present hrecords hsettled.present, hsame]
  simp [Tally.add]

/-! ## Inside a store -/

/-- An update lays the fields over a document that writing the record sets in it. -/
theorem overlay_eq_foldl_insert (d fields : Document) :
    Document.overlay d fields = fields.entries.foldl (fun d f => d.insert f.1 f.2) d := by
  refine SortedMap.ext_get? fun name => ?_
  rw [Document.get?_overlay, SortedMap.get?_foldl_insert_entries]

/-- In a collection with one document of a key, writing a record with this key replaces that one. -/
theorem Collection.WellKeyed.map_written {keyColumn : String} {record d : Document}
    {before rest : Collection} (h : WellKeyed (before ++ d :: rest))
    (hd : Store.hasKey (record.keyUnder keyColumn) d = true)
    (hbefore : ∀ x ∈ before, Store.hasKey (record.keyUnder keyColumn) x = false) :
    (before ++ d :: rest).map (written keyColumn record) =
      before ++ Document.overlay d (record.erase keyColumn) :: rest := by
  have hsame : ∀ x, Store.hasKey (record.keyUnder keyColumn) x = false →
      written keyColumn record x = x := by
    intro x hx
    rw [written, if_neg (by simp [hx])]
  have hrest : ∀ x ∈ rest, Store.hasKey (record.keyUnder keyColumn) x = false := by
    intro x hx
    have hdiffer := (List.pairwise_cons.1 (List.pairwise_append.1 h.differ).2.1).1 x hx
    obtain ⟨k, hk⟩ := h.keyed d (by simp)
    obtain ⟨l, hl⟩ := h.keyed x (by simp [hx])
    have hfalse := hdiffer k l hk hl
    rw [Store.hasKey, hk] at hd
    rw [Store.hasKey, hl, Bool.eq_false_iff]
    intro hequal
    rw [Value.equal_trans hd (Value.equal_symm hequal)] at hfalse
    cases hfalse
  rw [List.map_append, List.map_cons, List.map_congr_left fun x hx => hsame x (hbefore x hx),
    List.map_congr_left fun x hx => hsame x (hrest x hx), List.map_id', List.map_id', written,
    if_pos hd, overlay_eq_foldl_insert]

/-- `t` is `s` but for one collection, which may be new. -/
structure Store.OnlyAt (p : Place) (s t : Store) : Prop where
  collections : ∀ q, q ≠ p → t.catalog.collection? q = s.catalog.collection? q
  rest : t = { s with catalog := t.catalog }

namespace Store.OnlyAt

variable {p : Place} {s t u : Store}

theorem refl (p : Place) (s : Store) : OnlyAt p s s := ⟨fun _ _ => rfl, rfl⟩

theorem trans (h : OnlyAt p s t) (h' : OnlyAt p t u) : OnlyAt p s u := by
  refine ⟨fun q hq => (h'.collections q hq).trans (h.collections q hq), ?_⟩
  rw [h'.rest, h.rest]

theorem put (p : Place) (s : Store) (ds : Collection) :
    OnlyAt p s { s with catalog := s.catalog.put p ds } :=
  ⟨fun q hq => by rw [Catalog.collection?_put, if_neg hq], rfl⟩

end Store.OnlyAt

theorem documentsAt_put (p : Place) (s : Store) (ds : Collection) :
    Store.documentsAt { s with catalog := s.catalog.put p ds } p = ds := by
  rw [Store.documentsAt, Catalog.documents_put, if_pos rfl]

theorem Store.OnlyAt.eq {p : Place} {s t : Store} (h : OnlyAt p s t) (hs : s.Sound) (ht : t.Sound)
    (hp : t.catalog.collection? p = s.catalog.collection? p) : t = s := by
  have hcatalog : t.catalog = s.catalog := by
    refine ht.inhabited.ext hs.inhabited fun q => ?_
    by_cases hq : q = p
    · rw [hq, hp]
    · exact h.collections q hq
  rw [h.rest, hcatalog]

theorem collection?_of_ne_nil {p : Place} {s : Store} (h : s.documentsAt p ≠ []) :
    s.catalog.collection? p = some (s.documentsAt p) := by
  rw [Store.documentsAt, Catalog.documents] at h ⊢
  cases hget : s.catalog.collection? p with
  | none =>
    rw [hget] at h
    exact absurd rfl h
  | some ds => rfl

end Schemaless
