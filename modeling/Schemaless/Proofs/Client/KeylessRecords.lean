import Schemaless.Proofs.Client.Freshness
import Schemaless.Proofs.Store.LogicalKey

/-!
# Records without a key

A record in which the key column is missing or null has no key to look up, so it is inserted. Which key
its document gets is decided once more, when the key column is copied to the native key: where the column
is missing the next key is drawn, but null is copied as a key like any other
(`on_persistRecord_of_keyless`). A table takes one null as a key, so the records up to the second null
are inserted (`on_persistRecords_of_keyless`), and each has a generated key of its own exactly if there is
no null at all (`keyless_records_inserted_iff`).
-/

namespace Schemaless

open Sql

variable {keyColumn : String} {p : Place} {s : Store} {d : Document} {docs : List Document}

/-- The record has some field but no native key, and under the key column it has nothing or null. -/
structure Document.Keyless (keyColumn : String) (d : Document) : Prop where
  nonempty : d.isEmpty = false
  native : d.get? nativeKey = none
  key : recordKey? keyColumn d = none

theorem Document.Keyless.get?_keyColumn (h : d.Keyless keyColumn) :
    d.get? keyColumn = if d.contains keyColumn then some .null else none := by
  have hkey := h.key
  rw [SortedMap.contains]
  cases hget : d.get? keyColumn with
  | none => rfl
  | some v =>
    cases v with
    | null => rfl
    | bool _ | num _ | str _ | arr _ | obj _ =>
      rw [recordKey?, hget] at hkey
      cases hkey

/-! ## What a store gains -/

/-- The documents of keyless records: those that have the key column have null as their key, the others
the keys generated from number `n` on. -/
def keyed (keyColumn : String) : Nat → List Document → Collection
  | _, [] => []
  | n, d :: rest =>
    if d.contains keyColumn then d.insert nativeKey .null :: keyed keyColumn n rest
    else d.insert nativeKey (.str (Store.keyText n)) :: keyed keyColumn (n + 1) rest

/-- The records in front of the first that has a null for which there is no place. -/
def accepted (keyColumn : String) : Bool → List Document → List Document
  | _, [] => []
  | taken, d :: rest =>
    if taken && d.contains keyColumn then []
    else d :: accepted keyColumn (taken || d.contains keyColumn) rest

/-- How many of the records have the key column, and null in it. -/
def nulls (keyColumn : String) (docs : List Document) : Nat := docs.countP fun d => d.contains keyColumn

theorem nulls_cons (keyColumn : String) (d : Document) (rest : List Document) :
    nulls keyColumn (d :: rest) = nulls keyColumn rest + (d.contains keyColumn).toNat := by
  rw [nulls, List.countP_cons, ← nulls]
  cases d.contains keyColumn <;> rfl

theorem nulls_eq_zero_iff : nulls keyColumn docs = 0 ↔ ∀ d ∈ docs, d.get? keyColumn = none := by
  rw [nulls, List.countP_eq_zero]
  exact forall₂_congr fun d _ => by rw [SortedMap.contains, Option.not_isSome_iff_eq_none]

namespace Store

/-- Whether the documents at a place leave no place for one whose key is null. -/
def nullTaken (s : Store) (p : Place) : Bool := (s.documentsAt p).any (hasKey .null)

/-- The store after a keyless record was inserted. -/
def gaining (keyColumn : String) (p : Place) (s : Store) (d : Document) : Store :=
  if d.contains keyColumn then
    { s with catalog := s.catalog.put p (s.documentsAt p ++ [d.insert nativeKey .null]) }
  else s.drawing p d

/-- With the documents of a place and the records, no more than one null is a key there. -/
def HasPlaces (keyColumn : String) (p : Place) (s : Store) (docs : List Document) : Prop :=
  (s.nullTaken p).toNat + nulls keyColumn docs ≤ 1

instance : Decidable (s.HasPlaces keyColumn p docs) := inferInstanceAs (Decidable (_ ≤ _))

/-- The store after keyless records were inserted, up to a second null. -/
def gainingAll (keyColumn : String) (p : Place) (s : Store) (docs : List Document) : Store :=
  (accepted keyColumn (s.nullTaken p) docs).foldl (gaining keyColumn p) s

theorem documentsAt_drawing (s : Store) (p : Place) (d : Document) :
    (s.drawing p d).documentsAt p =
      s.documentsAt p ++ [d.insert nativeKey (.str (keyText s.nextKey))] := documentsAt_put p s _

theorem nullTaken_gaining (keyColumn : String) (p : Place) (s : Store) (d : Document) :
    (s.gaining keyColumn p d).nullTaken p = (s.nullTaken p || d.contains keyColumn) := by
  have happended (key : Value) :
      (s.documentsAt p ++ [d.insert nativeKey key]).any (hasKey .null) =
        (s.nullTaken p || key.equal .null) := by
    rw [List.any_append, List.any_cons, List.any_nil, Bool.or_false, hasKey_insert]
    rfl
  rw [nullTaken, gaining]
  cases d.contains keyColumn with
  | true =>
    rw [if_pos rfl, documentsAt_put, happended]
    rfl
  | false =>
    rw [if_neg (by decide), documentsAt_drawing, happended]
    rfl

/-- A key of a keyless record is null or a generated one, so the keys stay drawn. -/
theorem KeysDrawn.gaining (h : s.KeysDrawn) (keyColumn : String) (p : Place) (d : Document) :
    (s.gaining keyColumn p d).KeysDrawn := by
  have hkey (key : Value) : (d.insert nativeKey key).get? nativeKey = some key := by
    rw [SortedMap.get?_insert, if_pos rfl]
  rw [Store.gaining]
  split
  · refine h.put p ((h.vouches p).append (hkey _) fun htext => ?_)
    obtain ⟨text, htext, -⟩ := htext
    cases htext
  · exact h.spend.put p ((h.spend.vouches p).append (hkey _) fun _ =>
      generated_iff.2 ⟨s.nextKey, h.positive, Nat.lt_succ_self _, rfl⟩)

theorem changesAt_gaining (keyColumn : String) (p : Place) (s : Store) (d : Document) :
    ChangesAt True p s (s.gaining keyColumn p d) := by
  rw [gaining]
  split
  · exact .put _ p s _
  · exact (ChangesAt.spend trivial p s).trans (.put _ p _ _)

theorem nextKey_gaining (keyColumn : String) (p : Place) (s : Store) (d : Document) :
    (s.gaining keyColumn p d).nextKey = s.nextKey + (!d.contains keyColumn).toNat := by
  rw [gaining]
  cases d.contains keyColumn <;> rfl

theorem hasPlaces_nil : s.HasPlaces keyColumn p [] := Bool.toNat_le _

/-- A record without a second null leaves as much place as it needs. -/
theorem hasPlaces_cons (h : (s.nullTaken p && d.contains keyColumn) = false) :
    s.HasPlaces keyColumn p (d :: docs) ↔ (s.gaining keyColumn p d).HasPlaces keyColumn p docs := by
  have hboth : (s.nullTaken p || d.contains keyColumn).toNat =
      (s.nullTaken p).toNat + (d.contains keyColumn).toNat := by
    revert h
    cases s.nullTaken p <;> cases d.contains keyColumn <;> decide
  rw [HasPlaces, HasPlaces, nullTaken_gaining, nulls_cons, hboth]
  omega

theorem not_hasPlaces_cons (h : (s.nullTaken p && d.contains keyColumn) = true) :
    ¬s.HasPlaces keyColumn p (d :: docs) := by
  obtain ⟨htaken, hnull⟩ := Bool.and_eq_true_iff.1 h
  rw [HasPlaces, nulls_cons, htaken, hnull]
  show ¬1 + (nulls keyColumn docs + 1) ≤ 1
  omega

theorem gainingAll_cons (keyColumn : String) (p : Place) (s : Store) (d : Document)
    (docs : List Document) :
    s.gainingAll keyColumn p (d :: docs) =
      if s.nullTaken p && d.contains keyColumn then s
      else (s.gaining keyColumn p d).gainingAll keyColumn p docs := by
  rw [gainingAll, gainingAll, accepted, nullTaken_gaining]
  split <;> rfl

theorem accepted_of_hasPlaces (h : s.HasPlaces keyColumn p docs) :
    accepted keyColumn (s.nullTaken p) docs = docs := by
  induction docs generalizing s with
  | nil => rfl
  | cons d rest ih =>
    rw [accepted]
    cases hsecond : s.nullTaken p && d.contains keyColumn with
    | true => exact absurd h (not_hasPlaces_cons hsecond)
    | false =>
      have hrest := ih ((hasPlaces_cons hsecond).1 h)
      rw [nullTaken_gaining] at hrest
      rw [if_neg (by decide), hrest]

theorem documentsAt_foldl_gaining (keyColumn : String) (p : Place) (s : Store) (docs : List Document) :
    (docs.foldl (gaining keyColumn p) s).documentsAt p =
      s.documentsAt p ++ keyed keyColumn s.nextKey docs := by
  induction docs generalizing s with
  | nil => exact (List.append_nil _).symm
  | cons d rest ih =>
    rw [List.foldl_cons, ih, nextKey_gaining, keyed, gaining]
    cases d.contains keyColumn with
    | true =>
      rw [if_pos rfl, if_pos rfl, documentsAt_put]
      exact List.append_assoc _ _ _
    | false =>
      rw [if_neg (by decide), if_neg (by decide), documentsAt_drawing]
      exact List.append_assoc _ _ _

theorem nextKey_foldl_gaining (keyColumn : String) (p : Place) (s : Store) (docs : List Document) :
    (docs.foldl (gaining keyColumn p) s).nextKey + nulls keyColumn docs = s.nextKey + docs.length := by
  induction docs generalizing s with
  | nil => rfl
  | cons d rest ih =>
    have hrest := ih (s.gaining keyColumn p d)
    have hnext := nextKey_gaining keyColumn p s d
    rw [List.foldl_cons, nulls_cons, List.length_cons]
    cases hd : d.contains keyColumn <;> rw [hd] at hnext <;>
      simp only [Bool.not_true, Bool.not_false, Bool.toNat_true, Bool.toNat_false] at hnext ⊢ <;> omega

theorem changesAt_foldl_gaining (keyColumn : String) (p : Place) (s : Store) (docs : List Document) :
    ChangesAt True p s (docs.foldl (gaining keyColumn p) s) := by
  induction docs generalizing s with
  | nil => exact .refl _ p s
  | cons d rest ih => exact (changesAt_gaining keyColumn p s d).trans (ih _)

/-! ### Generated keys -/

/-- `t` is `s` with a document at a place for each of the records, under a key that was generated for it
and never before. -/
structure GainsAll (s t : Store) (p : Place) (docs : List Document) : Prop where
  changes : ChangesAt True p s t
  nodup : t.generatedKeys.Nodup
  gained : ∃ texts, texts.length = docs.length ∧ t.generatedKeys = s.generatedKeys ++ texts ∧
    t.documentsAt p =
      s.documentsAt p ++ List.zipWith (fun d text => d.insert nativeKey (.str text)) docs texts

theorem generatedKeys_add (hpos : 0 < s.nextKey) {t : Store} {k : Nat}
    (h : t.nextKey = s.nextKey + k) :
    t.generatedKeys = s.generatedKeys ++ (List.range' s.nextKey k).map keyText := by
  have hlast : t.nextKey - 1 = s.nextKey - 1 + k := by omega
  have hfirst : 1 + (s.nextKey - 1) = s.nextKey := by omega
  rw [generatedKeys, hlast, ← List.range'_append_1, List.map_append, hfirst, generatedKeys]

theorem keyed_of_nulls_eq_zero (h : nulls keyColumn docs = 0) (n : Nat) :
    keyed keyColumn n docs = List.zipWith (fun d text => d.insert nativeKey (.str text)) docs
      ((List.range' n docs.length).map keyText) := by
  induction docs generalizing n with
  | nil => rfl
  | cons d rest ih =>
    rw [nulls_cons] at h
    have hd : d.contains keyColumn = false := by
      cases hd : d.contains keyColumn with
      | false => rfl
      | true =>
        rw [hd] at h
        cases h
    rw [keyed, if_neg (by simp [hd]), ih (by omega)]
    rfl

/-- The documents of records with null have null as their key. -/
theorem mem_keyed_of_null (hd : d ∈ docs) (hnull : d.contains keyColumn = true) (n : Nat) :
    d.insert nativeKey .null ∈ keyed keyColumn n docs := by
  induction docs generalizing n with
  | nil => cases hd
  | cons e rest ih =>
    rw [keyed]
    rcases List.mem_cons.1 hd with rfl | hd
    · rw [if_pos hnull]
      exact List.mem_cons_self
    · split
      · exact List.mem_cons_of_mem _ (ih hd n)
      · exact List.mem_cons_of_mem _ (ih hd (n + 1))

/-- The records that are inserted have a generated key each exactly if there is no null among them. -/
theorem gainsAll_foldl_gaining_iff (hpos : 0 < s.nextKey) (hfew : s.nextKey + docs.length ≤ keyLimit) :
    s.GainsAll (docs.foldl (gaining keyColumn p) s) p docs ↔ nulls keyColumn docs = 0 := by
  have hdocuments := documentsAt_foldl_gaining keyColumn p s docs
  constructor
  · intro h
    obtain ⟨texts, -, -, hgained⟩ := h.gained
    have hsame := List.append_cancel_left (hdocuments.symm.trans hgained)
    rw [nulls, List.countP_eq_zero]
    intro d hd hnull
    have hmem := mem_keyed_of_null hd hnull s.nextKey
    rw [hsame] at hmem
    obtain ⟨i, hi, hat⟩ := List.mem_iff_getElem.1 hmem
    have hkey := congrArg (fun x : Document => x.get? nativeKey) hat
    simp [SortedMap.get?_insert] at hkey
  · intro hnone
    have hnext := nextKey_foldl_gaining keyColumn p s docs
    rw [hnone, Nat.add_zero] at hnext
    refine ⟨changesAt_foldl_gaining keyColumn p s docs, nodup_generatedKeys (by omega), _, ?_,
      generatedKeys_add hpos hnext, ?_⟩
    · rw [List.length_map, List.length_range']
    · rw [hdocuments, keyed_of_nulls_eq_zero hnone]

end Store

/-! ## Writing keyless records -/

namespace Client

open ClientM

/-- The client inserts keyless records into a table: it reads its own statements, its store may be
written and has no key of the form of a generated one but those it generated, and the table has a key
column besides the native key. -/
structure Inserts (c : Client) (table : String) : Prop where
  parser : c.parser = Statement.parse
  writable : c.store.readOnly = false
  drawn : c.store.KeysDrawn
  named : c.config.keyOf table ≠ nativeKey

variable {c : Client} {table : String} {r : Value} {records : List Value}

theorem Inserts.after (h : c.Inserts table) (d : Document) :
    Inserts { c with store := c.store.gaining (c.config.keyOf table) (c.placeOf table) d } table := by
  refine ⟨h.parser, ?_, h.drawn.gaining _ _ d, h.named⟩
  show (c.store.gaining (c.config.keyOf table) (c.placeOf table) d).readOnly = false
  rw [(Store.changesAt_gaining _ _ c.store d).rest]
  exact h.writable

/-- A record without the key column, or with null in it, is inserted; only a second null in a table is
refused. -/
theorem on_persistRecord_of_keyless (h : c.Inserts table) (hlt : c.store.nextKey < Store.keyLimit)
    (hvalue : Document.ofValue? r = some d) (hd : d.Keyless (c.config.keyOf table)) :
    (persistRecord table (c.config.keyOf table) r).on c =
      if c.store.nullTaken (c.placeOf table) && d.contains (c.config.keyOf table) then
        (.error (.store table (.duplicateKey table .null)), c)
      else (.ok { inserted := 1 },
        { c with store := c.store.gaining (c.config.keyOf table) (c.placeOf table) d }) := by
  obtain ⟨name, names, hnames⟩ := names_ne_nil hd.nonempty
  have hparse : c.parser (insertText table d.names) = .ok (insertStatement table d.names) := by
    rw [h.parser, hnames, parse_insertText]
  have hrun : (persistRecord table (c.config.keyOf table) r).on c = (insertRecord table d).on c := by
    simp only [persistRecord, hvalue, hd.key]
  have hget := hd.get?_keyColumn
  rw [hrun, on_insertRecord_of_parse hparse]
  cases hkey : d.contains (c.config.keyOf table) with
  | true =>
    rw [hkey, if_pos rfl] at hget
    have hmodify : (modify c.config (insertStatement table d.names) (d.entries.map fun f => f.2)).on
        c.store = if (c.store.documentsAt (c.placeOf table)).any (Store.hasKey .null) then _ else _ :=
      on_modify_insert h.writable (by rw [d.ofList_entries]; exact hget)
        fun _ => by rw [d.ofList_entries]; exact hd.native
    rw [d.ofList_entries] at hmodify
    rw [hmodify, Bool.and_true, Store.nullTaken, Store.gaining, hkey]
    cases (c.store.documentsAt (c.placeOf table)).any (Store.hasKey .null) <;> rfl
  | false =>
    rw [hkey, if_neg (by decide)] at hget
    have hbound := congrArg Prod.fst
      ((yields_bindRecord (t := insertStatement table d.names) d rfl).on [])
    rw [List.append_nil] at hbound
    have hresolve : resolveKey c.config table false d = d := by
      rw [resolveKey_of_missing hd.native, hget]
    have hmodify := h.drawn.on_modify (c := c.config) hlt ⟨rfl, d, hbound, hresolve.symm⟩ hd.native
    rw [hmodify, h.writable, Bool.and_false, Store.gaining, hkey]
    rfl

/-- Keyless records are inserted one after the other, up to a second null. -/
theorem on_persistRecords_of_keyless (h : c.Inserts table)
    (hvalues : records.map Document.ofValue? = docs.map some)
    (hdocs : ∀ d ∈ docs, d.Keyless (c.config.keyOf table))
    (hfew : c.store.nextKey + docs.length ≤ Store.keyLimit) (tally : Tally) :
    (persistRecords table (c.config.keyOf table) records tally).on c =
      (if c.store.HasPlaces (c.config.keyOf table) (c.placeOf table) docs then
          .ok (tally.add { inserted := docs.length })
        else .error (.store table (.duplicateKey table .null)),
        { c with store := c.store.gainingAll (c.config.keyOf table) (c.placeOf table) docs }) := by
  induction records generalizing docs c tally with
  | nil =>
    cases docs with
    | nil =>
      rw [if_pos Store.hasPlaces_nil]
      rfl
    | cons d docs => cases hvalues
  | cons r records ih =>
    cases docs with
    | nil => cases hvalues
    | cons d docs =>
      obtain ⟨hvalue, hvalues⟩ := List.cons.inj hvalues
      rw [List.length_cons] at hfew
      have hstep := on_persistRecord_of_keyless h (by omega) hvalue (hdocs d List.mem_cons_self)
      rw [persistRecords, Effect.on_bind, hstep, Store.gainingAll_cons]
      cases hsecond : c.store.nullTaken (c.placeOf table) && d.contains (c.config.keyOf table) with
      | true => exact congrArg (·, c) (if_neg (Store.not_hasPlaces_cons hsecond)).symm
      | false =>
        have hnext := Store.nextKey_gaining (c.config.keyOf table) (c.placeOf table) c.store d
        have hone := Bool.toNat_le (!d.contains (c.config.keyOf table))
        have hleft : (c.store.gaining (c.config.keyOf table) (c.placeOf table) d).nextKey +
            docs.length ≤ Store.keyLimit := by omega
        have hrest := ih (h.after d) hvalues (fun x hx => hdocs x (List.mem_cons_of_mem _ hx)) hleft
          (tally.add { inserted := 1 })
        have hsum : tally.add { inserted := (d :: docs).length } =
            (tally.add { inserted := 1 }).add { inserted := docs.length } := by
          have hcount : tally.inserted + (docs.length + 1) = tally.inserted + 1 + docs.length := by omega
          exact congrArg (Tally.mk · tally.updated) hcount
        rw [if_congr (Store.hasPlaces_cons hsecond) rfl rfl, hsum]
        exact hrest

/-- With a session, keyless records are written up to a second null. -/
theorem on_persist_of_keyless {session : Session} {pool : Pool} (h : c.Inserts table)
    (hacquire : acquire.on c = (.ok session, { c with pool }))
    (hvalues : records.map Document.ofValue? = docs.map some)
    (hdocs : ∀ d ∈ docs, d.Keyless (c.config.keyOf table))
    (hfew : c.store.nextKey + docs.length ≤ Store.keyLimit) :
    ∃ after, (persist table records).on c =
      (if c.store.HasPlaces (c.config.keyOf table) (c.placeOf table) docs then
          .ok { inserted := docs.length }
        else .error (.store table (.duplicateKey table .null)),
        { c with
          store := c.store.gainingAll (c.config.keyOf table) (c.placeOf table) docs
          pool := after }) := by
  have hpool : Inserts { c with pool } table := ⟨h.parser, h.writable, h.drawn, h.named⟩
  have hrun := on_persistRecords_of_keyless hpool hvalues hdocs hfew {}
  have hcount : Tally.add {} { inserted := docs.length } = { inserted := docs.length } :=
    congrArg (Tally.mk · 0) (Nat.zero_add _)
  rw [hcount] at hrun
  change (persistRecords table (c.config.keyOf table) records {}).on { c with pool } = _ at hrun
  rw [on_persist, on_withSession_of_acquire hacquire, hrun]
  exact ⟨_, rfl⟩

end Client

/-! ## A key for each record -/

open Client ClientM in
/-- Records in which the key column is missing or null are inserted one after the other, those without it
under the next generated keys and those with null under null, up to a second null in the table, which is
refused as a duplicate key. So all are inserted, each under a generated key of its own, exactly if none of
them has null in the key column. -/
theorem keyless_records_inserted_iff {c : Client} {table : String} {records : List Value}
    {docs : List Document} {session : Session} {pool : Pool} (h : c.Inserts table)
    (hacquire : acquire.on c = (.ok session, { c with pool }))
    (hvalues : records.map Document.ofValue? = docs.map some)
    (hdocs : ∀ d ∈ docs, d.Keyless (c.config.keyOf table))
    (hfew : c.store.nextKey + docs.length ≤ Store.keyLimit) :
    ((∃ c', (persist table records).on c = (.ok { inserted := docs.length }, c') ∧
        c.store.GainsAll c'.store (c.placeOf table) docs) ↔
      ∀ d ∈ docs, d.get? (c.config.keyOf table) = none) ∧
    ∃ c', (persist table records).on c =
        (if c.store.HasPlaces (c.config.keyOf table) (c.placeOf table) docs then
          .ok { inserted := docs.length }
        else .error (.store table (.duplicateKey table .null)), c') ∧
      c'.store.documentsAt (c.placeOf table) =
        c.store.documentsAt (c.placeOf table) ++ keyed (c.config.keyOf table) c.store.nextKey
          (accepted (c.config.keyOf table) (c.store.nullTaken (c.placeOf table)) docs) ∧
      Store.ChangesAt True (c.placeOf table) c.store c'.store ∧
      (c.store.HasPlaces (c.config.keyOf table) (c.placeOf table) docs →
        accepted (c.config.keyOf table) (c.store.nullTaken (c.placeOf table)) docs = docs) := by
  obtain ⟨after, hrun⟩ := on_persist_of_keyless h hacquire hvalues hdocs hfew
  have hall (hplaces : c.store.HasPlaces (c.config.keyOf table) (c.placeOf table) docs) :
      c.store.gainingAll (c.config.keyOf table) (c.placeOf table) docs =
        docs.foldl (Store.gaining (c.config.keyOf table) (c.placeOf table)) c.store := by
    rw [Store.gainingAll, Store.accepted_of_hasPlaces hplaces]
  refine ⟨⟨?_, fun hmissing => ?_⟩, _, hrun, Store.documentsAt_foldl_gaining _ _ _ _,
    Store.changesAt_foldl_gaining _ _ _ _, Store.accepted_of_hasPlaces⟩
  · rintro ⟨c', hrun', hgains⟩
    obtain ⟨hanswer, rfl⟩ := Prod.mk.inj (hrun.symm.trans hrun')
    by_cases hplaces : c.store.HasPlaces (c.config.keyOf table) (c.placeOf table) docs
    · change c.store.GainsAll (c.store.gainingAll _ _ docs) _ docs at hgains
      rw [hall hplaces] at hgains
      exact nulls_eq_zero_iff.1 ((Store.gainsAll_foldl_gaining_iff h.drawn.positive hfew).1 hgains)
    · rw [if_neg hplaces] at hanswer
      cases hanswer
  · have hnone := nulls_eq_zero_iff.2 hmissing
    have hplaces : c.store.HasPlaces (c.config.keyOf table) (c.placeOf table) docs := by
      rw [Store.HasPlaces, hnone]
      exact Bool.toNat_le _
    rw [if_pos hplaces] at hrun
    refine ⟨_, hrun, ?_⟩
    show c.store.GainsAll (c.store.gainingAll _ _ docs) _ docs
    rw [hall hplaces]
    exact (Store.gainsAll_foldl_gaining_iff h.drawn.positive hfew).2 hnone

/-- A user with a name alone. -/
def keylessUser (name : String) : Value := .obj [("name", .str name)]

/-- A user with null as the key. -/
def nullUser (name : String) : Value := .obj [("id", .null), ("name", .str name)]

/-- One user with null as the key between two without a key. -/
def keylessUsers : List Value := [keylessUser "Ada", nullUser "Grace", keylessUser "Alan"]

theorem keyless_keylessUser (name : String) :
    Document.Keyless "id" (SortedMap.ofList [("name", .str name)]) := ⟨rfl, rfl, rfl⟩

theorem keyless_nullUser (name : String) :
    Document.Keyless "id" (SortedMap.ofList [("id", .null), ("name", .str name)]) := by
  have hget (field : String) :
      SortedMap.get? (SortedMap.ofList [("id", Value.null), ("name", .str name)]) field =
        if field = "name" then some (.str name) else if field = "id" then some .null else none := by
    show SortedMap.get? ((SortedMap.empty.insert "id" Value.null).insert "name" _) field = _
    rw [SortedMap.get?_insert, SortedMap.get?_insert, SortedMap.get?_empty]
  refine ⟨SortedMap.isEmpty_insert _ _ _, ?_, ?_⟩
  · rw [hget, if_neg (by decide), if_neg (by decide)]
  · rw [recordKey?, hget, if_neg (by decide), if_pos rfl]

theorem inserts_local : Workspace.local.client.Inserts "users" :=
  ⟨rfl, rfl, (Store.Unforged.empty _ _).keysDrawn, by decide⟩

/-- The local client has a session to insert with. -/
theorem acquire_local : ClientM.acquire.on Workspace.local.client =
    (.ok ⟨0⟩, { Workspace.local.client with pool := { dialed := 1 } }) := rfl

theorem keyless_records_inserted_iff_keylessUsers :
    Workspace.local.client.Inserts "users" ∧
      ClientM.acquire.on Workspace.local.client =
        (.ok ⟨0⟩, { Workspace.local.client with pool := { dialed := 1 } }) ∧
      keylessUsers.map Document.ofValue? = (keylessUsers.filterMap Document.ofValue?).map some ∧
      (∀ d ∈ keylessUsers.filterMap Document.ofValue?, d.Keyless "id") ∧
      ∃ c', (Client.persist "users" keylessUsers).on Workspace.local.client =
          (.ok { inserted := 3 }, c') ∧
        (c'.store.documentsAt ⟨"mydb", "users"⟩).map (fun d => d.get? nativeKey) =
          [some (.str "000000000000000000000001"), some .null,
            some (.str "000000000000000000000002")] ∧
        ¬Workspace.local.client.store.GainsAll c'.store ⟨"mydb", "users"⟩
          (keylessUsers.filterMap Document.ofValue?) := by
  have hvalues : keylessUsers.map Document.ofValue? =
      (keylessUsers.filterMap Document.ofValue?).map some := rfl
  have hdocs : ∀ d ∈ keylessUsers.filterMap Document.ofValue?, d.Keyless "id" := by
    intro d hd
    have hlist : d = SortedMap.ofList [("name", .str "Ada")] ∨
        d = SortedMap.ofList [("id", .null), ("name", .str "Grace")] ∨
        d = SortedMap.ofList [("name", .str "Alan")] := by
      simpa [keylessUsers, keylessUser, nullUser, Document.ofValue?] using hd
    rcases hlist with rfl | rfl | rfl
    · exact keyless_keylessUser "Ada"
    · exact keyless_nullUser "Grace"
    · exact keyless_keylessUser "Alan"
  obtain ⟨hgains, c', hrun, hdocuments, -, -⟩ :=
    keyless_records_inserted_iff inserts_local acquire_local hvalues hdocs (by decide)
  refine ⟨inserts_local, acquire_local, hvalues, hdocs, c', hrun, ?_, fun h => ?_⟩
  · exact congrArg (List.map fun d : Document => d.get? nativeKey) hdocuments
  · have hmissing := hgains.1 ⟨c', hrun, h⟩
    have hnull := hmissing (SortedMap.ofList [("id", .null), ("name", .str "Grace")])
      (List.mem_cons_of_mem _ List.mem_cons_self)
    cases hnull

open Client in
/-- A second record with null in the key column is refused. -/
theorem second_null_is_refused :
    ¬∀ (c : Client) (table : String) (records : List Value) (docs : List Document),
      c.Inserts table → c.connect = .ok () → records.map Document.ofValue? = docs.map some →
      (∀ d ∈ docs, d.Keyless (c.config.keyOf table)) →
      c.store.nextKey + docs.length ≤ Store.keyLimit →
      ∃ c', (persist table records).on c = (.ok { inserted := docs.length }, c') := by
  intro h
  have hdocs : ∀ d ∈ [nullUser "Ada", nullUser "Grace"].filterMap Document.ofValue?,
      d.Keyless "id" := by
    intro d hd
    have hlist : d = SortedMap.ofList [("id", .null), ("name", .str "Ada")] ∨
        d = SortedMap.ofList [("id", .null), ("name", .str "Grace")] := by
      simpa [nullUser, Document.ofValue?] using hd
    rcases hlist with rfl | rfl
    · exact keyless_nullUser "Ada"
    · exact keyless_nullUser "Grace"
  have hvalues : [nullUser "Ada", nullUser "Grace"].map Document.ofValue? =
      ([nullUser "Ada", nullUser "Grace"].filterMap Document.ofValue?).map some := rfl
  obtain ⟨c', hrun⟩ := h Workspace.local.client "users" _ _ inserts_local rfl hvalues hdocs (by decide)
  obtain ⟨after, hrefused⟩ :=
    on_persist_of_keyless inserts_local acquire_local hvalues hdocs (by decide)
  cases hrun.symm.trans hrefused

end Schemaless
