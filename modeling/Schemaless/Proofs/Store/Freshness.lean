import Schemaless.Proofs.Binding.Failures
import Schemaless.Proofs.Store.Locality
import Schemaless.Proofs.Value.Equality
import Mathlib.Data.List.Nodup

/-!
# Generated keys are new

A generated key is the text of a number in hexadecimal digits, and numbers of 64 bits have different
texts (`Store.keyText_injective`). A store whose given keys are no such texts holds no key of that form
but those it has generated (`Store.KeysDrawn`): a document is inserted under a given key or under the key
drawn for it, and a replacement has a key that is equal to the old one, so the same text. The next key to
be drawn is then on no document, and what is refused as a duplicate is a key that was given
(`StoreM.Draws`).
-/

namespace Schemaless

open Sql

/-! ## The texts of generated keys -/

/-- A text of 24 hexadecimal digits. -/
def Value.IsKeyText (v : Value) : Prop :=
  ∃ s : String, v = .str s ∧ s.toList.length = 24 ∧ ∀ c ∈ s.toList, (hexValue? c).isSome = true

/-- The number that hexadecimal digits write. -/
def hexNumber (cs : List Char) : Nat :=
  cs.foldl (fun n c => 16 * n + (Value.hexValue? c).getD 0) 0

theorem hexValue?_digitChar : ∀ d < 16, Value.hexValue? d.digitChar = some d := by decide

theorem hexNumber_append_singleton (cs : List Char) (c : Char) :
    hexNumber (cs ++ [c]) = 16 * hexNumber cs + (Value.hexValue? c).getD 0 := List.foldl_concat ..

theorem hexNumber_zeros (k : Nat) (cs : List Char) :
    hexNumber (List.replicate k '0' ++ cs) = hexNumber cs := by
  induction k with
  | zero => rfl
  | succ k ih => exact ih

/-- The hexadecimal digits of a number are digits, and write the number. -/
theorem hexNumber_toDigits (n : Nat) :
    hexNumber (Nat.toDigits 16 n) = n ∧
      ∀ c ∈ Nat.toDigits 16 n, (Value.hexValue? c).isSome = true := by
  induction n using Nat.strongRecOn with
  | ind n ih =>
    by_cases hlt : n < 16
    · rw [Nat.toDigits_of_lt_base hlt]
      have hdigit := hexValue?_digitChar n hlt
      refine ⟨?_, fun c hc => ?_⟩
      · show 16 * 0 + (Value.hexValue? n.digitChar).getD 0 = n
        rw [hdigit]
        exact Nat.zero_add n
      · rw [List.mem_singleton.1 hc, hdigit]
        rfl
    · have hrest := ih (n / 16) (by omega)
      have hdigit := hexValue?_digitChar (n % 16) (Nat.mod_lt n (by decide))
      rw [Nat.toDigits_of_base_le (by decide) (Nat.le_of_not_lt hlt)]
      refine ⟨?_, fun c hc => ?_⟩
      · rw [hexNumber_append_singleton, hrest.1, hdigit]
        exact Nat.div_add_mod n 16
      · rcases List.mem_append.1 hc with hc | hc
        · exact hrest.2 c hc
        · rw [List.mem_singleton.1 hc, hdigit]
          rfl

namespace Store

/-- The number of different keys that can be generated. -/
def keyLimit : Nat := 0x10000000000000000

theorem toList_keyText (n : Nat) :
    (keyText n).toList = List.replicate (24 - (Nat.toDigits 16 (n % keyLimit)).length) '0' ++
      Nat.toDigits 16 (n % keyLimit) := String.toList_ofList

theorem isKeyText_keyText (n : Nat) : (Value.str (keyText n)).IsKeyText := by
  have hlt : n % keyLimit < keyLimit := Nat.mod_lt n (by decide)
  have hlength : (Nat.toDigits 16 (n % keyLimit)).length ≤ 16 :=
    (Nat.length_toDigits_le_iff (by decide) (by decide)).2 hlt
  refine ⟨_, rfl, ?_, fun c hc => ?_⟩
  · rw [toList_keyText, List.length_append, List.length_replicate]
    omega
  · rw [toList_keyText] at hc
    rcases List.mem_append.1 hc with hc | hc
    · rw [List.eq_of_mem_replicate hc]
      rfl
    · exact (hexNumber_toDigits _).2 c hc

theorem keyText_injective {m n : Nat} (hm : m < keyLimit) (hn : n < keyLimit)
    (h : keyText m = keyText n) : m = n := by
  have hnumber (k : Nat) (hk : k < keyLimit) : hexNumber (keyText k).toList = k := by
    rw [toList_keyText, hexNumber_zeros, (hexNumber_toDigits _).1, Nat.mod_eq_of_lt hk]
  rw [← hnumber m hm, h, hnumber n hn]

/-! ## Keys of a store -/

/-- The keys generated so far, in the order in which they were drawn. -/
def generatedKeys (s : Store) : List String := (List.range' 1 (s.nextKey - 1)).map keyText

/-- What is done to a store leaves the keys generated before in front of those that it generates. -/
theorem generatedKeys_prefix_of_steps {s t : Store} (h : Steps s t) :
    s.generatedKeys <+: t.generatedKeys := by
  have hle : s.nextKey ≤ t.nextKey := by
    induction h with
    | refl => exact Nat.le_refl _
    | tail _ hlast ih =>
      refine Nat.le_trans ih ?_
      cases hlast with
      | spend _ => exact Nat.le_succ _
      | _ => exact Nat.le_refl _
  obtain ⟨k, hk⟩ := Nat.exists_eq_add_of_le (Nat.sub_le_sub_right hle 1)
  rw [generatedKeys, generatedKeys, hk, ← List.range'_append_1, List.map_append]
  exact List.prefix_append _ _

/-- The value is a key that was generated. -/
def Generated (s : Store) (key : Value) : Prop := ∃ text ∈ s.generatedKeys, key = .str text

theorem generated_iff {s : Store} {key : Value} :
    s.Generated key ↔ ∃ n, 0 < n ∧ n < s.nextKey ∧ key = .str (keyText n) := by
  constructor
  · rintro ⟨text, htext, rfl⟩
    obtain ⟨n, hn, rfl⟩ := List.mem_map.1 htext
    rw [List.mem_range'_1] at hn
    exact ⟨n, by omega, by omega, rfl⟩
  · rintro ⟨n, hpos, hlt, rfl⟩
    exact ⟨_, List.mem_map.2 ⟨n, List.mem_range'_1.2 (by omega), rfl⟩, rfl⟩

/-- As long as numbers of 64 bits are drawn, each key is generated once. -/
theorem nodup_generatedKeys {s : Store} (h : s.nextKey ≤ keyLimit) : s.generatedKeys.Nodup := by
  refine List.Nodup.map_on (fun m hm n hn hkeys => ?_) List.nodup_range'
  rw [List.mem_range'_1] at hm hn
  exact keyText_injective (by omega) (by omega) hkeys

/-- The next key to be drawn is another than all before. -/
theorem keyText_nextKey_not_mem {s : Store} (h : s.nextKey < keyLimit) :
    keyText s.nextKey ∉ s.generatedKeys := by
  intro hmem
  obtain ⟨n, hn, htext⟩ := List.mem_map.1 hmem
  rw [List.mem_range'_1] at hn
  have := keyText_injective (by omega) h htext
  omega

theorem Generated.mono {s t : Store} (h : s.nextKey ≤ t.nextKey) {key : Value}
    (hkey : s.Generated key) : t.Generated key := by
  obtain ⟨n, hpos, hlt, rfl⟩ := generated_iff.1 hkey
  exact generated_iff.2 ⟨n, hpos, Nat.lt_of_lt_of_le hlt h, rfl⟩

/-- Every key among the documents that has the form of a generated one was generated. -/
def Vouches (s : Store) (ds : Collection) : Prop :=
  ∀ d ∈ ds, ∀ key, d.get? nativeKey = some key → key.IsKeyText → s.Generated key

/-- Every key of the store that has the form of a generated one was generated. -/
structure KeysDrawn (s : Store) : Prop where
  positive : 0 < s.nextKey
  vouches : ∀ p, s.Vouches (s.documentsAt p)

variable {s : Store} {p : Place} {ds : Collection} {d old new : Document} {key : Value}

theorem Vouches.append (h : s.Vouches ds) (hkey : d.get? nativeKey = some key)
    (hvouched : key.IsKeyText → s.Generated key) : s.Vouches (ds ++ [d]) := by
  intro x hx k hk htext
  rcases List.mem_append.1 hx with hx | hx
  · exact h x hx k hk htext
  · rw [List.mem_singleton.1 hx, hkey] at hk
    cases hk
    exact hvouched htext

/-- A text is equal to itself alone. -/
theorem eq_of_equal_of_isKeyText {key k : Value} (hsame : key.equal k = true) (htext : key.IsKeyText) :
    k = key := by
  obtain ⟨text, rfl, -⟩ := htext
  cases k with
  | str s =>
    have heq : text = s := by simpa [Value.equal, Value.same] using hsame
    rw [heq]
  | null | bool _ | num _ | arr _ | obj _ => simp [Value.equal, Value.same] at hsame

theorem Vouches.replace {before after : Collection} (h : s.Vouches (before ++ old :: after))
    (hkey : new.get? nativeKey = some key)
    (hsame : key.equal ((old.get? nativeKey).getD .null) = true) :
    s.Vouches (before ++ new :: after) := by
  intro x hx k hk htext
  rcases List.mem_append.1 hx with hx | hx
  · exact h x (List.mem_append_left _ hx) k hk htext
  · rcases List.mem_cons.1 hx with rfl | hx
    · rw [hkey] at hk
      cases hk
      -- the old key is the same text
      have hold := eq_of_equal_of_isKeyText hsame htext
      cases holdKey : old.get? nativeKey with
      | none =>
        rw [holdKey, Option.getD_none] at hold
        obtain ⟨text, htext, -⟩ := htext
        rw [htext] at hold
        cases hold
      | some k =>
        rw [holdKey, Option.getD_some] at hold
        exact h old (by simp) key (hold ▸ holdKey) htext
    · exact h x (by simp [hx]) k hk htext

theorem KeysDrawn.put (h : s.KeysDrawn) (p : Place) (hds : s.Vouches ds) :
    KeysDrawn { s with catalog := s.catalog.put p ds } := by
  refine ⟨h.positive, fun q => ?_⟩
  rw [documentsAt, Catalog.documents_put]
  split
  · exact hds
  · exact h.vouches q

theorem KeysDrawn.drop (h : s.KeysDrawn) (p : Place) :
    KeysDrawn { s with catalog := s.catalog.drop p } := by
  refine ⟨h.positive, fun q => ?_⟩
  rw [documentsAt, Catalog.documents_drop]
  split
  · intro d hd
    cases hd
  · exact h.vouches q

theorem KeysDrawn.spend (h : s.KeysDrawn) : KeysDrawn { s with nextKey := s.nextKey + 1 } :=
  ⟨Nat.succ_pos _, fun p d hd key hkey htext =>
    (h.vouches p d hd key hkey htext).mono (Nat.le_succ s.nextKey)⟩

/-- The next key to be drawn is on no document. -/
theorem KeysDrawn.any_hasKey (h : s.KeysDrawn) (hlt : s.nextKey < keyLimit) (p : Place) :
    (s.documentsAt p).any (hasKey (.str (keyText s.nextKey))) = false := by
  rw [List.any_eq_false]
  intro d hd hsame
  cases hkey : d.get? nativeKey with
  | none => simp [hasKey, hkey] at hsame
  | some key =>
    have hequal : (Value.str (keyText s.nextKey)).equal key = true :=
      Value.equal_symm (by simpa [hasKey, hkey] using hsame)
    obtain rfl := eq_of_equal_of_isKeyText hequal (isKeyText_keyText _)
    obtain ⟨text, hmem, htext⟩ := h.vouches p d hd _ hkey (isKeyText_keyText _)
    cases htext
    exact keyText_nextKey_not_mem hlt hmem

/-- The store after a document was appended under the next key. -/
def drawing (s : Store) (p : Place) (d : Document) : Store :=
  { s with
    catalog := s.catalog.put p
      (s.documentsAt p ++ [d.insert nativeKey (.str (keyText s.nextKey))])
    nextKey := s.nextKey + 1 }

/-- A document without a key is inserted under the next one, unless the store is read-only. -/
theorem KeysDrawn.on_insert (h : s.KeysDrawn) (hlt : s.nextKey < keyLimit) (p : Place)
    (hnone : d.get? nativeKey = none) :
    (insert p d).on s =
      if s.readOnly then (.error (.internal (.readOnly p.collection)), s)
      else (.ok (), s.drawing p d) := by
  have hfresh := h.any_hasKey hlt p
  rw [Store.on_insert, hnone]
  congr 1
  simp only [on_append]
  exact if_neg (by simpa [documentsAt] using hfresh)

end Store

/-! ## What is refused as a duplicate -/

/-- The failure refuses a key as a duplicate. -/
def Failure.Duplicates (key : Value) : Failure → Prop
  | .duplicateKey _ k => k = key
  | .store _ cause => cause.Duplicates key
  | _ => False

/-- As long as numbers of 64 bits are drawn, only keys that were given are refused as duplicates. -/
def Store.Refuses (given : Value → Prop) (s : Store) (e : Failure) : Prop :=
  s.nextKey ≤ Store.keyLimit → ∀ key, e.Duplicates key → given key

theorem Store.Refuses.of_not_duplicates {given : Value → Prop} {s : Store} {e : Failure}
    (h : ∀ key, ¬e.Duplicates key) : s.Refuses given e := fun _ key hkey => absurd hkey (h key)

namespace StoreM

open Store

variable {α β : Type} {given : Value → Prop} {p : Place} {d : Document}

/-- Work that leaves every key of the form of a generated one a generated one, and that refuses only
given keys as duplicates. -/
def Draws (given : Value → Prop) (m : StoreM α) : Prop := Effect.Ensures KeysDrawn (Refuses given) m

theorem Draws.onTable {m : StoreM α} (h : m.Draws given) (table : String) :
    (m.onTable table).Draws given := by
  intro s hs
  obtain ⟨hkept, hrefuses⟩ := h s hs
  rw [on_onTable]
  refine ⟨hkept, fun e he => ?_⟩
  cases hm : (m.on s).1 with
  | ok a =>
    rw [hm] at he
    cases he
  | error e' =>
    rw [hm] at he
    cases he
    exact hrefuses e' hm

/-- An operation that a read-only store refuses. -/
theorem draws_guarded {m : StoreM α} {fault : InternalFault} {g : Store → Except Failure α × Store}
    (hm : ∀ s, m.on s = if s.readOnly then (.error (.internal fault), s) else g s)
    (hg : ∀ s, s.KeysDrawn → (g s).2.KeysDrawn ∧ ∀ e, (g s).1 = .error e → (g s).2.Refuses given e) :
    m.Draws given := by
  intro s hs
  rw [hm]
  split
  · refine ⟨hs, fun e he => ?_⟩
    cases he
    exact .of_not_duplicates fun _ => id
  · exact hg s hs

theorem draws_insert (hgiven : ∀ key, d.get? nativeKey = some key → given key)
    (hform : ∀ key, given key → ¬key.IsKeyText) : (Store.insert p d).Draws given := by
  refine draws_guarded (fun s => Store.on_insert p s d) fun s hs => ?_
  cases hkey : d.get? nativeKey with
  | some key =>
    simp only [on_append]
    split
    · refine ⟨hs, fun e he => ?_⟩
      cases he
      rintro - k rfl
      exact hgiven key hkey
    · refine ⟨hs.put p ((hs.vouches p).append hkey fun htext => ?_), fun e he => by cases he⟩
      exact absurd htext (hform key (hgiven key hkey))
  | none =>
    simp only [on_append]
    split
    · next hany =>
      refine ⟨hs.spend, fun e _ hle => ?_⟩
      change (s.documentsAt p).any (hasKey (.str (keyText s.nextKey))) = true at hany
      rw [hs.any_hasKey hle p] at hany
      cases hany
    · have hdrawn : (d.insert nativeKey (.str (keyText s.nextKey))).get? nativeKey =
          some (.str (keyText s.nextKey)) := by rw [SortedMap.get?_insert, if_pos rfl]
      refine ⟨hs.spend.put p ((hs.spend.vouches p).append hdrawn fun _ => ?_), fun e he => by cases he⟩
      exact generated_iff.2 ⟨s.nextKey, hs.positive, Nat.lt_succ_self _, rfl⟩

theorem draws_insertAll {ds : List Document}
    (hgiven : ∀ d ∈ ds, ∀ key, d.get? nativeKey = some key → given key)
    (hform : ∀ key, given key → ¬key.IsKeyText) : (Store.insertAll p ds).Draws given := by
  induction ds with
  | nil => exact Effect.ensures_pure _
  | cons d rest ih =>
    exact (draws_insert (hgiven d List.mem_cons_self) hform).bind fun _ =>
      ih fun x hx => hgiven x (List.mem_cons_of_mem _ hx)

theorem draws_replace (filter : Predicate) (d : Document) : (Store.replace p filter d).Draws given := by
  refine draws_guarded (fun s => Store.on_replace p s filter d) fun s hs => ?_
  cases hfind : (s.documentsAt p).find? filter.holds with
  | none => exact ⟨hs, fun e he => by cases he⟩
  | some old =>
    cases hnew : successor p old d with
    | error e =>
      simp only [hnew]
      refine ⟨hs, fun e' he => ?_⟩
      cases he
      rw [successor] at hnew
      split at hnew
      · cases hnew
      · split at hnew
        · cases hnew
        · cases hnew
          exact .of_not_duplicates fun _ => id
    | ok new =>
      obtain ⟨before, after, hat, -, hreplace⟩ := replaceFirst_of_find? hfind
      obtain ⟨key, hkey, hsame⟩ := key_of_successor p hnew
      simp only [hnew, hreplace]
      refine ⟨hs.put p (Vouches.replace ?_ hkey hsame), fun e he => by cases he⟩
      rw [← hat]
      exact hs.vouches p

theorem draws_remove (filter : Predicate) : (Store.remove p filter).Draws given := by
  refine draws_guarded (fun s => Store.on_remove p s filter) fun s hs => ?_
  split
  · exact ⟨hs, fun e he => by cases he⟩
  · next ds hat =>
    refine ⟨hs.put p fun d hd => ?_, fun e he => by cases he⟩
    have hvouches := hs.vouches p
    rw [documentsAt, Catalog.documents_of_collection? hat] at hvouches
    exact hvouches d (List.mem_filter.1 hd).1

theorem draws_drop : (Store.drop p).Draws given := by
  refine draws_guarded (Store.on_drop p) fun s hs => ?_
  split
  · refine ⟨hs, fun e he => ?_⟩
    cases he
    exact .of_not_duplicates fun _ => id
  · exact ⟨hs.drop p, fun e he => by cases he⟩

end StoreM

/-! ## Statements -/

theorem Failure.OfBinding.not_duplicates {e : Failure} (h : e.OfBinding) (key : Value) :
    ¬e.Duplicates key := by
  intro hkey
  cases e with
  | binding _ _ => exact hkey
  | coercion _ => exact hkey
  | unsupportedOperator _ => exact hkey
  | _ => exact h

/-- The statement inserts a document that has its key, under the native key or under the table's key
column. -/
def Sql.Statement.Gives (c : Config) (t : Statement) (ps : List Value) (key : Value) : Prop :=
  ∃ d, t.Brings c ps d ∧ d.get? nativeKey = some key

section

variable {α β : Type} {given : Value → Prop} {c : Config} {t : Statement} {ps : List Value}

theorem StoreM.draws_bound {b : Binding α} {f : α → StoreM β} (hb : b.FailsItself)
    (hf : ∀ a, (b.on { parameters := ps }).1 = .ok a → (f a).Draws given) :
    (bound ps b >>= f).Draws given := by
  intro s hs
  rw [Effect.on_bind, on_bound]
  cases hbound : (b.on { parameters := ps }).1 with
  | error e =>
    refine ⟨hs, fun e' he => ?_⟩
    cases he
    exact .of_not_duplicates (hb.on hbound).not_duplicates
  | ok a => exact hf a hbound s hs

theorem draws_modify (hgiven : ∀ key, t.Gives c ps key → given key)
    (hform : ∀ key, given key → ¬key.IsKeyText) : (modify c t ps).Draws given := by
  unfold modify
  cases hkind : t.kind with
  | insert =>
    refine StoreM.draws_bound (Binding.failsItself_bindRecord t) fun record hrecord => ?_
    have hinsert : (Store.insert (t.place c) (resolveKey c t.table false record)).Draws given :=
      StoreM.draws_insert (fun key hkey => hgiven key ⟨_, ⟨hkind, record, hrecord, rfl⟩, hkey⟩) hform
    exact (hinsert.onTable t.table).bind fun _ => Effect.ensures_pure 1
  | update =>
    refine StoreM.draws_bound (Binding.failsItself_recordAndPredicate c t) fun values _ => ?_
    exact Effect.ensures_get_bind fun s _ => (StoreM.draws_replace _ _).onTable t.table
  | delete =>
    simp only [runDelete]
    split
    · refine Effect.ensures_get_bind fun s _ => ?_
      split
      · exact Effect.ensures_pure 0
      · exact (StoreM.draws_drop.onTable t.table).bind fun _ => Effect.ensures_pure _
    · refine StoreM.draws_bound (Binding.failsItself_keyedPredicate c t) fun p _ => ?_
      exact (StoreM.draws_remove p).onTable t.table
  | select => exact Effect.ensures_throw fun s => .of_not_duplicates fun _ => id

/-- An `INSERT` of a document without a key is done, unless the store is read-only, and the document has
the next key. -/
theorem Store.KeysDrawn.on_modify {s : Store} {d : Document} (h : s.KeysDrawn)
    (hlt : s.nextKey < Store.keyLimit) (hbrings : t.Brings c ps d)
    (hnone : d.get? nativeKey = none) :
    (modify c t ps).on s =
      if s.readOnly then (.error (.store t.table (.internal (.readOnly t.table))), s)
      else (.ok 1, s.drawing (t.place c) d) := by
  obtain ⟨hkind, record, hrecord, rfl⟩ := hbrings
  rw [modify, hkind]
  show (runInsert c t ps).on s = _
  rw [on_runInsert, hrecord]
  simp only [h.on_insert hlt (t.place c) hnone]
  cases s.readOnly <;> rfl

end

end Schemaless
