import Schemaless.Proofs.Client.Persistence
import Schemaless.Proofs.Client.Sessions
import Schemaless.Proofs.Store.Freshness

/-!
# Generated keys stay new

What is done to a store in a run gives keys to some of the documents that it inserts
(`Action.Gives`), and leaves others without. As long as no key that is given has the form of a generated
one, and as long as numbers of 64 bits are drawn, every key that is generated is new: it differs from all
that were generated before, no document of the store has it, and the insertion that draws it succeeds
(`generated_keys_are_new`).
-/

namespace Schemaless

open Sql

variable {α β : Type}

/-! ## Work of a client -/

/-- Dialing refuses no key. -/
theorem Client.not_duplicates_of_connect {c : Client} {e : Failure} (h : c.connect = .error e)
    (key : Value) : ¬e.Duplicates key := by
  unfold connect at h
  split at h
  · cases h
    exact id
  · split at h
    · cases h
      exact id
    · split at h
      · cases h
        exact id
      · unfold Store.permit at h
        split at h
        · cases h
          exact id
        · split at h <;> cases h
          exact id

namespace ClientM

open Client

variable {config : Config} {parser : String → Except ParseFault Statement} {given : Value → Prop}

/-- Work of a client with a configuration and a parser that leaves the keys of its store drawn, and that
refuses only given keys as duplicates. -/
def Draws (config : Config) (parser : String → Except ParseFault Statement) (given : Value → Prop)
    (m : ClientM α) : Prop :=
  Effect.Ensures (fun c => c.config = config ∧ c.parser = parser ∧ c.store.KeysDrawn)
    (fun c e => c.store.Refuses given e) m

theorem draws_onStore {m : StoreM α} (h : m.Draws given) : (onStore m).Draws config parser given := by
  rintro c ⟨hconfig, hparser, hs⟩
  obtain ⟨hkept, hrefuses⟩ := h c.store hs
  exact ⟨⟨hconfig, hparser, hkept⟩, hrefuses⟩

theorem draws_parse_bind {sql : String} {f : Statement → ClientM α}
    (h : ∀ t, parser sql = .ok t → (f t).Draws config parser given) :
    (parse sql >>= f).Draws config parser given := by
  rintro c ⟨hconfig, rfl, hs⟩
  cases hparse : c.parser sql with
  | ok t =>
    rw [on_parse_bind hparse]
    exact h t hparse c ⟨hconfig, rfl, hs⟩
  | error e =>
    rw [on_parse_bind_of_error hparse]
    refine ⟨⟨hconfig, rfl, hs⟩, fun e he => ?_⟩
    cases he
    exact .of_not_duplicates fun _ => id

theorem draws_parse (sql : String) : (parse sql).Draws config parser given := by
  rw [← bind_pure (parse sql)]
  exact draws_parse_bind fun t _ => Effect.ensures_pure t

theorem draws_withSession {work : ClientM α} (h : work.Draws config parser given) :
    (withSession work).Draws config parser given := by
  rintro c ⟨hconfig, hparser, hs⟩
  rw [on_withSession]
  rcases acquire_outcome c with ⟨s, rest, -, hacquire⟩ | ⟨-, -, hacquire⟩ |
      ⟨e, -, hconnect, hacquire⟩ <;> rw [hacquire]
  · exact h { c with pool := { c.pool with idle := rest } } ⟨hconfig, hparser, hs⟩
  · exact h { c with pool := c.pool.dial.2 } ⟨hconfig, hparser, hs⟩
  · refine ⟨⟨hconfig, hparser, hs⟩, fun e' he => ?_⟩
    cases he
    exact .of_not_duplicates (not_duplicates_of_connect hconnect)

theorem draws_modifyStore {t : Statement} {ps : List Value}
    (hgiven : ∀ key, t.Gives config ps key → given key) (hform : ∀ key, given key → ¬key.IsKeyText) :
    (modifyStore t ps).Draws config parser given := by
  refine Effect.ensures_get_bind fun c hc => draws_onStore ?_
  obtain ⟨rfl, -, -⟩ := hc
  exact draws_modify hgiven hform

theorem draws_deliverRows (t : Statement) (ps : List Value) (receiver : Receiver) :
    (deliverRows t ps receiver).Draws config parser given := by
  refine fun c hc => ⟨hc, fun e he => ?_⟩
  change ((select c.config t ps c.store).map (deliver receiver 1)) = .error e at he
  rw [select] at he
  split at he
  · cases he
    exact .of_not_duplicates fun _ => id
  · split at he
    · next hbound =>
      cases he
      have hbinding := (Binding.failsItself_keyedPredicate c.config t).on hbound
      exact .of_not_duplicates hbinding.not_duplicates
    · cases he

end ClientM

/-! ## Keys that are given -/

namespace Client

/-- A text is a statement that gives a key. -/
def TextGives (c : Client) (sql : String) (ps : List Value) (key : Value) : Prop :=
  ∃ t, c.parser sql = .ok t ∧ t.Gives c.config ps key

/-- A record is written with a statement that gives a key. -/
def RecordGives (c : Client) (table : String) (record : Value) (key : Value) : Prop :=
  ∃ d, Document.ofValue? record = some d ∧
    (c.TextGives (insertText table d.names) (d.entries.map fun e => e.2) key ∨
      (d.erase (c.config.keyOf table)).isEmpty = false ∧
        ∃ k, c.TextGives (updateText table (c.config.keyOf table) (d.erase (c.config.keyOf table)).names)
          ((d.erase (c.config.keyOf table)).entries.map (fun e => e.2) ++ [k]) key)

end Client

/-- The action inserts a document under a key that it is given. -/
def Action.Gives (c : Client) (a : Action) (key : Value) : Prop :=
  match a with
  | .execute sql ps => c.TextGives sql ps key
  | .executeStatement t ps => t.Gives c.config ps key
  | .executeHeld _ sql ps => c.TextGives sql ps key
  | .persist table records => ∃ record ∈ records, c.RecordGives table record key
  | .store _ (.insert ds) => ∃ d ∈ ds, d.get? nativeKey = some key
  | .store _ (.snapshot _ ds) => ∃ d ∈ ds, d.get? nativeKey = some key
  | _ => False

/-! ## Records -/

namespace Client

open ClientM

section

variable {c : Client} {given : Value → Prop} (hform : ∀ key, given key → ¬key.IsKeyText)

include hform

theorem draws_executeStatement {t : Statement} {ps : List Value}
    (hgiven : ∀ key, t.Gives c.config ps key → given key) :
    (executeStatement t ps).Draws c.config c.parser given :=
  draws_withSession (draws_modifyStore hgiven hform)

theorem draws_execute {sql : String} {ps : List Value}
    (hgiven : ∀ key, c.TextGives sql ps key → given key) :
    (execute sql ps).Draws c.config c.parser given :=
  draws_parse_bind fun t hparse => draws_executeStatement hform fun key hkey =>
    hgiven key ⟨t, hparse, hkey⟩

theorem draws_executeHeld {sql : String} {ps : List Value}
    (hgiven : ∀ key, c.TextGives sql ps key → given key) :
    (executeHeld sql ps).Draws c.config c.parser given :=
  draws_parse_bind fun t hparse => draws_modifyStore (fun key hkey => hgiven key ⟨t, hparse, hkey⟩) hform

theorem draws_persistRecord {table : String} {record : Value}
    (hgiven : ∀ key, c.RecordGives table record key → given key) :
    (persistRecord table (c.config.keyOf table) record).Draws c.config c.parser given := by
  unfold persistRecord
  cases hvalue : Document.ofValue? record with
  | none => exact Effect.ensures_throw fun s => .of_not_duplicates fun _ => id
  | some d =>
    have hinsert : (insertRecord table d).Draws c.config c.parser given := by
      refine Effect.Ensures.bind (draws_executeHeld hform fun key hkey => ?_) fun n =>
        Effect.ensures_pure _
      exact hgiven key ⟨d, hvalue, .inl hkey⟩
    have hupdate (k : Value) :
        (updateRecord table (c.config.keyOf table) k d).Draws c.config c.parser given := by
      simp only [updateRecord]
      split
      · exact Effect.ensures_pure _
      · next hrest =>
        refine Effect.Ensures.bind (draws_executeHeld hform fun key hkey => ?_) fun n =>
          Effect.ensures_pure _
        exact hgiven key ⟨d, hvalue, .inr ⟨Bool.eq_false_iff.2 hrest, k, hkey⟩⟩
    have hexists (k : Value) :
        (keyExists table (c.config.keyOf table) k).Draws c.config c.parser given :=
      Effect.Ensures.bind (draws_parse_bind fun t _ => draws_deliverRows t _ _) fun _ =>
        Effect.ensures_pure _
    cases hkey : recordKey? (c.config.keyOf table) d with
    | none =>
      simp only [hkey]
      exact hinsert
    | some k =>
      simp only [hkey]
      refine Effect.Ensures.bind (hexists k) fun known => ?_
      cases known with
      | true => exact hupdate k
      | false => exact hinsert

theorem draws_persistRecords {table : String} {records : List Value}
    (hgiven : ∀ record ∈ records, ∀ key, c.RecordGives table record key → given key) (tally : Tally) :
    (persistRecords table (c.config.keyOf table) records tally).Draws c.config c.parser given := by
  induction records generalizing tally with
  | nil => exact Effect.ensures_pure tally
  | cons record rest ih =>
    exact (draws_persistRecord hform (hgiven record List.mem_cons_self)).bind fun t =>
      ih (fun r hr => hgiven r (List.mem_cons_of_mem _ hr)) _

theorem draws_persist {table : String} {records : List Value}
    (hgiven : ∀ record ∈ records, ∀ key, c.RecordGives table record key → given key) :
    (persist table records).Draws c.config c.parser given := by
  refine Effect.ensures_get_bind fun c' hc => ?_
  obtain ⟨hconfig, -, -⟩ := hc
  rw [hconfig]
  exact draws_withSession (draws_persistRecords hform hgiven {})

end

end Client

/-! ## Actions -/

/-- What work on the store past the client gives. -/
theorem StoreAction.draws_perform {p : Place} {a : StoreAction} {c : Client} {given : Value → Prop}
    (hgiven : ∀ key, (Action.store p a).Gives c key → given key)
    (hform : ∀ key, given key → ¬key.IsKeyText) : (a.perform p).Draws given := by
  cases a with
  | insert ds =>
    exact (StoreM.draws_insertAll (fun d hd key hkey => hgiven key ⟨d, hd, hkey⟩) hform).map _
  | snapshot filter ds =>
    have hinsert : (Store.insertAll p ds).Draws given :=
      StoreM.draws_insertAll (fun d hd key hkey => hgiven key ⟨d, hd, hkey⟩) hform
    exact Effect.ensures_get_bind fun s _ => hinsert.bind fun _ =>
      Effect.ensures_get_bind fun s' _ => Effect.ensures_pure _
  | replace filter d => exact (StoreM.draws_replace filter d).map _
  | remove filter => exact (StoreM.draws_remove filter).map _
  | drop => exact StoreM.draws_drop.map _
  | count => exact Effect.ensures_get_bind fun s _ => Effect.ensures_pure _
  | find filter => exact Effect.ensures_get_bind fun s _ => Effect.ensures_pure _

namespace Workspace

open Client ClientM

variable {w : Workspace} {given : Value → Prop}

/-- What was answered, and the workspace after it: the keys of the store are drawn, and only given keys
were refused as duplicates. -/
def KeepsKeys (given : Value → Prop) (r : Option (Except Failure Answer) × Workspace) : Prop :=
  r.2.client.store.KeysDrawn ∧ ∀ e, r.1 = some (.error e) → r.2.client.store.Refuses given e

theorem keepsKeys_onClient {m : ClientM Answer} (hs : w.client.store.KeysDrawn)
    (hm : m.Draws w.client.config w.client.parser given) :
    KeepsKeys given (perform.answered (w.onClient m)) := by
  obtain ⟨⟨-, -, hkept⟩, hrefuses⟩ := hm w.client ⟨rfl, rfl, hs⟩
  exact ⟨hkept, fun e he => hrefuses e (Option.some.inj he)⟩

theorem keepsKeys_ifHeld {m : ClientM Answer} (hs : w.client.store.KeysDrawn)
    (hm : m.Draws w.client.config w.client.parser given) (index : Nat) :
    KeepsKeys given (perform.ifHeld w index (w.onClient m)) := by
  unfold perform.ifHeld
  cases w.session? index with
  | none => exact ⟨hs, fun e he => by cases he⟩
  | some s => exact keepsKeys_onClient hs hm

theorem keepsKeys_hold (hs : w.client.store.KeysDrawn) :
    KeepsKeys given (perform.answered w.hold) := by
  refine ⟨?_, fun e he => ?_⟩
  · show w.hold.2.client.store.KeysDrawn
    rw [store_hold]
    exact hs
  · change some w.hold.1 = some (.error e) at he
    unfold Workspace.hold at he
    rcases acquire_outcome w.client with ⟨s, rest, -, hacquire⟩ | ⟨-, -, hacquire⟩ |
        ⟨e', -, hconnect, hacquire⟩ <;> rw [hacquire] at he <;> cases he
    exact .of_not_duplicates (not_duplicates_of_connect hconnect)

/-- An action that gives no key of the form of a generated one keeps the keys of the store drawn, and is
refused for a duplicate key only if it gives that key. -/
theorem keepsKeys_perform {a : Action} (hs : w.client.store.KeysDrawn)
    (hform : ∀ key, a.Gives w.client key → ¬key.IsKeyText) :
    KeepsKeys (a.Gives w.client) (w.perform a) := by
  cases a with
  | execute sql ps =>
    exact keepsKeys_onClient hs ((draws_execute hform fun key hkey => hkey).map _)
  | executeStatement t ps =>
    exact keepsKeys_onClient hs ((draws_executeStatement hform fun key hkey => hkey).map _)
  | executeHeld index sql ps =>
    exact keepsKeys_ifHeld hs ((draws_executeHeld hform fun key hkey => hkey).map _) index
  | persist table records =>
    refine keepsKeys_onClient hs (Effect.Ensures.map (draws_persist hform ?_) _)
    exact fun record hrecord key hkey => ⟨record, hrecord, hkey⟩
  | prepare sql => exact keepsKeys_onClient hs (Effect.Ensures.map (draws_parse sql) _)
  | query sql ps receiver =>
    exact keepsKeys_onClient hs (Effect.Ensures.map (draws_parse_bind fun t _ =>
      draws_withSession (draws_deliverRows t ps receiver)) _)
  | queryStatement t ps receiver =>
    exact keepsKeys_onClient hs
      (Effect.Ensures.map (draws_withSession (draws_deliverRows t ps receiver)) _)
  | queryHeld index sql ps receiver =>
    exact keepsKeys_ifHeld hs (Effect.Ensures.map (draws_parse_bind fun t _ =>
      draws_deliverRows t ps receiver) _) index
  | columns table =>
    refine keepsKeys_onClient hs (Effect.Ensures.map ?_ _)
    refine Effect.ensures_get_bind fun c _ => draws_withSession ?_
    exact Effect.ensures_get_bind fun c' _ => Effect.ensures_pure _
  | databases =>
    refine keepsKeys_onClient hs (Effect.Ensures.map (draws_withSession ?_) _)
    exact Effect.ensures_get_bind fun c' _ => Effect.ensures_pure _
  | tables database =>
    refine keepsKeys_onClient hs (Effect.Ensures.map (draws_withSession ?_) _)
    exact Effect.ensures_get_bind fun c' _ => Effect.ensures_pure _
  | dropTable database table =>
    refine keepsKeys_onClient hs (Effect.Ensures.map (draws_withSession ?_) _)
    exact draws_onStore (StoreM.draws_drop.onTable table)
  | configure change => exact ⟨hs, fun e he => by cases he⟩
  | setReadOnly on => exact ⟨⟨hs.positive, hs.vouches⟩, fun e he => by cases he⟩
  | hold => exact keepsKeys_hold hs
  | release index =>
    refine ⟨?_, fun e he => ?_⟩
    · show (w.release index).2.client.store.KeysDrawn
      rw [store_release]
      exact hs
    · change some (w.release index).1 = some (.error e) at he
      unfold Workspace.release at he
      cases hsession : w.session? index <;> rw [hsession] at he <;> cases he
  | store p action =>
    exact keepsKeys_onClient hs (draws_onStore (action.draws_perform (fun key hkey => hkey) hform))

end Workspace

/-! ## Runs -/

/-- A table of a seed has a document with a key. -/
def SeedGives (c : Config) (tables : List (String × Value)) (key : Value) : Prop :=
  ∃ entry ∈ tables, ∃ ds, seedDocuments entry.1 entry.2 = .ok ds ∧
    ∃ d ∈ ds, (resolveKey c entry.1 false d).get? nativeKey = some key

theorem keysDrawn_seedTables {c : Config} {tables : List (String × Value)} {given : Value → Prop}
    (hgiven : ∀ key, SeedGives c tables key → given key) (hform : ∀ key, given key → ¬key.IsKeyText)
    {s : Store} (hs : s.KeysDrawn) :
    (seedTables c tables s).2.KeysDrawn ∧
      ∀ e, (seedTables c tables s).1 = .error (.failure e) →
        (seedTables c tables s).2.Refuses given e := by
  induction tables generalizing s with
  | nil => exact ⟨hs, fun e he => by cases he⟩
  | cons entry rest ih =>
    obtain ⟨table, v⟩ := entry
    have hrest : ∀ key, SeedGives c rest key → given key := by
      rintro key ⟨entry, hentry, hkey⟩
      exact hgiven key ⟨entry, List.mem_cons_of_mem _ hentry, hkey⟩
    rw [seedTables]
    cases hdocuments : seedDocuments table v with
    | error e =>
      refine ⟨hs, fun e' he => ?_⟩
      cases he
      unfold seedDocuments at hdocuments
      split at hdocuments
      · split at hdocuments <;> cases hdocuments
      · cases hdocuments
    | ok ds =>
      have hdraws : (seedTable c table ds).Draws given := by
        refine StoreM.draws_insertAll (fun d hd key hkey => ?_) hform
        obtain ⟨record, hrecord, rfl⟩ := List.mem_map.1 hd
        exact hgiven key ⟨(table, v), List.mem_cons_self, ds, hdocuments, record, hrecord, hkey⟩
      obtain ⟨hkept, hrefuses⟩ := hdraws s hs
      rcases hrun : (seedTable c table ds).on s with ⟨e | _, t⟩ <;> rw [hrun] at hkept hrefuses
      · simp only [hrun]
        refine ⟨hkept, fun e' he => hrefuses e' ?_⟩
        cases he
        rfl
      · simp only [hrun]
        exact ih hrest hkept

namespace Store

/-- The stores that runs make of an empty one, when no key is given that has the form of a generated
one. Each action may be done by another client. -/
inductive Unforged : Store → Prop where
  | empty (address : String) (users : SortedMap String) : Unforged { address, users }
  | act (w : Workspace) (a : Action) (hform : ∀ key, a.Gives w.client key → ¬key.IsKeyText)
      (h : Unforged w.client.store) : Unforged (w.perform a).2.client.store
  | seed (c : Config) (tables : List (String × Value))
      (hform : ∀ key, SeedGives c tables key → ¬key.IsKeyText) {s : Store} (h : Unforged s) :
      Unforged (seedTables c tables s).2

theorem Unforged.keysDrawn {s : Store} (h : s.Unforged) : s.KeysDrawn := by
  induction h with
  | empty address users => exact ⟨Nat.one_pos, fun p d hd => by cases hd⟩
  | act w a hform _ ih => exact (Workspace.keepsKeys_perform ih hform).1
  | seed c tables hform _ ih => exact (keysDrawn_seedTables (fun key hkey => hkey) hform ih).1

end Store

/-- As long as no key is given that has the form of a generated one and numbers of 64 bits are drawn,
all keys that were generated in a run are different. A document without a key is then inserted into
whatever collection, past a client or by a statement, under a key that was never generated before; only a
read-only store refuses it. And whatever action or seed is refused for a duplicate key has given that
key. -/
theorem generated_keys_are_new {s : Store} (h : s.Unforged) (hfew : s.nextKey ≤ Store.keyLimit) :
    s.generatedKeys.Nodup ∧
      (s.nextKey < Store.keyLimit →
        Store.keyText s.nextKey ∉ s.generatedKeys ∧
        (∀ p d, d.get? nativeKey = none →
          (Store.insert p d).on s =
            if s.readOnly then (.error (.internal (.readOnly p.collection)), s)
            else (.ok (), s.drawing p d)) ∧
        ∀ c t ps d, t.Brings c ps d → d.get? nativeKey = none →
          (modify c t ps).on s =
            if s.readOnly then (.error (.store t.table (.internal (.readOnly t.table))), s)
            else (.ok 1, s.drawing (t.place c) d)) ∧
      (∀ (w : Workspace) (a : Action), w.client.store = s →
        (∀ key, a.Gives w.client key → ¬key.IsKeyText) →
        s.generatedKeys <+: (w.perform a).2.client.store.generatedKeys ∧
        ((w.perform a).2.client.store.nextKey ≤ Store.keyLimit →
          ∀ e key, (w.perform a).1 = some (.error e) → e.Duplicates key → a.Gives w.client key)) ∧
      ∀ c tables, (∀ key, SeedGives c tables key → ¬key.IsKeyText) →
        s.generatedKeys <+: (seedTables c tables s).2.generatedKeys ∧
        ((seedTables c tables s).2.nextKey ≤ Store.keyLimit →
          ∀ e key, (seedTables c tables s).1 = .error (.failure e) → e.Duplicates key →
            SeedGives c tables key) := by
  have hs := h.keysDrawn
  refine ⟨Store.nodup_generatedKeys hfew, fun hlt => ⟨?_, ?_, ?_⟩, ?_, ?_⟩
  · exact Store.keyText_nextKey_not_mem hlt
  · exact fun p d hnone => hs.on_insert hlt p hnone
  · exact fun c t ps d hbrings hnone => hs.on_modify hlt hbrings hnone
  · rintro w a rfl hform
    refine ⟨?_, fun hle e key he hkey => ?_⟩
    · rcases w.steps_perform a with hsteps | ⟨on, hon⟩
      · exact Store.generatedKeys_prefix_of_steps hsteps
      · rw [hon]
        exact List.prefix_refl _
    · exact (Workspace.keepsKeys_perform hs hform).2 e he hle key hkey
  · intro c tables hform
    have hsteps := Store.steps_seedTables c tables s
    refine ⟨Store.generatedKeys_prefix_of_steps hsteps, fun hle e key he hkey => ?_⟩
    exact (keysDrawn_seedTables (fun key hkey => hkey) hform hs).2 e he hle key hkey

/-- A note without a key. -/
def keylessNote : Document := SortedMap.ofList [("text", .str "Hello")]

/-- The local store after two notes without keys were inserted. -/
def twoNotes : Store :=
  (Workspace.local.perform
    (.store ⟨"mydb", "notes"⟩ (.insert [keylessNote, keylessNote]))).2.client.store

theorem generated_keys_are_new_twoNotes :
    twoNotes.Unforged ∧ twoNotes.nextKey ≤ Store.keyLimit ∧
      twoNotes.generatedKeys = ["000000000000000000000001", "000000000000000000000002"] ∧
      twoNotes.generatedKeys.Nodup ∧ "000000000000000000000003" ∉ twoNotes.generatedKeys ∧
      ((Store.insert ⟨"elsewhere", "notes"⟩ keylessNote).on twoNotes).1 = .ok () := by
  have hunforged : twoNotes.Unforged := by
    refine .act _ _ (fun key hkey => ?_) (.empty _ _)
    obtain ⟨d, hd, hkey⟩ := hkey
    have hnone : d = keylessNote := by simpa using hd
    rw [hnone] at hkey
    cases hkey
  have hfew : twoNotes.nextKey ≤ Store.keyLimit := by decide
  obtain ⟨hnodup, hnext, -, -⟩ := generated_keys_are_new hunforged hfew
  obtain ⟨hnew, hinsert, -⟩ := hnext (by decide)
  refine ⟨hunforged, hfew, rfl, hnodup, hnew, ?_⟩
  rw [hinsert ⟨"elsewhere", "notes"⟩ keylessNote rfl]
  rfl

end Schemaless
