import Schemaless.Proofs.Client.Naming
import Schemaless.Proofs.Client.Store
import Schemaless.Proofs.Store.Modification
import Schemaless.Proofs.Store.Reachable

/-!
# What failures leave behind

Where an operation of the store fails, it has written nothing: at most the number of the next generated
key has advanced (`Store.SameContent`). Binding comes before the operation and never touches the store,
so a statement that fails has written nothing either, whatever made it fail (`failsWithin_modify`).
Records are statements one after the other, and those in front of the first that fails stay
(`persistRecords_eq_error`).
-/

namespace Schemaless

open Sql

/-! ## Operations of the store -/

namespace Store

/-- `t` is `s`, but for generated keys that were spent. -/
def SameContent (s t : Store) : Prop := ∃ n, s.nextKey ≤ n ∧ t = { s with nextKey := n }

instance : Std.Refl SameContent := ⟨fun s => ⟨s.nextKey, Nat.le_refl _, rfl⟩⟩

instance : IsTrans Store SameContent where
  trans := by
    rintro s _ _ ⟨n, hn, rfl⟩ ⟨m, hm, rfl⟩
    exact ⟨m, Nat.le_trans hn hm, rfl⟩

variable (p : Place)

theorem failsWithin_append (key : Value) (d : Document) :
    (append p key d).FailsWithin SameContent := by
  intro s e t hrun
  rw [on_append] at hrun
  split at hrun <;> cases hrun
  exact refl_of _ s

theorem failsWithin_insert (d : Document) : (insert p d).FailsWithin SameContent := by
  intro s e t hrun
  rw [on_insert] at hrun
  split at hrun
  · cases hrun
    exact refl_of _ s
  · split at hrun
    · exact failsWithin_append p _ _ s e t hrun
    · -- the generated key is spent though the document is refused
      have hspent : SameContent s { s with nextKey := s.nextKey + 1 } := ⟨_, Nat.le_succ _, rfl⟩
      exact trans_of _ hspent (failsWithin_append p _ _ _ e t hrun)

theorem failsWithin_replace (filter : Predicate) (d : Document) :
    (replace p filter d).FailsWithin SameContent := by
  intro s e t hrun
  rw [on_replace] at hrun
  split at hrun
  · cases hrun
    exact refl_of _ s
  · split at hrun
    · cases hrun
    · split at hrun <;> cases hrun
      exact refl_of _ s

theorem failsWithin_remove (filter : Predicate) : (remove p filter).FailsWithin SameContent := by
  intro s e t hrun
  rw [on_remove] at hrun
  split at hrun
  · cases hrun
    exact refl_of _ s
  · split at hrun <;> cases hrun

theorem failsWithin_drop : (drop p).FailsWithin SameContent := by
  intro s e t hrun
  rw [on_drop] at hrun
  split at hrun
  · cases hrun
    exact refl_of _ s
  · split at hrun <;> cases hrun
    exact refl_of _ s

end Store

/-! ## Statements -/

theorem failsWithin_onTable {α : Type} {R : Store → Store → Prop} {m : StoreM α}
    (h : m.FailsWithin R) (table : String) : (m.onTable table).FailsWithin R := by
  intro s e t hrun
  rw [Store.on_onTable] at hrun
  rcases hm : m.on s with ⟨e' | a, u⟩ <;> rw [hm] at hrun <;> cases hrun
  exact h s e' u hm

theorem failsWithin_modify (c : Config) (t : Statement) (parameters : List Value) :
    (modify c t parameters).FailsWithin Store.SameContent := by
  unfold modify
  cases t.kind with
  | insert =>
    refine Effect.FailsWithin.bind (moves_bound _ _) fun record => ?_
    rw [bind_pure_comp]
    exact (failsWithin_onTable (Store.failsWithin_insert _ _) _).map _
  | update =>
    refine Effect.FailsWithin.bind (moves_bound _ _) fun (record, p) => ?_
    refine Effect.FailsWithin.bind Effect.moves_get fun s => ?_
    exact failsWithin_onTable (Store.failsWithin_replace _ _ _) _
  | delete =>
    simp only [runDelete]
    split
    · refine Effect.FailsWithin.bind Effect.moves_get fun s => ?_
      split
      · exact (Effect.moves_pure _).failsWithin
      · rw [bind_pure_comp]
        exact (failsWithin_onTable (Store.failsWithin_drop _) _).map _
    · refine Effect.FailsWithin.bind (moves_bound _ _) fun p => ?_
      exact failsWithin_onTable (Store.failsWithin_remove _ _) _
  | select => exact (Effect.moves_throw _).failsWithin

namespace Client

open ClientM

theorem failsWithin_modifyStore (t : Statement) (parameters : List Value) :
    (modifyStore t parameters).FailsWithin (OverStore Store.SameContent) :=
  Effect.FailsWithin.bind Effect.moves_get fun c =>
    failsWithin_onStore (failsWithin_modify c.config t parameters)

theorem failsWithin_executeStatement (t : Statement) (parameters : List Value) :
    (executeStatement t parameters).FailsWithin (OverStore Store.SameContent) :=
  failsWithin_withSession (failsWithin_modifyStore t parameters)

theorem failsWithin_execute (sql : String) (parameters : List Value) :
    (execute sql parameters).FailsWithin (OverStore Store.SameContent) :=
  Effect.FailsWithin.bind (moves_parse sql) fun t => failsWithin_executeStatement t parameters

theorem failsWithin_executeHeld (sql : String) (parameters : List Value) :
    (executeHeld sql parameters).FailsWithin (OverStore Store.SameContent) :=
  Effect.FailsWithin.bind (moves_parse sql) fun t => failsWithin_modifyStore t parameters

/-! ## Records -/

theorem failsWithin_insertRecord (table : String) (record : Document) :
    (insertRecord table record).FailsWithin (OverStore Store.SameContent) := by
  rw [insertRecord, bind_pure_comp]
  exact (failsWithin_executeHeld _ _).map _

theorem failsWithin_updateRecord (table keyColumn : String) (key : Value) (record : Document) :
    (updateRecord table keyColumn key record).FailsWithin (OverStore Store.SameContent) := by
  simp only [updateRecord]
  split
  · exact (Effect.moves_pure _).failsWithin
  · rw [bind_pure_comp]
    exact (failsWithin_executeHeld _ _).map _

theorem failsWithin_persistRecord (table keyColumn : String) (record : Value) :
    (persistRecord table keyColumn record).FailsWithin (OverStore Store.SameContent) := by
  unfold persistRecord
  cases Document.ofValue? record with
  | none => exact (Effect.moves_throw _).failsWithin
  | some d =>
    cases hkey : recordKey? keyColumn d with
    | none => simp only [hkey]; exact failsWithin_insertRecord table d
    | some key =>
      simp only [hkey]
      refine Effect.FailsWithin.bind (moves_keyExists table keyColumn key) fun known => ?_
      cases known with
      | true => exact failsWithin_updateRecord table keyColumn key d
      | false => exact failsWithin_insertRecord table d

section

variable {table keyColumn : String} {record : Value} {c c' : Client}

theorem on_persistRecords_cons_of_ok {t : Tally}
    (h : (persistRecord table keyColumn record).on c = (.ok t, c')) (rest : List Value) (tally : Tally) :
    (persistRecords table keyColumn (record :: rest) tally).on c =
      (persistRecords table keyColumn rest (tally.add t)).on c' := by
  rw [persistRecords, Effect.on_bind, h]

theorem on_persistRecords_cons_of_error {e : Failure}
    (h : (persistRecord table keyColumn record).on c = (.error e, c')) (rest : List Value) (tally : Tally) :
    (persistRecords table keyColumn (record :: rest) tally).on c = (.error e, c') := by
  rw [persistRecords, Effect.on_bind, h]

end

theorem persistRecords_append (table keyColumn : String) (before after : List Value)
    (tally : Tally) :
    persistRecords table keyColumn (before ++ after) tally =
      persistRecords table keyColumn before tally >>= persistRecords table keyColumn after := by
  induction before generalizing tally with
  | nil => rw [List.nil_append, persistRecords, pure_bind]
  | cons record rest ih => simp only [List.cons_append, persistRecords, ih, bind_assoc]

/-- Where records are not all written, there is a first one that is not. -/
theorem persistRecords_eq_error {table keyColumn : String} {records : List Value} {tally : Tally}
    {c c' : Client} {e : Failure}
    (h : (persistRecords table keyColumn records tally).on c = (.error e, c')) :
    ∃ before r after written c₁, records = before ++ r :: after ∧
      (persistRecords table keyColumn before tally).on c = (.ok written, c₁) ∧
      (persistRecord table keyColumn r).on c₁ = (.error e, c') := by
  induction records generalizing tally c with
  | nil => cases h
  | cons record rest ih =>
    rcases Effect.bind_eq_error.1 h with hfirst | ⟨t, c₁, hfirst, hrest⟩
    · exact ⟨[], record, rest, tally, c, rfl, rfl, hfirst⟩
    · obtain ⟨before, r, after, written, c₂, rfl, hbefore, hr⟩ := ih hrest
      refine ⟨record :: before, r, after, written, c₂, rfl, ?_, hr⟩
      rw [on_persistRecords_cons_of_ok hfirst, hbefore]

theorem on_persist (table : String) (records : List Value) (c : Client) :
    (persist table records).on c =
      (withSession (persistRecords table (c.config.keyOf table) records {})).on c := by
  rw [persist, Effect.on_bind, Effect.on_get]

/-- Where records are not all written, either there is no session, or those in front of the first that
fails are written and the failing one leaves nothing. -/
theorem persist_eq_error {table : String} {records : List Value} {c c' : Client} {e : Failure}
    (h : (persist table records).on c = (.error e, c')) :
    (persist table []).on c = (.error e, c') ∧ c'.store = c.store ∨
      ∃ before r after written c₁, records = before ++ r :: after ∧
        (persist table before).on c = (.ok written, c₁) ∧
        (persist table (before ++ [r])).on c = (.error e, c') ∧
        Store.SameContent c₁.store c'.store := by
  simp only [on_persist, on_withSession] at h ⊢
  rcases acquire_cases c with ⟨e', c₀, hacq, hstore⟩ | ⟨session, c₀, hacq, hstore⟩ <;>
    simp only [hacq] at h ⊢
  · cases h
    exact .inl ⟨rfl, hstore⟩
  · right
    rcases hwork : (persistRecords table (c.config.keyOf table) records {}).on c₀ with ⟨r, c₂⟩
    rw [hwork] at h
    cases h
    obtain ⟨before, r, after, written, c₁, rfl, hbefore, hr⟩ := persistRecords_eq_error hwork
    -- with the same session, so in the same client, `before ++ [r]` fails
    have hfails : (persistRecords table (c.config.keyOf table) (before ++ [r]) {}).on c₀ =
        (.error e, c₂) := by
      rw [persistRecords_append]
      refine Effect.bind_eq_error.2 (.inr ⟨written, c₁, hbefore, ?_⟩)
      exact Effect.bind_eq_error.2 (.inl hr)
    have hcontent : Store.SameContent c₁.store c₂.store :=
      failsWithin_persistRecord _ _ _ c₁ e c₂ hr
    refine ⟨before, r, after, written, c₁.release session, rfl, ?_, ?_, hcontent⟩
    · rw [hbefore]
    · rw [hfails]

end Client

/-- A statement that fails leaves the databases, collections and documents as they were, a reading
statement leaves the store as it was however it ends, and records that are not all written leave what
the records in front of the failing one leave. -/
theorem failures_change_nothing (c : Client) :
    (∀ sql parameters e c', (Client.execute sql parameters).on c = (.error e, c') →
      Store.SameContent c.store c'.store) ∧
    (∀ t parameters e c', (Client.executeStatement t parameters).on c = (.error e, c') →
      Store.SameContent c.store c'.store) ∧
    (∀ sql parameters e c', (Client.executeHeld sql parameters).on c = (.error e, c') →
      Store.SameContent c.store c'.store) ∧
    (∀ sql parameters receiver,
      ((Client.query sql parameters receiver).on c).2.store = c.store) ∧
    (∀ t parameters receiver,
      ((Client.queryStatement t parameters receiver).on c).2.store = c.store) ∧
    (∀ sql parameters receiver,
      ((Client.queryHeld sql parameters receiver).on c).2.store = c.store) ∧
    (∀ (α : Type) (decode : Row → Except Failure α) sql parameters,
      ((Client.readAll decode sql parameters).on c).2.store = c.store ∧
        ((Client.readFirst decode sql parameters).on c).2.store = c.store) ∧
    ∀ table records e c', (Client.persist table records).on c = (.error e, c') →
      (Client.persist table []).on c = (.error e, c') ∧ c'.store = c.store ∨
        ∃ before r after written c₁, records = before ++ r :: after ∧
          (Client.persist table before).on c = (.ok written, c₁) ∧
          (Client.persist table (before ++ [r])).on c = (.error e, c') ∧
          Store.SameContent c₁.store c'.store := by
  refine ⟨?_, ?_, ?_, ?_, ?_, ?_, ?_, fun _ _ _ _ => Client.persist_eq_error⟩
  · exact fun sql parameters e c' => Client.failsWithin_execute sql parameters c e c'
  · exact fun t parameters e c' => Client.failsWithin_executeStatement t parameters c e c'
  · exact fun sql parameters e c' => Client.failsWithin_executeHeld sql parameters c e c'
  · exact fun sql parameters receiver =>
      (Client.moves_query (R := Eq) sql parameters receiver c).symm
  · exact fun t parameters receiver =>
      (Client.moves_queryStatement (R := Eq) t parameters receiver c).symm
  · exact fun sql parameters receiver =>
      (Client.moves_queryHeld (R := Eq) sql parameters receiver c).symm
  · exact fun α decode sql parameters =>
      ⟨(Client.moves_readAll (R := Eq) decode sql parameters c).symm,
        (Client.moves_readFirst (R := Eq) decode sql parameters c).symm⟩

/-- The client of the local store with two users. -/
def localClient : Client := { Workspace.local.client with store := twoUsers }

/-- That client over the store `s`, once it has dialed. -/
def localDialed (s : Store) : Client :=
  { localClient with store := s, pool := localClient.pool.dial.2 }

/-- A user without a key, one with the native key of the first user, and another one without a key. -/
def newcomers : List Value :=
  [.obj [("name", .str "Alan")], .obj [(nativeKey, .ofInt 1)], .obj [("name", .str "Barbara")]]

/-- With a session, the first of the newcomers is written and the second is refused. -/
theorem on_persistRecord_newcomers :
    ∃ s e t, (Client.persistRecord "users" "id" (.obj [("name", .str "Alan")])).on
        (localDialed twoUsers) = (.ok { inserted := 1 }, localDialed s) ∧
      (s.documentsAt ⟨"mydb", "users"⟩).length = 3 ∧
      (Client.persistRecord "users" "id" (.obj [(nativeKey, .ofInt 1)])).on (localDialed s) =
        (.error e, localDialed t) := by
  let inserted (name : String) (v : Value) (s : Store) :=
    (modify localClient.config (insertStatement "users" [name]) [v]).on s
  have hinsert (name : String) (v : Value) (s : Store) :
      (Client.insertRecord "users" (SortedMap.ofList [(name, v)])).on (localDialed s) =
        ((inserted name v s).1.map fun n => { inserted := n },
          localDialed (inserted name v s).2) :=
    Client.on_insertRecord_of_parse (parse_insertText "users" name [])
  exact ⟨(inserted "name" (.str "Alan") twoUsers).2, _, _,
    hinsert "name" (.str "Alan") twoUsers, rfl, hinsert nativeKey (.ofInt 1) _⟩

/-- The first of the newcomers is written, and the second is refused, whoever comes after. -/
theorem on_persist_newcomers :
    ∃ c₁ e c', (Client.persist "users" (newcomers.take 1)).on localClient =
        (.ok { inserted := 1 }, c₁) ∧
      (c₁.store.documentsAt ⟨"mydb", "users"⟩).length = 3 ∧
      ∀ rest, (Client.persist "users" (newcomers.take 2 ++ rest)).on localClient = (.error e, c') := by
  obtain ⟨s, e, t, hfirst, hlength, hsecond⟩ := on_persistRecord_newcomers
  have hacquire : ClientM.acquire.on localClient =
      (.ok localClient.pool.dial.1, localDialed twoUsers) := rfl
  have hpersist (records : List Value) : (Client.persist "users" records).on localClient =
      (((Client.persistRecords "users" "id" records {}).on (localDialed twoUsers)).1,
        ((Client.persistRecords "users" "id" records {}).on (localDialed twoUsers)).2.release
          localClient.pool.dial.1) := by
    rw [Client.on_persist, ClientM.on_withSession, hacquire]
    rfl
  refine ⟨(localDialed s).release localClient.pool.dial.1, e,
    (localDialed t).release localClient.pool.dial.1, ?_, hlength, fun rest => ?_⟩
  · rw [hpersist, newcomers, List.take, Client.on_persistRecords_cons_of_ok hfirst]
    rfl
  · rw [hpersist, newcomers, List.take, List.cons_append, Client.on_persistRecords_cons_of_ok hfirst,
      List.take, List.cons_append, Client.on_persistRecords_cons_of_error hsecond]

/-- A third user with the key of the first, and newcomers of whom the second is refused. -/
theorem failures_change_nothing_twoUsers :
    (∃ e c', (Client.executeStatement insertUser [.ofInt 1, .str "Alan"]).on localClient =
        (.error e, c') ∧ Store.SameContent twoUsers c'.store) ∧
      ∃ e c', (Client.persist "users" newcomers).on localClient = (.error e, c') ∧
        ∃ c₁, (Client.persist "users" (newcomers.take 1)).on localClient =
            (.ok { inserted := 1 }, c₁) ∧
          (c₁.store.documentsAt ⟨"mydb", "users"⟩).length = 3 ∧
          Store.SameContent c₁.store c'.store := by
  obtain ⟨-, hstatement, -, -, -, -, -, hpersist⟩ := failures_change_nothing localClient
  constructor
  · obtain ⟨e, c', hrun⟩ : ∃ e c', (Client.executeStatement insertUser
        [.ofInt 1, .str "Alan"]).on localClient = (.error e, c') := ⟨_, _, rfl⟩
    exact ⟨e, c', hrun, hstatement _ _ e c' hrun⟩
  · obtain ⟨c₁, e, c', hone, hlength, htwo⟩ := on_persist_newcomers
    have hrun := htwo (newcomers.drop 2)
    refine ⟨e, c', hrun, c₁, hone, hlength, ?_⟩
    rcases hpersist _ _ e c' hrun with ⟨hnone, -⟩ |
        ⟨before, r, after, written, c₂, hsplit, hbefore, hfails, h⟩
    · cases hnone
    · -- the first record alone is written, and with the second nothing is
      cases before with
      | nil =>
        cases hsplit
        cases hone.symm.trans hfails
      | cons first before =>
        cases before with
        | nil =>
          cases hsplit
          cases hone.symm.trans hbefore
          exact h
        | cons second before =>
          obtain ⟨rfl, htail⟩ := List.cons.inj hsplit
          obtain ⟨rfl, -⟩ := List.cons.inj htail
          cases (htwo before).symm.trans hbefore

end Schemaless
