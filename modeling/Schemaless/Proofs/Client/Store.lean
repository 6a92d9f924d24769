import Schemaless.Client.Action
import Schemaless.Proofs.Store.Step

/-!
# What a client does to its store

A client reaches its store only through `ClientM.onStore`. So a relation between stores that work on
the store keeps to is a relation between clients (`Client.OverStore`) that the client keeps to, with
its sessions taken and given back around the work (`moves_withSession`). Reading statements leave the
store alone, whatever their receiver does, so they keep to every such relation
(`moves_queryStatement`); modifying statements, records written and actions of a workspace change it
by steps (`moves_executeStatement`, `moves_persist`, `steps_perform`).
-/

namespace Schemaless

/-- Two clients whose stores stand in a relation. -/
def Client.OverStore (R : Store → Store → Prop) (c c' : Client) : Prop := R c.store c'.store

instance {R : Store → Store → Prop} [Std.Refl R] : Std.Refl (Client.OverStore R) :=
  ⟨fun c => refl_of R c.store⟩

instance {R : Store → Store → Prop} [IsTrans Store R] : IsTrans Client (Client.OverStore R) :=
  ⟨fun _ _ _ h h' => trans_of R h h'⟩

/-- Dialing does not look at the databases. -/
theorem Client.connect_congr {c c' : Client} (hconfig : c'.config = c.config)
    (hfiles : c'.files = c.files) (houtage : c'.outage = c.outage)
    (haddress : c'.store.address = c.store.address) (husers : c'.store.users = c.store.users) :
    c'.connect = c.connect := by
  have hpermit (credential : Option Credential) :
      c'.store.permit c.config.address credential = c.store.permit c.config.address credential := by
    have hknows : c'.store.knows = c.store.knows := by
      funext credential
      rw [Store.knows, Store.knows, husers]
    rw [Store.permit, Store.permit, haddress, husers, hknows]
  unfold connect
  simp only [hconfig, hfiles, houtage, hpermit]

namespace ClientM

open Client

variable {α : Type} {R : Store → Store → Prop}

/-! ## Sessions -/

theorem on_onStore (m : StoreM α) (c : Client) :
    (onStore m).on c = ((m.on c.store).1, { c with store := (m.on c.store).2 }) := rfl

/-- Taking a session changes the pool only. -/
theorem on_acquire (c : Client) : ∃ r pool, acquire.on c = (r, { c with pool }) := by
  change ∃ r pool, acquire c = (r, { c with pool })
  unfold acquire
  cases c.pool.take? with
  | some taken => exact ⟨_, _, rfl⟩
  | none =>
    cases c.connect with
    | error e => exact ⟨_, _, rfl⟩
    | ok _ => exact ⟨_, _, rfl⟩

/-- Whether or not there is a session, the store stays. -/
theorem acquire_cases (c : Client) :
    (∃ e c', acquire.on c = (.error e, c') ∧ c'.store = c.store) ∨
      ∃ s c', acquire.on c = (.ok s, c') ∧ c'.store = c.store := by
  obtain ⟨r, pool, hacq⟩ := on_acquire c
  cases r with
  | error e => exact .inl ⟨e, _, hacq, rfl⟩
  | ok s => exact .inr ⟨s, _, hacq, rfl⟩

theorem on_withSession (work : ClientM α) (c : Client) :
    (withSession work).on c =
      match acquire.on c with
      | (.error e, c) => (.error e, c)
      | (.ok s, c) => ((work.on c).1, (work.on c).2.release s) := rfl

theorem on_modifyStore (c : Client) (t : Sql.Statement) (parameters : List Value) :
    (modifyStore t parameters).on c =
      (((modify c.config t parameters).on c.store).1,
        { c with store := ((modify c.config t parameters).on c.store).2 }) := rfl

theorem on_parse {c : Client} {sql : String} {t : Sql.Statement} (h : c.parser sql = .ok t) :
    (parse sql).on c = (.ok t, c) := by
  show ((c.parser sql).mapError Failure.parse, c) = _
  rw [h]
  rfl

theorem on_parse_bind {c : Client} {sql : String} {t : Sql.Statement} (h : c.parser sql = .ok t)
    (f : Sql.Statement → ClientM α) : (parse sql >>= f).on c = (f t).on c := by
  rw [Effect.on_bind, on_parse h]

theorem on_parse_bind_of_error {c : Client} {sql : String} {e : Sql.ParseFault}
    (h : c.parser sql = .error e) (f : Sql.Statement → ClientM α) :
    (parse sql >>= f).on c = (.error (.parse e), c) := by
  have hparse : (parse sql).on c = (.error (.parse e), c) := by
    show ((c.parser sql).mapError Failure.parse, c) = _
    rw [h]
    rfl
  rw [Effect.on_bind, hparse]

theorem moves_onStore {m : StoreM α} (h : m.Moves R) : (onStore m).Moves (OverStore R) :=
  fun c => h c.store

theorem moves_withSession [Std.Refl R] {work : ClientM α} (h : work.Moves (OverStore R)) :
    (withSession work).Moves (OverStore R) := by
  intro c
  rw [on_withSession]
  rcases acquire_cases c with ⟨e, c', hacq, hstore⟩ | ⟨s, c', hacq, hstore⟩ <;> rw [hacq]
  · show R c.store c'.store
    rw [hstore]
    exact refl_of R _
  · have hwork : R c'.store (work.on c').2.store := h c'
    rwa [hstore] at hwork

theorem failsWithin_onStore {m : StoreM α} (h : m.FailsWithin R) :
    (onStore m).FailsWithin (OverStore R) := by
  intro c e c' hrun
  rw [on_onStore] at hrun
  cases hrun' : m.on c.store with
  | mk r s =>
    rw [hrun'] at hrun
    cases hrun
    exact h _ _ _ hrun'

theorem failsWithin_withSession [Std.Refl R] {work : ClientM α}
    (h : work.FailsWithin (OverStore R)) : (withSession work).FailsWithin (OverStore R) := by
  intro c e d hrun
  rw [on_withSession] at hrun
  rcases acquire_cases c with ⟨e', c', hacq, hstore⟩ | ⟨s, c', hacq, hstore⟩ <;> rw [hacq] at hrun
  · cases hrun
    show R c.store d.store
    rw [hstore]
    exact refl_of R _
  · rcases hw : work.on c' with ⟨r, c''⟩
    simp only [hw] at hrun
    cases hrun
    have hwork : R c'.store c''.store := h c' e c'' hw
    rwa [hstore] at hwork

theorem moves_parse {R : Client → Client → Prop} [Std.Refl R] (sql : String) :
    (parse sql).Moves R :=
  Effect.moves_of_still fun _ => rfl

end ClientM

namespace Client

open ClientM

variable {R : Store → Store → Prop}

/-! ## What a held statement does -/

section

variable {c : Client} {sql : String} {t : Sql.Statement}

theorem on_executeHeld (hparse : c.parser sql = .ok t) (parameters : List Value) :
    (executeHeld sql parameters).on c =
      (((modify c.config t parameters).on c.store).1,
        { c with store := ((modify c.config t parameters).on c.store).2 }) := by
  rw [executeHeld, Effect.on_bind, on_parse hparse]
  rfl

theorem on_queryHeld (hparse : c.parser sql = .ok t) (parameters : List Value)
    (receiver : Receiver) :
    (queryHeld sql parameters receiver).on c =
      ((select c.config t parameters c.store).map (deliver receiver 1), c) := by
  rw [queryHeld, Effect.on_bind, on_parse hparse]
  rfl

theorem on_insertRecord_of_parse {table : String} {record : Document}
    (hparse : c.parser (insertText table record.names) = .ok t) :
    (insertRecord table record).on c =
      (((modify c.config t (record.entries.map (·.2))).on c.store).1.map fun n => { inserted := n },
        { c with store := ((modify c.config t (record.entries.map (·.2))).on c.store).2 }) := by
  rw [insertRecord, Effect.on_bind, on_executeHeld hparse]
  cases ((modify c.config t (record.entries.map (·.2))).on c.store).1 <;> rfl

end

/-! ## Reading statements -/

theorem moves_deliverRows {R : Client → Client → Prop} [Std.Refl R] (t : Sql.Statement)
    (parameters : List Value) (receiver : Receiver) : (deliverRows t parameters receiver).Moves R :=
  Effect.moves_of_still fun _ => rfl

theorem moves_queryStatement [Std.Refl R] (t : Sql.Statement) (parameters : List Value)
    (receiver : Receiver) : (queryStatement t parameters receiver).Moves (OverStore R) :=
  moves_withSession (moves_deliverRows t parameters receiver)

theorem moves_query [IsPreorder Store R] (sql : String) (parameters : List Value)
    (receiver : Receiver) : (query sql parameters receiver).Moves (OverStore R) :=
  (moves_parse sql).bind fun t => moves_queryStatement t parameters receiver

/-- A query with a session at hand changes nothing about the client. -/
theorem queryHeld_still (sql : String) (parameters : List Value) (receiver : Receiver) (c : Client) :
    ((queryHeld sql parameters receiver).on c).2 = c := by
  have hstill : (queryHeld sql parameters receiver).Moves Eq :=
    (moves_parse sql).bind fun t => moves_deliverRows t parameters receiver
  exact (hstill c).symm

theorem moves_queryHeld [Std.Refl R] (sql : String) (parameters : List Value) (receiver : Receiver) :
    (queryHeld sql parameters receiver).Moves (OverStore R) :=
  Effect.moves_of_still (queryHeld_still sql parameters receiver)

theorem moves_readAll [IsPreorder Store R] {α : Type} (decode : Row → Except Failure α)
    (sql : String) (parameters : List Value) :
    (readAll decode sql parameters).Moves (OverStore R) :=
  (moves_query sql parameters _).bind fun _ => Effect.moves_ofExcept _

theorem moves_readFirst [IsPreorder Store R] {α : Type} (decode : Row → Except Failure α)
    (sql : String) (parameters : List Value) :
    (readFirst decode sql parameters).Moves (OverStore R) := by
  refine (moves_query sql parameters _).bind fun d => ?_
  cases d.rows with
  | nil => exact Effect.moves_pure _
  | cons r _ => exact (Effect.moves_ofExcept _).map _

theorem moves_columns [IsPreorder Store R] (table : String) :
    (columns table).Moves (OverStore R) :=
  Effect.moves_get.bind fun _ =>
    moves_withSession (Effect.moves_get.bind fun _ => Effect.moves_pure _)

theorem moves_databases [IsPreorder Store R] : databases.Moves (OverStore R) :=
  moves_withSession (Effect.moves_get.bind fun _ => Effect.moves_pure _)

theorem moves_tables [IsPreorder Store R] (database : String) :
    (tables database).Moves (OverStore R) :=
  moves_withSession (Effect.moves_get.bind fun _ => Effect.moves_pure _)

/-! ## Modifying statements -/

theorem moves_modifyStore (t : Sql.Statement) (parameters : List Value) :
    (modifyStore t parameters).Moves (OverStore Store.Steps) :=
  Effect.moves_get.bind fun c => moves_onStore (moves_modify c.config t parameters)

theorem moves_executeStatement (t : Sql.Statement) (parameters : List Value) :
    (executeStatement t parameters).Moves (OverStore Store.Steps) :=
  moves_withSession (moves_modifyStore t parameters)

theorem moves_execute (sql : String) (parameters : List Value) :
    (execute sql parameters).Moves (OverStore Store.Steps) :=
  (moves_parse sql).bind fun t => moves_executeStatement t parameters

theorem moves_dropTable (database table : String) :
    (dropTable database table).Moves (OverStore Store.Steps) :=
  moves_withSession (moves_onStore (moves_onTable (Store.moves_drop _) table))

/-! ## Statements and records with a session at hand

Whatever modifying statements keep to, the work with one session keeps to. -/

section Held

variable {R : Client → Client → Prop} [Std.Refl R] [IsTrans Client R]

theorem moves_keyExists (table keyColumn : String) (key : Value) :
    (keyExists table keyColumn key).Moves R :=
  Effect.Moves.bind (Effect.moves_of_still (queryHeld_still _ _ _)) fun _ => Effect.moves_pure _

variable (hmodify : ∀ t parameters, (modifyStore t parameters).Moves R)

include hmodify

theorem moves_executeHeld (sql : String) (parameters : List Value) :
    (executeHeld sql parameters).Moves R :=
  (moves_parse sql).bind fun t => hmodify t parameters

theorem moves_insertRecord (table : String) (record : Document) :
    (insertRecord table record).Moves R :=
  (moves_executeHeld hmodify _ _).bind fun _ => Effect.moves_pure _

theorem moves_updateRecord (table keyColumn : String) (key : Value) (record : Document) :
    (updateRecord table keyColumn key record).Moves R := by
  simp only [updateRecord]
  split
  · exact Effect.moves_pure _
  · exact (moves_executeHeld hmodify _ _).bind fun _ => Effect.moves_pure _

theorem moves_persistRecord (table keyColumn : String) (record : Value) :
    (persistRecord table keyColumn record).Moves R := by
  unfold persistRecord
  cases Document.ofValue? record with
  | none => exact Effect.moves_throw _
  | some d =>
    cases hkey : recordKey? keyColumn d with
    | none => simp only [hkey]; exact moves_insertRecord hmodify table d
    | some key =>
      simp only [hkey]
      refine (moves_keyExists table keyColumn key).bind fun known => ?_
      cases known with
      | true => exact moves_updateRecord hmodify table keyColumn key d
      | false => exact moves_insertRecord hmodify table d

theorem moves_persistRecords (table keyColumn : String) (records : List Value) (tally : Tally) :
    (persistRecords table keyColumn records tally).Moves R := by
  induction records generalizing tally with
  | nil => exact Effect.moves_pure _
  | cons record rest ih => exact (moves_persistRecord hmodify _ _ _).bind fun t => ih _

end Held

theorem moves_persist (table : String) (records : List Value) :
    (persist table records).Moves (OverStore Store.Steps) :=
  Effect.moves_get.bind fun _ => moves_withSession (moves_persistRecords moves_modifyStore _ _ _ _)

end Client

/-! ## Actions of a workspace -/

theorem StoreAction.moves_perform (p : Place) (a : StoreAction) :
    (a.perform p).Moves Store.Steps := by
  cases a with
  | insert ds => exact (Store.moves_insertAll p ds).map _
  | replace filter d => exact (Store.moves_replace p filter d).map _
  | remove filter => exact (Store.moves_remove p filter).map _
  | drop => exact (Store.moves_drop p).map _
  | count => exact Effect.moves_get.bind fun _ => Effect.moves_pure _
  | find filter => exact Effect.moves_get.bind fun _ => Effect.moves_pure _
  | snapshot filter ds =>
    refine Effect.moves_get.bind fun s => (Store.moves_insertAll p ds).bind fun _ => ?_
    exact Effect.moves_get.bind fun _ => Effect.moves_pure _

namespace Workspace

theorem steps_onClient {m : ClientM Answer} (h : m.Moves (Client.OverStore Store.Steps))
    (w : Workspace) : Store.Steps w.client.store (w.onClient m).2.client.store := h w.client

theorem store_hold (w : Workspace) : w.hold.2.client.store = w.client.store := by
  unfold hold
  rcases ClientM.acquire_cases w.client with ⟨e, c, hacq, h⟩ | ⟨s, c, hacq, h⟩ <;> rw [hacq] <;>
    exact h

theorem store_release (w : Workspace) (index : Nat) :
    (w.release index).2.client.store = w.client.store := by
  unfold release
  cases w.session? index <;> rfl

theorem steps_perform_of_ne (w : Workspace) {a : Action} (hswitch : ∀ on, a ≠ .setReadOnly on) :
    Store.Steps w.client.store (w.perform a).2.client.store := by
  have held : ∀ index (r : Except Failure Answer × Workspace),
      Store.Steps w.client.store r.2.client.store →
        Store.Steps w.client.store (perform.ifHeld w index r).2.client.store := by
    intro index r h
    unfold perform.ifHeld
    cases w.session? index with
    | none => exact .refl
    | some s => exact h
  cases a with
  | setReadOnly on => exact absurd rfl (hswitch on)
  | configure change => exact .refl
  | hold => rw [perform, perform.answered, store_hold]
  | release index => rw [perform, perform.answered, store_release]
  | executeHeld index sql ps =>
    exact held _ _ (steps_onClient ((Client.moves_executeHeld Client.moves_modifyStore _ _).map _) w)
  | queryHeld index sql ps receiver =>
    exact held _ _ (steps_onClient ((Client.moves_queryHeld _ _ _).map _) w)
  | prepare sql => exact steps_onClient ((ClientM.moves_parse _).map _) w
  | execute sql ps => exact steps_onClient ((Client.moves_execute _ _).map _) w
  | executeStatement s ps =>
    exact steps_onClient ((Client.moves_executeStatement _ _).map _) w
  | query sql ps receiver => exact steps_onClient ((Client.moves_query _ _ _).map _) w
  | queryStatement s ps receiver =>
    exact steps_onClient ((Client.moves_queryStatement _ _ _).map _) w
  | persist table records => exact steps_onClient ((Client.moves_persist _ _).map _) w
  | columns table => exact steps_onClient ((Client.moves_columns _).map _) w
  | databases => exact steps_onClient (Client.moves_databases.map _) w
  | tables database => exact steps_onClient ((Client.moves_tables _).map _) w
  | dropTable database table =>
    exact steps_onClient ((Client.moves_dropTable _ _).map _) w
  | store p action =>
    exact steps_onClient (ClientM.moves_onStore (action.moves_perform p)) w

/-- An action changes the store by steps, unless it makes it read-only or writable. -/
theorem steps_perform (w : Workspace) (a : Action) :
    Store.Steps w.client.store (w.perform a).2.client.store ∨
      ∃ on, (w.perform a).2.client.store = { w.client.store with readOnly := on } := by
  by_cases hswitch : ∃ on, a = .setReadOnly on
  · obtain ⟨on, rfl⟩ := hswitch
    exact .inr ⟨on, rfl⟩
  · exact .inl (w.steps_perform_of_ne fun on hon => hswitch ⟨on, hon⟩)

end Workspace

end Schemaless
