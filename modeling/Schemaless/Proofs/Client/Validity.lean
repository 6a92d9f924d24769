import Schemaless.Proofs.Client.Login
import Schemaless.Proofs.Client.Rows
import Schemaless.Proofs.Store.Locality

/-!
# Where a configuration is checked

A configuration is checked when the store is dialed, so every session was dialed under a valid one
(`Workspace.exists_dialing`). A session that waits, or is held, is used without a check, under the
configuration in force by then. So a statement with a session of its own runs under a valid configuration
exactly if the configuration is valid or no session waits (`Workspace.runsValidly_iff`). The client
makes no database but that of its configuration, and one without a name only with a session from before
(`Workspace.Outcome.hasDatabase`).
-/

namespace Schemaless

/-! ## Databases -/

namespace Store

variable {s t : Store} {p : Place} {name : String}

/-- The store has a collection of the database. -/
def HasDatabase (s : Store) (name : String) : Prop :=
  ∃ collection documents, s.catalog.collection? ⟨name, collection⟩ = some documents

theorem ChangesAt.hasDatabase {spends : Prop} (h : ChangesAt spends p s t) (hne : name ≠ p.database)
    (hafter : t.HasDatabase name) : s.HasDatabase name := by
  obtain ⟨collection, documents, hat⟩ := hafter
  refine ⟨collection, documents, ?_⟩
  rw [← hat]
  exact (h.elsewhere _ fun heq => hne (congrArg Place.database heq)).symm

theorem hasDatabase_of_drop (hafter : ((drop p).on s).2.HasDatabase name) : s.HasDatabase name := by
  obtain ⟨collection, documents, hat⟩ := hafter
  refine ⟨collection, documents, ?_⟩
  rw [on_drop] at hat
  split at hat
  · exact hat
  · split at hat
    · exact hat
    · change Catalog.collection? (s.catalog.drop p) _ = _ at hat
      rw [Catalog.collection?_drop] at hat
      split at hat
      · cases hat
      · exact hat

end Store

/-! ## Work with a session -/

namespace Client

open ClientM

variable {c d : Client}

theorem isValid_of_connect (h : c.connect = .ok ()) : c.config.IsValid := by
  rw [← Config.validate_eq_ok_iff]
  unfold connect at h
  cases hvalidate : c.config.validate with
  | ok _ => rfl
  | error e =>
    rw [hvalidate] at h
    cases h

theorem connect_of_validate {e : ConfigFault} (h : c.config.validate = .error e) :
    c.connect = .error (.config e) := by
  unfold connect
  rw [h]

/-- Work that changes nothing of a client but its store, and makes no database there but that of the
configuration. -/
structure Works (c d : Client) : Prop where
  onlyStore : c.OnlyStore d
  hasDatabase : ∀ name, name ≠ c.config.database → d.store.HasDatabase name → c.store.HasDatabase name

instance : Std.Refl Works := ⟨fun c => ⟨refl_of OnlyStore c, fun _ _ h => h⟩⟩

theorem Works.config (h : c.Works d) : d.config = c.config := by
  rw [show d = { c with store := d.store } from h.onlyStore]

theorem Works.pool (h : c.Works d) : d.pool = c.pool := by
  rw [show d = { c with store := d.store } from h.onlyStore]

theorem Works.dialed_release (h : c.Works d) (s : Session) :
    (d.release s).pool.dialed = c.pool.dialed := by
  rw [Client.release, Pool.dialed_release, h.pool]

instance : IsTrans Client Works := by
  refine ⟨fun c d e h h' => ⟨trans_of OnlyStore h.onlyStore h'.onlyStore, fun name hne hafter => ?_⟩⟩
  exact h.hasDatabase name hne (h'.hasDatabase name (by rwa [h.config]) hafter)

theorem works_modifyStore (t : Sql.Statement) (parameters : List Value) :
    (modifyStore t parameters).Moves Works := by
  intro c
  refine ⟨onlyStore_modifyStore t parameters c, fun name hne hafter => ?_⟩
  rw [on_modifyStore] at hafter
  exact (actsAt_modify.changes c.store).hasDatabase hne hafter

theorem works_drop (p : Place) (table : String) :
    (onStore ((Store.drop p).onTable table)).Moves Works :=
  fun c => ⟨onlyStore_onStore _ c, fun _ _ hafter => Store.hasDatabase_of_drop hafter⟩

/-- What a call with a session of its own makes of a client. A session is dialed under a valid
configuration only, and the call works only if one waits or is dialed. -/
structure Borrows (c d : Client) : Prop where
  config : d.config = c.config
  dialed : d.pool.dialed ≠ c.pool.dialed → c.config.IsValid
  idle : d.pool.idle ≠ [] → c.pool.idle ≠ [] ∨ d.pool.dialed ≠ c.pool.dialed
  hasDatabase : ∀ name, d.store.HasDatabase name → c.store.HasDatabase name ∨
    name = c.config.database ∧ (c.config.IsValid ∨ c.pool.idle ≠ [])

theorem borrows_withSession {α : Type} {work : ClientM α} (hwork : work.Moves Works) (c : Client) :
    c.Borrows ((withSession work).on c).2 := by
  have hmade {pool : Pool} (hmay : c.config.IsValid ∨ c.pool.idle ≠ []) (name : String)
      (hafter : (work.on { c with pool }).2.store.HasDatabase name) :
      c.store.HasDatabase name ∨
        name = c.config.database ∧ (c.config.IsValid ∨ c.pool.idle ≠ []) := by
    by_cases hname : name = c.config.database
    · exact .inr ⟨hname, hmay⟩
    · exact .inl ((hwork { c with pool }).hasDatabase name hname hafter)
  rw [on_withSession]
  rcases acquire_outcome c with ⟨s, rest, hidle, hacquire⟩ | ⟨hidle, hconnect, hacquire⟩ |
      ⟨e, hidle, hconnect, hacquire⟩ <;> rw [hacquire]
  · have hwaits : c.pool.idle ≠ [] := by simp [hidle]
    have hworks := hwork { c with pool := { c.pool with idle := rest } }
    exact ⟨hworks.config, fun hne => absurd (hworks.dialed_release s) hne, fun _ => .inl hwaits,
      hmade (.inr hwaits)⟩
  · have hvalid := isValid_of_connect hconnect
    have hworks := hwork { c with pool := c.pool.dial.2 }
    refine ⟨hworks.config, fun _ => hvalid, fun _ => .inr fun hsame => ?_, hmade (.inl hvalid)⟩
    have hdialed := (hworks.dialed_release c.pool.dial.1).symm.trans hsame
    exact Nat.succ_ne_self c.pool.dialed hdialed
  · exact ⟨rfl, fun hne => absurd rfl hne, .inl, fun _ => .inl⟩

end Client

namespace Workspace

open Client ClientM

variable {w v : Workspace} {a : Action}

/-! ## Sessions from before -/

/-- A session waits or is held. -/
def HasSession (w : Workspace) : Prop :=
  w.client.pool.idle ≠ [] ∨ ∃ index s, w.session? index = some s

/-- The sessions of `v` are those of `w`, unless one was dialed, under a valid configuration. -/
structure Provides (w v : Workspace) : Prop where
  dialed : v.client.pool.dialed ≠ w.client.pool.dialed → w.client.config.IsValid
  sessions : v.HasSession → w.HasSession ∨ v.client.pool.dialed ≠ w.client.pool.dialed

theorem Provides.of_pool (hpool : v.client.pool = w.client.pool) (hheld : v.held = w.held) :
    w.Provides v := by
  refine ⟨fun hne => absurd (by rw [hpool]) hne, fun h => .inl ?_⟩
  unfold HasSession session? at h ⊢
  rwa [hpool, hheld] at h

theorem provides_hold (w : Workspace) : w.Provides w.hold.2 := by
  unfold Workspace.hold
  rcases acquire_outcome w.client with ⟨s, rest, hidle, hacquire⟩ | ⟨hidle, hconnect, hacquire⟩ |
      ⟨e, -, -, hacquire⟩ <;> rw [hacquire]
  · exact ⟨fun hne => absurd rfl hne, fun _ => .inl (.inl (by simp [hidle]))⟩
  · refine ⟨fun _ => isValid_of_connect hconnect, fun _ => .inr ?_⟩
    show w.client.pool.dialed + 1 ≠ w.client.pool.dialed
    omega
  · exact .of_pool rfl rfl

theorem provides_release (w : Workspace) (index : Nat) : w.Provides (w.release index).2 := by
  unfold Workspace.release
  cases hsession : w.session? index with
  | none => exact .of_pool rfl rfl
  | some s =>
    have hdialed : (w.client.release s).pool.dialed = w.client.pool.dialed := Pool.dialed_release _ _ s
    exact ⟨fun hne => absurd hdialed hne, fun _ => .inl (.inr ⟨index, s, hsession⟩)⟩

theorem Outcome.provides (h : w.Outcome Works a v) : w.Provides v := by
  cases h with
  | borrowed work _ hwork =>
    have hborrows := borrows_withSession hwork w.client
    refine ⟨hborrows.dialed, ?_⟩
    rintro (hidle | hheld)
    · exact (hborrows.idle hidle).imp_left .inl
    · exact .inl (.inr hheld)
  | held _ _ hwork => exact .of_pool hwork.pool rfl
  | nothing => exact .of_pool rfl rfl
  | past store => exact .of_pool rfl rfl
  | configure change => exact .of_pool rfl rfl
  | hold => exact provides_hold w
  | release index => exact provides_release w index

theorem outcome_works (w : Workspace) (a : Action) : w.Outcome Works a (w.perform a).2 :=
  outcome_perform works_modifyStore works_drop w a

/-- If there is a session after a run, there was one before, or one was dialed in the run. -/
theorem exists_dialing {events : List Event} (hsession : (events.foldl undergo w).HasSession) :
    w.HasSession ∨ ∃ before a after, events = before ++ .act a :: after ∧
      (before.foldl undergo w).client.config.IsValid ∧
      ((before.foldl undergo w).perform a).2.client.pool.dialed ≠
        (before.foldl undergo w).client.pool.dialed := by
  induction events generalizing w with
  | nil => exact .inl hsession
  | cons event rest ih =>
    rcases ih hsession with hfirst | ⟨before, a, after, rfl, hdialing⟩
    · cases event with
      | meet store files outage => exact .inl hfirst
      | act a =>
        have hprovides := (outcome_works w a).provides
        rcases hprovides.sessions hfirst with hsession | hdialed
        · exact .inl hsession
        · exact .inr ⟨[], a, rest, rfl, hprovides.dialed hdialed, hdialed⟩
    · exact .inr ⟨event :: before, a, after, rfl, hdialing⟩

/-! ## Databases without a name -/

theorem Outcome.hasDatabase (h : w.Outcome Works a v) (hclient : a.OfClient) {name : String}
    (hafter : v.client.store.HasDatabase name) :
    w.client.store.HasDatabase name ∨
      name = w.client.config.database ∧ (w.client.config.IsValid ∨ w.HasSession) := by
  cases h with
  | borrowed work _ hwork =>
    rcases (borrows_withSession hwork w.client).hasDatabase name hafter with hbefore | ⟨hname, hmay⟩
    · exact .inl hbefore
    · exact .inr ⟨hname, hmay.imp_right .inl⟩
  | held _ hheld hwork =>
    by_cases hname : name = w.client.config.database
    · exact .inr ⟨hname, .inr (.inr ⟨_, _, hheld⟩)⟩
    · exact .inl (hwork.hasDatabase name hname hafter)
  | nothing => exact .inl hafter
  | past _ _ hpast => exact absurd hclient hpast
  | configure change => exact .inl hafter
  | hold =>
    rw [store_hold] at hafter
    exact .inl hafter
  | release index =>
    rw [store_release] at hafter
    exact .inl hafter

theorem hasDatabase_nameless (hclient : a.OfClient)
    (hafter : (w.perform a).2.client.store.HasDatabase "") :
    w.client.store.HasDatabase "" ∨ w.client.config.database = "" ∧ w.HasSession := by
  rcases (outcome_works w a).hasDatabase hclient hafter with hbefore | ⟨hname, hvalid | hsession⟩
  · exact .inl hbefore
  · exact absurd hname.symm hvalid.1
  · exact .inr ⟨hname.symm, hsession⟩

/-! ## Statements that reach the store -/

/-- The action reads or writes the databases: over others it would answer something else, or it changes
them. -/
def Reaches (w : Workspace) (a : Action) : Prop :=
  (∃ catalog, ((w.withCatalog catalog).perform a).1 ≠ (w.perform a).1) ∨
    (w.perform a).2.client.store.catalog ≠ w.client.store.catalog

/-- Only under a valid configuration does an action with a session of its own reach the store. -/
def RunsValidly (w : Workspace) : Prop :=
  ∀ a : Action, a.needsSession w.client = true → w.Reaches a → w.client.config.IsValid

/-- Where no session waits, an invalid configuration refuses all that asks for one. -/
theorem perform_of_validate {e : ConfigFault} (hinvalid : w.client.config.validate = .error e)
    (hidle : w.client.pool.idle = []) (hasks : a.Asks w.client) :
    w.perform a = (some (.error (.config e)), w) :=
  perform_of_no_session hasks (acquire_of_error hidle (connect_of_validate hinvalid))

theorem not_reaches_of_validate {e : ConfigFault} (hinvalid : w.client.config.validate = .error e)
    (hidle : w.client.pool.idle = []) (hasks : a.Asks w.client) : ¬w.Reaches a := by
  have hperform := perform_of_validate hinvalid hidle hasks
  rintro (⟨catalog, hne⟩ | hne)
  · rw [perform_of_validate (w := w.withCatalog catalog) hinvalid hidle hasks, hperform] at hne
    exact hne rfl
  · rw [hperform] at hne
    exact hne rfl

/-- A statement that reads all documents of a table. -/
def readAllRows (table : String) : Action :=
  .queryStatement (rowsOf .select table {} 0) [] Receiver.all

/-- Where a session waits, a table is read under any configuration. -/
theorem perform_readAllRows (hwaits : w.client.pool.idle ≠ []) (table : String) :
    (w.perform (readAllRows table)).1 = some (.ok (.delivery
      { rows := (w.client.store.documentsAt (w.client.placeOf table)).map Row.whole })) := by
  rw [readAllRows, perform, perform.answered, queryStatement, onClient_map_withSession,
    Workspace.onClient, on_withSession]
  rcases acquire_outcome w.client with ⟨s, rest, -, hacquire⟩ | ⟨hidle, -⟩ | ⟨e, hidle, -⟩
  · rw [hacquire]
    dsimp only
    rw [Effect.on_map, on_deliverRows_all]
    rfl
  · exact absurd hidle hwaits
  · exact absurd hidle hwaits

/-- Over a table without documents and over one with a document, it is read differently. -/
theorem reaches_readAllRows (hwaits : w.client.pool.idle ≠ []) (table : String) :
    w.Reaches (readAllRows table) := by
  by_contra hnot
  have hsame (catalog : Catalog) : (catalog.documents (w.client.placeOf table)).length =
      (w.client.store.documentsAt (w.client.placeOf table)).length := by
    by_contra hne
    refine hnot (.inl ⟨catalog, fun heq => hne ?_⟩)
    rw [perform_readAllRows hwaits, perform_readAllRows (w := w.withCatalog catalog) hwaits] at heq
    have hrows := congrArg Delivery.rows (Answer.delivery.inj (Except.ok.inj (Option.some.inj heq)))
    have hlength := congrArg List.length hrows
    rwa [List.length_map, List.length_map] at hlength
  have hone := (hsame (Catalog.put SortedMap.empty (w.client.placeOf table) [SortedMap.empty])).trans
    (hsame SortedMap.empty).symm
  rw [Catalog.documents_put, if_pos rfl] at hone
  cases hone

theorem exists_validate_eq_error {c : Config} (h : ¬c.IsValid) : ∃ e, c.validate = .error e := by
  rw [← Config.validate_eq_ok_iff] at h
  cases hvalidate : c.validate with
  | ok _ => exact absurd hvalidate h
  | error e => exact ⟨e, rfl⟩

theorem runsValidly_iff : w.RunsValidly ↔ w.client.config.IsValid ∨ w.client.pool.idle = [] := by
  constructor
  · intro h
    by_cases hidle : w.client.pool.idle = []
    · exact .inr hidle
    · exact .inl (h (readAllRows "users") rfl (reaches_readAllRows hidle "users"))
  · rintro (hvalid | hidle) a hneeds hreaches
    · exact hvalid
    · by_contra hinvalid
      obtain ⟨e, hvalidate⟩ := exists_validate_eq_error hinvalid
      exact not_reaches_of_validate hvalidate hidle (.inl hneeds) hreaches

end Workspace

/-! ## Runs -/

/-- An event after which a valid configuration is a valid one. -/
def Event.KeepsValid : Event → Prop
  | .act (.configure change) => ∀ c : Config, c.IsValid → (change c).IsValid
  | _ => True

namespace Workspace

open Client ClientM

variable {w v : Workspace} {a : Action}

theorem Outcome.isValid (h : w.Outcome Works a v) (hkeeps : (Event.act a).KeepsValid)
    (hvalid : w.client.config.IsValid) : v.client.config.IsValid := by
  cases h with
  | borrowed work _ hwork => rwa [(borrows_withSession hwork w.client).config]
  | held _ _ hwork => rwa [hwork.config]
  | nothing => exact hvalid
  | past _ => exact hvalid
  | configure change => exact hkeeps _ hvalid
  | hold =>
    obtain ⟨r, pool, hacquire⟩ := on_acquire w.client
    unfold Workspace.hold
    rw [hacquire]
    cases r <;> exact hvalid
  | release index =>
    unfold Workspace.release
    cases w.session? index <;> exact hvalid

theorem isValid_undergo {event : Event} (hkeeps : event.KeepsValid) (hvalid : w.client.config.IsValid) :
    (w.undergo event).client.config.IsValid := by
  cases event with
  | act a => exact (outcome_works w a).isValid hkeeps hvalid
  | meet store files outage => exact hvalid

theorem isValid_run {events : List Event} (hkeeps : ∀ event ∈ events, event.KeepsValid)
    (hvalid : w.client.config.IsValid) : (events.foldl undergo w).client.config.IsValid := by
  induction events generalizing w with
  | nil => exact hvalid
  | cons event rest ih =>
    exact ih (fun e he => hkeeps e (List.mem_cons_of_mem _ he))
      (isValid_undergo (hkeeps event List.mem_cons_self) hvalid)

/-- Under valid configurations, the client makes no database without a name. -/
theorem not_hasDatabase_nameless_run {events : List Event}
    (hkeeps : ∀ event ∈ events, event.KeepsValid)
    (hclient : ∀ event ∈ events, ∃ a, event = .act a ∧ a.OfClient)
    (hvalid : w.client.config.IsValid) (hnone : ¬w.client.store.HasDatabase "") :
    ¬(events.foldl undergo w).client.store.HasDatabase "" := by
  induction events generalizing w with
  | nil => exact hnone
  | cons event rest ih =>
    obtain ⟨a, rfl, ha⟩ := hclient event List.mem_cons_self
    refine ih (fun e he => hkeeps e (List.mem_cons_of_mem _ he))
      (fun e he => hclient e (List.mem_cons_of_mem _ he))
      (isValid_undergo (hkeeps _ List.mem_cons_self) hvalid) fun hafter => ?_
    rcases hasDatabase_nameless ha hafter with hbefore | ⟨hname, -⟩
    · exact hnone hbefore
    · exact hvalid.1 hname

/-- At every point of a run that begins with a valid configuration and no session, a statement with a
session of its own reaches the store under a valid configuration alone if and only if the configuration
in force is valid or no session waits. Where one waits, a statement that reads a table reaches it under
any configuration. Where it is not valid and none waits, all that asks for a session is refused with its
fault and changes nothing. A session that there is was dialed in the run while the configuration was
valid. An action of the client makes a database without a name only if this is the database of the
configuration, and with a session that was there before. If every change of the configuration keeps it
valid, it is valid, and the client makes no such database. -/
theorem statements_run_validly_iff (hvalid : w.client.config.IsValid) (hpool : w.client.pool = {})
    (hheld : w.held = []) {events : List Event} {v : Workspace} (hrun : events.foldl undergo w = v) :
    (v.RunsValidly ↔ v.client.config.IsValid ∨ v.client.pool.idle = []) ∧
      (v.client.pool.idle ≠ [] → ∀ table, (readAllRows table).needsSession v.client = true ∧
        v.Reaches (readAllRows table)) ∧
      (¬v.client.config.IsValid → v.client.pool.idle = [] →
        ∃ e, v.client.config.validate = .error e ∧
          ∀ a : Action, a.Asks v.client → v.perform a = (some (.error (.config e)), v)) ∧
      (v.HasSession → ∃ before a after, events = before ++ .act a :: after ∧
        (before.foldl undergo w).client.config.IsValid ∧
        ((before.foldl undergo w).perform a).2.client.pool.dialed ≠
          (before.foldl undergo w).client.pool.dialed) ∧
      (∀ a : Action, a.OfClient → (v.perform a).2.client.store.HasDatabase "" →
        v.client.store.HasDatabase "" ∨ v.client.config.database = "" ∧ v.HasSession) ∧
      ((∀ event ∈ events, event.KeepsValid) → v.client.config.IsValid ∧
        ((∀ event ∈ events, ∃ a, event = .act a ∧ a.OfClient) →
          ¬w.client.store.HasDatabase "" → ¬v.client.store.HasDatabase "")) := by
  subst hrun
  refine ⟨runsValidly_iff, ?_, ?_, fun hsession => ?_, fun a => hasDatabase_nameless,
    fun hkeeps => ?_⟩
  · exact fun hwaits table => ⟨rfl, reaches_readAllRows hwaits table⟩
  · intro hinvalid hidle
    obtain ⟨e, hvalidate⟩ := exists_validate_eq_error hinvalid
    exact ⟨e, hvalidate, fun a => perform_of_validate hvalidate hidle⟩
  · rcases exists_dialing hsession with hbefore | hdialing
    · unfold HasSession session? at hbefore
      rw [hpool, hheld] at hbefore
      rcases hbefore with hidle | ⟨index, s, hs⟩
      · exact absurd rfl hidle
      · cases hs
    · exact hdialing
  · exact ⟨isValid_run hkeeps hvalid, fun hclient => not_hasDatabase_nameless_run hkeeps hclient hvalid⟩

/-- The client inserts a user, and then its configuration loses the database. -/
def emptied : List Event :=
  [.act (.executeStatement insertUser [.ofInt 1, .str "Ada"]),
    .act (.configure fun c => { c with database := "" })]

theorem statements_run_validly_iff_emptied :
    Workspace.local.client.config.IsValid ∧ Workspace.local.client.pool = {} ∧
      Workspace.local.held = [] ∧
      (emptied.foldl undergo Workspace.local).HasSession ∧
      (∃ before a after, emptied = before ++ .act a :: after ∧
        (before.foldl undergo Workspace.local).client.config.IsValid ∧
        ((before.foldl undergo Workspace.local).perform a).2.client.pool.dialed ≠
          (before.foldl undergo Workspace.local).client.pool.dialed) ∧
      (emptied.foldl undergo Workspace.local).Reaches (readAllRows "users") ∧
      ((emptied.drop 1).foldl undergo Workspace.local).RunsValidly ∧
      ∃ e, (((emptied.drop 1).foldl undergo Workspace.local).perform .databases).1 =
        some (.error (.config e)) := by
  have hvalid : Workspace.local.client.config.IsValid := ⟨by decide, by decide⟩
  have hidle : (emptied.foldl undergo Workspace.local).client.pool.idle ≠ [] := by decide
  obtain ⟨-, hreads, -, hdialed, -, -⟩ := statements_run_validly_iff hvalid rfl rfl
    (Eq.refl (emptied.foldl undergo Workspace.local))
  obtain ⟨hlaw, -, hrefused, -, -, -⟩ := statements_run_validly_iff hvalid rfl rfl
    (Eq.refl ((emptied.drop 1).foldl undergo Workspace.local))
  obtain ⟨e, -, hall⟩ := hrefused (fun h => h.1 rfl) rfl
  have hdatabases := congrArg Prod.fst (hall .databases (.inl rfl))
  exact ⟨hvalid, rfl, rfl, .inl hidle, hdialed (.inl hidle), (hreads hidle "users").2,
    hlaw.2 (.inr rfl), e, hdatabases⟩

/-- The statement that inserts the second user. -/
def secondUser : Action := .executeStatement insertUser [.ofInt 2, .str "Grace"]

/-- With a session from before, a statement runs under a configuration without a database, and makes a
database without a name. -/
theorem nameless_database_is_made :
    ¬(emptied.foldl undergo Workspace.local).client.config.IsValid ∧
      secondUser.needsSession (emptied.foldl undergo Workspace.local).client = true ∧
      (emptied.foldl undergo Workspace.local).Reaches secondUser ∧
      ((emptied.foldl undergo Workspace.local).perform secondUser).1 = some (.ok (.affected 1)) ∧
      ¬(emptied.foldl undergo Workspace.local).client.store.HasDatabase "" ∧
      ((emptied.foldl undergo Workspace.local).perform secondUser).2.client.store.HasDatabase "" := by
  have hnone : ¬(emptied.foldl undergo Workspace.local).client.store.HasDatabase "" := by
    rintro ⟨collection, documents, hat⟩
    cases hat
  have hmade :
      ((emptied.foldl undergo Workspace.local).perform secondUser).2.client.store.HasDatabase "" :=
    ⟨"users", _, rfl⟩
  refine ⟨fun h => h.1 rfl, rfl, .inr fun hsame => hnone ?_, rfl, hnone, hmade⟩
  rwa [Store.HasDatabase, hsame] at hmade

end Workspace

end Schemaless
