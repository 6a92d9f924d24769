import Schemaless.Proofs.Client.Sessions

/-!
# Nothing without a login

A store that has users opens a session only to a client that dials the store's own address with a
credential of one of them (`Client.connect_eq_ok_iff`). Sessions come from dialing alone. So as long as
no client has logged in, none waits and none is held (`Workspace.Outside`), whatever is done in between,
and an action either asks for a session and fails as the dialing does, or asks for none and then does not
look at the store at all (`Workspace.Outside.perform_of_asks`, `Workspace.perform_of_not_asks`).
-/

namespace Schemaless

/-! ## Logging in -/

/-- The client dials the store's own address, with the name and the password of a user. -/
def Client.LogsIn (c : Client) : Prop :=
  c.config.IsValid ∧ c.outage = none ∧ c.config.address = c.store.address ∧
    ∃ credential, c.config.credential c.files = .ok (some credential) ∧ c.store.knows credential = true

/-- A store with users opens a session to who logs in, and to nobody else. -/
theorem Client.connect_eq_ok_iff {c : Client} (husers : c.store.users.isEmpty = false) :
    c.connect = .ok () ↔ c.LogsIn := by
  have hvalid := c.config.validate_eq_ok_iff
  unfold connect LogsIn
  cases hvalidate : c.config.validate with
  | error e =>
    have hinvalid : ¬c.config.IsValid := by
      rw [← hvalid, hvalidate]
      intro h
      cases h
    simp [hinvalid]
  | ok _ =>
    have hvalid := hvalid.1 hvalidate
    cases c.config.credential c.files with
    | error e => simp
    | ok credential =>
      cases c.outage with
      | some reason => simp
      | none =>
        by_cases haddress : c.config.address = c.store.address
        · cases credential with
          | none => simp [Store.permit, haddress, husers]
          | some credential => simp [Store.permit, hvalid, haddress, husers]
        · simp [Store.permit, haddress]

/-! ## Without a session -/

/-- An action asks for a session of its own, or for one to hold. -/
def Action.Asks (c : Client) (a : Action) : Prop := a.needsSession c = true ∨ a = .hold

/-- An answer that says nothing of what is in a store. -/
def Answer.Bare : Answer → Prop
  | .done => True
  | .statement _ => True
  | .released wasHeld => wasHeld = false
  | _ => False

namespace ClientM

open Client

variable {α : Type} {c : Client} {e : Failure}

theorem acquire_of_error (hidle : c.pool.idle = []) (hconnect : c.connect = .error e) :
    acquire.on c = (.error e, c) := by
  rcases acquire_outcome c with ⟨s, rest, hwaits, -⟩ | ⟨-, hopens, -⟩ | ⟨e', -, hfails, hacquire⟩
  · rw [hidle] at hwaits
    cases hwaits
  · rw [hconnect] at hopens
    cases hopens
  · rw [hconnect] at hfails
    cases hfails
    exact hacquire

theorem on_withSession_of_error (h : acquire.on c = (.error e, c)) (work : ClientM α) :
    (withSession work).on c = (.error e, c) := by
  rw [on_withSession, h]

theorem on_bind_of_error {β : Type} {m : ClientM α} (h : m.on c = (.error e, c)) (f : α → ClientM β) :
    (m >>= f).on c = (.error e, c) := by
  rw [Effect.on_bind, h]

end ClientM

namespace Workspace

open Client ClientM

variable {w : Workspace} {a : Action} {e : Failure}

theorem onClient_of_error {α : Type} {m : ClientM α} (f : α → Answer)
    (h : m.on w.client = (.error e, w.client)) :
    perform.answered (w.onClient (f <$> m)) = (some (.error e), w) := by
  rw [onClient_map, h]
  rfl

/-- What asks for a session fails where there is none, and changes nothing. -/
theorem perform_of_no_session (hasks : a.Asks w.client)
    (hacquire : acquire.on w.client = (.error e, w.client)) : w.perform a = (some (.error e), w) := by
  rcases hasks with hneeds | rfl
  · obtain ⟨work, -, hperform⟩ := exists_withSession_onlyStore hneeds
    rw [hperform, Workspace.onClient, on_withSession_of_error hacquire]
    rfl
  · have hhold : w.hold = (.error e, w) := by
      unfold Workspace.hold
      rw [hacquire]
    rw [perform, hhold]
    rfl

/-- What asks for no session, while none is held, does not look at the store. -/
theorem perform_of_not_asks (hheld : w.held = []) (hclient : a.OfClient)
    (hasks : ¬a.Asks w.client) :
    ∃ answer config, (∀ x, answer = some (.ok x) → x.Bare) ∧ ∀ store : Store,
      perform { w with client := { w.client with store } } a =
        (answer, { w with client := { w.client with store, config } }) := by
  have hnone (store : Store) (index : Nat) :
      session? { w with client := { w.client with store } } index = none := by
    show (w.held[index]?).join = none
    rw [hheld]
    rfl
  have hrejected {β : Type} {sql : String} {f : β → Answer} {call : Sql.Statement → ClientM β}
      (hnot : ¬(w.client.parser sql).isOk = true) : ∃ e, ∀ store : Store,
        perform.answered
            (onClient { w with client := { w.client with store } } (f <$> (parse sql >>= call))) =
          (some (.error e), { w with client := { w.client with store } }) := by
    cases hparse : w.client.parser sql with
    | error e =>
      refine ⟨.parse e, fun store => onClient_of_error (w := { w with client := _ }) f ?_⟩
      exact on_parse_bind_of_error (c := { w.client with store }) hparse call
    | ok t =>
      rw [hparse] at hnot
      exact absurd rfl hnot
  cases a with
  | prepare sql =>
    refine ⟨some (((w.client.parser sql).mapError .parse).map .statement), w.client.config, ?_,
      fun store => ?_⟩
    · intro x hx
      cases hparse : w.client.parser sql with
      | error e =>
        rw [hparse] at hx
        cases hx
      | ok t =>
        rw [hparse] at hx
        cases hx
        trivial
    · rw [perform, onClient_map]
      rfl
  | execute sql ps =>
    obtain ⟨e, hperform⟩ := hrejected fun h => hasks (.inl h)
    exact ⟨some (.error e), w.client.config, fun x hx => (by cases hx), hperform⟩
  | query sql ps receiver =>
    obtain ⟨e, hperform⟩ := hrejected fun h => hasks (.inl h)
    exact ⟨some (.error e), w.client.config, fun x hx => (by cases hx), hperform⟩
  | executeHeld index sql ps =>
    refine ⟨none, w.client.config, fun x hx => (by cases hx), fun store => ?_⟩
    rw [perform, perform.ifHeld, hnone]
  | queryHeld index sql ps receiver =>
    refine ⟨none, w.client.config, fun x hx => (by cases hx), fun store => ?_⟩
    rw [perform, perform.ifHeld, hnone]
  | configure change =>
    refine ⟨some (.ok .done), change w.client.config, ?_, fun store => rfl⟩
    intro x hx
    cases hx
    trivial
  | release index =>
    refine ⟨some (.ok (.released false)), w.client.config, ?_, fun store => ?_⟩
    · intro x hx
      cases hx
      exact rfl
    · rw [perform, Workspace.release, hnone]
      rfl
  | hold => exact absurd (.inr rfl) hasks
  | store p action => exact hclient.elim
  | setReadOnly on => exact hclient.elim
  | _ => exact absurd (.inl rfl) hasks

/-! ## Runs -/

/-- No session waits and none is held, and the store has users. -/
structure Outside (w : Workspace) : Prop where
  pool : w.client.pool = {}
  held : w.held = []
  users : w.client.store.users.isEmpty = false

/-- Doing an action dials the store. -/
def Dials (w : Workspace) (a : Action) : Prop := w.client.pool.idle = [] ∧ a.Asks w.client

/-- The workspace over a store that holds other databases. -/
def withCatalog (w : Workspace) (catalog : Catalog) : Workspace :=
  { w with client := { w.client with store := { w.client.store with catalog } } }

/-- Nobody logs in when the store is dialed in a run. -/
def NeverLogsIn (w : Workspace) : List Event → Prop
  | [] => True
  | event :: rest =>
    (∀ a, event = .act a → w.Dials a → ¬w.client.LogsIn) ∧ (w.undergo event).NeverLogsIn rest

/-- Whoever asks for a session from outside, without logging in, is turned away. -/
theorem Outside.perform_of_asks (h : w.Outside) (hasks : a.Asks w.client)
    (hlogin : ¬w.client.LogsIn) :
    ∃ e, w.client.connect = .error e ∧ w.perform a = (some (.error e), w) := by
  have hidle : w.client.pool.idle = [] := by rw [h.pool]
  cases hconnect : w.client.connect with
  | ok _ => exact absurd ((connect_eq_ok_iff h.users).1 hconnect) hlogin
  | error e => exact ⟨e, rfl, perform_of_no_session hasks (acquire_of_error hidle hconnect)⟩

/-- What an action answers to who is outside is an error or says nothing of the store, and is the same
over other databases. -/
theorem Outside.exists_answer (h : w.Outside) (hclient : a.OfClient)
    (hlogin : w.Dials a → ¬w.client.LogsIn) :
    ∃ answer, (∀ x, answer = some (.ok x) → x.Bare) ∧
      (a.Asks w.client → ∃ e, w.client.connect = .error e ∧ answer = some (.error e)) ∧
      ∀ catalog, ((w.withCatalog catalog).perform a).1 = answer := by
  have hidle : w.client.pool.idle = [] := by rw [h.pool]
  by_cases hasks : a.Asks w.client
  · obtain ⟨e, hconnect, -⟩ := h.perform_of_asks hasks (hlogin ⟨hidle, hasks⟩)
    refine ⟨some (.error e), fun x hx => (by cases hx), fun _ => ⟨e, hconnect, rfl⟩, fun catalog => ?_⟩
    have hconnect' : (w.withCatalog catalog).client.connect = .error e :=
      (connect_congr (c := w.client) rfl rfl rfl rfl rfl).trans hconnect
    rw [perform_of_no_session (w := w.withCatalog catalog) hasks (acquire_of_error hidle hconnect')]
  · obtain ⟨answer, config, hbare, hperform⟩ := perform_of_not_asks h.held hclient hasks
    refine ⟨answer, hbare, fun h => absurd h hasks, fun catalog => ?_⟩
    exact congrArg Prod.fst (hperform { w.client.store with catalog })

/-- An action leaves who is outside there, and the store as it is. -/
theorem Outside.perform (h : w.Outside) (hclient : a.OfClient)
    (hlogin : w.Dials a → ¬w.client.LogsIn) :
    (w.perform a).2.Outside ∧ (w.perform a).2.client.store = w.client.store := by
  have hidle : w.client.pool.idle = [] := by rw [h.pool]
  by_cases hasks : a.Asks w.client
  · obtain ⟨e, -, hperform⟩ := h.perform_of_asks hasks (hlogin ⟨hidle, hasks⟩)
    rw [hperform]
    exact ⟨h, rfl⟩
  · obtain ⟨answer, config, -, hperform⟩ := perform_of_not_asks h.held hclient hasks
    rw [show w.perform a = _ from hperform w.client.store]
    exact ⟨⟨h.pool, h.held, h.users⟩, rfl⟩

/-- A text cannot be read with from outside. -/
theorem Outside.on_query (h : w.Outside) (hlogin : ¬w.client.LogsIn) (sql : String)
    (parameters : List Value) (receiver : Receiver) :
    ∃ e, (query sql parameters receiver).on w.client = (.error e, w.client) := by
  cases hparse : w.client.parser sql with
  | error e => exact ⟨_, on_parse_bind_of_error hparse _⟩
  | ok t =>
    have hidle : w.client.pool.idle = [] := by rw [h.pool]
    cases hconnect : w.client.connect with
    | ok _ => exact absurd ((connect_eq_ok_iff h.users).1 hconnect) hlogin
    | error e =>
      refine ⟨e, (on_parse_bind hparse _).trans ?_⟩
      exact on_withSession_of_error (acquire_of_error hidle hconnect) _

end Workspace

/-- An event that does not work on the store past the client. What else the client meets is a store that
has users. -/
def Event.Outside : Event → Prop
  | .act a => a.OfClient
  | .meet store _ _ => store.users.isEmpty = false

namespace Workspace

open Client ClientM

variable {w : Workspace} {a : Action} {e : Failure}

theorem Outside.run {events : List Event} (h : w.Outside)
    (houtside : ∀ event ∈ events, event.Outside) (hnever : w.NeverLogsIn events) :
    (events.foldl undergo w).Outside ∧
      ((∀ event ∈ events, ∃ a, event = .act a) →
        (events.foldl undergo w).client.store = w.client.store) := by
  induction events generalizing w with
  | nil => exact ⟨h, fun _ => rfl⟩
  | cons event rest ih =>
    obtain ⟨hlogin, hnever⟩ := hnever
    have hrest : ∀ event ∈ rest, event.Outside := fun e he => houtside e (List.mem_cons_of_mem _ he)
    have hevent := houtside event List.mem_cons_self
    cases event with
    | act a =>
      obtain ⟨hafter, hstore⟩ := h.perform hevent (hlogin a rfl)
      obtain ⟨hend, hsame⟩ := ih hafter hrest hnever
      exact ⟨hend, fun hacts => (hsame fun e he => hacts e (List.mem_cons_of_mem _ he)).trans hstore⟩
    | meet store files outage =>
      obtain ⟨hend, -⟩ := ih (w := w.undergo (.meet store files outage)) ⟨h.pool, h.held, hevent⟩
        hrest hnever
      refine ⟨hend, fun hacts => ?_⟩
      obtain ⟨a, ha⟩ := hacts _ List.mem_cons_self
      cases ha

/-- As long as nobody has logged in to a store with users, no session was ever opened. Whatever is done
next without a login changes nothing in the store; if it asks for a session, it fails as the dialing
does; if it succeeds, it answers with no more than a statement that was parsed; and in any case it
answers the same as it would if the store held other databases. -/
theorem no_access_without_login (hpool : w.client.pool = {}) (hheld : w.held = [])
    (husers : w.client.store.users.isEmpty = false) {events : List Event}
    (houtside : ∀ event ∈ events, event.Outside) (hnever : w.NeverLogsIn events) {v : Workspace}
    (hrun : events.foldl undergo w = v) :
    v.client.pool = {} ∧ v.held = [] ∧
      ((∀ event ∈ events, ∃ a, event = .act a) → v.client.store = w.client.store) ∧
      (∀ a, a.OfClient → (v.Dials a → ¬v.client.LogsIn) →
        (v.perform a).2.client.store = v.client.store ∧
        (v.perform a).2.client.pool = {} ∧
        (a.Asks v.client →
          ∃ e, v.client.connect = .error e ∧ (v.perform a).1 = some (.error e)) ∧
        (∀ answer, (v.perform a).1 = some (.ok answer) → answer.Bare) ∧
        ∀ catalog, ((v.withCatalog catalog).perform a).1 = (v.perform a).1) ∧
      (¬v.client.LogsIn → ∀ (α : Type) (decode : Row → Except Failure α) sql parameters,
        (∃ e, (readAll decode sql parameters).on v.client = (.error e, v.client)) ∧
          ∃ e, (readFirst decode sql parameters).on v.client = (.error e, v.client)) := by
  have hstart : w.Outside := ⟨hpool, hheld, husers⟩
  obtain ⟨hend, hsame⟩ := hstart.run houtside hnever
  rw [hrun] at hend hsame
  refine ⟨hend.pool, hend.held, hsame, fun a hclient hlogin => ?_, fun hlogin α decode sql ps => ?_⟩
  · obtain ⟨hafter, hstore⟩ := hend.perform hclient hlogin
    obtain ⟨answer, hbare, hfails, hblind⟩ := hend.exists_answer hclient hlogin
    have hanswer : (v.perform a).1 = answer := hblind v.client.store.catalog
    rw [hanswer]
    exact ⟨hstore, hafter.pool, hfails, hbare, hblind⟩
  · obtain ⟨e, hall⟩ := hend.on_query hlogin sql ps Receiver.all
    obtain ⟨e', hone⟩ := hend.on_query hlogin sql ps Receiver.one
    exact ⟨⟨e, on_bind_of_error hall _⟩, e', on_bind_of_error hone _⟩

/-- The store of two documents, where `ada` has to log in. -/
def guardedStore : Store := { twoUsers with users := SortedMap.ofList [("ada", "secret")] }

/-- A client that knows the name of the user, and another password. -/
def stranger : Workspace :=
  { client :=
      { Workspace.local.client with
        store := guardedStore, files := fun _ => .ok "[\"ada\", \"guess\"]" } }

/-- The stranger asks for the databases, tries the credential, and tries to hold a session. -/
def attempts : List Event :=
  [.act .databases, .act (.configure fun c => { c with credentials := some "ada.json" }), .act .hold]

theorem no_access_without_login_stranger :
    stranger.client.store.users.isEmpty = false ∧ (∀ event ∈ attempts, event.Outside) ∧
      stranger.NeverLogsIn attempts ∧
      (attempts.foldl undergo stranger).client.pool = {} ∧
      (attempts.foldl undergo stranger).client.store = guardedStore ∧
      ∃ e, ((attempts.foldl undergo stranger).perform (.columns "users")).1 = some (.error e) := by
  have husers : stranger.client.store.users.isEmpty = false := rfl
  have houtside : ∀ event ∈ attempts, event.Outside := by simp [attempts, Event.Outside, Action.OfClient]
  have hfirst : ¬stranger.client.LogsIn := by
    rw [← connect_eq_ok_iff husers]
    intro h
    cases h
  have hrejected : ¬(attempts.foldl undergo stranger).client.LogsIn := by
    rw [← connect_eq_ok_iff (c := (attempts.foldl undergo stranger).client) rfl]
    have hconnect : (attempts.foldl undergo stranger).client.connect =
        .error (.loginRejected "127.0.0.1:27017") := rfl
    rw [hconnect]
    intro h
    cases h
  have hnever : stranger.NeverLogsIn attempts := by
    refine ⟨fun _ _ _ => hfirst, fun a ha hdials => ?_, fun _ _ _ => hrejected, trivial⟩
    cases ha
    rcases hdials with ⟨-, hneeds | hhold⟩
    · cases hneeds
    · cases hhold
  obtain ⟨hpool, -, hstore, hactions, -⟩ :=
    no_access_without_login (w := stranger) rfl rfl husers houtside hnever rfl
  obtain ⟨-, -, hfails, -, -⟩ := hactions (.columns "users") trivial fun _ => hrejected
  obtain ⟨e, -, hanswer⟩ := hfails (.inl rfl)
  exact ⟨husers, houtside, hnever, hpool, hstore (by simp [attempts]), e, hanswer⟩

end Workspace

end Schemaless
