import Schemaless.Proofs.Store.Reachable
import Mathlib.Data.List.Nodup
import Mathlib.Data.List.ReduceOption

/-!
# The sessions of a client

Every session that was ever dialed is held by the user, waits in the pool or is closed, and is only one
of them (`Pool.Accounts`). Whatever is done keeps the account, because sessions are dialed, taken and
released one at a time (`Workspace.Sound.undergo`). What an action can do to a workspace is said once
(`Workspace.Outcome`). A call that needs a session of its own takes it, works, and gives it back however
the work ends; the work touches nothing of the client but the store. So the pool is as it was, or has one
more session if none was waiting (`Client.Lends`, `Workspace.lends_perform`).
-/

namespace Schemaless

/-! ## The account of a pool -/

namespace Pool

variable {p q : Pool} {s : Session} {held held' : List Session} {max : Nat}

/-- The sessions held, waiting and closed are those dialed so far, each of them once. -/
def Accounts (held : List Session) (p : Pool) : Prop :=
  (held ++ (p.idle ++ p.closed)).Perm ((List.range p.dialed).map Session.mk)

theorem accounts_new : Accounts [] {} := .nil

theorem Accounts.perm (h : p.Accounts held) (hperm : held'.Perm held) : p.Accounts held' :=
  (hperm.append_right _).trans h

theorem Accounts.nodup (h : p.Accounts held) : (held ++ (p.idle ++ p.closed)).Nodup := by
  have hdialed : ((List.range p.dialed).map Session.mk).Nodup :=
    List.nodup_range.map fun m n hmn => congrArg Session.number hmn
  exact h.nodup_iff.2 hdialed

theorem Accounts.dialed_eq (h : p.Accounts held) :
    p.dialed = held.length + p.idle.length + p.closed.length := by
  have hlength := h.length_eq
  simp only [List.length_append, List.length_map, List.length_range] at hlength
  omega

theorem Accounts.take {rest : List Session} (h : p.Accounts held) (hidle : p.idle = s :: rest) :
    { p with idle := rest }.Accounts (s :: held) := by
  unfold Accounts at h ⊢
  rw [hidle] at h
  exact List.perm_middle.symm.trans h

theorem Accounts.dial (h : p.Accounts held) : p.dial.2.Accounts (p.dial.1 :: held) := by
  unfold Accounts at h ⊢
  have hrange : (List.range (p.dialed + 1)).map Session.mk =
      (List.range p.dialed).map Session.mk ++ [⟨p.dialed⟩] := by
    rw [List.range_succ, List.map_append, List.map_singleton]
  show (⟨p.dialed⟩ :: (held ++ (p.idle ++ p.closed))).Perm ((List.range (p.dialed + 1)).map Session.mk)
  rw [hrange]
  exact (h.cons _).trans (List.perm_append_singleton _ _).symm

theorem Accounts.release (h : p.Accounts (s :: held)) : (p.release max s).Accounts held := by
  unfold Accounts Pool.release at *
  split
  · exact List.perm_middle.trans h
  · have hclosed : (p.idle ++ s :: p.closed).Perm (s :: (p.idle ++ p.closed)) := List.perm_middle
    exact ((hclosed.append_left held).trans List.perm_middle).trans h

/-- A session that waited goes back to where it was. -/
theorem release_of_idle {rest : List Session} (hidle : p.idle = s :: rest)
    (hle : p.idle.length ≤ max) : { p with idle := rest }.release max s = p := by
  obtain ⟨idle, dialed, closed⟩ := p
  subst hidle
  exact if_pos hle

theorem dialed_release (p : Pool) (max : Nat) (s : Session) : (p.release max s).dialed = p.dialed := by
  unfold release
  split <;> rfl

theorem length_idle_dial_release (hidle : p.idle = []) :
    (p.dial.2.release max p.dial.1).idle.length = min 1 max := by
  have hnone : p.dial.2.idle.length = 0 := congrArg List.length hidle
  unfold release
  rw [hnone]
  split
  · next hpos =>
    show p.idle.length + 1 = _
    rw [hidle]
    exact (Nat.min_eq_left hpos).symm
  · next hzero =>
    show p.idle.length = _
    rw [hidle]
    simp
    omega

end Pool

/-! ## Calls of a client -/

/-- Work that changes nothing of a client but its store. -/
def Client.OnlyStore (c c' : Client) : Prop := c' = { c with store := c'.store }

instance : Std.Refl Client.OnlyStore := ⟨fun _ => rfl⟩

instance : IsTrans Client Client.OnlyStore :=
  ⟨fun c d e (h : d = _) (h' : e = _) => by rw [Client.OnlyStore, h', h]⟩

/-- What a call that needs a session makes of a client, however the call ends. -/
inductive Client.Lends (c : Client) : Client → Prop
  | waiting (store : Store) : c.pool.idle ≠ [] → Lends c { c with store }
  | dialed (store : Store) : c.pool.idle = [] → c.connect = .ok () →
      Lends c { c with store, pool := c.pool.dial.2.release c.config.maxPoolSize c.pool.dial.1 }
  | failed : c.pool.idle = [] → c.connect ≠ .ok () → Lends c c

namespace ClientM

open Client

variable {α : Type} {c : Client}

theorem acquire_outcome (c : Client) :
    (∃ s rest, c.pool.idle = s :: rest ∧
        acquire.on c = (.ok s, { c with pool := { c.pool with idle := rest } })) ∨
      (c.pool.idle = [] ∧ c.connect = .ok () ∧
        acquire.on c = (.ok c.pool.dial.1, { c with pool := c.pool.dial.2 })) ∨
      ∃ e, c.pool.idle = [] ∧ c.connect = .error e ∧ acquire.on c = (.error e, c) := by
  have hacquire : acquire.on c = acquire c := rfl
  rw [hacquire]
  unfold acquire Pool.take?
  cases c.pool.idle with
  | cons s rest => exact .inl ⟨s, rest, rfl, rfl⟩
  | nil =>
    cases hconnect : c.connect with
    | ok _ => exact .inr (.inl ⟨rfl, rfl, rfl⟩)
    | error e => exact .inr (.inr ⟨e, rfl, rfl, rfl⟩)

/-- However the work ends, its session is given back. -/
theorem lends_withSession {work : ClientM α} (hwork : work.Moves OnlyStore)
    (hle : c.pool.idle.length ≤ c.config.maxPoolSize) : c.Lends ((withSession work).on c).2 := by
  have hafter (pool : Pool) : ∃ store, (work.on { c with pool }).2 = { c with pool, store } :=
    ⟨_, hwork { c with pool }⟩
  rw [on_withSession]
  rcases acquire_outcome c with ⟨s, rest, hidle, hacquire⟩ | ⟨hidle, hconnect, hacquire⟩ |
      ⟨e, hidle, hconnect, hacquire⟩ <;> rw [hacquire]
  · obtain ⟨store, hstore⟩ := hafter { c.pool with idle := rest }
    show c.Lends ((work.on { c with pool := { c.pool with idle := rest } }).2.release s)
    rw [hstore, Client.release, Pool.release_of_idle hidle hle]
    exact .waiting store (by simp [hidle])
  · obtain ⟨store, hstore⟩ := hafter c.pool.dial.2
    show c.Lends ((work.on { c with pool := c.pool.dial.2 }).2.release c.pool.dial.1)
    rw [hstore]
    exact .dialed store hidle hconnect
  · exact .failed hidle (by simp [hconnect])

theorem onlyStore_onStore (m : StoreM α) : (onStore m).Moves OnlyStore := fun _ => rfl

/-- A text that is a statement is a call of its own. -/
theorem lends_parse {sql : String} {call : Sql.Statement → ClientM α}
    (hparsed : (c.parser sql).isOk = true) (hcall : ∀ t, c.Lends ((call t).on c).2) :
    c.Lends ((parse sql >>= call).on c).2 := by
  cases hparse : c.parser sql with
  | error e =>
    rw [hparse] at hparsed
    cases hparsed
  | ok t =>
    rw [on_parse_bind hparse]
    exact hcall t

/-- What is done with the rows after a call takes no session. -/
theorem lends_bind {β : Type} {call : ClientM α} {f : α → ClientM β} (hcall : c.Lends (call.on c).2)
    (hf : ∀ a c, ((f a).on c).2 = c) : c.Lends ((call >>= f).on c).2 := by
  rw [Effect.on_bind]
  rcases hrun : call.on c with ⟨e | a, d⟩ <;> rw [hrun] at hcall
  · exact hcall
  · rwa [show ((f a).on d).2 = d from hf a d]

theorem onlyStore_modifyStore (t : Sql.Statement) (parameters : List Value) :
    (modifyStore t parameters).Moves OnlyStore :=
  Effect.moves_get.bind fun _ => onlyStore_onStore _

theorem lends_query {sql : String} (hparsed : (c.parser sql).isOk = true) (parameters : List Value)
    (receiver : Receiver) (hle : c.pool.idle.length ≤ c.config.maxPoolSize) :
    c.Lends ((query sql parameters receiver).on c).2 :=
  lends_parse hparsed fun t => lends_withSession (moves_deliverRows t parameters receiver) hle

theorem lends_readAll {sql : String} (decode : Row → Except Failure α)
    (hparsed : (c.parser sql).isOk = true) (parameters : List Value)
    (hle : c.pool.idle.length ≤ c.config.maxPoolSize) :
    c.Lends ((readAll decode sql parameters).on c).2 :=
  lends_bind (lends_query hparsed parameters _ hle) fun _ _ => rfl

theorem lends_readFirst {sql : String} (decode : Row → Except Failure α)
    (hparsed : (c.parser sql).isOk = true) (parameters : List Value)
    (hle : c.pool.idle.length ≤ c.config.maxPoolSize) :
    c.Lends ((readFirst decode sql parameters).on c).2 := by
  refine lends_bind (lends_query hparsed parameters _ hle) fun d c => ?_
  cases d.rows with
  | nil => rfl
  | cons row _ => exact congrArg Prod.snd (Effect.on_map some (Effect.ofExcept (decode row)) c)

end ClientM

/-! ## Actions -/

/-- Whether an action of a client's user needs a session of its own. A text that is no statement needs
none. -/
def Action.needsSession (c : Client) : Action → Bool
  | .execute sql _ => (c.parser sql).isOk
  | .query sql _ _ => (c.parser sql).isOk
  | .executeStatement _ _ => true
  | .queryStatement _ _ _ => true
  | .persist _ _ => true
  | .columns _ => true
  | .databases => true
  | .tables _ => true
  | .dropTable _ _ => true
  | _ => false

/-- An action of the client's user, not work on the store past the client. -/
def Action.OfClient : Action → Prop
  | .store _ _ => False
  | .setReadOnly _ => False
  | _ => True

namespace Workspace

open Client ClientM

variable {w : Workspace} {limit : Nat}

/-- The sessions that the user holds. -/
def sessions (w : Workspace) : List Session := w.held.reduceOption

theorem onClient_map {α : Type} (w : Workspace) (f : α → Answer) (m : ClientM α) :
    w.onClient (f <$> m) = ((m.on w.client).1.map f, { w with client := (m.on w.client).2 }) := by
  show (((f <$> m).on w.client).1, { w with client := ((f <$> m).on w.client).2 }) = _
  rw [Effect.on_map]

theorem onClient_map_withSession {α : Type} (f : α → Answer) (work : ClientM α) :
    w.onClient (f <$> withSession work) = w.onClient (withSession (f <$> work)) := by
  rw [onClient_map]
  show _ = (((withSession (f <$> work)).on w.client).1,
    { w with client := ((withSession (f <$> work)).on w.client).2 })
  rw [on_withSession, on_withSession]
  rcases acquire.on w.client with ⟨e | s, c⟩
  · rfl
  · simp only [Effect.on_map]

theorem onClient_map_get_bind {α : Type} (f : α → Answer) (work : Client → ClientM α) :
    w.onClient (f <$> (get >>= work)) = w.onClient (f <$> work w.client) := by
  rw [onClient_map, onClient_map, Effect.on_bind, Effect.on_get]

/-- What an action makes of a workspace, where the work of its user keeps to `R`. -/
inductive Outcome (R : Client → Client → Prop) (w : Workspace) : Action → Workspace → Prop where
  /-- The action works with a session of its own. -/
  | borrowed {a : Action} (work : ClientM Answer) (hneeds : a.needsSession w.client = true)
      (hwork : work.Moves R) :
      Outcome R w a { w with client := ((withSession work).on w.client).2 }
  /-- The action works with a session that is held. -/
  | held {a : Action} {index : Nat} {s : Session} {c : Client}
      (hneeds : a.needsSession w.client = false) (hheld : w.session? index = some s)
      (hwork : R w.client c) : Outcome R w a { w with client := c }
  /-- There is no statement to run, or no session under the index. -/
  | nothing {a : Action} (hneeds : a.needsSession w.client = false) : Outcome R w a w
  /-- The action works on the store past the client. -/
  | past {a : Action} (store : Store) (hneeds : a.needsSession w.client = false)
      (hpast : ¬a.OfClient) : Outcome R w a { w with client := { w.client with store } }
  | configure (change : Config → Config) :
      Outcome R w (.configure change)
        { w with client := { w.client with config := change w.client.config } }
  | hold : Outcome R w .hold w.hold.2
  | release (index : Nat) : Outcome R w (.release index) (w.release index).2

section

variable {R : Client → Client → Prop} [Std.Refl R] [IsTrans Client R]
  (hmodify : ∀ t parameters, (modifyStore t parameters).Moves R)

include hmodify

section

variable (hdrop : ∀ p table, (onStore ((Store.drop p).onTable table)).Moves R)

include hdrop

/-- An action that needs a session of its own does all its work with it. Whatever modifying statements
and the dropping of a table keep to, the work keeps to. -/
theorem exists_withSession {a : Action} (hneeds : a.needsSession w.client = true) :
    ∃ work : ClientM Answer, work.Moves R ∧
      w.perform a = perform.answered (w.onClient (withSession work)) := by
  have hcall {α : Type} {work : ClientM α} (f : α → Answer) (hwork : work.Moves R) :
      ∃ work' : ClientM Answer, work'.Moves R ∧
        perform.answered (w.onClient (f <$> withSession work)) =
          perform.answered (w.onClient (withSession work')) :=
    ⟨f <$> work, hwork.map f, by rw [onClient_map_withSession]⟩
  have hparsed {α : Type} {sql : String} {work : Sql.Statement → ClientM α} (f : α → Answer)
      (hwork : ∀ t, (work t).Moves R) (hok : (w.client.parser sql).isOk = true) :
      ∃ work' : ClientM Answer, work'.Moves R ∧
        perform.answered (w.onClient (f <$> (parse sql >>= fun t => withSession (work t)))) =
          perform.answered (w.onClient (withSession work')) := by
    cases hparse : w.client.parser sql with
    | error e =>
      rw [hparse] at hok
      cases hok
    | ok t =>
      obtain ⟨work', hwork', hsame⟩ := hcall f (hwork t)
      refine ⟨work', hwork', ?_⟩
      rw [← hsame, onClient_map, onClient_map, on_parse_bind hparse]
  cases a with
  | execute sql ps => exact hparsed .affected (fun t => hmodify t ps) hneeds
  | executeStatement t ps => exact hcall .affected (hmodify t ps)
  | query sql ps receiver => exact hparsed .delivery (fun t => moves_deliverRows t ps receiver) hneeds
  | queryStatement t ps receiver => exact hcall .delivery (moves_deliverRows t ps receiver)
  | persist table records =>
    rw [perform, persist, onClient_map_get_bind]
    exact hcall .tally (moves_persistRecords hmodify table _ records {})
  | columns table =>
    rw [perform, columns, onClient_map_get_bind]
    exact hcall .columns (Effect.moves_get.bind fun _ => Effect.moves_pure _)
  | databases => exact hcall .names (Effect.moves_get.bind fun _ => Effect.moves_pure _)
  | tables database => exact hcall .names (Effect.moves_get.bind fun _ => Effect.moves_pure _)
  | dropTable database table => exact hcall (fun _ => .done) (hdrop ⟨database, table⟩ table)
  | _ => cases hneeds

end

/-- An action that needs no session of its own works with one that is held, if it does any work of the
client. -/
theorem outcome_without_session {a : Action} (hneeds : a.needsSession w.client = false) :
    w.Outcome R a (w.perform a).2 := by
  have hunparsed {α : Type} {sql : String} {work : Sql.Statement → ClientM α} (f : α → Answer)
      (hnone : (w.client.parser sql).isOk = false) :
      (w.onClient (f <$> (parse sql >>= work))).2 = w := by
    cases hparse : w.client.parser sql with
    | ok t =>
      rw [hparse] at hnone
      cases hnone
    | error e => rw [onClient_map, on_parse_bind_of_error hparse]
  have hheld {a : Action} {α : Type} {index : Nat} {m : ClientM α} (f : α → Answer)
      (hneeds : a.needsSession w.client = false) (hwork : m.Moves R) :
      w.Outcome R a (perform.ifHeld w index (w.onClient (f <$> m))).2 := by
    unfold perform.ifHeld
    cases hsession : w.session? index with
    | none => exact .nothing hneeds
    | some s =>
      show w.Outcome R a (w.onClient (f <$> m)).2
      rw [onClient_map]
      exact .held hneeds hsession (hwork w.client)
  cases a with
  | hold => exact .hold
  | release index => exact .release index
  | configure change => exact .configure change
  | prepare sql =>
    rw [perform, perform.answered, onClient_map]
    exact .nothing rfl
  | execute sql ps =>
    rw [perform, perform.answered, execute, hunparsed _ hneeds]
    exact .nothing hneeds
  | query sql ps receiver =>
    rw [perform, perform.answered, query, hunparsed _ hneeds]
    exact .nothing hneeds
  | executeHeld index sql ps => exact hheld .affected rfl (moves_executeHeld hmodify sql ps)
  | queryHeld index sql ps receiver =>
    exact hheld .delivery rfl (Effect.moves_of_still (queryHeld_still sql ps receiver))
  | setReadOnly on => exact .past { w.client.store with readOnly := on } rfl id
  | store p action => exact .past ((action.perform p).on w.client.store).2 rfl id
  | _ => cases hneeds

variable (hdrop : ∀ p table, (onStore ((Store.drop p).onTable table)).Moves R)

include hdrop

theorem outcome_perform (w : Workspace) (a : Action) : w.Outcome R a (w.perform a).2 := by
  cases hneeds : a.needsSession w.client with
  | false => exact outcome_without_session hmodify hneeds
  | true =>
    obtain ⟨work, hwork, hperform⟩ := exists_withSession hmodify hdrop hneeds
    rw [hperform]
    exact .borrowed work hneeds hwork

end

theorem exists_withSession_onlyStore {a : Action} (hneeds : a.needsSession w.client = true) :
    ∃ work : ClientM Answer, work.Moves OnlyStore ∧
      w.perform a = perform.answered (w.onClient (withSession work)) :=
  exists_withSession onlyStore_modifyStore (fun _ _ => onlyStore_onStore _) hneeds

/-- A call with a session of its own gives it back, whatever becomes of the call. -/
theorem lends_perform {a : Action} (hneeds : a.needsSession w.client = true)
    (hle : w.client.pool.idle.length ≤ w.client.config.maxPoolSize) :
    ∃ c, (w.perform a).2 = { w with client := c } ∧ w.client.Lends c := by
  obtain ⟨work, hwork, hperform⟩ := exists_withSession_onlyStore hneeds
  rw [hperform]
  exact ⟨_, rfl, lends_withSession hwork hle⟩

/-- An action without a session of its own holds one, releases one, or leaves the sessions alone. -/
theorem perform_without_session {a : Action} (hneeds : a.needsSession w.client = false) :
    a = .hold ∨ (∃ index, a = .release index) ∨ (∃ change, a = .configure change) ∨
      ∃ store, (w.perform a).2 = { w with client := { w.client with store } } := by
  have houtcome := outcome_without_session onlyStore_modifyStore hneeds
  generalize (w.perform a).2 = v at houtcome ⊢
  cases houtcome with
  | borrowed work hneeds' _ =>
    rw [hneeds] at hneeds'
    cases hneeds'
  | held _ _ hwork => exact .inr (.inr (.inr ⟨_, congrArg (fun client => { w with client }) hwork⟩))
  | nothing => exact .inr (.inr (.inr ⟨w.client.store, rfl⟩))
  | past store => exact .inr (.inr (.inr ⟨store, rfl⟩))
  | configure change => exact .inr (.inr (.inl ⟨change, rfl⟩))
  | hold => exact .inl rfl
  | release index => exact .inr (.inl ⟨index, rfl⟩)

end Workspace

/-! ## Runs -/

/-- What happens to a workspace: its user does something, or what its client meets changes. Then others
have worked on the store, credentials have moved, and dialing begins to fail or succeeds again. -/
inductive Event where
  | act (a : Action)
  | meet (store : Store) (files : Files) (outage : Option String)

/-- Whether an event leaves the number of sessions that may wait at `limit`. -/
def Event.KeepsLimit (limit : Nat) : Event → Prop
  | .act (.configure change) => ∀ c, c.maxPoolSize = limit → (change c).maxPoolSize = limit
  | _ => True

namespace Workspace

open Client ClientM

variable {w : Workspace} {limit : Nat}

/-- The workspace after an event. -/
def undergo (w : Workspace) : Event → Workspace
  | .act a => (w.perform a).2
  | .meet store files outage => { w with client := { w.client with store, files, outage } }

/-- The sessions are accounted for, and no more of them wait than may. -/
structure Sound (limit : Nat) (w : Workspace) : Prop where
  limit_eq : w.client.config.maxPoolSize = limit
  idle_le : w.client.pool.idle.length ≤ limit
  accounts : w.client.pool.Accounts w.sessions

theorem Sound.idle_le_config (h : w.Sound limit) :
    w.client.pool.idle.length ≤ w.client.config.maxPoolSize := by
  rw [h.limit_eq]
  exact h.idle_le

theorem Sound.lends (h : w.Sound limit) {c : Client} (hlends : w.client.Lends c) :
    Sound limit { w with client := c } := by
  cases hlends with
  | waiting store _ => exact ⟨h.limit_eq, h.idle_le, h.accounts⟩
  | failed => exact h
  | dialed store hidle _ =>
    refine ⟨h.limit_eq, ?_, h.accounts.dial.release⟩
    show (w.client.pool.dial.2.release w.client.config.maxPoolSize w.client.pool.dial.1).idle.length ≤ _
    rw [Pool.length_idle_dial_release hidle, h.limit_eq]
    exact Nat.min_le_right 1 limit

theorem Sound.hold (h : w.Sound limit) : Sound limit w.hold.2 := by
  have hperm (s : Session) : ((w.held ++ [some s]).reduceOption).Perm (s :: w.sessions) := by
    rw [List.reduceOption_append]
    exact List.perm_append_singleton s _
  unfold Workspace.hold
  rcases acquire_outcome w.client with ⟨s, rest, hidle, hacquire⟩ | ⟨hidle, -, hacquire⟩ |
      ⟨e, -, -, hacquire⟩ <;> rw [hacquire]
  · have hle : rest.length + 1 ≤ limit := by
      have hle := h.idle_le
      rwa [hidle] at hle
    exact ⟨h.limit_eq, Nat.le_of_succ_le hle, (h.accounts.take hidle).perm (hperm s)⟩
  · exact ⟨h.limit_eq, h.idle_le, h.accounts.dial.perm (hperm _)⟩
  · exact h

theorem perm_reduceOption_set {l : List (Option Session)} {index : Nat} {s : Session}
    (h : l[index]? = some (some s)) :
    (s :: (l.set index none).reduceOption).Perm l.reduceOption := by
  induction l generalizing index with
  | nil => cases h
  | cons o l ih =>
    cases index with
    | zero =>
      cases h
      exact .refl _
    | succ index =>
      have hrest := ih (show l[index]? = some (some s) from h)
      cases o with
      | none => exact hrest
      | some t => exact (List.Perm.swap t s _).trans (hrest.cons t)

theorem Sound.release (h : w.Sound limit) (index : Nat) : Sound limit (w.release index).2 := by
  unfold Workspace.release
  cases hsession : w.session? index with
  | none => exact h
  | some s =>
    have haccounts : w.client.pool.Accounts (s :: (w.held.set index none).reduceOption) :=
      h.accounts.perm (perm_reduceOption_set (Option.join_eq_some_iff.1 hsession))
    have hle := Pool.length_idle_release_le w.client.pool limit s h.idle_le
    exact ⟨h.limit_eq, by simpa only [Client.release, h.limit_eq] using hle, haccounts.release⟩

/-- Every event keeps the sessions accounted for. -/
theorem Sound.undergo (h : w.Sound limit) {event : Event} (hkeep : event.KeepsLimit limit) :
    Sound limit (w.undergo event) := by
  cases event with
  | meet store files outage => exact ⟨h.limit_eq, h.idle_le, h.accounts⟩
  | act a =>
    show Sound limit (w.perform a).2
    cases hneeds : a.needsSession w.client with
    | true =>
      obtain ⟨c, hafter, hlends⟩ := lends_perform hneeds h.idle_le_config
      rw [hafter]
      exact h.lends hlends
    | false =>
      rcases perform_without_session hneeds with rfl | ⟨index, rfl⟩ | ⟨change, rfl⟩ | ⟨store, hafter⟩
      · exact h.hold
      · exact h.release index
      · exact ⟨hkeep _ h.limit_eq, h.idle_le, h.accounts⟩
      · rw [hafter]
        exact ⟨h.limit_eq, h.idle_le, h.accounts⟩

theorem Sound.run (h : w.Sound limit) {events : List Event}
    (hkeep : ∀ event ∈ events, event.KeepsLimit limit) :
    Sound limit (events.foldl Workspace.undergo w) := by
  induction events generalizing w with
  | nil => exact h
  | cons event rest ih =>
    exact ih (h.undergo (hkeep event List.mem_cons_self)) fun e he => hkeep e (List.mem_cons_of_mem _ he)

/-- Sessions under two indices are two sessions. -/
theorem Sound.index_eq (h : w.Sound limit) {i j : Nat} {s : Session} (hi : w.session? i = some s)
    (hj : w.session? j = some s) : i = j := by
  have hnodup : w.held.reduceOption.Nodup := (List.nodup_append.1 h.accounts.nodup).1
  rw [List.reduceOption, List.Nodup, List.pairwise_filterMap, List.pairwise_iff_getElem] at hnodup
  have hget {i : Nat} (hi : w.session? i = some s) :
      ∃ hlt : i < w.held.length, w.held[i] = some s :=
    List.getElem?_eq_some_iff.1 (Option.join_eq_some_iff.1 hi)
  obtain ⟨hilt, hi⟩ := hget hi
  obtain ⟨hjlt, hj⟩ := hget hj
  rcases Nat.lt_trichotomy i j with hlt | heq | hlt
  · exact absurd rfl (hnodup i j hilt hjlt hlt s hi s hj)
  · exact heq
  · exact absurd rfl (hnodup j i hjlt hilt hlt s hj s hi)

/-- What the sessions are after a call that needs one of its own: the user holds what was held before,
and the pool is the same, but for a session dialed because none was waiting. -/
structure GivesBack (limit : Nat) (w v : Workspace) : Prop where
  held : v.held = w.held
  waiting : w.client.pool.idle ≠ [] → v.client.pool = w.client.pool
  dialed : w.client.pool.idle = [] → w.client.connect = .ok () →
    v.client.pool.dialed = w.client.pool.dialed + 1 ∧ v.client.pool.idle.length = min 1 limit
  failed : w.client.pool.idle = [] → w.client.connect ≠ .ok () → v.client.pool = w.client.pool

theorem Sound.givesBack (h : w.Sound limit) {c : Client} (hlends : w.client.Lends c) :
    w.GivesBack limit { w with client := c } := by
  cases hlends with
  | waiting store hwaits =>
    exact ⟨rfl, fun _ => rfl, fun hnone => absurd hnone hwaits, fun hnone => absurd hnone hwaits⟩
  | dialed store hidle hconnect =>
    refine ⟨rfl, fun hwaits => absurd hidle hwaits, fun _ _ => ⟨?_, ?_⟩,
      fun _ hnot => absurd hconnect hnot⟩
    · exact Pool.dialed_release w.client.pool.dial.2 _ _
    · rw [Pool.length_idle_dial_release hidle, h.limit_eq]
  | failed hidle hconnect =>
    exact ⟨rfl, fun _ => rfl, fun _ hok => absurd hok hconnect, fun _ _ => rfl⟩

/-- In every run, with whatever faults, the sessions dialed are those held, waiting and closed, none of
them twice, and no more wait than may. At every point of it, each call gives the session back that it
takes, and what needs no session, but for holding and releasing, touches none. -/
theorem sessions_accounted (hpool : w.client.pool = {}) (hheld : w.held = [])
    (hlimit : w.client.config.maxPoolSize = limit) {events : List Event}
    (hkeep : ∀ event ∈ events, event.KeepsLimit limit) {v : Workspace}
    (hrun : events.foldl undergo w = v) :
    v.client.pool.idle.length ≤ limit ∧
      v.client.pool.dialed =
        v.sessions.length + v.client.pool.idle.length + v.client.pool.closed.length ∧
      (∀ i s, v.session? i = some s → s ∉ v.client.pool.idle ∧ s ∉ v.client.pool.closed) ∧
      (∀ i j s, v.session? i = some s → v.session? j = some s → i = j) ∧
      (∀ a, a.needsSession v.client = true → v.GivesBack limit (v.perform a).2) ∧
      (∀ (α : Type) (decode : Row → Except Failure α) sql parameters, (v.client.parser sql).isOk = true →
        v.GivesBack limit { v with client := ((readAll decode sql parameters).on v.client).2 } ∧
          v.GivesBack limit { v with client := ((readFirst decode sql parameters).on v.client).2 }) ∧
      ∀ a, a.needsSession v.client = false → a ≠ .hold → (∀ index, a ≠ .release index) →
        (v.perform a).2.held = v.held ∧ (v.perform a).2.client.pool = v.client.pool := by
  have hstart : w.Sound limit := by
    refine ⟨hlimit, ?_, ?_⟩
    · rw [hpool]
      exact Nat.zero_le _
    · rw [hpool, sessions, hheld]
      exact Pool.accounts_new
  have hsound : v.Sound limit := hrun ▸ hstart.run hkeep
  refine ⟨hsound.idle_le, hsound.accounts.dialed_eq, ?_, fun i j s => hsound.index_eq, ?_, ?_, ?_⟩
  · intro i s hs
    have hmem : s ∈ v.sessions := by
      rw [sessions, List.reduceOption_mem_iff]
      exact List.mem_of_getElem? (Option.join_eq_some_iff.1 hs)
    have hother : s ∉ v.client.pool.idle ++ v.client.pool.closed :=
      (List.nodup_append'.1 hsound.accounts.nodup).2.2 hmem
    rwa [List.mem_append, not_or] at hother
  · intro a hneeds
    obtain ⟨c, hafter, hlends⟩ := lends_perform hneeds hsound.idle_le_config
    rw [hafter]
    exact hsound.givesBack hlends
  · intro α decode sql parameters hparsed
    exact ⟨hsound.givesBack (lends_readAll decode hparsed parameters hsound.idle_le_config),
      hsound.givesBack (lends_readFirst decode hparsed parameters hsound.idle_le_config)⟩
  · intro a hneeds hhold hrelease
    rcases perform_without_session hneeds with rfl | ⟨index, rfl⟩ | ⟨change, rfl⟩ | ⟨store, hafter⟩
    · exact absurd rfl hhold
    · exact absurd rfl (hrelease index)
    · exact ⟨rfl, rfl⟩
    · rw [hafter]
      exact ⟨rfl, rfl⟩

/-- Two sessions are held and released, and then the store is gone. -/
def heldTwice : List Event :=
  [.act .hold, .act .hold, .act (.release 0), .act (.release 1), .meet { address := "" } noFiles (some "down")]

theorem sessions_accounted_heldTwice :
    (∀ event ∈ heldTwice, event.KeepsLimit 1) ∧
      (heldTwice.foldl undergo Workspace.local).GivesBack 1
        ((heldTwice.foldl undergo Workspace.local).perform .databases).2 ∧
      (heldTwice.foldl undergo Workspace.local).client.pool =
        { idle := [⟨0⟩], dialed := 2, closed := [⟨1⟩] } := by
  have hkeep : ∀ event ∈ heldTwice, event.KeepsLimit 1 := by simp [heldTwice, Event.KeepsLimit]
  have hlimit : Workspace.local.client.config.maxPoolSize = 1 := rfl
  obtain ⟨-, -, -, -, hcalls, -, -⟩ := sessions_accounted rfl rfl hlimit hkeep rfl
  exact ⟨hkeep, hcalls .databases rfl, rfl⟩

end Workspace

end Schemaless
