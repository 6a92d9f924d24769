import Schemaless.Proofs.Client.Atomicity
import Schemaless.Proofs.Client.Sessions
import Schemaless.Proofs.Store.Keys
import Schemaless.Proofs.Store.Locality

/-!
# Statements on different tables

A statement runs with a session, one of its own or one that is held, and then does its work on the
store. Whether there is a session depends on the pool, on the configuration and on who may log in, and on
no database (`Workspace.grant`); so two pieces of work find the same sessions in either order
(`Workspace.grant_after`). With `StoreM.ActsAt.eitherOrder` for the store, two statements on different
tables come to the same workspace in either order, unless both need a generated key.
-/

namespace Schemaless

open Sql

variable {α : Type}

/-! ## A session for a piece of work -/

namespace Client

open ClientM

variable {c : Client} {pool : Pool}

/-- The pool after work with a session of its own, or why there is no session. -/
def lent (c : Client) : Except Failure Pool :=
  if c.pool.idle.isEmpty then
    c.connect.map fun _ => c.pool.dial.2.release c.config.maxPoolSize c.pool.dial.1
  else .ok c.pool

theorem on_withSession_of_store {work : ClientM α} {m : StoreM α}
    (hwork : ∀ pool, work.on { c with pool } = (onStore m).on { c with pool })
    (hle : c.pool.idle.length ≤ c.config.maxPoolSize) :
    (withSession work).on c =
      match c.lent with
      | .error e => (.error e, c)
      | .ok pool => ((m.on c.store).1, { c with pool, store := (m.on c.store).2 }) := by
  have hlent : c.lent = if c.pool.idle.isEmpty then
      c.connect.map fun _ => c.pool.dial.2.release c.config.maxPoolSize c.pool.dial.1
    else .ok c.pool := rfl
  rw [on_withSession]
  rcases acquire_outcome c with ⟨s, rest, hidle, hacquire⟩ | ⟨hidle, hconnect, hacquire⟩ |
      ⟨e, hidle, hconnect, hacquire⟩ <;> rw [hacquire]
  · rw [hlent, hidle]
    show ((work.on { c with pool := { c.pool with idle := rest } }).1,
      (work.on { c with pool := { c.pool with idle := rest } }).2.release s) = _
    rw [hwork, on_onStore, Client.release, Pool.release_of_idle hidle hle]
    rfl
  · rw [hlent, hidle, hconnect]
    show ((work.on { c with pool := c.pool.dial.2 }).1,
      (work.on { c with pool := c.pool.dial.2 }).2.release c.pool.dial.1) = _
    rw [hwork]
    rfl
  · rw [hlent, hidle, hconnect]
    rfl

theorem length_idle_of_lent (hle : c.pool.idle.length ≤ c.config.maxPoolSize)
    (h : c.lent = .ok pool) : pool.idle.length ≤ c.config.maxPoolSize := by
  unfold lent at h
  split at h
  · next hidle =>
    cases hconnect : c.connect with
    | error e =>
      rw [hconnect] at h
      cases h
    | ok _ =>
      rw [hconnect] at h
      cases h
      rw [Pool.length_idle_dial_release (List.isEmpty_iff.1 hidle)]
      exact Nat.min_le_right _ _
  · cases h
    exact hle

theorem lent_of_connect (h : c.connect = .ok ()) : ∃ pool, c.lent = .ok pool := by
  unfold lent
  rw [h]
  split
  · exact ⟨_, rfl⟩
  · exact ⟨_, rfl⟩

/-- Whoever got a session gets one again. -/
theorem exists_lent_of_lent (h : c.lent = .ok pool) : ∃ both, lent { c with pool } = .ok both := by
  have hcases := h
  unfold lent at hcases
  split at hcases
  · cases hconnect : c.connect with
    | error e =>
      rw [hconnect] at hcases
      cases hcases
    | ok _ => exact lent_of_connect hconnect
  · cases hcases
    exact ⟨c.pool, h⟩

end Client

/-- How work comes to a session: to one of its own, or to one that is held. -/
inductive Access where
  | own
  | held (index : Nat)

namespace Workspace

/-- The workspace with another pool and another store. -/
def after (w : Workspace) (pool : Pool) (store : Store) : Workspace :=
  { w with client := { w.client with pool, store } }

/-- The pool after work with a session, or what is answered if there is none. -/
def grant (w : Workspace) : Access → Except (Option (Except Failure Answer)) Pool
  | .own => w.client.lent.mapError fun e => some (.error e)
  | .held index => if (w.session? index).isSome then .ok w.client.pool else .error none

/-- Work on the store with a session; without one nothing is done. -/
def work (w : Workspace) (access : Access) (m : StoreM Answer) :
    Option (Except Failure Answer) × Workspace :=
  match w.grant access with
  | .error answer => (answer, w)
  | .ok pool => (some (m.on w.client.store).1, w.after pool (m.on w.client.store).2)

variable {w : Workspace} {a b : Access} {pool pool' : Pool} {s : Store}

/-- The databases do not matter for a session. -/
theorem grant_after (haddress : s.address = w.client.store.address)
    (husers : s.users = w.client.store.users) :
    (w.after pool s).grant a = (w.after pool w.client.store).grant a := by
  cases a with
  | held index => rfl
  | own =>
    have hconnect : (w.after pool s).client.connect = (w.after pool w.client.store).client.connect :=
      Client.connect_congr rfl rfl rfl haddress husers
    simp only [grant, Client.lent, hconnect]
    rfl

theorem grant_own_eq_ok : w.grant .own = .ok pool ↔ w.client.lent = .ok pool := by
  rw [grant]
  cases w.client.lent <;> simp [Except.mapError]

theorem grant_held_eq_ok {index : Nat} :
    w.grant (.held index) = .ok pool ↔ (w.session? index).isSome ∧ pool = w.client.pool := by
  rw [grant]
  split
  · next hheld => exact ⟨fun h => ⟨hheld, (Except.ok.inj h).symm⟩, fun h => congrArg Except.ok h.2.symm⟩
  · next hnone =>
    constructor
    · intro h
      cases h
    · exact fun h => absurd h.1 hnone

/-- Work that finds a session does not keep the other work from one, and the two sessions come to the
same pool in either order. -/
theorem grant_both (ha : w.grant a = .ok pool) (hb : w.grant b = .ok pool') :
    ∃ both, (w.after pool w.client.store).grant b = .ok both ∧
      (w.after pool' w.client.store).grant a = .ok both := by
  cases a with
  | own =>
    cases b with
    | own =>
      have hsame : pool' = pool := Except.ok.inj (hb.symm.trans ha)
      obtain ⟨both, hboth⟩ := Client.exists_lent_of_lent (grant_own_eq_ok.1 ha)
      subst hsame
      exact ⟨both, grant_own_eq_ok.2 hboth, grant_own_eq_ok.2 hboth⟩
    | held index =>
      obtain ⟨hheld, rfl⟩ := grant_held_eq_ok.1 hb
      exact ⟨pool, grant_held_eq_ok.2 ⟨hheld, rfl⟩, ha⟩
  | held index =>
    obtain ⟨hheld, rfl⟩ := grant_held_eq_ok.1 ha
    exact ⟨pool', hb, grant_held_eq_ok.2 ⟨by cases b <;> exact hheld, rfl⟩⟩

/-- Work that finds no session finds none after other work. -/
theorem grant_error {answer : Option (Except Failure Answer)} (ha : w.grant a = .ok pool)
    (hb : w.grant b = .error answer) : (w.after pool w.client.store).grant b = .error answer := by
  cases b with
  | held index =>
    rw [grant] at hb ⊢
    split at hb
    · cases hb
    · next hnone => exact (if_neg hnone).trans hb
  | own =>
    cases a with
    | held index =>
      obtain ⟨-, rfl⟩ := grant_held_eq_ok.1 ha
      exact hb
    | own =>
      rw [ha] at hb
      cases hb

theorem work_of_ok {m : StoreM Answer} (h : w.grant a = .ok pool) :
    w.work a m = (some (m.on w.client.store).1, w.after pool (m.on w.client.store).2) := by
  rw [work, h]

theorem work_of_error {m : StoreM Answer} {answer : Option (Except Failure Answer)}
    (h : w.grant a = .error answer) : w.work a m = (answer, w) := by
  rw [work, h]

/-- Work at two places comes to the same in either order, through whatever sessions. -/
theorem eitherOrder_work {spends spends' : Prop} {p q : Place} {m n : StoreM Answer}
    (hm : m.ActsAt spends p) (hn : n.ActsAt spends' q) (hne : p ≠ q) (hone : ¬(spends ∧ spends'))
    (hs : w.client.store.catalog.Inhabited) :
    EitherOrder (fun w => w.work a m) (fun w => w.work b n) w := by
  have hgrant_b (pool : Pool) : (w.after pool (m.on w.client.store).2).grant b =
      (w.after pool w.client.store).grant b :=
    grant_after (hm.changes w.client.store).address (hm.changes w.client.store).users
  have hgrant_a (pool : Pool) : (w.after pool (n.on w.client.store).2).grant a =
      (w.after pool w.client.store).grant a :=
    grant_after (hn.changes w.client.store).address (hn.changes w.client.store).users
  obtain ⟨hsecond, hfirst, hstore⟩ := hm.eitherOrder hn hne hone hs
  cases ha : w.grant a with
  | error answer =>
    cases hb : w.grant b with
    | error answer' =>
      exact .of_runs (work_of_error ha) (work_of_error hb) (work_of_error hb) (work_of_error ha)
    | ok pool' =>
      have ha' := (hgrant_a pool').trans (grant_error hb ha)
      exact .of_runs (work_of_error ha) (work_of_ok hb) (work_of_ok hb) (work_of_error ha')
  | ok pool =>
    cases hb : w.grant b with
    | error answer' =>
      have hb' := (hgrant_b pool).trans (grant_error ha hb)
      exact .of_runs (work_of_ok ha) (work_of_error hb) (work_of_error hb') (work_of_ok ha)
    | ok pool' =>
      obtain ⟨both, hboth_b, hboth_a⟩ := grant_both ha hb
      have ha' := work_of_ok (m := m) ((hgrant_a pool').trans hboth_a)
      have hb' := work_of_ok (m := n) ((hgrant_b pool).trans hboth_b)
      refine .of_runs (work_of_ok ha) (work_of_ok hb) (hb'.trans (Prod.ext ?_ rfl))
        (ha'.trans (Prod.ext ?_ ?_))
      · exact congrArg some hsecond
      · exact congrArg some hfirst
      · exact congrArg (w.after both) hstore.symm

end Workspace

/-! ## Actions that run a statement -/

/-- What is answered to who reads with a statement. -/
def Sql.Statement.reading (c : Config) (t : Statement) (ps : List Value) (receiver : Receiver) :
    StoreM Delivery := do
  let s ← get
  Effect.ofExcept ((select c t ps s).map (deliver receiver 1))

/-- What running a statement does to a store, and what it answers. -/
inductive Sql.Statement.Work (c : Config) (t : Statement) (ps : List Value) : StoreM Answer → Prop
  | modifying : Work c t ps (Answer.affected <$> modify c t ps)
  | reading (receiver : Receiver) : Work c t ps (Answer.delivery <$> t.reading c ps receiver)

theorem Sql.Statement.Work.actsAt {c : Config} {t : Statement} {ps : List Value} {m : StoreM Answer}
    (h : t.Work c ps m) : m.ActsAt (t.DrawsKey c ps) (t.place c) := by
  cases h with
  | modifying => exact actsAt_modify.map _
  | reading receiver =>
    refine StoreM.ActsAt.map (.still (fun _ => rfl) fun s s' h => ?_) _
    show (select c t ps s').map _ = (select c t ps s).map _
    rw [select_of_agreeAt h]

/-- An action that runs a statement with parameters. Its text is parsed, or the statement was before. -/
inductive Action.Runs (parser : String → Except ParseFault Statement) (t : Statement)
    (ps : List Value) : Action → Prop
  | execute {sql : String} (h : parser sql = .ok t) : Runs parser t ps (.execute sql ps)
  | executeStatement : Runs parser t ps (.executeStatement t ps)
  | executeHeld (index : Nat) {sql : String} (h : parser sql = .ok t) :
      Runs parser t ps (.executeHeld index sql ps)
  | query {sql : String} (h : parser sql = .ok t) (receiver : Receiver) :
      Runs parser t ps (.query sql ps receiver)
  | queryStatement (receiver : Receiver) : Runs parser t ps (.queryStatement t ps receiver)
  | queryHeld (index : Nat) {sql : String} (h : parser sql = .ok t) (receiver : Receiver) :
      Runs parser t ps (.queryHeld index sql ps receiver)

namespace Workspace

open Client ClientM

variable {w : Workspace} {t : Statement} {ps : List Value} {sql : String}

theorem onClient_withSession {m : ClientM α} {call : ClientM α} {work : StoreM α} (f : α → Answer)
    (hcall : call.on w.client = (withSession m).on w.client)
    (hwork : ∀ pool, m.on { w.client with pool } = (onStore work).on { w.client with pool })
    (hle : w.client.pool.idle.length ≤ w.client.config.maxPoolSize) :
    perform.answered (w.onClient (f <$> call)) = w.work .own (f <$> work) := by
  rw [onClient_map, hcall, on_withSession_of_store hwork hle, Workspace.work, grant]
  cases w.client.lent with
  | error e => rfl
  | ok pool =>
    simp only [Except.mapError, Effect.on_map]
    rfl

theorem onClient_held {call : ClientM α} {work : StoreM α} (f : α → Answer) (index : Nat)
    (hcall : call.on w.client = (onStore work).on w.client) :
    perform.ifHeld w index (w.onClient (f <$> call)) = w.work (.held index) (f <$> work) := by
  rw [onClient_map, hcall, on_onStore, Workspace.work, grant, perform.ifHeld]
  cases w.session? index with
  | none => rfl
  | some s =>
    simp only [Option.isSome_some, if_true, Effect.on_map]
    rfl

/-- An action that runs a statement does the statement's work, with some session. -/
theorem exists_work {parser : String → Except ParseFault Statement} {a : Action} (c : Config)
    (h : a.Runs parser t ps) :
    ∃ access, ∃ m, t.Work c ps m ∧ ∀ w : Workspace, w.client.config = c → w.client.parser = parser →
      w.client.pool.idle.length ≤ w.client.config.maxPoolSize → w.perform a = w.work access m := by
  cases h with
  | executeStatement =>
    refine ⟨.own, _, .modifying, fun w hc _ hle => ?_⟩
    subst hc
    exact onClient_withSession _ rfl (fun _ => on_modifyStore _ t ps) hle
  | execute h =>
    refine ⟨.own, _, .modifying, fun w hc hparser hle => ?_⟩
    subst hc hparser
    exact onClient_withSession _ (on_parse_bind h _) (fun _ => on_modifyStore _ t ps) hle
  | executeHeld index h =>
    refine ⟨.held index, _, .modifying, fun w hc hparser _ => ?_⟩
    subst hc hparser
    exact onClient_held _ index ((on_parse_bind h _).trans (on_modifyStore _ t ps))
  | queryStatement receiver =>
    refine ⟨.own, _, .reading receiver, fun w hc _ hle => ?_⟩
    subst hc
    exact onClient_withSession _ rfl (fun _ => rfl) hle
  | query h receiver =>
    refine ⟨.own, _, .reading receiver, fun w hc hparser hle => ?_⟩
    subst hc hparser
    exact onClient_withSession _ (on_parse_bind h _) (fun _ => rfl) hle
  | queryHeld index h receiver =>
    refine ⟨.held index, _, .reading receiver, fun w hc hparser _ => ?_⟩
    subst hc hparser
    exact onClient_held _ index (on_parse_bind h _)

/-- After work with a session the next action meets the same configuration, the same parser and no more
sessions than may wait. -/
theorem work_keeps (access : Access) (m : StoreM Answer)
    (hle : w.client.pool.idle.length ≤ w.client.config.maxPoolSize) :
    (w.work access m).2.client.config = w.client.config ∧
      (w.work access m).2.client.parser = w.client.parser ∧
      (w.work access m).2.client.pool.idle.length ≤ w.client.config.maxPoolSize := by
  cases hgrant : w.grant access with
  | error answer =>
    rw [work_of_error hgrant]
    exact ⟨rfl, rfl, hle⟩
  | ok pool =>
    rw [work_of_ok hgrant]
    refine ⟨rfl, rfl, ?_⟩
    cases access with
    | own => exact length_idle_of_lent hle (grant_own_eq_ok.1 hgrant)
    | held index =>
      obtain ⟨-, rfl⟩ := grant_held_eq_ok.1 hgrant
      exact hle

end Workspace

/-! ## Two statements -/

/-- In every store that is reached, two statements on different tables, of which one at most needs a
generated key, have the same results in either order and come to the same store; and run by a client,
with sessions of their own or with held ones, they come to the same client. -/
theorem statements_commute {s : Store} (hs : s.Reachable) {c : Config} {t u : Statement}
    {ps qs : List Value} (htables : t.table ≠ u.table)
    (hone : ¬(t.DrawsKey c ps ∧ u.DrawsKey c qs)) :
    (∀ m n, t.Work c ps m → u.Work c qs n → EitherOrder m.on n.on s) ∧
      ∀ (w : Workspace) (a b : Action), w.client.store = s → w.client.config = c →
        w.client.pool.idle.length ≤ w.client.config.maxPoolSize → a.Runs w.client.parser t ps →
        b.Runs w.client.parser u qs →
        EitherOrder (fun w => w.perform a) (fun w => w.perform b) w := by
  have hplaces : t.place c ≠ u.place c := fun h => htables (congrArg Place.collection h)
  refine ⟨fun m n hm hn => hm.actsAt.eitherOrder hn.actsAt hplaces hone hs.sound.inhabited, ?_⟩
  rintro w a b rfl rfl hle ha hb
  obtain ⟨access, m, hm, hperform⟩ := Workspace.exists_work w.client.config ha
  obtain ⟨access', n, hn, hperform'⟩ := Workspace.exists_work w.client.config hb
  obtain ⟨hconfig, hparser, hle'⟩ := Workspace.work_keeps access m hle
  obtain ⟨hconfig', hparser', hle''⟩ := Workspace.work_keeps access' n hle
  have hboth : EitherOrder (fun w => w.work access m) (fun w => w.work access' n) w :=
    Workspace.eitherOrder_work hm.actsAt hn.actsAt hplaces hone hs.sound.inhabited
  have hthen := hperform' _ hconfig hparser (hconfig ▸ hle')
  have hthen' := hperform _ hconfig' hparser' (hconfig' ▸ hle'')
  unfold EitherOrder
  simp only [hperform w rfl rfl hle, hperform' w rfl rfl hle, hthen, hthen']
  exact hboth

/-- `INSERT INTO notes(text) VALUES(?)`. -/
def insertNote : Statement :=
  { kind := .insert, table := "notes", columns := [{ name := "text", expression := some "?" }],
    placeholders := 1 }

/-- A user goes and a note comes, or the note comes and the user goes. -/
theorem statements_commute_twoUsers :
    twoUsers.Reachable ∧ deleteUser.table ≠ insertNote.table ∧
      ¬deleteUser.DrawsKey localClient.config [.ofInt 1] ∧
      EitherOrder (fun w : Workspace => w.perform (.executeStatement deleteUser [.ofInt 1]))
        (fun w => w.perform (.executeStatement insertNote [.str "Hello"]))
        { client := localClient } := by
  have hkeeps : ¬deleteUser.DrawsKey localClient.config [.ofInt 1] := by
    rintro ⟨d, ⟨hkind, -⟩, -⟩
    cases hkind
  have htables : deleteUser.table ≠ insertNote.table := by decide
  obtain ⟨-, hclient⟩ := statements_commute reachable_twoUsers htables fun h => hkeeps h.1
  exact ⟨reachable_twoUsers, htables, hkeeps,
    hclient { client := localClient } _ _ rfl rfl (Nat.zero_le _) .executeStatement .executeStatement⟩

end Schemaless
