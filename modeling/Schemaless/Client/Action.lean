import Schemaless.Client.Schema
import Schemaless.Client.Upsert

/-!
# Runs of a client

A workspace is a client together with the sessions that its user holds. An action is anything the
user can do with it: run statements, write records, ask for names, hold and release sessions, change
the configuration, and work on the store itself, past the client. `perform` does one action and
`run` a list of them.
-/

namespace Schemaless

/-- A client, and the sessions held, by the order in which they were taken. -/
structure Workspace where
  client : Client
  held : List (Option Session) := []

/-- Work on the store past the client. -/
inductive StoreAction where
  | insert (documents : List Document)
  | replace (filter : Predicate) (document : Document)
  | remove (filter : Predicate)
  | drop
  | count
  | find (filter : Option Predicate)
  | snapshot (filter : Option Predicate) (documents : List Document)

/-- Something the user of a workspace does. -/
inductive Action where
  | prepare (sql : String)
  | execute (sql : String) (parameters : List Value)
  | executeStatement (s : Sql.Statement) (parameters : List Value)
  | executeHeld (index : Nat) (sql : String) (parameters : List Value)
  | query (sql : String) (parameters : List Value) (receiver : Receiver)
  | queryStatement (s : Sql.Statement) (parameters : List Value) (receiver : Receiver)
  | queryHeld (index : Nat) (sql : String) (parameters : List Value) (receiver : Receiver)
  | persist (table : String) (records : List Value)
  | columns (table : String)
  | databases
  | tables (database : String)
  | dropTable (database table : String)
  | configure (change : Config → Config)
  | setReadOnly (on : Bool)
  | hold
  | release (index : Nat)
  | store (place : Place) (action : StoreAction)

/-- What an action answers when it does not fail. -/
inductive Answer where
  | done
  | affected (n : Nat)
  | tally (t : Tally)
  | delivery (d : Delivery)
  | statement (s : Sql.Statement)
  | columns (columns : List SampledColumn)
  | names (names : List String)
  | documents (documents : List Document)
  | snapshot (seen : List Document) (count : Nat)
  | holding (index : Nat) (database : String)
  | released (wasHeld : Bool)

/-- Does work on the store past the client. -/
def StoreAction.perform (p : Place) : StoreAction → StoreM Answer
  | insert documents => (fun _ => .done) <$> Store.insertAll p documents
  | replace filter document => .affected <$> Store.replace p filter document
  | remove filter => .affected <$> Store.remove p filter
  | drop => (fun _ => .done) <$> Store.drop p
  | count => do pure (.affected ((← get).count p))
  | find filter => do pure (.documents ((← get).find p filter))
  | snapshot filter documents => do
    let seen := (← get).find p filter
    Store.insertAll p documents
    pure (.snapshot seen ((← get).count p))

namespace Workspace

/-- The session held under an index. -/
def session? (w : Workspace) (index : Nat) : Option Session := (w.held[index]?).join

/-- Does work of the client. -/
def onClient (w : Workspace) (m : ClientM Answer) : Except Failure Answer × Workspace :=
  let (r, client) := m.on w.client
  (r, { w with client })

/-- Takes a session and holds it. -/
def hold (w : Workspace) : Except Failure Answer × Workspace :=
  match ClientM.acquire.on w.client with
  | (.error e, client) => (.error e, { w with client })
  | (.ok s, client) =>
    (.ok (.holding w.held.length client.config.database),
      { client, held := w.held ++ [some s] })

/-- Gives the session held under an index back, if there is one. -/
def release (w : Workspace) (index : Nat) : Except Failure Answer × Workspace :=
  match w.session? index with
  | none => (.ok (.released false), w)
  | some s =>
    (.ok (.released true), { client := w.client.release s, held := w.held.set index none })

/-- Does one action; nothing is answered to one that asks for a session not held. -/
def perform (w : Workspace) : Action → Option (Except Failure Answer) × Workspace
  | .prepare sql => w.onClient (.statement <$> ClientM.parse sql) |> answered
  | .execute sql ps => w.onClient (.affected <$> Client.execute sql ps) |> answered
  | .executeStatement s ps => w.onClient (.affected <$> Client.executeStatement s ps) |> answered
  | .executeHeld index sql ps =>
    ifHeld index (w.onClient (.affected <$> Client.executeHeld sql ps))
  | .query sql ps receiver => w.onClient (.delivery <$> Client.query sql ps receiver) |> answered
  | .queryStatement s ps receiver =>
    w.onClient (.delivery <$> Client.queryStatement s ps receiver) |> answered
  | .queryHeld index sql ps receiver =>
    ifHeld index (w.onClient (.delivery <$> Client.queryHeld sql ps receiver))
  | .persist table records => w.onClient (.tally <$> Client.persist table records) |> answered
  | .columns table => w.onClient (.columns <$> Client.columns table) |> answered
  | .databases => w.onClient (.names <$> Client.databases) |> answered
  | .tables database => w.onClient (.names <$> Client.tables database) |> answered
  | .dropTable database table =>
    w.onClient ((fun _ => .done) <$> Client.dropTable database table) |> answered
  | .configure change =>
    (some (.ok .done), { w with client := { w.client with config := change w.client.config } })
  | .setReadOnly on =>
    (some (.ok .done),
      { w with client := { w.client with store := { w.client.store with readOnly := on } } })
  | .hold => answered w.hold
  | .release index => answered (w.release index)
  | .store p action => w.onClient (ClientM.onStore (action.perform p)) |> answered
where
  /-- What was answered. -/
  answered (r : Except Failure Answer × Workspace) : Option (Except Failure Answer) × Workspace :=
    (some r.1, r.2)
  /-- What is answered if a session is held. -/
  ifHeld (index : Nat) (r : Except Failure Answer × Workspace) :
      Option (Except Failure Answer) × Workspace :=
    match w.session? index with
    | some _ => answered r
    | none => (none, w)

/-- The workspace after a list of actions. -/
def run (w : Workspace) : List Action → Workspace
  | [] => w
  | a :: rest => run (w.perform a).2 rest

end Workspace

end Schemaless
